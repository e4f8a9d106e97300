import ServiceBindings.Proofs.Draft.History

/-!
# A type is spelled the same forever

Once a session has spelled a type, every later draft of the session knows what the spelling depends
on: the module of a named declaration and that it was requested, or the name of a type without one.
So the type is spelled the same from then on, whatever name is preferred, and spelling it changes
nothing but that a scalar without a spelling is reported again.
-/

namespace ServiceBindings

open Draft Drafting

namespace Job

variable (job : Job)

/-! ### What is reported -/

/-- Reports of scalars go on from draft to draft. -/
theorem composes_reports (kinds : List DiagnosticKind) : Composes (Reports kinds) where
  refl _ := .of_same rfl
  trans := Reports.trans

theorem spellDeclaration_reports (kinds : List DiagnosticKind) (id : TypeId) (path : ModulePath) :
  Stays (Reports kinds) (job.spellDeclaration id path)
  := by
  have hR := composes_reports kinds
  apply hR.bind
  · unfold declarationName
    split
    case h_1 => apply hR.pure
    case h_2 => apply hR.throw
  · intro name
    apply hR.bind
    · intro d
      obtain ⟨modules, places, hkeeps⟩ := job.placeOf_keeps id d
      rw [hkeeps]
      apply Reports.of_same rfl
    · intro m
      apply hR.bind (hR.pathOf m)
      intro target
      apply hR.bind_pure
      intro d
      apply Reports.of_same rfl

theorem spellAnonymous_reports (kinds : List DiagnosticKind) (id : TypeId) (path : ModulePath)
    (preferred : String) :
  Stays (Reports kinds) (spellAnonymous id path preferred)
  := by
  apply (composes_reports kinds).bind_pure
  intro d
  rw [anonymousName, exec_get_bind]
  split
  case h_1 => apply Reports.of_same rfl
  case h_2 => split <;> apply Reports.of_same rfl

theorem spellCore_reports (id : TypeId) (span : Option Span) (use : TypeUse) (path : ModulePath)
    (preferred : String) :
  Stays (Reports [.unrecognizedScalar]) (job.spellCore id span use path preferred)
  := by
  have hR := composes_reports [.unrecognizedScalar]
  have hdeclaration := job.spellDeclaration_reports [.unrecognizedScalar] id path
  have hanonymous := spellAnonymous_reports [.unrecognizedScalar] id path preferred
  unfold spellCore
  split
  case h_1 => apply hR.throw
  case h_2 kind _ =>
    cases kind with
    | scalar _ =>
        dsimp only
        unfold spellScalar
        split
        case h_1 => apply hR.pure
        case h_2 =>
          apply hR.bind_pure
          intro d
          exact ⟨[_], rfl, by simp [Diagnostic.make]⟩
    | record _ | union _ =>
        dsimp only
        split
        case isTrue => apply hR.bind_pure hanonymous
        case isFalse => apply hR.bind_pure hdeclaration
    | enum _ | interface _ => apply hR.bind_pure hdeclaration
    | array _ | map _ | literal _ => apply hR.throw
    | intrinsic _ => apply hR.pure

/-- Spelling a type reports nothing but scalars without a spelling. -/
theorem spell_reports (id : TypeId) (span : Option Span) (use : TypeUse) (path : ModulePath)
    (preferred : String) :
  Stays (Reports [.unrecognizedScalar]) (job.spell id span use path preferred)
  := by
  have hR := composes_reports [.unrecognizedScalar]
  unfold spell
  split
  case h_1 => apply hR.throw
  case h_2 => apply spellCore_reports
  case h_3 => apply hR.bind_pure (job.spellCore_reports _ _ _ _ _)

/-! ### What is settled -/

variable {job} {d e : Draft}

/-- Once a type without a name has been spelled, the preferred name does not matter. -/
theorem spellAnonymous_settled {id : TypeId} {path : ModulePath} {preferred text : String}
    (h : exec (spellAnonymous id path preferred) d = (.ok text, e)) (other : String) :
  Settled (spellAnonymous id path other) e text
  := by
  obtain ⟨name, d', hname, h⟩ := exec_bind_eq_ok.mp h
  cases h
  have hlookup := anonymousName_eq_ok hname
  apply Settled.of_unchanged
  intro f hf
  apply exec_bind_of_ok (e := f)
  rw [anonymousName, exec_get_bind, hf.anonymous _ _ hlookup]
  rfl

/-- Once a scalar has been spelled, its place does not matter. -/
theorem spellScalar_settled {id : TypeId} {span : Option Span} {use : TypeUse} {text : String}
    (h : exec (job.spellScalar id span use) d = (.ok text, e)) (place : Option Span) :
  Settled (job.spellScalar id place use) e text
  := by
  unfold spellScalar at h ⊢
  split at h
  case h_1 spelling hspelling =>
    cases h
    apply Settled.pure
  case h_2 hspelling =>
    cases h
    intro f _
    exact ⟨[_], rfl⟩

/-- Once a type that is neither an array nor a map has been spelled, neither its place nor the
preferred name matters. -/
theorem spellCore_settled (hd : Placed d) {id : TypeId} {span : Option Span} {use : TypeUse}
    {path : ModulePath} {preferred text : String}
    (h : exec (job.spellCore id span use path preferred) d = (.ok text, e)) (place : Option Span)
    (other : String) :
  Settled (job.spellCore id place use path other) e text
  := by
  unfold spellCore at h ⊢
  split at h
  case h_1 => cases h
  case h_2 kind hkind =>
    have hdeclared := job.spellDeclaration_steady (TypeGraph.declares_of_kind? hkind) path
    cases kind with
    | scalar _ => apply spellScalar_settled h
    | record _ | union _ =>
        dsimp only at h ⊢
        split at h
        case isTrue hname =>
          obtain ⟨reference, d', hreference, h⟩ := exec_bind_eq_ok.mp h
          cases h
          rw [if_pos hname]
          apply (spellAnonymous_settled hreference other).bind_pure
        case isFalse hname =>
          rw [if_neg hname]
          apply (hdeclared.bind_pure _).settled hd h
    | enum _ | interface _ => apply (hdeclared.bind_pure _).settled hd h
    | array _ | map _ | literal _ => cases h
    | intrinsic _ =>
        cases h
        apply Settled.pure

/-- Once a type has been spelled, neither its place nor the preferred name matters. -/
theorem spell_settled (hd : Placed d) {id : TypeId} {span : Option Span} {use : TypeUse}
    {path : ModulePath} {preferred text : String}
    (h : exec (job.spell id span use path preferred) d = (.ok text, e)) (place : Option Span)
    (other : String) :
  Settled (job.spell id place use path other) e text
  := by
  unfold spell at h ⊢
  split at h
  case h_1 => cases h
  case h_2 => apply spellCore_settled hd h
  case h_3 =>
    obtain ⟨part, d', hpart, h⟩ := exec_bind_eq_ok.mp h
    cases h
    apply (spellCore_settled hd hpart place _).bind_pure

/-! ### Every later draft -/

/-- A type is spelled the same forever: once a session has spelled it, each later draft of the
session spells it in the same way, whatever name is preferred, and is left as it is, but for further
reports of scalars without a spelling. -/
theorem spell_forever (hd : job.Session d) {id : TypeId} {span : Option Span} {use : TypeUse}
    {cursor : ModulePath} {preferred text : String}
    (h : exec (job.spell id span use cursor preferred) d = (.ok text, e)) {f : Draft}
    (hf : Moves job.graph e f) (place : Option Span) (other : String) :
  ∃ problems, exec (job.spell id place use cursor other) f = (.ok text, f.reported problems)
    ∧ ∀ problem ∈ problems, problem.kind = .unrecognizedScalar
  := by
  have hplaced := (Session.anchored hd).toPlaced
  obtain ⟨problems, hexec⟩ := spell_settled hplaced h place other f hf.later
  use problems, hexec
  obtain ⟨reported, hdiagnostics, hkinds⟩ :=
    (job.spell_reports id place use cursor other).exec hexec
  obtain rfl : problems = reported := List.append_cancel_left hdiagnostics
  intro problem hproblem
  apply List.mem_singleton.mp (hkinds problem hproblem)

/-- A record without a name, and a map of such records. -/
def labelGraph : TypeGraph := {
  namespaces := [{ name := "" }]
  types := [{ kind := .record {} }, { kind := .map ⟨0⟩ }] }

/-- The job over the graph with the map. -/
def labelJob : Job := { graph := labelGraph, service := { root := .global }, config := {} }

/-- The map that was spelled after a failed call keeps the name of its values, whatever is asked for
afterwards. -/
theorem spell_forever_label :
  ∃ d e, labelJob.Session d
    ∧ exec (labelJob.spell ⟨1⟩ none .borrowed ⟨["models", "all"]⟩ "label") d
      = (.ok "&::std::collections::HashMap<String, super::synthetic::LabelValue>", e)
    ∧ ∀ later other, ∃ problems,
      exec (labelJob.spell ⟨1⟩ none .borrowed ⟨["models", "all"]⟩ other) (labelJob.replay later e)
        = (.ok "&::std::collections::HashMap<String, super::synthetic::LabelValue>",
          (labelJob.replay later e).reported problems)
      ∧ ∀ problem ∈ problems, problem.kind = .unrecognizedScalar
  := by
  have hsession := labelJob.session_replay [.spell ⟨0⟩ none .owned .root ""]
  have hspelled := exec_eq_of_ok (show
    (exec (labelJob.spell ⟨1⟩ none .borrowed ⟨["models", "all"]⟩ "label")
      (labelJob.replay [.spell ⟨0⟩ none .owned .root ""] .start)).1
      = .ok "&::std::collections::HashMap<String, super::synthetic::LabelValue>" by decide +kernel)
  refine ⟨_, _, hsession, hspelled, ?_⟩
  intro later other
  have hmoves := ((labelJob.spell_steady _ _ _ _ _).growth hspelled).moves
  have hfounded := (Session.anchored (hsession.trans hmoves)).toFounded
  apply spell_forever hsession hspelled (labelJob.history_replay later hfounded).moves

end Job

end ServiceBindings
