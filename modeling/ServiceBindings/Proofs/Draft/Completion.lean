import Mathlib.Data.List.Perm.Subperm
import ServiceBindings.Compile
import ServiceBindings.Proofs.Draft.Surface

/-!
# Completion

The drafts that a run passes through: it writes what waits, one declaration after the other, until
nothing waits, and with an HTTP surface it does so a second time.  A graph has only so many types,
namespaces and operations, so what may still come to wait is bounded, and it gets less with each
declaration that is written.  So the bound that the run works with is never met.
-/

namespace ServiceBindings

open Draft Drafting

/-! ### How much there is to write -/

namespace Draft

variable {graph : TypeGraph} {d e : Draft}

/-- A draft accepts at most one declaration for each type and each namespace. -/
theorem Consistent.accepted_length_le (h : Consistent graph d) :
  d.declarations.items.length ≤ graph.types.length + graph.namespaces.length
  := by
  have hsubset : d.declarations.items
      ⊆ graph.typeIds.map .type ++ graph.namespaceIds.map .operations := by
    intro declaration hdeclaration
    have hdeclares := h.declares declaration hdeclaration
    rw [List.mem_append, List.mem_map, List.mem_map]
    cases declaration with
    | type id =>
        apply Or.inl
        use id
        refine ⟨List.mem_map.mpr ⟨id.index, List.mem_range.mpr hdeclares, rfl⟩, rfl⟩
    | operations id =>
        apply Or.inr
        use id
        refine ⟨List.mem_map.mpr ⟨id.index, List.mem_range.mpr hdeclares, rfl⟩, rfl⟩
  have hlength := (h.accepted_nodup.subperm hsubset).length_le
  simpa [TypeGraph.typeIds, TypeGraph.namespaceIds] using hlength

/-- A draft names each type at most once. -/
theorem Consistent.anonymous_length_le (h : Consistent graph d) :
  d.anonymous.length ≤ graph.types.length
  := by
  have hsubset : d.anonymous.map (·.1) ⊆ graph.typeIds := by
    intro id hid
    obtain ⟨entry, hentry, rfl⟩ := List.mem_map.mp hid
    apply List.mem_map.mpr
    use entry.1.index, List.mem_range.mpr (h.anonymous_declares entry hentry)
  have hlength := (h.anonymous_nodup.subperm hsubset).length_le
  simpa [TypeGraph.typeIds] using hlength

/-- A draft names at most two subsets for each operation. -/
theorem Consistent.subsets_length_le (h : Consistent graph d) :
  d.subsets.length ≤ 2 * graph.operationCount
  := by
  have hsubset : d.subsets.map (·.1) ⊆ graph.everyOperation.flatMap fun operation =>
      [(operation.returnType, operation.sideName graph false),
        (operation.returnType, operation.sideName graph true)] := by
    intro key hkey
    obtain ⟨⟨⟨id, name⟩, given⟩, hentry, rfl⟩ := List.mem_map.mp hkey
    obtain ⟨_, operation, hoperation, union, errors, hid, -, -, hname, -⟩ :=
      h.subsets_returned _ hentry
    rw [List.mem_flatMap]
    use operation, hoperation
    obtain rfl : operation.returnType = id := hid
    obtain rfl : name = operation.sideName graph errors := hname
    cases errors <;> simp
  have hlength := (h.subsets_nodup.subperm hsubset).length_le
  simpa [List.length_flatMap, TypeGraph.everyOperation, TypeGraph.operationCount, Nat.mul_add,
    Nat.mul_comm] using hlength

/-- What waits in a draft, and what may still come to wait. -/
def potential (graph : TypeGraph) (d : Draft) : Nat :=
  d.declarations.pending.length + d.synthetics.length
    + (graph.types.length + graph.namespaces.length - d.declarations.items.length)
    + (graph.types.length - d.anonymous.length) + (2 * graph.operationCount - d.subsets.length)

/-- What comes to wait was expected to. -/
theorem Change.potential_le (hchange : Change graph d e) (h : Consistent graph d) :
  e.potential graph ≤ d.potential graph
  := by
  have he := hchange.consistent h
  have haccepted := he.accepted_length_le
  have hanonymous := he.anonymous_length_le
  have hsubsets := he.subsets_length_le
  cases hchange with
  | @request declaration _ =>
      by_cases hknown : declaration ∈ d.declarations.items
      · apply Nat.le_of_eq
        rw [Worklist.add_of_mem hknown]
      · rw [Worklist.add_of_not_mem hknown, Worklist.append, List.length_append] at haccepted
        rw [Worklist.add_of_not_mem hknown, potential, potential, Worklist.pending_append,
          Worklist.append]
        simp only [List.length_append, List.length_singleton] at haccepted ⊢
        omega
  | nameAnonymous _ _ _ =>
      simp only [Draft.nameAnonymous, nameSynthetic, List.length_cons] at hanonymous
      simp only [potential, Draft.nameAnonymous, nameSynthetic, List.length_cons,
        List.length_append, List.length_nil]
      omega
  | nameSubset _ _ =>
      simp only [Draft.nameSubset, nameSynthetic, List.length_cons] at hsubsets
      simp only [potential, Draft.nameSubset, nameSynthetic, List.length_cons,
        List.length_append, List.length_nil]
      omega
  | openModule hid _ =>
      rw [openModule_of_new hid]
      apply Nat.le_refl
  | _ => apply Nat.le_refl

theorem Growth.potential_le (hgrowth : Growth graph d e) (h : Consistent graph d) :
  e.potential graph ≤ d.potential graph
  := by
  induction hgrowth with
  | refl => apply Nat.le_refl
  | tail hgrowth hchange ih =>
      apply Nat.le_trans (hchange.potential_le (Growth.consistent hgrowth h)) ih

/-- Whether nothing waits in a draft. -/
def IsComplete (d : Draft) : Prop :=
  d.declarations.pending = [] ∧ d.synthetics = []

/-- Handing out a declaration keeps a draft consistent. -/
theorem Consistent.take (h : Consistent graph d) {declaration : DeclarationRef}
    {rest : Worklist DeclarationRef} (htake : d.declarations.take? = some (declaration, rest)) :
  Consistent graph { d with declarations := rest }
  := by
  have haccepted := Worklist.items_take? htake
  refine { h with accepted_nodup := ?_, declares := ?_ }
  · rw [haccepted]
    apply h.accepted_nodup
  · rw [haccepted]
    apply h.declares

end Draft

/-! ### The drafts of a run -/

namespace Job

variable (job : Job)

/-- One declaration is written: the oldest one that waits, or the oldest synthetic one if no other
waits. -/
inductive Writes : Draft → Draft → Prop where
  | declaration {d e : Draft} {declaration : DeclarationRef} {rest : Worklist DeclarationRef} :
      d.declarations.take? = some (declaration, rest) →
      exec (job.writeDeclaration declaration) { d with declarations := rest } = (.ok (), e) →
      Writes d e
  | synthetic {d e : Draft} {synthetic : Synthetic} {rest : List Synthetic} :
      d.declarations.take? = none → d.synthetics = synthetic :: rest →
      exec (job.writeSynthetic synthetic) { d with synthetics := rest } = (.ok (), e) → Writes d e

variable {job}

/-- Writing one declaration keeps a draft consistent and leaves less to write. -/
theorem Writes.consistent {d e : Draft} (h : job.Writes d e) (hd : Consistent job.graph d) :
  Consistent job.graph e ∧ e.potential job.graph < d.potential job.graph
  := by
  cases h with
  | @declaration declaration rest htake hexec =>
      have hd' := hd.take htake
      obtain ⟨m, lines, d', hrender, rfl⟩ := writeDeclaration_eq_ok hexec
      have hgrowth := (job.render_steady declaration).growth hrender
      constructor
      · apply (hgrowth.consistent hd').withModules
        simp
      · apply Nat.lt_of_le_of_lt (hgrowth.potential_le hd')
        simp only [potential, Worklist.items_take? htake, (Worklist.take?_eq_some htake).1,
          List.length_cons]
        omega
  | @synthetic synthetic rest htake hqueue hexec =>
      have hd' : Consistent job.graph { d with synthetics := rest } := { hd with }
      have hless : potential job.graph { d with synthetics := rest } < d.potential job.graph := by
        simp only [potential, hqueue, List.length_cons]
        omega
      rcases writeSynthetic_eq_ok hexec with ⟨-, rfl⟩ | ⟨-, lines, d', hlines, rfl⟩
      · use hd', hless
      · have hd'' : Consistent job.graph { d with
            synthetics := rest, synthesized := synthetic.key :: d.synthesized } := { hd' with }
        have hgrowth := (job.syntheticLines_steady synthetic).growth hlines
        constructor
        · apply (hgrowth.consistent hd'').withModules
          simp
        · apply Nat.lt_of_le_of_lt (hgrowth.potential_le hd'') hless

/-- Writing one declaration takes back no decision. -/
theorem Writes.later {d e : Draft} (h : job.Writes d e) : Later d e := by
  cases h with
  | @declaration declaration rest htake hexec =>
      obtain ⟨m, lines, d', hrender, rfl⟩ := writeDeclaration_eq_ok hexec
      apply (later_take htake).trans
      apply ((job.render_steady declaration).growth hrender).later.trans
      apply later_appendText
  | @synthetic synthetic rest _ _ hexec =>
      rcases writeSynthetic_eq_ok hexec with ⟨-, rfl⟩ | ⟨-, lines, d', hlines, rfl⟩
      · exact { Later.refl d with }
      · have hmarked : Later d { d with
            synthetics := rest, synthesized := synthetic.key :: d.synthesized } :=
          { Later.refl d with }
        apply hmarked.trans
        apply ((job.syntheticLines_steady synthetic).growth hlines).later.trans
        apply later_appendText

theorem Writes.later_steps {d e : Draft} (h : Relation.ReflTransGen job.Writes d e) :
  Later d e
  := by
  induction h with
  | refl => apply Later.refl
  | tail _ hwrites ih => apply ih.trans hwrites.later

variable (job)

/-- The drafts that a run passes through between two declarations that it writes. -/
inductive Reaches : Draft → Prop where
  | start {m : ModuleId} {d e : Draft} : exec (job.place job.service.root) .start = (.ok m, d) →
      exec (job.firstDeclarations.forM request) d = (.ok (), e) → Reaches e
  | step {d e : Draft} : Reaches d → job.Writes d e → Reaches e
  | surface {http : HttpService} {d e : Draft} : Reaches d → d.IsComplete →
      job.service.http = some http → job.config.http = true →
      exec (job.writeSurface http) d = (.ok (), e) → Reaches e

variable {job}

/-- Requesting the first declarations makes the draft grow. -/
theorem requests_growth
    (hfirst : ∀ declaration ∈ job.firstDeclarations, job.graph.Declares declaration)
    {d e : Draft} (hd : Consistent job.graph d)
    (h : exec (job.firstDeclarations.forM request) d = (.ok (), e)) :
  Growth job.graph d e
  := by
  have hrequests : Extends job.graph [] (job.firstDeclarations.forM request) :=
    Extends.forM fun declaration h =>
      Extends.of_steady (job.request_steady (hfirst declaration h))
  apply hrequests.growth hd.toFounded h

/-- Every draft of a run is consistent. -/
theorem Reaches.consistent
    (hfirst : ∀ declaration ∈ job.firstDeclarations, job.graph.Declares declaration) {d : Draft}
    (h : job.Reaches d) :
  Consistent job.graph d
  := by
  induction h with
  | start hplace hrequest =>
      have hstart := ((job.place_steady _).growth hplace).consistent (consistent_start _)
      apply (requests_growth hfirst hstart hrequest).consistent hstart
  | step _ hwrites ih => apply (hwrites.consistent ih).1
  | @surface http d e _ _ _ _ hexec ih =>
      apply ((job.writeSurface_extends http).growth ih.toFounded hexec).consistent ih

/-- What is reached by writing is reached by the run. -/
theorem Reaches.steps {d e : Draft} (h : job.Reaches d)
    (hsteps : Relation.ReflTransGen job.Writes d e) :
  job.Reaches e
  := by
  induction hsteps with
  | refl => apply h
  | tail _ hwrites ih => apply ih.step hwrites

/-- A run writes until nothing waits. -/
theorem completeWithin_eq_ok {limit : Nat} {d e : Draft} (hd : Consistent job.graph d)
    (hlimit : d.potential job.graph < limit)
    (h : exec (job.completeWithin limit) d = (.ok (), e)) :
  Relation.ReflTransGen job.Writes d e ∧ e.IsComplete
  := by
  induction limit generalizing d with
  | zero => apply absurd hlimit (Nat.not_lt_zero _)
  | succ limit ih =>
      -- One declaration is written, and there is less to write than the rest of the limit.
      have hnext {d' : Draft} (hwrites : job.Writes d d')
          (hrest : exec (job.completeWithin limit) d' = (.ok (), e)) :
          Relation.ReflTransGen job.Writes d e ∧ e.IsComplete := by
        obtain ⟨hd', hless⟩ := hwrites.consistent hd
        obtain ⟨hsteps, hcomplete⟩ :=
          ih hd' (Nat.lt_of_lt_of_le hless (Nat.le_of_lt_succ hlimit)) hrest
        exact ⟨hsteps.head hwrites, hcomplete⟩
      rw [completeWithin, exec_get_bind] at h
      split at h
      case h_1 declaration rest htake =>
        obtain ⟨_, d₁, hset, h⟩ := exec_bind_eq_ok.mp h
        obtain ⟨_, d', hwrite, hrest⟩ := exec_bind_eq_ok.mp h
        cases hset
        apply hnext (Writes.declaration htake hwrite) hrest
      case h_2 htake =>
        split at h
        case h_1 hqueue =>
          cases h
          use .refl, Worklist.take?_eq_none.mp htake
        case h_2 synthetic rest hqueue =>
          obtain ⟨_, d₁, hset, h⟩ := exec_bind_eq_ok.mp h
          obtain ⟨_, d', hwrite, hrest⟩ := exec_bind_eq_ok.mp h
          cases hset
          apply hnext (Writes.synthetic htake hqueue hwrite) hrest

theorem complete_eq_ok {d e : Draft} (hd : Consistent job.graph d)
    (h : exec job.complete d = (.ok (), e)) :
  Relation.ReflTransGen job.Writes d e ∧ e.IsComplete
  := by
  rw [complete, exec_get_bind] at h
  apply completeWithin_eq_ok hd _ h
  unfold potential completionBound
  omega

/-- A run that succeeds comes to a draft in which nothing waits, and writes the root module there.
If the service has an HTTP surface that is wanted, the surface was written before. -/
theorem run_eq_ok
    (hfirst : ∀ declaration ∈ job.firstDeclarations, job.graph.Declares declaration) {e : Draft}
    (h : exec job.run .start = (.ok (), e)) :
  ∃ d m, job.Reaches d ∧ d.IsComplete ∧ exec (job.writeRoot m) d = (.ok (), e)
    ∧ ∀ http, job.service.http = some http → job.config.http = true → ∃ d₁ d₂, job.Reaches d₁
      ∧ exec (job.writeSurface http) d₁ = (.ok (), d₂) ∧ Relation.ReflTransGen job.Writes d₂ d
  := by
  unfold run at h
  obtain ⟨m, d₁, hplace, h⟩ := exec_bind_eq_ok.mp h
  obtain ⟨_, d₂, hrequest, h⟩ := exec_bind_eq_ok.mp h
  obtain ⟨_, d₃, hcomplete, h⟩ := exec_bind_eq_ok.mp h
  have hstart := Reaches.start hplace hrequest
  obtain ⟨hsteps, hempty⟩ := complete_eq_ok (hstart.consistent hfirst) hcomplete
  have hreaches := hstart.steps hsteps
  split at h
  case h_1 http hhttp =>
    split at h
    case isTrue hconfig =>
      obtain ⟨_, d₄, hsurface, h⟩ := exec_bind_eq_ok.mp h
      obtain ⟨_, d₅, hcomplete, h⟩ := exec_bind_eq_ok.mp h
      have hserved := hreaches.surface hempty hhttp hconfig hsurface
      obtain ⟨hsteps, hempty⟩ := complete_eq_ok (hserved.consistent hfirst) hcomplete
      refine ⟨d₅, m, hserved.steps hsteps, hempty, h, ?_⟩
      intro other hother _
      rw [hhttp] at hother
      cases hother
      use d₃, d₄, hreaches, hsurface, hsteps
    case isFalse hconfig =>
      refine ⟨d₃, m, hreaches, hempty, h, ?_⟩
      intro _ _ hwanted
      apply absurd hwanted hconfig
  case h_2 hhttp =>
    refine ⟨d₃, m, hreaches, hempty, h, ?_⟩
    intro other hother _
    rw [hhttp] at hother
    cases hother

end Job

end ServiceBindings
