import ServiceBindings.Proofs.Draft.Anchoring
import ServiceBindings.Proofs.Draft.ScalarSpelling
import ServiceBindings.Proofs.Naming.Pascal
import ServiceBindings.Proofs.Naming.Pieces
import ServiceBindings.Proofs.Text.Lines

/-!
# Spelled types stand on one line

The spelling of a type is put together from names, from the path of the host crate and from a few
signs.  If that path has no line feeds, then no spelling has.
-/

namespace ServiceBindings

open Draft Drafting ModulePath Text

/-! ### References -/

theorem ModulePath.feed_not_mem_itemReference (path : ModulePath) {target : ModulePath}
    {item : String} (htarget : ∀ part ∈ target.parts, '\n' ∉ part.toList)
    (hitem : '\n' ∉ item.toList) :
  '\n' ∉ (path.itemReference target item).toList
  := by
  have hsteps : '\n' ∉ (joinSteps (steps path.parts target.parts)).toList := by
    rw [joinSteps, String.toList_intercalate]
    intro hmem
    rcases mem_of_mem_intercalate hmem with hmem | ⟨part, hpart, hmem⟩
    · revert hmem
      decide
    · obtain ⟨step, hstep, rfl⟩ := List.mem_map.mp hpart
      rcases mem_steps hstep with rfl | hstep
      · revert hmem
        decide
      · apply htarget step hstep hmem
  unfold itemReference
  dsimp only
  split
  case isTrue => apply hitem
  case isFalse => simp [hsteps, hitem]

theorem TypeGraph.feed_not_mem_modulePath (graph : TypeGraph) (id : NamespaceId) :
  ∀ part ∈ (graph.modulePath id).parts, '\n' ∉ part.toList
  := by
  rw [modulePath, List.forall_mem_cons, List.forall_mem_cons]
  refine ⟨by decide, by decide, ?_⟩
  intro part hpart
  obtain ⟨outer, -, rfl⟩ := List.mem_map.mp hpart
  apply (Identifier.isToken_valueName _).feed

/-! ### Names of synthetic declarations -/

theorem Identifier.isToken_typeName (name : String) : IsToken (typeName name) :=
  isToken_escape (Words.Parsed.parse name).isToken_pascal

theorem NameScope.isToken_nameFor {base : String} (h : IsToken base) (scope : NameScope) :
  IsToken (scope.nameFor base)
  := by
  have hnumber (n : Nat) : IsToken (toString n) := by
    have hdigit {x : Char} (hx : x ∈ (toString n).toList) : x.isDigit = true := by
      apply @Nat.isDigit_of_mem_toDigits 10 n x (by decide) (by decide)
      rw [← Nat.toList_repr]
      apply hx
    constructor <;> intro hmem <;> cases hdigit hmem
  unfold nameFor
  split
  case isTrue =>
    obtain ⟨n, hn⟩ := exists_firstFree (· ∈ scope.taken) (fun n => base ++ toString n)
      scope.taken.length 2
    rw [hn]
    apply h.append (hnumber n)
  case isFalse => apply h

namespace Draft

variable {graph : TypeGraph} {d e : Draft}

/-- Whether the names of synthetic declarations are tokens, and one that was asked for with words
is a name for references. -/
structure IsWorded (d : Draft) : Prop where
  anonymous : ∀ entry ∈ d.anonymous, IsToken entry.2
  subsets : ∀ entry ∈ d.subsets, IsToken entry.2
    ∧ ((Words.parse entry.1.2).isEmpty = false → IsName entry.2)

theorem isWorded_start : IsWorded .start where
  anonymous _ h := nomatch h
  subsets _ h := nomatch h

theorem IsWorded.nameAnonymous (h : d.IsWorded) (id : TypeId) (base : String) :
  IsWorded (d.nameAnonymous id base).2
  := by
  refine ⟨List.forall_mem_cons.mpr ⟨?_, h.anonymous⟩, h.subsets⟩
  apply NameScope.isToken_nameFor (Identifier.isToken_typeName base)

theorem IsWorded.nameSubset (h : d.IsWorded) (union : TypeId) (variants : List Nat)
    (base : String) :
  IsWorded (d.nameSubset union variants base).2
  := by
  refine ⟨h.anonymous, List.forall_mem_cons.mpr ⟨⟨?_, ?_⟩, h.subsets⟩⟩
  · apply NameScope.isToken_nameFor (Identifier.isToken_typeName base)
  · intro hbase
    apply NameScope.isName_nameFor (Identifier.isName_typeName hbase)

theorem Change.isWorded (hchange : Change graph d e) (h : d.IsWorded) : e.IsWorded := by
  cases hchange with
  | openModule hid =>
      rw [openModule_of_new hid]
      exact ⟨h.anonymous, h.subsets⟩
  | nameAnonymous => apply h.nameAnonymous
  | nameSubset => apply h.nameSubset
  | _ => exact ⟨h.anonymous, h.subsets⟩

theorem Turn.isWorded (hturn : Turn d e) (h : d.IsWorded) : e.IsWorded := by
  cases hturn with
  | nameSubset => apply h.nameSubset
  | _ => exact ⟨h.anonymous, h.subsets⟩

end Draft

/-- The drafts of a session are worded. -/
theorem Job.Session.isWorded {job : Job} {d : Draft} (h : job.Session d) : d.IsWorded := by
  induction h with
  | refl => apply isWorded_start
  | tail _ hmove ih =>
      cases hmove with
      | change hchange => apply hchange.isWorded ih
      | turn hturn => apply hturn.isWorded ih

/-! ### Scalars -/

/-- Whether no spelling of a scalar has line feeds. -/
def ScalarSpelling.IsFlat (spelling : ScalarSpelling) : Prop :=
  ∀ use, '\n' ∉ (spelling.forUse use).toList

theorem ScalarSpelling.isFlat_fill {spelling : ScalarSpelling} (h : spelling.IsFlat)
    {library : String} (hlibrary : '\n' ∉ library.toList) :
  (spelling.fill library).IsFlat
  := by
  have hfill {text : String} (htext : '\n' ∉ text.toList) :
      '\n' ∉ (String.ofList (replaceChar '$' library.toList text.toList)).toList := by
    rw [String.toList_ofList]
    intro hmem
    obtain ⟨c, hc, hmem⟩ := List.mem_flatMap.mp hmem
    split at hmem
    case isTrue => apply hlibrary hmem
    case isFalse =>
      rw [List.mem_singleton] at hmem
      apply htext (hmem ▸ hc)
  intro use
  cases use with
  | owned => apply hfill (h .owned)
  | borrowed => apply hfill (h .borrowed)
  | param => apply hfill (h .param)

/-- The standard scalars are spelled without line feeds if the path of the host crate has none. -/
theorem ScalarTable.isFlat_of_standard {graph : TypeGraph} {config : Config} {id : TypeId}
    {spelling : ScalarSpelling} (hcrate : '\n' ∉ config.cratePath.toList)
    (h : (ScalarTable.standard graph config).spelling? graph id = some spelling) :
  spelling.IsFlat
  := by
  obtain ⟨steps, target, -, hget⟩ := spelling?_eq_some.mp h
  obtain ⟨other, -, hother⟩ := List.mem_filterMap.mp (mem_of_lookup hget)
  obtain ⟨found, hfound, heq⟩ := Option.map_eq_some_iff.mp hother
  obtain ⟨rfl, rfl⟩ := Prod.mk.inj heq
  rw [standardSpelling] at hfound
  split at hfound
  case h_2 => cases hfound
  case h_1 =>
    obtain ⟨name, -, hfound⟩ := Option.bind_eq_some_iff.mp hfound
    obtain ⟨plain, hplain, hfound⟩ := Option.bind_eq_some_iff.mp hfound
    cases hfound
    obtain ⟨⟨short, listed⟩, hlisted, hpair⟩ := List.mem_map.mp (mem_of_lookup hplain)
    cases hpair
    have hall : ∀ entry ∈ standardScalars, ∀ use ∈ [TypeUse.owned, .borrowed, .param],
        '\n' ∉ (entry.2.forUse use).toList := by
      decide +kernel
    apply ScalarSpelling.isFlat_fill
    · intro use
      apply hall _ hlisted
      cases use <;> decide
    · simp [hcrate]

/-! ### Types -/

theorem feed_not_mem_referenceFor {reference : String} (h : '\n' ∉ reference.toList)
    (use : TypeUse) :
  '\n' ∉ (referenceFor use reference).toList
  := by
  cases use <;> simp [referenceFor, h]

theorem feed_not_mem_wrapAll {part : String} (h : '\n' ∉ part.toList) (wrappers : List Wrapper)
    (use : TypeUse) :
  '\n' ∉ (wrapAll wrappers use part).toList
  := by
  induction wrappers generalizing use with
  | nil => apply h
  | cons wrapper rest ih =>
      have hinner := ih .owned
      cases wrapper with
      | array => cases use <;> simp [wrapAll, Wrapper.around, hinner]
      | map =>
          apply feed_not_mem_referenceFor
          simp [hinner]

namespace Job

variable {job : Job} {d e : Draft}

/-- Whether a job spells scalars by the standard table, and the path of the host crate has no line
feeds. -/
structure IsStandard (job : Job) : Prop where
  scalars : job.scalars = .standard job.graph job.config
  cratePath : '\n' ∉ job.config.cratePath.toList

theorem isToken_declarationName {id : TypeId} {name : String}
    (h : exec (job.declarationName id) d = (.ok name, e)) :
  IsToken name
  := by
  unfold declarationName at h
  split at h
  case h_1 words hwords =>
    cases h
    obtain ⟨hdeclared, -⟩ := Option.filter_eq_some_iff.mp hwords
    obtain ⟨kind, -, hkind⟩ := Option.bind_eq_some_iff.mp hdeclared
    apply Identifier.isToken_escape (TypeKind.parsed_declaredName hkind).isToken_pascal
  case h_2 => cases h

theorem IsStandard.feed_not_mem_spellIntrinsic (h : job.IsStandard) (name : Intrinsic) :
  '\n' ∉ (job.spellIntrinsic name).toList
  := by
  cases name <;> simp [spellIntrinsic, Config.reexported, h.cratePath]

/-! Spelling may name a type, so what is said about names is said about the draft after it. -/

variable (hjob : job.IsStandard) (hd : job.Session d) (he : e.IsWorded)

include hd in
theorem Session.feed_not_mem_spellDeclaration {id : TypeId} {path : ModulePath} {text : String}
    (h : exec (job.spellDeclaration id path) d = (.ok text, e)) :
  '\n' ∉ text.toList
  := by
  obtain ⟨owner, m, name, -, -, -, hname, -, rfl⟩ := hd.spellDeclaration_eq_ok h
  apply path.feed_not_mem_itemReference (job.graph.feed_not_mem_modulePath owner)
  apply (isToken_declarationName hname).feed

include hd he in
theorem Session.feed_not_mem_spellAnonymous {id : TypeId} (hid : job.graph.Declares (.type id))
    {path : ModulePath} {preferred text : String}
    (h : exec (spellAnonymous id path preferred) d = (.ok text, e)) :
  '\n' ∉ text.toList
  := by
  obtain ⟨name, hlookup, -, rfl⟩ := hd.spellAnonymous_eq_ok hid h
  apply path.feed_not_mem_itemReference (by decide) (he.anonymous _ (mem_of_lookup hlookup)).feed

include hjob in
theorem IsStandard.feed_not_mem_spellScalar {id : TypeId} {span : Option Span} {use : TypeUse}
    {text : String} (h : exec (job.spellScalar id span use) d = (.ok text, e)) :
  '\n' ∉ text.toList
  := by
  rw [spellScalar, hjob.scalars] at h
  split at h
  case h_1 spelling hspelling =>
    cases h
    apply ScalarTable.isFlat_of_standard hjob.cratePath hspelling
  case h_2 =>
    cases h
    decide

include hjob hd he in
/-- The spelling of a type that is neither an array nor a map stands on one line. -/
theorem Session.feed_not_mem_spellCore {id : TypeId} {span : Option Span} {use : TypeUse}
    {path : ModulePath} {preferred text : String}
    (h : exec (job.spellCore id span use path preferred) d = (.ok text, e)) :
  '\n' ∉ text.toList
  := by
  have hdeclared {found : String} (hfound : exec (job.spellDeclaration id path
      >>= fun reference => pure (referenceFor use reference)) d = (.ok found, e)) :
      '\n' ∉ found.toList := by
    obtain ⟨reference, d₁, hreference, hreturn⟩ := exec_bind_eq_ok.mp hfound
    cases hreturn
    apply feed_not_mem_referenceFor (hd.feed_not_mem_spellDeclaration hreference)
  rw [spellCore] at h
  cases hkind : job.graph.kind? id with
  | none =>
      rw [hkind] at h
      cases h
  | some kind =>
      rw [hkind] at h
      have hanonymous {found : String} (hfound : exec (spellAnonymous id path preferred
          >>= fun reference => pure (referenceFor use reference)) d = (.ok found, e)) :
          '\n' ∉ found.toList := by
        obtain ⟨reference, d₁, hreference, hreturn⟩ := exec_bind_eq_ok.mp hfound
        cases hreturn
        apply feed_not_mem_referenceFor
        apply hd.feed_not_mem_spellAnonymous he (TypeGraph.declares_of_kind? hkind) hreference
      cases kind with
      | scalar _ => apply hjob.feed_not_mem_spellScalar h
      | record _ =>
          dsimp only at h
          split at h
          case isTrue => apply hanonymous h
          case isFalse => apply hdeclared h
      | union _ =>
          dsimp only at h
          split at h
          case isTrue => apply hanonymous h
          case isFalse => apply hdeclared h
      | enum _ => apply hdeclared h
      | interface _ => apply hdeclared h
      | array _ => cases h
      | map _ => cases h
      | literal _ => cases h
      | intrinsic name =>
          cases h
          apply hjob.feed_not_mem_spellIntrinsic

include hjob hd he in
/-- The spelling of a type stands on one line. -/
theorem Session.feed_not_mem_spell {id : TypeId} {span : Option Span} {use : TypeUse}
    {path : ModulePath} {preferred text : String}
    (h : exec (job.spell id span use path preferred) d = (.ok text, e)) :
  '\n' ∉ text.toList
  := by
  rw [spell] at h
  split at h
  case h_1 => cases h
  case h_2 => apply hd.feed_not_mem_spellCore hjob he h
  case h_3 =>
    obtain ⟨part, d₁, hpart, hreturn⟩ := exec_bind_eq_ok.mp h
    cases hreturn
    apply feed_not_mem_wrapAll
    apply hd.feed_not_mem_spellCore hjob he hpart

include hjob hd in
theorem Session.feed_not_mem_of_settled {id : TypeId} {span : Option Span} {use : TypeUse}
    {path : ModulePath} {preferred text : String}
    (h : Settled (job.spell id span use path preferred) d text) :
  '\n' ∉ text.toList
  := by
  obtain ⟨problems, h⟩ := h d (Later.refl d)
  apply hd.feed_not_mem_spell hjob _ h
  exact ⟨hd.isWorded.anonymous, hd.isWorded.subsets⟩

/-- The name that a side of what an operation returns is asked for with has words. -/
theorem isEmpty_parse_sideName (graph : TypeGraph) (operation : Operation) (errors : Bool) :
  (Words.parse (operation.sideName graph errors)).isEmpty = false
  := by
  have hletter : 'R' ∈ (operation.sideName graph errors).toList := by
    unfold Operation.sideName
    rw [String.toList_append]
    apply List.mem_append_right
    split
    case h_1 => decide
    case h_2 => split <;> decide
    case h_3 => decide
  rw [Words.isEmpty, List.isEmpty_eq_false_iff]
  apply Words.parts_ne_nil_of_mem hletter (by decide)

/-- A subset that was asked for with words has a name for references. -/
theorem isName_subsetName (hworded : d.IsWorded) {id : TypeId} {variants : List Nat}
    {base name : String} (hbase : (Words.parse base).isEmpty = false)
    (h : exec (subsetName id variants base) d = (.ok name, e)) :
  IsName name
  := by
  rw [subsetName, exec_get_bind] at h
  cases hknown : d.subsets.lookup (id, base) with
  | some known =>
      rw [hknown] at h
      cases h
      apply (hworded.subsets _ (mem_of_lookup hknown)).2 hbase
  | none =>
      rw [hknown] at h
      cases h
      apply ((hworded.nameSubset id variants base).subsets _ List.mem_cons_self).2 hbase

include hd in
/-- A side that is a subset has the path that a reference to the subset names, whatever module the
reference is written and read in. -/
theorem Session.resolve_spellSubset {id : TypeId} {union : UnionType} {variants : List Nat}
    {operation : Operation} {errors : Bool} {item : ItemPath}
    (h : exec (returnSide id union variants (operation.sideName job.graph errors)) d
      = (.ok (.union item), e))
    (path : ModulePath) :
  ∃ reference,
    exec (spellSubset id variants path (operation.sideName job.graph errors)) d = (.ok reference, e)
      ∧ path.resolve reference = .ok item
  := by
  unfold returnSide at h
  split at h
  case h_1 => cases h
  case h_2 => split at h <;> cases h
  case h_3 =>
    split at h
    case isTrue => cases h
    case isFalse =>
      obtain ⟨name, d₁, hname, hreturn⟩ := exec_bind_eq_ok.mp h
      cases hreturn
      use path.itemReference syntheticPath name, exec_bind_of_ok hname _
      apply path.resolve_itemReference (by decide)
      apply isName_subsetName hd.isWorded (isEmpty_parse_sideName job.graph operation errors) hname

include hjob hd in
/-- The spelling of a side of what an operation returns stands on one line. -/
theorem Session.feed_not_mem_spellSide {operation : Operation} {errors : Bool} {side : ReturnSide}
    (hside : IsSide job.graph d.subsets operation errors side) {path : ModulePath} {text : String}
    (h : Settled (job.spellSide side path) d text) :
  '\n' ∉ text.toList
  := by
  have hnothing : '\n' ∉ Code.emptyType.toList := by decide
  cases hside with
  | plain => apply hd.feed_not_mem_of_settled hjob h
  | absent =>
      obtain rfl := h.eq (Settled.pure _ d)
      apply hnothing
  | empty =>
      obtain rfl := h.eq (Settled.pure _ d)
      apply hnothing
  | single => apply hd.feed_not_mem_of_settled hjob h
  | whole => apply hd.feed_not_mem_of_settled hjob h
  | @subset union name _ _ _ hlookup =>
      obtain rfl := h.eq (Settled.pure _ d)
      have hmodule : ∀ part ∈ syntheticPath.parts, '\n' ∉ part.toList := by decide
      apply path.feed_not_mem_itemReference hmodule
      apply (hd.isWorded.subsets _ (mem_of_lookup hlookup)).1.feed

end Job

end ServiceBindings
