import Mathlib.Data.List.Nodup
import ServiceBindings.Proofs.Draft.Growth
import ServiceBindings.Proofs.Naming.Scope

/-!
# Consistency of a draft

A draft accepts each declaration once, gives each namespace a module of its own, and names each
synthetic declaration once and differently from all others.  What it names exists in the graph.  The
draft at the start is consistent, and growth keeps it so.
-/

namespace ServiceBindings

namespace Draft

/-- The names that were given to synthetic declarations. -/
def givenNames (draft : Draft) : List String :=
  draft.anonymous.map (·.2) ++ draft.subsets.map (·.2)

/-- Whether each synthetic declaration was named once, and differently from all others. -/
structure Distinct (d : Draft) : Prop where
  anonymous_nodup : (d.anonymous.map (·.1)).Nodup
  subsets_nodup : (d.subsets.map (·.1)).Nodup
  names_nodup : d.givenNames.Nodup
  names_taken : ∀ name ∈ d.givenNames, name ∈ d.syntheticNames.taken

/-- Whether the registries of a draft agree with each other and with the graph. -/
structure Consistent (graph : TypeGraph) (d : Draft) : Prop extends Founded d, Distinct d where
  accepted_nodup : d.declarations.items.Nodup
  declares : ∀ declaration ∈ d.declarations.items, graph.Declares declaration
  place_ne : ∀ id m, d.moduleOf? id = some m → m ≠ .root ∧ m ≠ .synthetic
  place_inj : ∀ id other m, d.moduleOf? id = some m → d.moduleOf? other = some m → id = other
  anonymous_declares : ∀ entry ∈ d.anonymous, graph.Declares (.type entry.1)
  subsets_returned : ∀ entry ∈ d.subsets,
    ∃ variants, graph.ReturnsSubset entry.1.1 variants entry.1.2
  splits_valid : ∀ reference split, d.splits.lookup reference = some split →
    IsSplit graph d.subsets reference split

variable {graph : TypeGraph} {d e : Draft}

/-! ### Sides and splits -/

/-- A side stays one as long as the subsets keep their names. -/
theorem Later.isSide {operation : Operation} {errors : Bool} {side : ReturnSide}
    (hde : Later d e) (h : IsSide graph d.subsets operation errors side) :
  IsSide graph e.subsets operation errors side
  := by
  cases h with
  | plain hkind herror => apply IsSide.plain hkind herror
  | absent hkind herror => apply IsSide.absent hkind herror
  | empty hkind hside => apply IsSide.empty hkind hside
  | single hkind hside hvariant => apply IsSide.single hkind hside hvariant
  | whole hkind hlength hall => apply IsSide.whole hkind hlength hall
  | subset hkind hlength hall hname =>
      apply IsSide.subset hkind hlength hall (hde.subset _ _ hname)

/-- A split stays one as long as the subsets keep their names. -/
theorem Later.isSplit {reference : OperationRef} {split : ReturnSplit}
    (hde : Later d e) (h : IsSplit graph d.subsets reference split) :
  IsSplit graph e.subsets reference split
  := by
  obtain ⟨operation, hoperation, hname, hsuccess, herror⟩ := h
  use operation, hoperation, hname, hde.isSide hsuccess, hde.isSide herror

/-- A split that is added is found for its own operation only. -/
theorem isSplit_of_lookup_cons {subsets : List ((TypeId × String) × String)}
    {splits : List (OperationRef × ReturnSplit)} {reference : OperationRef} {split : ReturnSplit}
    (hsplits : ∀ reference split, splits.lookup reference = some split →
      IsSplit graph subsets reference split)
    (hsplit : IsSplit graph subsets reference split) {other : OperationRef} {found : ReturnSplit}
    (hfound : ((reference, split) :: splits).lookup other = some found) :
  IsSplit graph subsets other found
  := by
  rw [List.lookup_cons] at hfound
  by_cases hother : other = reference
  · subst hother
    simp only [BEq.rfl, Option.some.injEq] at hfound
    subst hfound
    apply hsplit
  · rw [beq_false_of_ne hother] at hfound
    apply hsplits other found hfound

/-! ### Names of synthetic declarations -/

/-- What is not found is none of the keys. -/
theorem not_mem_keys_of_lookup {α β : Type} [BEq α] [LawfulBEq α] {entries : List (α × β)} {key : α}
    (h : entries.lookup key = none) :
  key ∉ entries.map (·.1)
  := by
  intro hkey
  obtain ⟨entry, hentry, rfl⟩ := List.mem_map.mp hkey
  have hne := List.lookup_eq_none_iff.mp h entry hentry
  simp at hne

namespace Distinct

/-- A name that a synthetic declaration gets was not given before. -/
theorem nameSynthetic_not_mem (h : Distinct d) (base : String) :
  (d.nameSynthetic base).1 ∉ d.givenNames
  := by
  intro hname
  apply NameScope.nameFor_not_mem _ _ (h.names_taken _ hname)

/-- A type without a name gets a name of its own. -/
theorem nameAnonymous (h : Distinct d) {id : TypeId} (hnew : d.anonymous.lookup id = none)
    (base : String) :
  Distinct (d.nameAnonymous id base).2
  := by
  have hname := h.nameSynthetic_not_mem base
  refine { h with anonymous_nodup := ?_, names_nodup := ?_, names_taken := ?_ }
  · apply List.nodup_cons.mpr ⟨not_mem_keys_of_lookup hnew, h.anonymous_nodup⟩
  · apply List.nodup_cons.mpr ⟨hname, h.names_nodup⟩
  · intro name hmem
    rcases List.mem_cons.mp hmem with rfl | hmem
    · apply List.mem_cons_self
    · apply List.mem_cons_of_mem _ (h.names_taken name hmem)

/-- A subset of a union gets a name of its own. -/
theorem nameSubset (h : Distinct d) {id : TypeId} {base : String}
    (hnew : d.subsets.lookup (id, base) = none) (variants : List Nat) :
  Distinct (d.nameSubset id variants base).2
  := by
  have hname := h.nameSynthetic_not_mem base
  have hperm : (d.nameSubset id variants base).2.givenNames.Perm
      ((d.nameSynthetic base).1 :: d.givenNames) := List.perm_middle
  refine { h with subsets_nodup := ?_, names_nodup := ?_, names_taken := ?_ }
  · apply List.nodup_cons.mpr ⟨not_mem_keys_of_lookup hnew, h.subsets_nodup⟩
  · rw [hperm.nodup_iff]
    apply List.nodup_cons.mpr ⟨hname, h.names_nodup⟩
  · intro name hmem
    rcases List.mem_cons.mp (hperm.mem_iff.mp hmem) with rfl | hmem
    · apply List.mem_cons_self
    · apply List.mem_cons_of_mem _ (h.names_taken name hmem)

end Distinct

/-! ### Growth keeps a draft consistent -/

namespace Consistent

theorem request (h : Consistent graph d) {declaration : DeclarationRef}
    (hdeclaration : graph.Declares declaration) :
  Consistent graph { d with declarations := d.declarations.add declaration }
  := by
  refine { h with accepted_nodup := Worklist.items_add_nodup _ h.accepted_nodup, declares := ?_ }
  intro other hother
  rcases (Worklist.mem_items_add _ _ _).mp hother with hother | rfl
  · apply h.declares other hother
  · apply hdeclaration

/-- Modules may be made and written as long as none goes away. -/
theorem withModules (h : Consistent graph d) {modules : ModuleTree}
    (hsize : d.modules.size ≤ modules.size) :
  Consistent graph { d with modules := modules }
  := by
  refine { h with place_lt := ?_, synthetic_lt := Nat.lt_of_lt_of_le h.synthetic_lt hsize }
  intro id m hm
  apply Nat.lt_of_lt_of_le (h.place_lt id m hm) hsize

/-- The module that a namespace gets is its own. -/
theorem openModule (h : Consistent graph d) {id : NamespaceId} (hid : d.moduleOf? id = none)
    (parent : ModuleId) :
  Consistent graph (d.openModule graph parent id).2
  := by
  have hcases (other : NamespaceId) (m : ModuleId) :=
    @moduleOf?_openModule_cases graph d id other parent m hid
  have hfounded : Founded (d.openModule graph parent id).2 :=
    ⟨h.toPlaced.openModule hid parent,
      Nat.lt_of_lt_of_le h.synthetic_lt (later_openModule hid parent).size⟩
  have hsynthetic : 3 < d.modules.size := h.synthetic_lt
  rw [openModule_of_new hid] at hcases hfounded ⊢
  refine { h with toFounded := hfounded, place_ne := ?_, place_inj := ?_ }
  · intro other m hm
    rcases hcases other m hm with ⟨-, rfl⟩ | hm
    · constructor <;> intro heq <;> obtain heq := congrArg ModuleId.index heq
      · apply Nat.not_lt_of_le (Nat.le_of_eq heq) (Nat.zero_lt_of_lt hsynthetic)
      · apply Nat.not_lt_of_le (Nat.le_of_eq heq) hsynthetic
    · apply h.place_ne other m hm
  · intro first second m hfirst hsecond
    rcases hcases first m hfirst with ⟨rfl, rfl⟩ | hold
    · rcases hcases second _ hsecond with ⟨rfl, -⟩ | hold
      · rfl
      · apply absurd (h.place_lt second _ hold) (Nat.lt_irrefl _)
    · rcases hcases second m hsecond with ⟨rfl, rfl⟩ | hsecond
      · apply absurd (h.place_lt first _ hold) (Nat.lt_irrefl _)
      · apply h.place_inj first second m hold hsecond

theorem nameAnonymous (h : Consistent graph d) {id : TypeId} (hid : graph.Declares (.type id))
    (hnew : d.anonymous.lookup id = none) (base : String) :
  Consistent graph (d.nameAnonymous id base).2
  := by
  have hdistinct := h.toDistinct.nameAnonymous hnew base
  refine { h with toDistinct := hdistinct, anonymous_declares := ?_ }
  intro entry hentry
  rcases List.mem_cons.mp hentry with rfl | hentry
  · apply hid
  · apply h.anonymous_declares entry hentry

theorem nameSubset (h : Consistent graph d) {id : TypeId} {variants : List Nat} {base : String}
    (hreturned : graph.ReturnsSubset id variants base)
    (hnew : d.subsets.lookup (id, base) = none) :
  Consistent graph (d.nameSubset id variants base).2
  := by
  have hdistinct := h.toDistinct.nameSubset hnew variants
  have hlater := later_nameSubset hnew variants
  refine { h with toDistinct := hdistinct, subsets_returned := ?_, splits_valid := ?_ }
  · intro entry hentry
    rcases List.mem_cons.mp hentry with rfl | hentry
    · exact ⟨variants, hreturned⟩
    · apply h.subsets_returned entry hentry
  · intro reference split hsplit
    apply hlater.isSplit (h.splits_valid reference split hsplit)

theorem split (h : Consistent graph d) {reference : OperationRef} {split : ReturnSplit}
    (hsplit : IsSplit graph d.subsets reference split) :
  Consistent graph { d with splits := (reference, split) :: d.splits }
  := by
  refine { h with splits_valid := ?_ }
  intro other found hfound
  apply isSplit_of_lookup_cons h.splits_valid hsplit hfound

end Consistent

/-- A change keeps a draft consistent. -/
theorem Change.consistent (hchange : Change graph d e) (h : Consistent graph d) :
  Consistent graph e
  := by
  cases hchange with
  | report diagnostic => exact { h with }
  | request hdeclaration => apply h.request hdeclaration
  | openModule hid _ => apply h.openModule hid
  | nameAnonymous hid hnew _ => apply h.nameAnonymous hid hnew
  | nameSubset hreturned hnew => apply h.nameSubset hreturned hnew
  | split _ hsplit => apply h.split hsplit
  | addModule parent name inline doc =>
      rw [Drafting.exec_addModule]
      apply h.withModules
      simp
  | write lines _ =>
      apply h.withModules
      simp

/-- Growth keeps a draft consistent. -/
theorem Growth.consistent (hgrowth : Growth graph d e) (h : Consistent graph d) :
  Consistent graph e
  := by
  induction hgrowth with
  | refl => apply h
  | tail _ hchange ih => apply hchange.consistent ih

/-- At the start only the global namespace has a module. -/
theorem moduleOf?_start {id : NamespaceId} {m : ModuleId} (h : start.moduleOf? id = some m) :
  id = .global ∧ m = .global
  := by
  rw [moduleOf?, start, List.lookup_cons] at h
  split at h
  case h_1 heq =>
    exact ⟨eq_of_beq heq, (Option.some.inj h).symm⟩
  case h_2 => cases h

/-- The draft at the start is consistent. -/
theorem consistent_start (graph : TypeGraph) : Consistent graph .start where
  accepted_nodup := List.nodup_nil
  declares _ h := nomatch h
  global := rfl
  place_lt id m h := by
    obtain ⟨-, rfl⟩ := moduleOf?_start h
    decide
  place_ne id m h := by
    obtain ⟨-, rfl⟩ := moduleOf?_start h
    decide
  place_inj id other m h hother := by rw [(moduleOf?_start h).1, (moduleOf?_start hother).1]
  synthetic_lt := by decide
  anonymous_nodup := List.nodup_nil
  anonymous_declares _ h := nomatch h
  subsets_nodup := List.nodup_nil
  subsets_returned _ h := nomatch h
  names_nodup := List.nodup_nil
  names_taken _ h := nomatch h
  splits_valid _ _ h := nomatch h

end Draft

end ServiceBindings
