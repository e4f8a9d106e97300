import Mathlib.Logic.Relation
import ServiceBindings.Draft.Surface
import ServiceBindings.Proofs.Draft.Execution
import ServiceBindings.Proofs.Module.Tree
import ServiceBindings.Proofs.Worklist

/-!
# Growth of a draft

Everything that a drafting step does to a draft is one of a few changes: a problem is reported, a
declaration is requested, a namespace gets its module, a synthetic declaration gets its name, the
split of an operation is recorded, or the modules of the HTTP surface are made and written.  The
growth of a draft is a sequence of such changes.  It never takes back a decision: a draft that grew
still knows the modules, names and splits that it knew.
-/

namespace ServiceBindings

/-! ### What can be requested -/

namespace TypeGraph

/-- Whether the type or the namespace of a declaration exists. -/
def Declares (graph : TypeGraph) : DeclarationRef → Prop
  | .type id => id.index < graph.types.length
  | .operations id => id.index < graph.namespaces.length

/-- The operations of all namespaces and of all interfaces. -/
def everyOperation (graph : TypeGraph) : List Operation :=
  graph.namespaces.flatMap (·.operations)
    ++ graph.typeIds.flatMap fun id => graph.operations (.interface id)

end TypeGraph

/-- The name that a side of what an operation returns gets if it has none. -/
def Operation.sideName (graph : TypeGraph) (operation : Operation) (errors : Bool) : String :=
  pascalCase operation.name ++
    match errors, graph.kind? operation.returnType with
    | true, _ => "ErrorResponse"
    | false, some (.union union) =>
      if (union.side graph true).isEmpty then "Response" else "SuccessResponse"
    | false, _ => "Response"

/-- Whether some variants of a union are a side of what an operation returns that needs a name:
there are several of them, but not all. -/
def TypeGraph.ReturnsSubset (graph : TypeGraph) (id : TypeId) (variants : List Nat)
    (name : String) : Prop :=
  ∃ operation ∈ graph.everyOperation, ∃ union errors,
    operation.returnType = id ∧ graph.kind? id = some (.union union)
    ∧ variants = union.side graph errors ∧ name = operation.sideName graph errors
    ∧ 2 ≤ variants.length ∧ variants.length ≠ union.variants.length

/-- What a side of an operation is, with the names that subsets have. -/
inductive IsSide (graph : TypeGraph) (subsets : List ((TypeId × String) × String))
    (operation : Operation) (errors : Bool) : ReturnSide → Prop where
  /-- A type that is no union is on one of the two sides. -/
  | plain : (∀ union, graph.kind? operation.returnType ≠ some (.union union)) →
      graph.isErrorRecord operation.returnType = errors →
      IsSide graph subsets operation errors
        (.type operation.returnType (operation.sideName graph errors))
  | absent : (∀ union, graph.kind? operation.returnType ≠ some (.union union)) →
      graph.isErrorRecord operation.returnType ≠ errors →
      IsSide graph subsets operation errors .nothing
  /-- A union may have no variant, one, all or a subset of them on a side. -/
  | empty {union : UnionType} : graph.kind? operation.returnType = some (.union union) →
      union.side graph errors = [] → IsSide graph subsets operation errors .nothing
  | single {union : UnionType} {position : Nat} {variant : UnionVariant} :
      graph.kind? operation.returnType = some (.union union) →
      union.side graph errors = [position] → union.variants[position]? = some variant →
      IsSide graph subsets operation errors (.type variant.type (operation.sideName graph errors))
  | whole {union : UnionType} : graph.kind? operation.returnType = some (.union union) →
      2 ≤ (union.side graph errors).length →
      (union.side graph errors).length = union.variants.length →
      IsSide graph subsets operation errors
        (.type operation.returnType (operation.sideName graph errors))
  | subset {union : UnionType} {name : String} :
      graph.kind? operation.returnType = some (.union union) →
      2 ≤ (union.side graph errors).length →
      (union.side graph errors).length ≠ union.variants.length →
      subsets.lookup (operation.returnType, operation.sideName graph errors) = some name →
      IsSide graph subsets operation errors (.union ⟨syntheticPath, name⟩)

/-- Whether a split is that of an operation with the given reference. -/
def IsSplit (graph : TypeGraph) (subsets : List ((TypeId × String) × String))
    (reference : OperationRef) (split : ReturnSplit) : Prop :=
  ∃ operation ∈ graph.operations reference.container, operation.name = reference.name
    ∧ IsSide graph subsets operation false split.success
    ∧ IsSide graph subsets operation true split.error

namespace Draft

/-- Whether a module exists and holds neither the declarations of a namespace nor the synthetic
ones. -/
structure IsFree (draft : Draft) (m : ModuleId) : Prop where
  exists_module : m.index < draft.modules.size
  ne_synthetic : m ≠ .synthetic
  not_placed : ∀ id, draft.moduleOf? id ≠ some m

/-- Whether a module is that of the namespace that another one lies in.  The global namespace has
its module from the start. -/
def Encloses (graph : TypeGraph) (draft : Draft) (parent : ModuleId) (id : NamespaceId) : Prop :=
  ∃ outer ids, graph.chain outer = some ids ∧ graph.chain id = some (ids ++ [id])
    ∧ (outer = .global ∧ parent = .global ∨ draft.moduleOf? outer = some parent)

/-! ### Changes -/

/-- What a drafting step can do to a draft at once. -/
inductive Change (graph : TypeGraph) : Draft → Draft → Prop where
  | report (draft : Draft) (diagnostic : Diagnostic) :
      Change graph draft { draft with diagnostics := draft.diagnostics ++ [diagnostic] }
  | request (draft : Draft) {declaration : DeclarationRef} : graph.Declares declaration →
      Change graph draft { draft with declarations := draft.declarations.add declaration }
  | openModule (draft : Draft) {parent : ModuleId} {id : NamespaceId} :
      draft.moduleOf? id = none → draft.Encloses graph parent id →
      Change graph draft (draft.openModule graph parent id).2
  | nameAnonymous (draft : Draft) {id : TypeId} {base : String} : graph.Declares (.type id) →
      draft.anonymous.lookup id = none → (Words.parse base).isEmpty = false →
      Change graph draft (draft.nameAnonymous id base).2
  | nameSubset (draft : Draft) {id : TypeId} {variants : List Nat} {base : String} :
      graph.ReturnsSubset id variants base → draft.subsets.lookup (id, base) = none →
      Change graph draft (draft.nameSubset id variants base).2
  | split (draft : Draft) {reference : OperationRef} {split : ReturnSplit} :
      draft.splits.lookup reference = none → IsSplit graph draft.subsets reference split →
      Change graph draft { draft with splits := (reference, split) :: draft.splits }
  | addModule (draft : Draft) (parent : ModuleId) (name : String) (inline : Bool) (doc : String) :
      Change graph draft (Drafting.exec (Drafting.addModule parent name inline doc) draft).2
  | write (draft : Draft) {m : ModuleId} (lines : List String) : draft.IsFree m →
      Change graph draft
        { draft with modules := draft.modules.appendText m (Text.unlines lines) }

/-- Any number of changes. -/
def Growth (graph : TypeGraph) : Draft → Draft → Prop :=
  Relation.ReflTransGen (Change graph)

/-! ### What stays -/

/-- Whether a draft knows all that another one knows: the modules of namespaces and their paths, the
declarations that were requested, the names of synthetic declarations and the splits. -/
structure Later (d e : Draft) : Prop where
  size : d.modules.size ≤ e.modules.size
  path : ∀ m : ModuleId, m.index < d.modules.size → e.modules.path m = d.modules.path m
  place : ∀ id m, d.moduleOf? id = some m → e.moduleOf? id = some m
  accepted : ∀ declaration ∈ d.declarations.items, declaration ∈ e.declarations.items
  anonymous : ∀ id name, d.anonymous.lookup id = some name → e.anonymous.lookup id = some name
  subset : ∀ key name, d.subsets.lookup key = some name → e.subsets.lookup key = some name
  split : ∀ reference split, d.splits.lookup reference = some split →
    e.splits.lookup reference = some split

namespace Later

/-- A draft knows what it knows. -/
theorem refl (d : Draft) : Later d d where
  size := Nat.le_refl _
  path _ _ := rfl
  place _ _ h := h
  accepted _ h := h
  anonymous _ _ h := h
  subset _ _ h := h
  split _ _ h := h

/-- What is known once stays known. -/
theorem trans {c d e : Draft} (hcd : Later c d) (hde : Later d e) : Later c e where
  size := Nat.le_trans hcd.size hde.size
  path m h := (hde.path m (Nat.lt_of_lt_of_le h hcd.size)).trans (hcd.path m h)
  place id m h := hde.place id m (hcd.place id m h)
  accepted ref h := hde.accepted ref (hcd.accepted ref h)
  anonymous id name h := hde.anonymous id name (hcd.anonymous id name h)
  subset key name h := hde.subset key name (hcd.subset key name h)
  split ref split h := hde.split ref split (hcd.split ref split h)

end Later

/-- What is found is an entry. -/
theorem mem_of_lookup {α β : Type} [BEq α] [LawfulBEq α] {entries : List (α × β)} {key : α}
    {value : β} (h : entries.lookup key = some value) :
  (key, value) ∈ entries
  := by
  obtain ⟨before, after, rfl, -⟩ := List.lookup_eq_some_iff.mp h
  simp

/-- An entry with a new key hides no other entry. -/
theorem lookup_cons_of_new {α β : Type} [BEq α] [LawfulBEq α] {entries : List (α × β)}
    {key other : α} {value found : β} (hkey : entries.lookup key = none)
    (h : entries.lookup other = some found) :
  ((key, value) :: entries).lookup other = some found
  := by
  have hne : other ≠ key := by
    rintro rfl
    rw [h] at hkey
    cases hkey
  rw [List.lookup_cons, beq_false_of_ne hne]
  apply h

variable {graph : TypeGraph} {d e : Draft}

/-- A namespace without a module gets the next one. -/
theorem openModule_of_new {id : NamespaceId} (h : d.moduleOf? id = none) (parent : ModuleId) :
  d.openModule graph parent id = (⟨d.modules.size⟩,
    { d with
      modules := ((d.modules.addChild parent (Identifier.valueName (graph.namespaceName id))
        .everywhere false).2.setOrigin ⟨d.modules.size⟩ id).setDoc ⟨d.modules.size⟩
          ((graph.namespace? id).bind (·.doc))
      places := (id, ⟨d.modules.size⟩) :: d.places })
  := by
  rw [openModule, h]
  rfl

/-- The modules of namespaces after one of them got its module. -/
theorem moduleOf?_openModule {id : NamespaceId} (h : d.moduleOf? id = none) (parent : ModuleId)
    (other : NamespaceId) :
  (d.openModule graph parent id).2.moduleOf? other
    = if other = id then some ⟨d.modules.size⟩ else d.moduleOf? other
  := by
  rw [openModule_of_new h, moduleOf?, List.lookup_cons]
  by_cases hother : other = id
  · simp [hother]
  · rw [beq_false_of_ne hother, if_neg hother]
    rfl

/-- A module of a namespace is an old one, or it is the new one of the namespace that got it. -/
theorem moduleOf?_openModule_cases {id other : NamespaceId} {parent m : ModuleId}
    (h : d.moduleOf? id = none)
    (hother : (d.openModule graph parent id).2.moduleOf? other = some m) :
  (other = id ∧ m = ⟨d.modules.size⟩) ∨ d.moduleOf? other = some m
  := by
  rw [moduleOf?_openModule h] at hother
  split at hother
  case isTrue heq => exact Or.inl ⟨heq, (Option.some.inj hother).symm⟩
  case isFalse => exact Or.inr hother

/-- A text added to any module takes back no decision. -/
theorem later_appendText (d : Draft) (m : ModuleId) (body : String) :
  Later d { d with modules := d.modules.appendText m body }
  := by
  refine { Later.refl d with size := ?_, path := ?_ }
  · simp
  · simp

/-- A request takes back no decision. -/
theorem later_request (d : Draft) (declaration : DeclarationRef) :
  Later d { d with declarations := d.declarations.add declaration }
  := by
  refine { Later.refl d with accepted := ?_ }
  intro other hother
  rw [Worklist.mem_items_add]
  apply Or.inl hother

/-- Handing out a declaration takes back no decision. -/
theorem later_take {declaration : DeclarationRef} {rest : Worklist DeclarationRef}
    (htake : d.declarations.take? = some (declaration, rest)) :
  Later d { d with declarations := rest }
  := by
  refine { Later.refl d with accepted := ?_ }
  intro other hother
  rw [Worklist.items_take? htake]
  apply hother

/-- A name for a subset without one takes back no decision. -/
theorem later_nameSubset {id : TypeId} {base : String} (h : d.subsets.lookup (id, base) = none)
    (variants : List Nat) :
  Later d (d.nameSubset id variants base).2
  := by
  refine { Later.refl d with subset := ?_ }
  intro other name hname
  apply lookup_cons_of_new h hname

/-- A split of an operation without one takes back no decision. -/
theorem later_split {reference : OperationRef} (h : d.splits.lookup reference = none)
    (split : ReturnSplit) :
  Later d { d with splits := (reference, split) :: d.splits }
  := by
  refine { Later.refl d with split := ?_ }
  intro other known hknown
  apply lookup_cons_of_new h hknown

/-- A module for a namespace without one takes back no decision. -/
theorem later_openModule {id : NamespaceId} (h : d.moduleOf? id = none) (parent : ModuleId) :
  Later d (d.openModule graph parent id).2
  := by
  rw [openModule_of_new h]
  refine { Later.refl d with size := ?_, path := ?_, place := ?_ }
  · simp
  · intro m hm
    simp [ModuleTree.path_addChild _ _ _ _ _ hm]
  · intro other m hm
    apply lookup_cons_of_new h hm

/-- A change takes back no decision. -/
theorem Change.later (h : Change graph d e) : Later d e := by
  cases h with
  | report diagnostic => exact { Later.refl d with }
  | request _ => apply later_request
  | openModule hid _ => apply later_openModule hid
  | nameAnonymous _ hid _ =>
      refine { Later.refl d with anonymous := ?_ }
      intro other name hname
      apply lookup_cons_of_new hid hname
  | nameSubset _ hkey => apply later_nameSubset hkey
  | split hreference _ => apply later_split hreference
  | addModule parent name inline doc =>
      refine { Later.refl d with size := ?_, path := ?_ }
      · simp
      · intro m hm
        simp [ModuleTree.path_addChild _ _ _ _ _ hm]
  | write lines _ => apply later_appendText

/-- Whether the global namespace has its module and the modules of all namespaces exist. -/
structure Placed (d : Draft) : Prop where
  global : d.moduleOf? .global = some .global
  place_lt : ∀ id m, d.moduleOf? id = some m → m.index < d.modules.size

/-- Namespaces stay placed while none gets a module. -/
theorem Placed.later (h : Placed d) (hlater : Later d e)
    (hplaces : ∀ id m, e.moduleOf? id = some m → d.moduleOf? id = some m) :
  Placed e where
  global := hlater.place _ _ h.global
  place_lt id m hm := Nat.lt_of_lt_of_le (h.place_lt id m (hplaces id m hm)) hlater.size

theorem Placed.openModule (h : Placed d) {id : NamespaceId} (hid : d.moduleOf? id = none)
    (parent : ModuleId) :
  Placed (d.openModule graph parent id).2
  := by
  have hlater := @later_openModule graph d id hid parent
  use hlater.place _ _ h.global
  intro other m hm
  rcases moduleOf?_openModule_cases hid hm with ⟨-, rfl⟩ | hm
  · rw [openModule_of_new hid]
    simp
  · apply Nat.lt_of_lt_of_le (h.place_lt other m hm) hlater.size

/-- A change leaves namespaces placed. -/
theorem Change.placed (hchange : Change graph d e) (h : Placed d) : Placed e := by
  have hlater := hchange.later
  cases hchange with
  | openModule hid _ => apply h.openModule hid
  | _ => apply h.later hlater fun _ _ hm => hm

/-- Growth leaves namespaces placed. -/
theorem Growth.placed (hgrowth : Growth graph d e) (h : Placed d) : Placed e := by
  induction hgrowth with
  | refl => apply h
  | tail _ hchange ih => apply hchange.placed ih

/-- Growth takes back no decision. -/
theorem Growth.later (h : Growth graph d e) : Later d e := by
  induction h with
  | refl => apply Later.refl
  | tail _ hchange ih => apply ih.trans hchange.later

/-- Whether namespaces are placed and the module of synthetic declarations exists. -/
structure Founded (d : Draft) : Prop extends Placed d where
  synthetic_lt : ModuleId.synthetic.index < d.modules.size

/-- Growth leaves a draft founded. -/
theorem Growth.founded (hgrowth : Growth graph d e) (h : Founded d) : Founded e where
  toPlaced := hgrowth.placed h.toPlaced
  synthetic_lt := Nat.lt_of_lt_of_le h.synthetic_lt hgrowth.later.size

end Draft

end ServiceBindings
