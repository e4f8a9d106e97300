import Mathlib.Data.List.Basic
import Mathlib.Tactic.Use
import ServiceBindings.Schema.Link

/-!
# What linking lists

After linking, a namespace lists exactly the namespaces whose parent it is as its children, and
exactly the named declarations that belong to it as its declarations.
-/

namespace ServiceBindings

namespace TypeGraph

/-- The parent of a namespace. -/
def parent? (graph : TypeGraph) (id : NamespaceId) : Option NamespaceId :=
  (graph.namespace? id).bind (·.parent)

/-- The children that a namespace lists. -/
def childrenOf (graph : TypeGraph) (id : NamespaceId) : List NamespaceId :=
  ((graph.namespace? id).map (·.children)).getD []

/-- The declarations that a namespace lists. -/
def declarationsOf (graph : TypeGraph) (id : NamespaceId) : List TypeId :=
  ((graph.namespace? id).map (·.declarations)).getD []

/-- The namespace that lists a type among its declarations. -/
def listing? (graph : TypeGraph) (id : TypeId) : Option NamespaceId :=
  (graph.kind? id).bind (·.listingNamespace)

/-- Whether the lists of a graph are what its parents and its types say. -/
structure Linked (graph : TypeGraph) : Prop where
  mem_children : ∀ id child, child ∈ graph.childrenOf id ↔ graph.parent? child = some id
  mem_declarations : ∀ id type, type ∈ graph.declarationsOf id ↔ graph.listing? type = some id

/-! ### Changing a namespace -/

variable {graph : TypeGraph}

theorem namespace?_modifyNamespace (id other : NamespaceId) (f : Namespace → Namespace) :
  (graph.modifyNamespace id f).namespace? other
    = if other = id then (graph.namespace? id).map f else graph.namespace? other
  := by
  obtain ⟨i⟩ := id
  obtain ⟨j⟩ := other
  simp only [modifyNamespace, namespace?, List.getElem?_modify, NamespaceId.mk.injEq]
  by_cases h : j = i
  · simp [h]
  · simp [h, Ne.symm h]

/-- What a change keeps of a namespace stays what it is. -/
theorem map_modifyNamespace {α : Type} {f : Namespace → Namespace} {view : Namespace → α}
    (hf : ∀ ns, view (f ns) = view ns) (id other : NamespaceId) :
  ((graph.modifyNamespace id f).namespace? other).map view = (graph.namespace? other).map view
  := by
  rw [namespace?_modifyNamespace]
  split
  case isTrue h =>
    rw [h, Option.map_map]
    congr 1
    funext ns
    apply hf
  case isFalse => rfl

/-- Two graphs with the same types and with the same parents and operations of namespaces. -/
structure SameShape (graph other : TypeGraph) : Prop where
  types : other.types = graph.types
  length : other.namespaces.length = graph.namespaces.length
  parent : ∀ id, other.parent? id = graph.parent? id
  operations : other.namespaces.map (·.operations) = graph.namespaces.map (·.operations)

theorem SameShape.refl (graph : TypeGraph) : SameShape graph graph where
  types := rfl
  length := rfl
  parent _ := rfl
  operations := rfl

theorem SameShape.trans {other third : TypeGraph} (h : SameShape graph other)
    (h' : SameShape other third) :
  SameShape graph third where
  types := h'.types.trans h.types
  length := h'.length.trans h.length
  parent id := (h'.parent id).trans (h.parent id)
  operations := h'.operations.trans h.operations

theorem SameShape.listing? {other : TypeGraph} (h : SameShape graph other) (id : TypeId) :
  other.listing? id = graph.listing? id
  := by
  rw [TypeGraph.listing?, TypeGraph.listing?, kind?, kind?, type?, type?, h.types]

/-- A change of the lists of a namespace keeps the shape. -/
theorem sameShape_modifyNamespace (id : NamespaceId) {f : Namespace → Namespace}
    (hf : ∀ ns, (f ns).parent = ns.parent) (hoperations : ∀ ns, (f ns).operations = ns.operations) :
  SameShape graph (graph.modifyNamespace id f) where
  types := rfl
  length := List.length_modify ..
  parent other := by
    rw [parent?, parent?, namespace?_modifyNamespace]
    split
    case isTrue h =>
      rw [h, Option.bind_map]
      congr 1
      funext ns
      apply hf
    case isFalse => rfl
  operations := by
    apply List.ext_getElem?
    intro i
    rw [List.getElem?_map, List.getElem?_map]
    apply map_modifyNamespace hoperations id ⟨i⟩

/-! ### Children -/

variable {parent child : NamespaceId}

theorem sameShape_listChild : SameShape graph (graph.listChild parent child) :=
  sameShape_modifyNamespace parent (fun _ => rfl) fun _ => rfl

theorem declarationsOf_listChild (id : NamespaceId) :
  (graph.listChild parent child).declarationsOf id = graph.declarationsOf id
  := by
  have h : ((graph.listChild parent child).namespace? id).map (·.declarations)
      = (graph.namespace? id).map (·.declarations) := by
    apply map_modifyNamespace
    intro ns
    rfl
  rw [declarationsOf, h]
  rfl

/-- A namespace that is listed comes last among the children of its parent. -/
theorem childrenOf_listChild (hparent : parent.index < graph.namespaces.length)
    (id : NamespaceId) :
  (graph.listChild parent child).childrenOf id
    = graph.childrenOf id ++ if id = parent then [child] else []
  := by
  have hns : graph.namespace? parent = some graph.namespaces[parent.index] :=
    List.getElem?_eq_getElem hparent
  rw [childrenOf, childrenOf, listChild, namespace?_modifyNamespace]
  split
  case isTrue h => rw [h, hns]; rfl
  case isFalse => rw [List.append_nil]

/-- A namespace with a parent has one that exists. -/
theorem parentOf_eq_ok (h : graph.parentOf child = .ok parent) :
  graph.parent? child = some parent ∧ parent.index < graph.namespaces.length
  := by
  rw [parentOf] at h
  split at h
  case h_1 => cases h
  case h_2 found hfound =>
    rw [checkNamespace] at h
    split at h
    case isTrue hlt =>
      cases h
      use hfound
    case isFalse => cases h

/-- Each namespace is listed in its parent, and nothing else changes. -/
theorem linkChildren_eq_none {linked : TypeGraph} {ids : List NamespaceId}
    (h : graph.linkChildren ids = (linked, none)) :
  SameShape graph linked ∧ (∀ id, linked.declarationsOf id = graph.declarationsOf id)
    ∧ ∀ id, linked.childrenOf id
      = graph.childrenOf id ++ ids.filter fun child => graph.parent? child = some id
  := by
  induction ids generalizing graph with
  | nil =>
      cases h
      use SameShape.refl _, fun _ => rfl
      intro id
      rw [List.filter_nil, List.append_nil]
  | cons child ids ih =>
      rw [linkChildren] at h
      split at h
      case h_1 => cases h
      case h_2 parent hparent =>
        obtain ⟨hparent, hlt⟩ := parentOf_eq_ok hparent
        obtain ⟨hshape, hdeclarations, hchildren⟩ := ih h
        have hlisted : SameShape graph (graph.listChild parent child) := sameShape_listChild
        refine ⟨hlisted.trans hshape, ?_, ?_⟩
        · intro id
          rw [hdeclarations, declarationsOf_listChild]
        · intro id
          rw [hchildren, childrenOf_listChild hlt, List.append_assoc, List.filter_cons, hparent]
          simp only [hlisted.parent]
          by_cases hid : id = parent
          · simp [hid]
          · simp [hid, Ne.symm hid]

/-! ### Declarations -/

variable {owner : NamespaceId} {type : TypeId}

theorem sameShape_listDeclaration : SameShape graph (graph.listDeclaration owner type) :=
  sameShape_modifyNamespace owner (fun _ => rfl) fun _ => rfl

theorem childrenOf_listDeclaration (id : NamespaceId) :
  (graph.listDeclaration owner type).childrenOf id = graph.childrenOf id
  := by
  have h : ((graph.listDeclaration owner type).namespace? id).map (·.children)
      = (graph.namespace? id).map (·.children) := by
    apply map_modifyNamespace
    intro ns
    rfl
  rw [childrenOf, h]
  rfl

/-- A declaration that is listed comes last among the declarations of its namespace. -/
theorem declarationsOf_listDeclaration (howner : owner.index < graph.namespaces.length)
    (id : NamespaceId) :
  (graph.listDeclaration owner type).declarationsOf id
    = graph.declarationsOf id ++ if id = owner then [type] else []
  := by
  have hns : graph.namespace? owner = some graph.namespaces[owner.index] :=
    List.getElem?_eq_getElem howner
  rw [declarationsOf, declarationsOf, listDeclaration, namespace?_modifyNamespace]
  split
  case isTrue h => rw [h, hns]; rfl
  case isFalse => rw [List.append_nil]

/-- The namespace of a type that passes the check exists. -/
theorem owner_lt_of_checkKind {kind : TypeKind} (h : graph.checkKind kind = .ok ())
    (howner : kind.owner = some owner) :
  owner.index < graph.namespaces.length
  := by
  rw [checkKind, howner] at h
  by_contra hlt
  simp [checkAll, checkNamespace, hlt, bind, Except.bind] at h

theorem listingNamespace_eq_some {kind : TypeKind} :
  kind.listingNamespace = some owner
    ↔ kind.isDeclaration = true ∧ kind.declaredName.isSome = true ∧ kind.owner = some owner
  := by
  rw [TypeKind.listingNamespace]
  split
  case isTrue h =>
    rw [Bool.and_eq_true_iff] at h
    simp [h]
  case isFalse h =>
    rw [Bool.and_eq_true_iff, not_and] at h
    simp only [reduceCtorEq, false_iff, not_and]
    intro hdeclaration hname
    apply absurd hname (h hdeclaration)

theorem sameShape_linkType (type : TypeId) (kind : TypeKind) :
  SameShape graph (graph.linkType type kind)
  := by
  rw [linkType]
  split
  case h_1 => apply sameShape_listDeclaration
  case h_2 => apply SameShape.refl

theorem childrenOf_linkType (type : TypeId) (kind : TypeKind) (id : NamespaceId) :
  (graph.linkType type kind).childrenOf id = graph.childrenOf id
  := by
  rw [linkType]
  split
  case h_1 => apply childrenOf_listDeclaration
  case h_2 => rfl

/-- A named declaration comes last among the declarations of its namespace, if that exists. -/
theorem declarationsOf_linkType (type : TypeId) {kind : TypeKind}
    (howner : ∀ owner, kind.listingNamespace = some owner → owner.index < graph.namespaces.length)
    (id : NamespaceId) :
  (graph.linkType type kind).declarationsOf id
    = graph.declarationsOf id ++ if kind.listingNamespace = some id then [type] else []
  := by
  rw [linkType]
  split
  case h_1 owner hlisting =>
    rw [declarationsOf_listDeclaration (howner owner hlisting), hlisting]
    simp [eq_comm]
  case h_2 hlisting => simp [hlisting]

/-- Each named declaration is listed in its namespace, and nothing else changes. -/
theorem linkTypes_eq_none {linked : TypeGraph} {kinds : List (TypeId × TypeKind)}
    (h : graph.linkTypes kinds = (linked, none)) :
  SameShape graph linked ∧ (∀ id, linked.childrenOf id = graph.childrenOf id)
    ∧ ∀ id, linked.declarationsOf id = graph.declarationsOf id
      ++ (kinds.filter fun entry => entry.2.listingNamespace = some id).map (·.1)
  := by
  induction kinds generalizing graph with
  | nil =>
      cases h
      use SameShape.refl _, fun _ => rfl
      intro id
      rw [List.filter_nil, List.map_nil, List.append_nil]
  | cons entry kinds ih =>
      obtain ⟨type, kind⟩ := entry
      rw [linkTypes] at h
      split at h
      case h_1 => cases h
      case h_2 hcheck =>
        have howner : ∀ owner, kind.listingNamespace = some owner →
            owner.index < graph.namespaces.length :=
          fun owner hlisting => owner_lt_of_checkKind hcheck
            (listingNamespace_eq_some.mp hlisting).2.2
        obtain ⟨hshape, hchildren, hdeclarations⟩ := ih h
        refine ⟨(sameShape_linkType type kind).trans hshape, ?_, ?_⟩
        · intro id
          rw [hchildren, childrenOf_linkType]
        · intro id
          rw [hdeclarations, declarationsOf_linkType type howner, List.append_assoc,
            List.filter_cons]
          by_cases hid : kind.listingNamespace = some id
          · simp [hid]
          · simp [hid]

/-! ### The whole graph -/

theorem mem_positionedKinds {kind : TypeKind} :
  (type, kind) ∈ graph.positionedKinds ↔ graph.kind? type = some kind
  := by
  obtain ⟨i⟩ := type
  simp [positionedKinds, kind?, type?, List.mk_mem_zipIdx_iff_getElem?]

theorem namespace?_clearLists (id : NamespaceId) :
  graph.clearLists.namespace? id
    = (graph.namespace? id).map fun ns => { ns with children := [], declarations := [] } :=
  List.getElem?_map

theorem parent?_clearLists (id : NamespaceId) : graph.clearLists.parent? id = graph.parent? id := by
  rw [parent?, namespace?_clearLists, Option.bind_map]
  rfl

theorem sameShape_clearLists : SameShape graph graph.clearLists where
  types := rfl
  length := List.length_map _
  parent := parent?_clearLists
  operations := by
    rw [clearLists, List.map_map]
    rfl

theorem childrenOf_clearLists (id : NamespaceId) : graph.clearLists.childrenOf id = [] := by
  rw [childrenOf, namespace?_clearLists]
  cases graph.namespace? id <;> rfl

theorem declarationsOf_clearLists (id : NamespaceId) :
  graph.clearLists.declarationsOf id = []
  := by
  rw [declarationsOf, namespace?_clearLists]
  cases graph.namespace? id <;> rfl

/-- A namespace with a parent exists and is not the first one, if that has none. -/
theorem mem_tail_namespaceIds {global : Namespace} {rest : List Namespace}
    (hnamespaces : graph.namespaces = global :: rest) (hglobal : global.parent = none)
    (h : graph.parent? child = some parent) :
  child ∈ graph.namespaceIds.tail
  := by
  obtain ⟨ns, hns, hparent⟩ := Option.bind_eq_some_iff.mp h
  obtain ⟨i⟩ := child
  rw [namespace?, hnamespaces] at hns
  cases i with
  | zero =>
      cases hns
      rw [hglobal] at hparent
      cases hparent
  | succ i =>
      have hlt : i < rest.length := Nat.lt_of_succ_lt_succ (List.getElem?_eq_some_iff.mp hns).1
      rw [namespaceIds, hnamespaces, List.length_cons, List.range_succ_eq_map]
      simpa using hlt

/-- A graph whose first namespace has no parent is linked in steps: its children are listed, the
operations of its namespaces are checked, and its declarations are listed. -/
theorem link_eq_none {linked : TypeGraph} :
  graph.link = (linked, none) ↔ ∃ global rest middle, graph.namespaces = global :: rest
    ∧ global.parent = none
    ∧ linkChildren graph.clearLists graph.namespaceIds.tail = (middle, none)
    ∧ checkAll middle.checkOperation (middle.namespaces.flatMap (·.operations)) = .ok ()
    ∧ linkTypes middle middle.positionedKinds = (linked, none)
  := by
  constructor
  · intro h
    rw [link] at h
    split at h
    case h_1 => cases h
    case h_2 global rest hnamespaces =>
      split at h
      case isTrue => cases h
      case isFalse hglobal =>
        split at h
        case h_1 => cases h
        case h_2 middle hmiddle =>
          split at h
          case h_1 => cases h
          case h_2 hchecked =>
            exact ⟨global, rest, middle, hnamespaces, by simpa using hglobal, hmiddle, hchecked, h⟩
  · rintro ⟨global, rest, middle, hnamespaces, hglobal, hmiddle, hchecked, htypes⟩
    rw [link, hnamespaces]
    dsimp only
    rw [hglobal, if_neg (by simp), hmiddle]
    dsimp only
    rw [hchecked]
    exact htypes

/-- A graph that was linked has the lists that its parents and types say. -/
theorem linked_of_link {linked : TypeGraph} (h : graph.link = (linked, none)) : linked.Linked := by
  obtain ⟨global, rest, middle, hnamespaces, hglobal, hmiddle, -, htypes⟩ := link_eq_none.mp h
  obtain ⟨hshape, hdeclarations, hchildren⟩ := linkChildren_eq_none hmiddle
  obtain ⟨hshape', hchildren', hdeclarations'⟩ := linkTypes_eq_none htypes
  constructor
  · intro id child
    rw [hchildren', hchildren, childrenOf_clearLists, List.nil_append, List.mem_filter,
      hshape'.parent, hshape.parent, parent?_clearLists, decide_eq_true_iff]
    apply and_iff_right_of_imp
    apply mem_tail_namespaceIds hnamespaces hglobal
  · intro id type
    rw [hdeclarations', hdeclarations, declarationsOf_clearLists, List.nil_append,
      List.mem_map, hshape'.listing?, listing?, Option.bind_eq_some_iff]
    constructor
    · rintro ⟨⟨type, kind⟩, hmem, rfl⟩
      obtain ⟨hkind, hlisting⟩ := List.mem_filter.mp hmem
      use kind, mem_positionedKinds.mp hkind
      apply of_decide_eq_true hlisting
    · rintro ⟨kind, hkind, hlisting⟩
      use (type, kind)
      rw [List.mem_filter]
      use ⟨mem_positionedKinds.mpr hkind, decide_eq_true hlisting⟩

/-- A graph that was linked has a global namespace, which has no parent. -/
theorem global_of_link {linked : TypeGraph} (h : graph.link = (linked, none)) :
  linked.namespaces.length ≠ 0 ∧ linked.parent? .global = none
  := by
  obtain ⟨global, rest, middle, hnamespaces, hglobal, hmiddle, -, htypes⟩ := link_eq_none.mp h
  have hshape := (linkChildren_eq_none hmiddle).1.trans (linkTypes_eq_none htypes).1
  constructor
  · rw [hshape.length, clearLists, List.length_map, hnamespaces]
    apply Nat.succ_ne_zero
  · rw [hshape.parent, parent?_clearLists, parent?, namespace?, hnamespaces]
    apply hglobal

end TypeGraph

/-- The graph of a schema was linked from the given one, and its service is the given one. -/
theorem Schema.link_of_make {graph : TypeGraph} {service : Service} {schema : Schema}
    (h : Schema.make graph service = .ok schema) :
  graph.link = (schema.graph, none) ∧ schema.service = service
  := by
  rw [make] at h
  split at h
  case h_1 => cases h
  case h_2 linked hlink =>
    cases hcheck : checkService linked service with
    | error error =>
        rw [hcheck] at h
        cases h
    | ok _ =>
        rw [hcheck] at h
        cases h
        use hlink

/-- The graph of a schema is linked, and its service is the given one. -/
theorem Schema.linked_of_make {graph : TypeGraph} {service : Service} {schema : Schema}
    (h : Schema.make graph service = .ok schema) :
  schema.graph.Linked ∧ schema.service = service
  := by
  obtain ⟨hlink, hservice⟩ := link_of_make h
  use TypeGraph.linked_of_link hlink

end ServiceBindings
