import Mathlib.Data.List.Sort
import ServiceBindings.Proofs.Schema.Validation

/-!
# Lists that are kept and lists that are rebuilt

The children and declarations of a namespace are listed in two ways.  A namespace or a type is
listed as it is added to a graph, and linking empties all lists and fills them anew.  `Indexed` says
what the lists of a graph should be.  Only one graph with given namespaces and types satisfies it,
so linking does not change a graph that does.
-/

namespace ServiceBindings

/-! ### Increasing lists -/

/-- Whether a list holds exactly the items with a property, by increasing position. -/
structure ListsExactly {α : Type} (position : α → Nat) (property : α → Prop) (items : List α) :
    Prop where
  increasing : items.Pairwise fun first second => position first < position second
  mem_iff : ∀ item, item ∈ items ↔ property item

namespace ListsExactly

variable {α : Type} {position : α → Nat} {property other : α → Prop} {items : List α}

/-- There is only one increasing list of the items with a property. -/
theorem unique {items' : List α} (h : ListsExactly position property items)
    (h' : ListsExactly position property items') :
  items = items'
  := by
  have hirrefl : Std.Irrefl fun first second => position first < position second :=
    ⟨fun item => Nat.lt_irrefl (position item)⟩
  have hantisymm : Std.Antisymm fun first second => position first < position second :=
    ⟨fun _ _ hlt hgt => absurd hlt (Nat.lt_asymm hgt)⟩
  apply h.increasing.eq_of_mem_iff h'.increasing
  intro item
  rw [h.mem_iff, h'.mem_iff]

theorem congr (h : ListsExactly position property items)
    (hproperty : ∀ item, property item ↔ other item) :
  ListsExactly position other items where
  increasing := h.increasing
  mem_iff item := (h.mem_iff item).trans (hproperty item)

/-- An item after all others is listed last, if it is to be listed. -/
theorem extend {last : α} (h : ListsExactly position property items)
    (hlast : ∀ item ∈ items, position item < position last) (listed : Prop) [Decidable listed] :
  ListsExactly position (fun item => property item ∨ item = last ∧ listed)
    (items ++ if listed then [last] else [])
  := by
  split
  case isTrue hlisted =>
    constructor
    · rw [List.pairwise_append]
      refine ⟨h.increasing, List.pairwise_singleton _ _, ?_⟩
      intro item hitem other hother
      obtain rfl := List.mem_singleton.mp hother
      apply hlast item hitem
    · intro item
      rw [List.mem_append, List.mem_singleton, h.mem_iff, and_iff_left hlisted]
  case isFalse hlisted =>
    rw [List.append_nil]
    apply h.congr
    intro item
    rw [or_iff_left fun hitem => hlisted hitem.2]

end ListsExactly

namespace TypeGraph

variable {graph other : TypeGraph}

/-! ### What the lists should be -/

/-- Whether a type is a declaration with a name that belongs to a namespace. -/
def DeclaredIn (graph : TypeGraph) (type : TypeId) (id : NamespaceId) : Prop :=
  ∃ kind, graph.kind? type = some kind ∧ kind.isDeclaration = true
    ∧ kind.declaredName.isSome = true ∧ kind.owner = some id

/-- Whether each namespace lists exactly the namespaces other than the global one whose parent it
is, and exactly the named declarations that belong to it, both by increasing position. -/
structure Indexed (graph : TypeGraph) : Prop where
  children : ∀ id, ListsExactly NamespaceId.index
    (fun child => child ≠ .global ∧ graph.parent? child = some id) (graph.childrenOf id)
  declarations : ∀ id, ListsExactly TypeId.index
    (fun type => graph.DeclaredIn type id) (graph.declarationsOf id)

theorem listing?_eq_some {type : TypeId} {id : NamespaceId} :
  graph.listing? type = some id ↔ graph.DeclaredIn type id
  := by
  simp only [listing?, DeclaredIn, Option.bind_eq_some_iff, listingNamespace_eq_some]

/-! ### Graphs that differ in their lists -/

/-- A change of the lists of a namespace changes nothing else. -/
theorem clearLists_modifyNamespace {f : Namespace → Namespace}
    (hf : ∀ ns : Namespace, { f ns with children := [], declarations := [] }
      = { ns with children := [], declarations := [] }) (id : NamespaceId) :
  (graph.modifyNamespace id f).clearLists = graph.clearLists
  := by
  rw [clearLists, clearLists, TypeGraph.mk.injEq]
  constructor
  · apply List.ext_getElem?
    intro i
    rw [List.getElem?_map, List.getElem?_map]
    apply map_modifyNamespace hf id ⟨i⟩
  · rfl

theorem clearLists_listChild (parent child : NamespaceId) :
  (graph.listChild parent child).clearLists = graph.clearLists
  := by
  apply clearLists_modifyNamespace
  intro ns
  rfl

theorem clearLists_listDeclaration (owner : NamespaceId) (type : TypeId) :
  (graph.listDeclaration owner type).clearLists = graph.clearLists
  := by
  apply clearLists_modifyNamespace
  intro ns
  rfl

theorem clearLists_linkChildren (graph : TypeGraph) (ids : List NamespaceId) :
  (graph.linkChildren ids).1.clearLists = graph.clearLists
  := by
  induction ids generalizing graph with
  | nil => rfl
  | cons id ids ih =>
      rw [linkChildren]
      split
      case h_1 => rfl
      case h_2 => rw [ih, clearLists_listChild]

theorem clearLists_linkTypes (graph : TypeGraph) (kinds : List (TypeId × TypeKind)) :
  (graph.linkTypes kinds).1.clearLists = graph.clearLists
  := by
  induction kinds generalizing graph with
  | nil => rfl
  | cons entry kinds ih =>
      rw [linkTypes]
      split
      case h_1 => rfl
      case h_2 =>
        rw [ih, linkType]
        split
        case h_1 => rw [clearLists_listDeclaration]
        case h_2 => rfl

/-- Linking changes the lists of namespaces and nothing else. -/
theorem clearLists_link {linked : TypeGraph} (h : graph.link = (linked, none)) :
  linked.clearLists = graph.clearLists
  := by
  obtain ⟨_, _, middle, -, -, hmiddle, -, htypes⟩ := link_eq_none.mp h
  have hchildren := clearLists_linkChildren graph.clearLists graph.namespaceIds.tail
  have hdeclarations := clearLists_linkTypes middle middle.positionedKinds
  rw [hmiddle] at hchildren
  rw [htypes] at hdeclarations
  rw [hdeclarations, hchildren, clearLists, clearLists, List.map_map]
  rfl

/-- Two graphs are the same if they are so up to their lists and list the same. -/
theorem eq_of_clearLists (hsame : other.clearLists = graph.clearLists)
    (hchildren : ∀ id, other.childrenOf id = graph.childrenOf id)
    (hdeclarations : ∀ id, other.declarationsOf id = graph.declarationsOf id) :
  other = graph
  := by
  rw [TypeGraph.mk.injEq]
  constructor
  · apply List.ext_getElem?
    intro i
    have hcleared : graph.clearLists.namespace? ⟨i⟩ = other.clearLists.namespace? ⟨i⟩ := by
      rw [hsame]
    have hchildren := hchildren ⟨i⟩
    have hdeclarations := hdeclarations ⟨i⟩
    rw [namespace?_clearLists, namespace?_clearLists] at hcleared
    rw [childrenOf, childrenOf] at hchildren
    rw [declarationsOf, declarationsOf] at hdeclarations
    change other.namespace? ⟨i⟩ = graph.namespace? ⟨i⟩
    cases hother : other.namespace? ⟨i⟩ with
    | none =>
        rw [hother, Option.map_none, Option.map_eq_none_iff] at hcleared
        rw [hcleared]
    | some ns =>
        rw [hother, Option.map_some, Option.map_eq_some_iff] at hcleared
        obtain ⟨found, hfound, hns⟩ := hcleared
        rw [hother, hfound] at hchildren hdeclarations
        obtain ⟨name, parent, doc, operations, children, declarations⟩ := ns
        obtain ⟨name', parent', doc', operations', children', declarations'⟩ := found
        obtain rfl : children = children' := hchildren
        obtain rfl : declarations = declarations' := hdeclarations
        cases hns
        apply hfound.symm
  · apply (TypeGraph.mk.inj hsame).2

/-- Two graphs that are the same up to their lists are the same if both are indexed. -/
theorem Indexed.unique (h : graph.Indexed) (h' : other.Indexed)
    (hsame : other.clearLists = graph.clearLists) :
  other = graph
  := by
  have htypes : other.types = graph.types := (TypeGraph.mk.inj hsame).2
  apply eq_of_clearLists hsame
  · intro id
    apply (h'.children id).unique
    apply (h.children id).congr
    intro child
    rw [← graph.parent?_clearLists, ← hsame, parent?_clearLists]
  · intro id
    apply (h'.declarations id).unique
    apply (h.declarations id).congr
    intro type
    rw [DeclaredIn, DeclaredIn, kind?, kind?, type?, type?, htypes]

/-! ### Linking -/

theorem positionedKinds_eq_map (graph : TypeGraph) :
  graph.positionedKinds.map (·.1) = graph.typeIds
  := by
  rw [positionedKinds, List.map_map, typeIds, List.range_eq_range', ← List.zipIdx_map_snd,
    List.map_map]
  rfl

/-- A graph that was linked is indexed. -/
theorem indexed_of_link {linked : TypeGraph} (h : graph.link = (linked, none)) :
  linked.Indexed
  := by
  obtain ⟨_, _, middle, -, -, hmiddle, -, htypes⟩ := link_eq_none.mp h
  obtain ⟨hshape, hdeclarations, hchildren⟩ := linkChildren_eq_none hmiddle
  obtain ⟨hshape', hchildren', hdeclarations'⟩ := linkTypes_eq_none htypes
  have hlinked := linked_of_link h
  constructor
  · intro id
    constructor
    · have hsorted : graph.namespaceIds.Pairwise fun first second => first.index < second.index :=
        List.pairwise_map.mpr List.pairwise_lt_range
      rw [hchildren', hchildren, childrenOf_clearLists, List.nil_append]
      apply (hsorted.sublist (List.tail_sublist _)).sublist List.filter_sublist
    · intro child
      rw [hlinked.mem_children]
      apply (and_iff_right_of_imp _).symm
      rintro hparent rfl
      rw [(global_of_link h).2] at hparent
      cases hparent
  · intro id
    constructor
    · have hsorted : middle.typeIds.Pairwise fun first second => first.index < second.index :=
        List.pairwise_map.mpr List.pairwise_lt_range
      rw [hdeclarations', hdeclarations, declarationsOf_clearLists, List.nil_append]
      rw [← positionedKinds_eq_map] at hsorted
      apply hsorted.sublist (List.filter_sublist.map _)
    · intro type
      rw [hlinked.mem_declarations, listing?_eq_some]

/-- The lists of a graph have no part in how it is linked. -/
theorem link_congr {linked : TypeGraph} (hsame : other.clearLists = graph.clearLists)
    (h : graph.link = (linked, none)) :
  other.link = (linked, none)
  := by
  obtain ⟨global, rest, middle, hnamespaces, hglobal, hmiddle, hrest⟩ := link_eq_none.mp h
  have hcleared := (TypeGraph.mk.inj hsame).1
  have hids : other.namespaceIds = graph.namespaceIds := by
    have hlength := congrArg List.length hcleared
    rw [List.length_map, List.length_map] at hlength
    rw [namespaceIds, namespaceIds, hlength]
  rw [hnamespaces, List.map_cons, List.map_eq_cons_iff] at hcleared
  obtain ⟨global', rest', hnamespaces', hsame', -⟩ := hcleared
  apply link_eq_none.mpr ⟨global', rest', middle, hnamespaces', ?_, ?_, hrest⟩
  · rw [← hglobal]
    apply congrArg Namespace.parent hsame'
  · rw [hsame, hids, hmiddle]

/-! ### Adding namespaces -/

theorem lt_of_parent? {id parent : NamespaceId} (h : graph.parent? id = some parent) :
  id.index < graph.namespaces.length
  := by
  obtain ⟨ns, hns, -⟩ := Option.bind_eq_some_iff.mp h
  apply (List.getElem?_eq_some_iff.mp hns).1

/-- An item at the end of a list is found at the length of the list. -/
theorem getElem?_concat_eq_some {α : Type} {items : List α} {last item : α} {i : Nat} :
  (items ++ [last])[i]? = some item ↔ items[i]? = some item ∨ i = items.length ∧ item = last
  := by
  grind

theorem parent?_addNamespace (name : String) (parent child id : NamespaceId) :
  (graph.addNamespace name parent).2.parent? child = some id
    ↔ graph.parent? child = some id ∨ child = ⟨graph.namespaces.length⟩ ∧ id = parent
  := by
  obtain ⟨i⟩ := child
  rw [addNamespace, sameShape_listChild.parent]
  simp only [parent?, namespace?, Option.bind_eq_some_iff, getElem?_concat_eq_some, or_and_right,
    exists_or, NamespaceId.mk.injEq]
  grind

theorem length_addNamespace (name : String) (parent : NamespaceId) :
  (graph.addNamespace name parent).2.namespaces.length = graph.namespaces.length + 1
  := by
  rw [addNamespace, sameShape_listChild.length, List.length_append, List.length_singleton]

theorem childrenOf_addNamespace (name : String) {parent : NamespaceId}
    (hparent : parent.index ≤ graph.namespaces.length) (id : NamespaceId) :
  (graph.addNamespace name parent).2.childrenOf id
    = graph.childrenOf id ++ if id = parent then [⟨graph.namespaces.length⟩] else []
  := by
  rw [addNamespace, childrenOf_listChild]
  · congr 1
    simp only [childrenOf, namespace?]
    grind
  · simpa [Nat.lt_succ_iff] using hparent

theorem declarationsOf_addNamespace (name : String) (parent id : NamespaceId) :
  (graph.addNamespace name parent).2.declarationsOf id = graph.declarationsOf id
  := by
  rw [addNamespace, declarationsOf_listChild]
  simp only [declarationsOf, namespace?]
  grind

/-! ### Adding types -/

/-- A type is listed when it is added as it is when it is linked. -/
theorem addType_eq (graph : TypeGraph) (node : TypeNode) :
  (graph.addType node).2
    = { graph.linkType ⟨graph.types.length⟩ node.kind with types := graph.types ++ [node] }
  := by
  rw [addType, linkType]
  cases node.kind.listingNamespace with
  | none => rfl
  | some owner => rfl

theorem parent?_addType (node : TypeNode) (id : NamespaceId) :
  (graph.addType node).2.parent? id = graph.parent? id
  := by
  rw [addType_eq]
  apply (sameShape_linkType _ _).parent

theorem length_addType (node : TypeNode) :
  (graph.addType node).2.namespaces.length = graph.namespaces.length
  := by
  rw [addType_eq]
  apply (sameShape_linkType _ _).length

theorem childrenOf_addType (node : TypeNode) (id : NamespaceId) :
  (graph.addType node).2.childrenOf id = graph.childrenOf id
  := by
  rw [addType_eq]
  apply childrenOf_linkType

theorem declarationsOf_addType {node : TypeNode}
    (howner : ∀ owner, node.kind.listingNamespace = some owner →
      owner.index < graph.namespaces.length) (id : NamespaceId) :
  (graph.addType node).2.declarationsOf id = graph.declarationsOf id
    ++ if node.kind.listingNamespace = some id then [⟨graph.types.length⟩] else []
  := by
  rw [addType_eq]
  apply declarationsOf_linkType _ howner

theorem declaredIn_addType (node : TypeNode) (type : TypeId) (id : NamespaceId) :
  (graph.addType node).2.DeclaredIn type id
    ↔ graph.DeclaredIn type id
      ∨ type = ⟨graph.types.length⟩ ∧ node.kind.listingNamespace = some id
  := by
  obtain ⟨i⟩ := type
  rw [addType_eq, listingNamespace_eq_some]
  simp only [DeclaredIn, kind?, type?, Option.map_eq_some_iff, getElem?_concat_eq_some,
    TypeId.mk.injEq]
  grind

theorem lt_of_declaredIn {type : TypeId} {id : NamespaceId} (h : graph.DeclaredIn type id) :
  type.index < graph.types.length
  := by
  obtain ⟨kind, hkind, -⟩ := h
  obtain ⟨node, hnode, -⟩ := Option.map_eq_some_iff.mp hkind
  apply (List.getElem?_eq_some_iff.mp hnode).1

/-! ### Graphs that are built -/

/-- The graphs that are built from the empty one by adding namespaces and types.  The namespace that
an addition is listed in has to be there, the new one included; the types that a type refers to may
be added later. -/
inductive Built : TypeGraph → Prop where
  | empty : Built .empty
  | addNamespace {graph : TypeGraph} (name : String) {parent : NamespaceId} :
      Built graph → parent.index ≤ graph.namespaces.length →
      Built (graph.addNamespace name parent).2
  | addType {graph : TypeGraph} {node : TypeNode} :
      Built graph →
      (∀ owner, node.kind.listingNamespace = some owner →
        owner.index < graph.namespaces.length) →
      Built (graph.addType node).2

/-- The first namespace of a graph that is built has no parent, and each other one has a parent that
exists. -/
theorem Built.parents (h : Built graph) :
  0 < graph.namespaces.length ∧ graph.parent? .global = none
    ∧ ∀ id : NamespaceId, id ≠ .global → id.index < graph.namespaces.length →
      ∃ parent, graph.parent? id = some parent ∧ parent.index < graph.namespaces.length
  := by
  induction h with
  | empty =>
      refine ⟨Nat.one_pos, rfl, ?_⟩
      rintro ⟨i⟩ hne hlt
      obtain rfl : i = 0 := Nat.lt_one_iff.mp hlt
      apply absurd rfl hne
  | @addNamespace graph name parent _ hparent ih =>
      obtain ⟨hpos, hglobal, hparents⟩ := ih
      rw [length_addNamespace]
      refine ⟨Nat.succ_pos _, ?_, ?_⟩
      · rw [Option.eq_none_iff_forall_ne_some]
        intro id hid
        rw [parent?_addNamespace, hglobal] at hid
        obtain hid | ⟨hid, -⟩ := hid
        · cases hid
        · apply absurd (congrArg NamespaceId.index hid) (Nat.ne_of_lt hpos)
      · intro id hne hlt
        simp only [parent?_addNamespace]
        by_cases hid : id.index < graph.namespaces.length
        · obtain ⟨found, hfound, hexists⟩ := hparents id hne hid
          use found, Or.inl hfound
          apply Nat.lt_succ_of_lt hexists
        · have hlast : id.index = graph.namespaces.length := by omega
          use parent, Or.inr ⟨congrArg NamespaceId.mk hlast, rfl⟩
          apply Nat.lt_succ_of_le hparent
  | addType _ _ ih => simpa only [parent?_addType, length_addType] using ih

/-- A graph that is built is indexed: what is added comes after all that its list holds. -/
theorem Built.indexed (h : Built graph) : graph.Indexed := by
  induction h with
  | empty =>
      have hlink : TypeGraph.empty.link = (.empty, none) := rfl
      apply indexed_of_link hlink
  | @addNamespace graph name parent hbuilt hparent ih =>
      constructor
      · intro id
        have hlast : ∀ child ∈ graph.childrenOf id, child.index < graph.namespaces.length := by
          intro child hchild
          apply lt_of_parent? (((ih.children id).mem_iff child).mp hchild).2
        have hglobal : (⟨graph.namespaces.length⟩ : NamespaceId) ≠ .global := by
          intro hglobal
          apply absurd (congrArg NamespaceId.index hglobal) (Nat.ne_of_gt hbuilt.parents.1)
        rw [childrenOf_addNamespace name hparent]
        apply ((ih.children id).extend hlast (id = parent)).congr
        intro child
        rw [parent?_addNamespace, and_or_left]
        apply or_congr_right
        apply (and_iff_right_of_imp _).symm
        rintro ⟨rfl, -⟩
        apply hglobal
      · intro id
        rw [declarationsOf_addNamespace]
        apply ih.declarations id
  | @addType graph node hbuilt howner ih =>
      constructor
      · intro id
        simpa only [childrenOf_addType, parent?_addType] using ih.children id
      · intro id
        have hlast : ∀ type ∈ graph.declarationsOf id, type.index < graph.types.length := by
          intro type htype
          apply lt_of_declaredIn (((ih.declarations id).mem_iff type).mp htype)
        rw [declarationsOf_addType howner]
        apply ((ih.declarations id).extend hlast _).congr
        intro type
        rw [declaredIn_addType]

/-- A graph that is built is linked to the end if the types and namespaces that it stores exist. -/
theorem Built.exists_link (h : Built graph)
    (htypes : ∀ id ∈ graph.references, id.index < graph.types.length)
    (howners : ∀ id ∈ graph.owners, id.index < graph.namespaces.length) :
  ∃ linked, graph.link = (linked, none)
  := by
  obtain ⟨hpos, hglobal, hparents⟩ := h.parents
  apply exists_link_iff.mpr ⟨?_, hparents, htypes, howners⟩
  obtain ⟨global, rest, hnamespaces⟩ := List.exists_cons_of_length_pos hpos
  rw [parent?, namespace?, hnamespaces] at hglobal
  use global, rest, hnamespaces, hglobal

/-- The lists that are kept while a graph is built and the lists that linking rebuilds agree.  A
graph that is built from the empty one and stores only what exists is linked to the end, and linking
does not change it.  Whatever graph is linked to the end, its namespaces then list exactly their
children and their named declarations by increasing position, nothing but the lists has changed, and
linking again changes nothing. -/
theorem lists_agree :
  (∀ graph, Built graph → (∀ id ∈ graph.references, id.index < graph.types.length) →
    (∀ id ∈ graph.owners, id.index < graph.namespaces.length) → graph.link = (graph, none))
  ∧ ∀ graph linked : TypeGraph, graph.link = (linked, none) →
    linked.Indexed ∧ linked.clearLists = graph.clearLists ∧ linked.link = (linked, none)
  := by
  constructor
  · intro graph hbuilt htypes howners
    obtain ⟨linked, hlink⟩ := hbuilt.exists_link htypes howners
    rw [hlink, hbuilt.indexed.unique (indexed_of_link hlink) (clearLists_link hlink)]
  · intro graph linked hlink
    have hsame := clearLists_link hlink
    use indexed_of_link hlink, hsame, link_congr hsame hlink

/-- A record of pets, with a field of a type that is added after it. -/
def petNode : TypeNode :=
  { kind := .record {
      name := some "Pet"
      owner := some ⟨1⟩
      fields := [{ name := "toy", type := ⟨1⟩ }] } }

/-- A record with an empty name, which is not listed. -/
def toyNode : TypeNode :=
  { kind := .record { name := some "", owner := some ⟨2⟩ } }

/-- The pets of a shelter and their toys, each in a namespace of its own. -/
def shelterGraph : TypeGraph :=
  let spaces := ((empty.addNamespace "Pets" .global).2.addNamespace "Toys" ⟨1⟩).2
  ((spaces.addType petNode).2.addType toyNode).2

/-- Linking keeps the graph of the shelter as it was built.  After the namespace of toys has moved,
linking lists it in its new place. -/
theorem lists_agree_shelter :
  shelterGraph.link = (shelterGraph, none) ∧ shelterGraph.childrenOf ⟨1⟩ = [⟨2⟩]
    ∧ shelterGraph.declarationsOf ⟨1⟩ = [⟨0⟩]
    ∧ ∃ linked, (shelterGraph.setParent ⟨2⟩ (some .global)).link = (linked, none)
      ∧ linked.childrenOf .global = [⟨1⟩, ⟨2⟩] ∧ linked.link = (linked, none)
  := by
  have hpet : petNode.kind.listingNamespace = some ⟨1⟩ := by decide +kernel
  have htoy : toyNode.kind.listingNamespace = none := by decide +kernel
  have hbuilt : Built shelterGraph := by
    apply Built.addType
    · apply Built.addType
      · apply Built.addNamespace
        · apply Built.addNamespace _ Built.empty (Nat.zero_le _)
        · decide
      · intro owner howner
        cases hpet.symm.trans howner
        decide
    · intro owner howner
      cases htoy.symm.trans howner
  refine ⟨lists_agree.1 shelterGraph hbuilt (by decide +kernel) (by decide +kernel),
    by decide +kernel, by decide +kernel, ?_⟩
  have hlink : (shelterGraph.setParent ⟨2⟩ (some .global)).link
      = ((shelterGraph.setParent ⟨2⟩ (some .global)).link.1, none) := by decide +kernel
  refine ⟨_, hlink, by decide +kernel, ?_⟩
  apply (lists_agree.2 _ _ hlink).2.2

end TypeGraph

end ServiceBindings
