import ServiceBindings.Proofs.Schema.Linking

/-!
# What makes a schema

A graph and a service make a schema exactly if the first namespace has no parent, every other one
has a parent that exists, every type and every namespace that is stored anywhere exists, and the
interfaces that endpoints name are interfaces.  So whatever is stored in a schema, the lists that
linking rebuilds included, is found when it is looked up.
-/

namespace ServiceBindings

/-! ### What is stored -/

/-- The types that a field refers to: its own, and that of its encoding. -/
def Field.references (field : Field) : List TypeId :=
  field.type :: field.encoding.toList.map (·.type)

/-- The types that an operation refers to. -/
def Operation.references (operation : Operation) : List TypeId :=
  operation.returnType :: operation.parameters.flatMap (·.references)

/-- The types that a type refers to. -/
def TypeKind.references : TypeKind → List TypeId
  | scalar s => s.base.toList
  | record r => r.fields.flatMap (·.references)
  | union u => u.variants.map (·.type)
  | interface i => i.operations.flatMap (·.references)
  | array element => [element]
  | map value => [value]
  | enum _ | literal _ | intrinsic _ => []

/-- The types that the operations and types of a graph refer to. -/
def TypeGraph.references (graph : TypeGraph) : List TypeId :=
  (graph.namespaces.flatMap (·.operations)).flatMap (·.references)
    ++ graph.types.flatMap (·.kind.references)

/-- The namespaces that the types of a graph belong to. -/
def TypeGraph.owners (graph : TypeGraph) : List NamespaceId :=
  graph.types.filterMap (·.kind.owner)

/-- The namespace that declares operations itself. -/
def Container.asGroup? : Container → Option NamespaceId
  | group id => some id
  | interface _ => none

/-- The type that is used as an interface. -/
def Container.asInterface? : Container → Option TypeId
  | group _ => none
  | interface id => some id

/-- The types that an endpoint refers to. -/
def HttpOperation.references (http : HttpOperation) : List TypeId :=
  http.operation.container.asInterface?.toList ++ http.parameters.map (·.type)
    ++ http.responses.filterMap (·.body)

/-- The endpoints that a service lists. -/
def Service.listed (service : Service) : List HttpOperation :=
  (service.http.map (·.operations)).getD []

/-- The types that a service refers to. -/
def Service.references (service : Service) : List TypeId :=
  service.listed.flatMap (·.references)

/-- The namespaces that a service refers to. -/
def Service.namespaces (service : Service) : List NamespaceId :=
  service.root :: service.listed.filterMap (·.operation.container.asGroup?)

/-- What a graph and a service must satisfy to make a schema. -/
structure TypeGraph.Supports (graph : TypeGraph) (service : Service) : Prop where
  global : ∃ global rest, graph.namespaces = global :: rest ∧ global.parent = none
  parent : ∀ id : NamespaceId, id ≠ .global → id.index < graph.namespaces.length →
    ∃ parent, graph.parent? id = some parent ∧ parent.index < graph.namespaces.length
  types : ∀ id ∈ graph.references ++ service.references, id.index < graph.types.length
  namespaces : ∀ id ∈ graph.owners ++ service.namespaces, id.index < graph.namespaces.length
  interfaces : ∀ http ∈ service.listed, ∀ id, http.operation.container = .interface id →
    ∃ interface, graph.kind? id = some (.interface interface)

/-- Two checks succeed one after the other exactly if both do. -/
theorem Except.seq_eq_ok {ε : Type} {first second : Except ε Unit} :
  (do first; second) = .ok () ↔ first = .ok () ∧ second = .ok ()
  := by
  cases first with
  | error error => simp [bind, Except.bind]
  | ok value => simp [bind, Except.bind]

namespace TypeGraph

variable {graph : TypeGraph}

/-! ### Checks -/

theorem checkType_eq_ok {id : TypeId} :
  graph.checkType id = .ok () ↔ id.index < graph.types.length
  := by
  simp [checkType]

theorem checkNamespace_eq_ok {id : NamespaceId} :
  graph.checkNamespace id = .ok () ↔ id.index < graph.namespaces.length
  := by
  simp [checkNamespace]

/-- A list passes a check exactly if each of its items does. -/
theorem checkAll_eq_ok {α : Type} {check : α → Except CompileError Unit} {items : List α} :
  checkAll check items = .ok () ↔ ∀ item ∈ items, check item = .ok ()
  := by
  induction items with
  | nil => simp [checkAll]
  | cons item items ih =>
      rw [checkAll, List.forall_mem_cons]
      cases hcheck : check item with
      | ok value => simp [ih]
      | error error => simp

theorem checkField_eq_ok {field : Field} :
  graph.checkField field = .ok () ↔ ∀ id ∈ field.references, id.index < graph.types.length
  := by
  simp only [checkField, checkAll_eq_ok, checkType_eq_ok]
  rfl

theorem checkOperation_eq_ok {operation : Operation} :
  graph.checkOperation operation = .ok ()
    ↔ ∀ id ∈ operation.references, id.index < graph.types.length
  := by
  simp only [checkOperation, Except.seq_eq_ok, checkAll_eq_ok, checkType_eq_ok, checkField_eq_ok,
    Operation.references, List.forall_mem_cons, List.forall_mem_flatMap]

theorem checkReferences_eq_ok {kind : TypeKind} :
  graph.checkReferences kind = .ok () ↔ ∀ id ∈ kind.references, id.index < graph.types.length
  := by
  cases kind with
  | scalar s => simp only [checkReferences, checkAll_eq_ok, checkType_eq_ok, TypeKind.references]
  | record r =>
      simp only [checkReferences, checkAll_eq_ok, checkField_eq_ok, TypeKind.references,
        List.forall_mem_flatMap]
  | union u =>
      simp only [checkReferences, checkAll_eq_ok, checkType_eq_ok, TypeKind.references,
        List.forall_mem_map]
  | interface i =>
      simp only [checkReferences, checkAll_eq_ok, checkOperation_eq_ok, TypeKind.references,
        List.forall_mem_flatMap]
  | array element | map value =>
      simp only [checkReferences, checkType_eq_ok, TypeKind.references, List.forall_mem_singleton]
  | enum _ | literal _ | intrinsic _ => simp [checkReferences, TypeKind.references]

/-- A type passes the check exactly if its namespace and the types that it refers to exist. -/
theorem checkKind_eq_ok {kind : TypeKind} :
  graph.checkKind kind = .ok ()
    ↔ (∀ id, kind.owner = some id → id.index < graph.namespaces.length)
      ∧ ∀ id ∈ kind.references, id.index < graph.types.length
  := by
  simp only [checkKind, Except.seq_eq_ok, checkAll_eq_ok, checkNamespace_eq_ok,
    checkReferences_eq_ok, Option.mem_toList]

/-- Graphs of the same shape pass the same checks. -/
theorem SameShape.checkKind_iff {other : TypeGraph} (h : SameShape graph other) (kind : TypeKind) :
  other.checkKind kind = .ok () ↔ graph.checkKind kind = .ok ()
  := by
  rw [checkKind_eq_ok, checkKind_eq_ok, h.types, h.length]

/-! ### Linking -/

/-- The namespaces after the first one. -/
theorem mem_tail_namespaceIds_iff {id : NamespaceId} :
  id ∈ graph.namespaceIds.tail ↔ id ≠ .global ∧ id.index < graph.namespaces.length
  := by
  obtain ⟨i⟩ := id
  rw [namespaceIds, ← List.map_tail, List.mem_map]
  cases graph.namespaces.length with
  | zero => simp
  | succ n =>
      rw [List.range_succ_eq_map, List.tail_cons]
      cases i with
      | zero => simp [NamespaceId.global]
      | succ i => simp [NamespaceId.global]

/-- The children are listed to the end exactly if each namespace has a parent that exists. -/
theorem linkChildren_eq_none_iff {ids : List NamespaceId} :
  (graph.linkChildren ids).2 = none ↔ ∀ id ∈ ids, ∃ parent, graph.parent? id = some parent
    ∧ parent.index < graph.namespaces.length
  := by
  induction ids generalizing graph with
  | nil => simp [linkChildren]
  | cons id ids ih =>
      rw [linkChildren, List.forall_mem_cons]
      cases hparent : graph.parentOf id with
      | ok parent =>
          have hlisted : SameShape graph (graph.listChild parent id) := sameShape_listChild
          have hfound := parentOf_eq_ok hparent
          simp only [ih, hlisted.parent, hlisted.length]
          rw [and_iff_right ⟨parent, hfound⟩]
      | error error =>
          simp only [reduceCtorEq, false_iff, not_and]
          rintro ⟨parent, hfound, hlt⟩
          have hparent? : (graph.namespace? id).bind (·.parent) = some parent := hfound
          rw [parentOf, hparent?] at hparent
          simp [checkNamespace, hlt, Except.map] at hparent

/-- The declarations are listed to the end exactly if each type passes the check. -/
theorem linkTypes_eq_none_iff {kinds : List (TypeId × TypeKind)} :
  (graph.linkTypes kinds).2 = none ↔ ∀ entry ∈ kinds, graph.checkKind entry.2 = .ok ()
  := by
  induction kinds generalizing graph with
  | nil => simp [linkTypes]
  | cons entry kinds ih =>
      obtain ⟨id, kind⟩ := entry
      have hlisted : SameShape graph (graph.linkType id kind) := sameShape_linkType id kind
      rw [linkTypes, List.forall_mem_cons]
      cases hcheck : graph.checkKind kind with
      | ok value => simp only [ih, hlisted.checkKind_iff, true_and]
      | error error => simp

/-- What is stored in graphs of the same shape is the same. -/
theorem SameShape.references {other : TypeGraph} (h : SameShape graph other) :
  other.references = graph.references
  := by
  have hoperations : other.namespaces.flatMap (·.operations)
      = graph.namespaces.flatMap (·.operations) := by
    rw [List.flatMap_def, h.operations, ← List.flatMap_def]
  rw [TypeGraph.references, TypeGraph.references, h.types, hoperations]

theorem SameShape.owners {other : TypeGraph} (h : SameShape graph other) :
  other.owners = graph.owners
  := by
  rw [TypeGraph.owners, TypeGraph.owners, h.types]

theorem SameShape.kind? {other : TypeGraph} (h : SameShape graph other) (id : TypeId) :
  other.kind? id = graph.kind? id
  := by
  rw [TypeGraph.kind?, TypeGraph.kind?, type?, type?, h.types]

/-- Graphs of the same shape support the same services. -/
theorem SameShape.supports {other : TypeGraph} (h : SameShape graph other) {service : Service}
    (hsupports : graph.Supports service) :
  other.Supports service
  := by
  constructor
  · obtain ⟨global, rest, hnamespaces, hglobal⟩ := hsupports.global
    have hparent : other.parent? .global = none := by
      rw [h.parent, parent?, namespace?, hnamespaces]
      apply hglobal
    cases hother : other.namespaces with
    | nil =>
        have hlength := h.length
        rw [hother, hnamespaces] at hlength
        cases hlength
    | cons found others =>
        rw [parent?, namespace?, hother] at hparent
        exact ⟨found, others, rfl, hparent⟩
  · simpa only [h.parent, h.length] using hsupports.parent
  · simpa only [h.references, h.types] using hsupports.types
  · simpa only [h.owners, h.length] using hsupports.namespaces
  · simpa only [h.kind?] using hsupports.interfaces

/-- All types pass the check exactly if what they store exists. -/
theorem checkKinds_eq_ok :
  (∀ entry ∈ graph.positionedKinds, graph.checkKind entry.2 = .ok ())
    ↔ ∀ node ∈ graph.types, (∀ id, node.kind.owner = some id → id.index < graph.namespaces.length)
      ∧ ∀ id ∈ node.kind.references, id.index < graph.types.length
  := by
  simp only [checkKind_eq_ok]
  constructor
  · intro h node hnode
    obtain ⟨i, hi⟩ := List.getElem?_of_mem hnode
    apply h (⟨i⟩, node.kind)
    rw [mem_positionedKinds, kind?, type?, hi]
    rfl
  · rintro h ⟨id, kind⟩ hentry
    obtain ⟨node, hnode, rfl⟩ := Option.map_eq_some_iff.mp (mem_positionedKinds.mp hentry)
    apply h node (List.mem_of_getElem? hnode)

/-- The operations of namespaces and the types pass their checks exactly if what the graph stores
exists. -/
theorem checks_iff (graph : TypeGraph) :
  checkAll graph.checkOperation (graph.namespaces.flatMap (·.operations)) = .ok ()
      ∧ (∀ entry ∈ graph.positionedKinds, graph.checkKind entry.2 = .ok ())
    ↔ (∀ id ∈ graph.references, id.index < graph.types.length)
      ∧ ∀ id ∈ graph.owners, id.index < graph.namespaces.length
  := by
  simp only [checkKinds_eq_ok, checkAll_eq_ok, checkOperation_eq_ok, references, owners,
    List.forall_mem_append, List.forall_mem_flatMap, List.forall_mem_filterMap]
  constructor
  · rintro ⟨hoperations, htypes⟩
    exact ⟨⟨hoperations, fun node hnode => (htypes node hnode).2⟩,
      fun node hnode => (htypes node hnode).1⟩
  · rintro ⟨⟨hoperations, hreferences⟩, howners⟩
    exact ⟨hoperations, fun node hnode => ⟨howners node hnode, hreferences node hnode⟩⟩

/-- A graph is linked to the end exactly if the first namespace has no parent, each other one has a
parent that exists, and the types and namespaces that are stored in the graph exist. -/
theorem exists_link_iff :
  (∃ linked, graph.link = (linked, none))
    ↔ (∃ global rest, graph.namespaces = global :: rest ∧ global.parent = none)
      ∧ (∀ id : NamespaceId, id ≠ .global → id.index < graph.namespaces.length →
        ∃ parent, graph.parent? id = some parent ∧ parent.index < graph.namespaces.length)
      ∧ (∀ id ∈ graph.references, id.index < graph.types.length)
      ∧ ∀ id ∈ graph.owners, id.index < graph.namespaces.length
  := by
  have hparents : (linkChildren graph.clearLists graph.namespaceIds.tail).2 = none
      ↔ ∀ id : NamespaceId, id ≠ .global → id.index < graph.namespaces.length →
        ∃ parent, graph.parent? id = some parent ∧ parent.index < graph.namespaces.length := by
    simp only [linkChildren_eq_none_iff, mem_tail_namespaceIds_iff, sameShape_clearLists.parent,
      sameShape_clearLists.length, and_imp]
  rw [← hparents]
  -- The graph with its children listed stores what the graph does.
  have hstored {middle : TypeGraph}
      (hmiddle : linkChildren graph.clearLists graph.namespaceIds.tail = (middle, none)) :
      checkAll middle.checkOperation (middle.namespaces.flatMap (·.operations)) = .ok ()
          ∧ (linkTypes middle middle.positionedKinds).2 = none
        ↔ (∀ id ∈ graph.references, id.index < graph.types.length)
          ∧ ∀ id ∈ graph.owners, id.index < graph.namespaces.length := by
    have hshape := sameShape_clearLists.trans (linkChildren_eq_none hmiddle).1
    rw [linkTypes_eq_none_iff, checks_iff, hshape.references, hshape.owners, hshape.types,
      hshape.length]
  constructor
  · rintro ⟨linked, hlink⟩
    obtain ⟨global, rest, middle, hnamespaces, hglobal, hmiddle, hchecked, htypes⟩ :=
      link_eq_none.mp hlink
    refine ⟨⟨global, rest, hnamespaces, hglobal⟩, ?_, (hstored hmiddle).mp ⟨hchecked, ?_⟩⟩
    · rw [hmiddle]
    · rw [htypes]
  · rintro ⟨⟨global, rest, hnamespaces, hglobal⟩, hchildren, hexist⟩
    rcases hmiddle : linkChildren graph.clearLists graph.namespaceIds.tail with ⟨middle, error⟩
    rw [hmiddle] at hchildren
    obtain rfl : error = none := hchildren
    obtain ⟨hchecked, htypes⟩ := (hstored hmiddle).mpr hexist
    rcases hlinked : linkTypes middle middle.positionedKinds with ⟨linked, error⟩
    rw [hlinked] at htypes
    obtain rfl : error = none := htypes
    use linked
    apply link_eq_none.mpr ⟨global, rest, middle, hnamespaces, hglobal, hmiddle, hchecked, hlinked⟩

/-- Linking changes the lists of namespaces only. -/
theorem sameShape_link {linked : TypeGraph} (h : graph.link = (linked, none)) :
  SameShape graph linked
  := by
  obtain ⟨_, _, middle, -, -, hmiddle, -, htypes⟩ := link_eq_none.mp h
  have hshape := (linkChildren_eq_none hmiddle).1.trans (linkTypes_eq_none htypes).1
  apply sameShape_clearLists.trans hshape

end TypeGraph

/-! ### Schemas -/

namespace Schema

variable {graph : TypeGraph} {service : Service}

/-- A container passes the check exactly if it exists and, used as an interface, is one. -/
theorem checkContainer_eq_ok {container : Container} :
  checkContainer graph container = .ok ()
    ↔ (∀ id, container.asGroup? = some id → id.index < graph.namespaces.length)
      ∧ (∀ id, container.asInterface? = some id → id.index < graph.types.length)
      ∧ ∀ id, container = .interface id →
        ∃ interface, graph.kind? id = some (.interface interface)
  := by
  cases container with
  | group id =>
      simp [checkContainer, TypeGraph.checkNamespace_eq_ok, Container.asGroup?,
        Container.asInterface?]
  | interface id =>
      rw [checkContainer, Except.seq_eq_ok, TypeGraph.checkType_eq_ok]
      split
      case h_1 hkind => simp [Container.asGroup?, Container.asInterface?, hkind]
      case h_2 hother =>
        have hnone : ¬∃ interface, graph.kind? id = some (.interface interface) := by
          rintro ⟨interface, hkind⟩
          apply hother interface hkind
        simp [Container.asGroup?, Container.asInterface?, hnone]

theorem checkEndpoint_eq_ok {http : HttpOperation} :
  checkEndpoint graph http = .ok ()
    ↔ (∀ id, http.operation.container.asGroup? = some id → id.index < graph.namespaces.length)
      ∧ (∀ id ∈ http.references, id.index < graph.types.length)
      ∧ ∀ id, http.operation.container = .interface id →
        ∃ interface, graph.kind? id = some (.interface interface)
  := by
  simp only [checkEndpoint, Except.seq_eq_ok, TypeGraph.checkAll_eq_ok, TypeGraph.checkType_eq_ok,
    checkContainer_eq_ok, HttpOperation.references, List.forall_mem_append, Option.mem_toList]
  tauto

/-- A service passes the check exactly if what it stores exists. -/
theorem checkService_eq_ok :
  checkService graph service = .ok ()
    ↔ (∀ id ∈ service.references, id.index < graph.types.length)
      ∧ (∀ id ∈ service.namespaces, id.index < graph.namespaces.length)
      ∧ ∀ http ∈ service.listed, ∀ id, http.operation.container = .interface id →
        ∃ interface, graph.kind? id = some (.interface interface)
  := by
  simp only [checkService, Except.seq_eq_ok, TypeGraph.checkAll_eq_ok,
    TypeGraph.checkNamespace_eq_ok, checkEndpoint_eq_ok, Service.references, Service.namespaces,
    List.forall_mem_cons, List.forall_mem_flatMap, List.forall_mem_filterMap]
  constructor
  · rintro ⟨hroot, hlisted⟩
    exact ⟨fun http hhttp => (hlisted http hhttp).2.1,
      ⟨hroot, fun http hhttp => (hlisted http hhttp).1⟩, fun http hhttp => (hlisted http hhttp).2.2⟩
  · rintro ⟨hreferences, ⟨hroot, hgroups⟩, hinterfaces⟩
    exact ⟨hroot, fun http hhttp =>
      ⟨hgroups http hhttp, hreferences http hhttp, hinterfaces http hhttp⟩⟩

/-- A graph supports a service exactly if it can be linked and the service passes the check. -/
theorem supports_iff :
  graph.Supports service
    ↔ (∃ linked, graph.link = (linked, none)) ∧ checkService graph service = .ok ()
  := by
  rw [TypeGraph.exists_link_iff, checkService_eq_ok]
  constructor
  · rintro ⟨hglobal, hparent, htypes, hnamespaces, hinterfaces⟩
    rw [List.forall_mem_append] at htypes hnamespaces
    exact ⟨⟨hglobal, hparent, htypes.1, hnamespaces.1⟩, htypes.2, hnamespaces.2, hinterfaces⟩
  · rintro ⟨⟨hglobal, hparent, hreferences, howners⟩, htypes, hnamespaces, hinterfaces⟩
    exact ⟨hglobal, hparent, List.forall_mem_append.mpr ⟨hreferences, htypes⟩,
      List.forall_mem_append.mpr ⟨howners, hnamespaces⟩, hinterfaces⟩

/-- A schema is made exactly if the graph is linked to the end and the service passes the check. -/
theorem exists_make_iff :
  (∃ schema, make graph service = .ok schema)
    ↔ (∃ linked, graph.link = (linked, none)) ∧ checkService graph service = .ok ()
  := by
  rw [make]
  rcases hlink : graph.link with ⟨linked, error⟩
  cases error with
  | some error => simp
  | none =>
      have hshape := TypeGraph.sameShape_link hlink
      have hsame : checkService linked service = .ok () ↔ checkService graph service = .ok () := by
        simp only [checkService_eq_ok, hshape.types, hshape.length, hshape.kind?]
      dsimp only
      rw [← hsame]
      cases checkService linked service with
      | error error => simp [Except.map]
      | ok value => simp [Except.map]

/-- The types that are stored in a schema, in the lists of its namespaces too. -/
def storedTypes (schema : Schema) : List TypeId :=
  schema.graph.references ++ schema.graph.namespaces.flatMap (·.declarations)
    ++ schema.service.references

/-- The namespaces that are stored in a schema, in the lists of its namespaces too. -/
def storedNamespaces (schema : Schema) : List NamespaceId :=
  schema.graph.namespaces.filterMap (·.parent) ++ schema.graph.namespaces.flatMap (·.children)
    ++ schema.graph.owners ++ schema.service.namespaces

/-- The declarations and children that a linked graph lists exist. -/
theorem listed_exist (hlinked : graph.Linked) :
  (∀ id ∈ graph.namespaces.flatMap (·.declarations), id.index < graph.types.length)
    ∧ ∀ id ∈ graph.namespaces.flatMap (·.children), id.index < graph.namespaces.length
  := by
  constructor
  · intro id hid
    obtain ⟨ns, hns, hid⟩ := List.mem_flatMap.mp hid
    obtain ⟨i, hi⟩ := List.getElem?_of_mem hns
    have hlisted : id ∈ graph.declarationsOf ⟨i⟩ := by
      rw [TypeGraph.declarationsOf, TypeGraph.namespace?, hi]
      apply hid
    rw [hlinked.mem_declarations] at hlisted
    obtain ⟨kind, hkind, -⟩ := Option.bind_eq_some_iff.mp hlisted
    obtain ⟨node, hnode, -⟩ := Option.map_eq_some_iff.mp hkind
    apply (List.getElem?_eq_some_iff.mp hnode).1
  · intro id hid
    obtain ⟨ns, hns, hid⟩ := List.mem_flatMap.mp hid
    obtain ⟨i, hi⟩ := List.getElem?_of_mem hns
    have hlisted : id ∈ graph.childrenOf ⟨i⟩ := by
      rw [TypeGraph.childrenOf, TypeGraph.namespace?, hi]
      apply hid
    rw [hlinked.mem_children] at hlisted
    obtain ⟨child, hchild, -⟩ := Option.bind_eq_some_iff.mp hlisted
    apply (List.getElem?_eq_some_iff.mp hchild).1

/-- The parents of namespaces exist in a graph that supports a service. -/
theorem parents_exist (h : graph.Supports service) :
  ∀ id ∈ graph.namespaces.filterMap (·.parent), id.index < graph.namespaces.length
  := by
  intro id hid
  obtain ⟨ns, hns, hparent⟩ := List.mem_filterMap.mp hid
  obtain ⟨i, hi⟩ := List.getElem?_of_mem hns
  have hfound : graph.parent? ⟨i⟩ = some id := by
    rw [TypeGraph.parent?, TypeGraph.namespace?, hi]
    apply hparent
  have hne : (⟨i⟩ : NamespaceId) ≠ .global := by
    rintro hglobal
    obtain ⟨global, rest, hnamespaces, hnone⟩ := h.global
    rw [hglobal, TypeGraph.parent?, TypeGraph.namespace?, hnamespaces] at hfound
    cases hnone.symm.trans hfound
  obtain ⟨parent, hparent, hlt⟩ := h.parent ⟨i⟩ hne (List.getElem?_eq_some_iff.mp hi).1
  cases hparent.symm.trans hfound
  apply hlt

/-- Making a schema is exact: it succeeds exactly if the graph supports the service.  Then whatever
the schema stores is found in its graph. -/
theorem make_exact (graph : TypeGraph) (service : Service) :
  ((∃ schema, make graph service = .ok schema) ↔ graph.Supports service)
  ∧ ∀ schema, make graph service = .ok schema →
    (∀ id ∈ schema.storedTypes, (schema.graph.type? id).isSome)
    ∧ (∀ id ∈ schema.storedNamespaces, (schema.graph.namespace? id).isSome)
    ∧ ∀ http ∈ schema.service.listed, ∀ id, http.operation.container = .interface id →
      ∃ interface, schema.graph.kind? id = some (.interface interface)
  := by
  constructor
  · rw [exists_make_iff, supports_iff]
  · intro schema hmake
    -- The graph of the schema supports the service as well.
    have hsupports : schema.graph.Supports schema.service := by
      obtain ⟨hlink, hservice⟩ := link_of_make hmake
      rw [hservice]
      apply (TypeGraph.sameShape_link hlink).supports
      apply supports_iff.mpr (exists_make_iff.mp ⟨schema, hmake⟩)
    obtain ⟨hdeclarations, hchildren⟩ := listed_exist (linked_of_make hmake).1
    obtain ⟨hreferences, htypes⟩ := List.forall_mem_append.mp hsupports.types
    obtain ⟨howners, hnamespaces⟩ := List.forall_mem_append.mp hsupports.namespaces
    simp only [TypeGraph.type?, TypeGraph.namespace?, isSome_getElem?, storedTypes,
      storedNamespaces, List.forall_mem_append]
    exact ⟨⟨⟨hreferences, hdeclarations⟩, htypes⟩,
      ⟨⟨⟨parents_exist hsupports, hchildren⟩, howners⟩, hnamespaces⟩, hsupports.interfaces⟩

/-- A namespace with an interface; the parameter of its operation is encoded as the type `wire`. -/
def clockGraph (wire : TypeId) : TypeGraph := {
  namespaces := [{ name := "" }, { name := "Clock", parent := some .global }]
  types := [
    { kind := .scalar { name := "moment", owner := ⟨1⟩ } },
    { kind := .scalar { name := "second", owner := ⟨1⟩, base := some ⟨0⟩ } },
    { kind := .interface {
        name := "Hands"
        owner := ⟨1⟩
        operations := [{
          name := "set"
          returnType := ⟨3⟩
          parameters := [
            { name := "time", type := ⟨0⟩, encoding := some ⟨"unixTimestamp", wire⟩ }] }] } },
    { kind := .intrinsic .void }] }

/-- The service that exposes the operation. -/
def clockService : Service := {
  root := ⟨1⟩
  http := some {
    operations := [{
      operation := ⟨.interface ⟨2⟩, "set"⟩
      verb := .put
      path := "/time"
      parameters := [{ name := "time", location := .body, type := ⟨0⟩ }]
      responses := [{ status := .exact 204, body := some ⟨3⟩ }] }] } }

/-- The encoding of the parameter decides whether there is a schema. -/
theorem make_exact_clock :
  (∃ schema, make (clockGraph ⟨1⟩) clockService = .ok schema ∧ ⟨1⟩ ∈ schema.storedTypes
    ∧ (schema.graph.type? ⟨1⟩).isSome)
  ∧ ¬∃ schema, make (clockGraph ⟨4⟩) clockService = .ok schema
  := by
  constructor
  · have hmake : make (clockGraph ⟨1⟩) clockService
        = .ok ⟨(clockGraph ⟨1⟩).link.1, clockService⟩ := by decide +kernel
    have hstored : ⟨1⟩ ∈ storedTypes ⟨(clockGraph ⟨1⟩).link.1, clockService⟩ := by decide +kernel
    exact ⟨_, hmake, hstored, ((make_exact _ _).2 _ hmake).1 _ hstored⟩
  · intro hmake
    have htypes := ((make_exact _ _).1.mp hmake).types ⟨4⟩ (by decide)
    apply absurd htypes (by decide)

end Schema

end ServiceBindings
