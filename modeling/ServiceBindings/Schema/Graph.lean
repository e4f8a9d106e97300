import ServiceBindings.CompileError
import ServiceBindings.Schema.Service

/-!
# Type graphs

The namespaces and types of a schema, addressed by position. Each namespace also lists its children
and its named declarations; `TypeGraph.link` rebuilds these lists.
-/

namespace ServiceBindings

/-- A namespace. -/
structure Namespace where
  name : String
  parent : Option NamespaceId := none
  doc : Option String := none
  /-- The operations declared outside of interfaces. -/
  operations : List Operation := []
  /-- The namespaces whose parent this one is. -/
  children : List NamespaceId := []
  /-- The named declarations of the namespace. -/
  declarations : List TypeId := []
  deriving DecidableEq, Repr

/-- The namespaces and types of a schema; the first namespace is the global one. -/
structure TypeGraph where
  namespaces : List Namespace
  types : List TypeNode := []
  deriving DecidableEq, Repr

namespace TypeGraph

/-- The graph with the global namespace only. -/
def empty : TypeGraph := { namespaces := [{ name := "" }] }

/-! ### Looking up -/

/-- The namespace at a position. -/
def namespace? (graph : TypeGraph) (id : NamespaceId) : Option Namespace :=
  graph.namespaces[id.index]?

/-- The type at a position. -/
def type? (graph : TypeGraph) (id : TypeId) : Option TypeNode :=
  graph.types[id.index]?

/-- What the type at a position is. -/
def kind? (graph : TypeGraph) (id : TypeId) : Option TypeKind :=
  (graph.type? id).map (·.kind)

/-- The positions of all types. -/
def typeIds (graph : TypeGraph) : List TypeId :=
  (List.range graph.types.length).map TypeId.mk

/-- The positions of all namespaces. -/
def namespaceIds (graph : TypeGraph) : List NamespaceId :=
  (List.range graph.namespaces.length).map NamespaceId.mk

/-- The namespace that a declaration belongs to. -/
def owner? (graph : TypeGraph) (id : TypeId) : Option NamespaceId :=
  (graph.kind? id).bind (·.owner)

/-- The declared name of a type. -/
def declaredName? (graph : TypeGraph) (id : TypeId) : Option Words :=
  (graph.kind? id).bind (·.declaredName)

/-- Whether a type has a single value and no spelling. -/
def isValue (graph : TypeGraph) (id : TypeId) : Bool :=
  match graph.kind? id with
  | some kind => kind.isValue
  | none => false

/-- Whether a type is a record that is an error shape. -/
def isErrorRecord (graph : TypeGraph) (id : TypeId) : Bool :=
  match graph.kind? id with
  | some (.record record) => record.error
  | _ => false

/-- The operations that a container declares. -/
def operations (graph : TypeGraph) : Container → List Operation
  | .group id => ((graph.namespace? id).map (·.operations)).getD []
  | .interface id =>
    match graph.kind? id with
    | some (.interface interface) => interface.operations
    | _ => []

/-- The first operation of a name that a container declares. -/
def operation? (graph : TypeGraph) (reference : OperationRef) : Option Operation :=
  (graph.operations reference.container).find? (·.name = reference.name)

/-! ### Paths of namespaces -/

/-- The namespaces from just below the global one down to `id`, if at most `limit` of them, the
global one included, lie on the way. -/
def chainWithin (graph : TypeGraph) : Nat → NamespaceId → Option (List NamespaceId)
  | 0, _ => none
  | limit + 1, id =>
    if id = .global then some []
    else
      match (graph.namespace? id).bind (·.parent) with
      | none => none
      | some parent => (chainWithin graph limit parent).map (· ++ [id])

/-- The namespaces from just below the global one down to `id`. A way longer than the list of
namespaces runs in a circle and leads nowhere. -/
def chain (graph : TypeGraph) (id : NamespaceId) : Option (List NamespaceId) :=
  chainWithin graph graph.namespaces.length id

/-- The name of a namespace. -/
def namespaceName (graph : TypeGraph) (id : NamespaceId) : String :=
  ((graph.namespace? id).map (·.name)).getD ""

/-- The names from just below the global namespace down to `id`. -/
def namespacePath (graph : TypeGraph) (id : NamespaceId) : Except CompileError (List String) :=
  match graph.chain id with
  | some ids => .ok (ids.map graph.namespaceName)
  | none => .error (.detachedNamespace (graph.namespaceName id))

/-- The dotted name of a namespace; the global one has the empty name. -/
def qualifiedNamespace (graph : TypeGraph) (id : NamespaceId) : Except CompileError String :=
  (graph.namespacePath id).map fun names => ".".intercalate names

/-- The dotted name of a declaration as it is written in the schema. -/
def qualifiedName (graph : TypeGraph) (id : TypeId) : Option String := do
  let kind ← graph.kind? id
  let name ← kind.writtenName
  let owner ← kind.owner
  let names ← (graph.namespacePath owner).toOption
  return ".".intercalate (names ++ [name])

/-- The dotted name of a declaration, or its position if it has none. -/
def displayName (graph : TypeGraph) (id : TypeId) : String :=
  (graph.qualifiedName id).getD id.display

/-! ### Building -/

/-- The graph with a namespace changed. -/
def modifyNamespace (graph : TypeGraph) (id : NamespaceId) (f : Namespace → Namespace) :
    TypeGraph :=
  { graph with namespaces := graph.namespaces.modify id.index f }

/-- The graph with a child listed in a namespace. -/
def listChild (graph : TypeGraph) (parent child : NamespaceId) : TypeGraph :=
  graph.modifyNamespace parent fun ns => { ns with children := ns.children ++ [child] }

/-- The graph with a declaration listed in a namespace. -/
def listDeclaration (graph : TypeGraph) (owner : NamespaceId) (id : TypeId) : TypeGraph :=
  graph.modifyNamespace owner fun ns => { ns with declarations := ns.declarations ++ [id] }

/-- Adds a namespace and lists it in its parent. -/
def addNamespace (graph : TypeGraph) (name : String) (parent : NamespaceId) :
    NamespaceId × TypeGraph :=
  let id : NamespaceId := ⟨graph.namespaces.length⟩
  let child : Namespace := { name := name, parent := some parent }
  let added := { graph with namespaces := graph.namespaces ++ [child] }
  (id, added.listChild parent id)

/-- Adds a type and lists it in its namespace if it is a declaration with a name. -/
def addType (graph : TypeGraph) (node : TypeNode) : TypeId × TypeGraph :=
  let id : TypeId := ⟨graph.types.length⟩
  let listed :=
    match node.kind.listingNamespace with
    | some owner => graph.listDeclaration owner id
    | none => graph
  (id, { listed with types := listed.types ++ [node] })

/-- The graph with a type replaced; nothing is listed anew. -/
def setType (graph : TypeGraph) (id : TypeId) (node : TypeNode) : TypeGraph :=
  { graph with types := graph.types.set id.index node }

/-- The graph with the parent of a namespace replaced; nothing is listed anew. -/
def setParent (graph : TypeGraph) (id : NamespaceId) (parent : Option NamespaceId) : TypeGraph :=
  graph.modifyNamespace id fun ns => { ns with parent := parent }

end TypeGraph

end ServiceBindings
