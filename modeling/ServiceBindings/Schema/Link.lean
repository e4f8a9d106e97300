import ServiceBindings.Schema.Graph

/-!
# Linking

Linking checks that every position stored in a graph exists and rebuilds the lists of children and
declarations. Checks and lists are done in order, so a failure leaves the lists as far as they had
been rebuilt.
-/

namespace ServiceBindings

namespace TypeGraph

/-! ### Checks -/

/-- Fails unless a type exists. -/
def checkType (graph : TypeGraph) (id : TypeId) : Except CompileError Unit :=
  if id.index < graph.types.length then .ok () else .error (.unknownType id)

/-- Fails unless a namespace exists. -/
def checkNamespace (graph : TypeGraph) (id : NamespaceId) : Except CompileError Unit :=
  if id.index < graph.namespaces.length then .ok () else .error (.unknownNamespace id)

/-- Fails at the first item of a list that fails. -/
def checkAll {α : Type} (check : α → Except CompileError Unit) : List α → Except CompileError Unit
  | [] => .ok ()
  | item :: items =>
    match check item with
    | .ok () => checkAll check items
    | .error error => .error error

/-- Fails unless the types of a field exist: its own and that of its encoding. -/
def checkField (graph : TypeGraph) (field : Field) : Except CompileError Unit :=
  checkAll graph.checkType (field.type :: field.encoding.toList.map (·.type))

/-- Fails unless the types of an operation exist. -/
def checkOperation (graph : TypeGraph) (operation : Operation) : Except CompileError Unit := do
  graph.checkType operation.returnType
  checkAll graph.checkField operation.parameters

/-- Fails unless the types that a type refers to exist. -/
def checkReferences (graph : TypeGraph) : TypeKind → Except CompileError Unit
  | .scalar scalar => checkAll graph.checkType scalar.base.toList
  | .record record => checkAll graph.checkField record.fields
  | .union union => checkAll (fun variant => graph.checkType variant.type) union.variants
  | .interface interface => checkAll graph.checkOperation interface.operations
  | .array element => graph.checkType element
  | .map value => graph.checkType value
  | .enum _ | .literal _ | .intrinsic _ => .ok ()

/-- Fails unless the namespace of a type and the types it refers to exist. -/
def checkKind (graph : TypeGraph) (kind : TypeKind) : Except CompileError Unit := do
  checkAll graph.checkNamespace kind.owner.toList
  graph.checkReferences kind

/-! ### Lists -/

/-- The graph with all lists of children and declarations emptied. -/
def clearLists (graph : TypeGraph) : TypeGraph :=
  { graph with
    namespaces := graph.namespaces.map fun ns => { ns with children := [], declarations := [] } }

/-- The parent of a namespace that must have one. -/
def parentOf (graph : TypeGraph) (id : NamespaceId) : Except CompileError NamespaceId :=
  match (graph.namespace? id).bind (·.parent) with
  | none => .error (.detachedNamespace (graph.namespaceName id))
  | some parent => (graph.checkNamespace parent).map fun _ => parent

/-- Lists namespaces in their parents until one has none, with the failure if there is one. -/
def linkChildren : TypeGraph → List NamespaceId → TypeGraph × Option CompileError
  | graph, [] => (graph, none)
  | graph, id :: ids =>
    match graph.parentOf id with
    | .error error => (graph, some error)
    | .ok parent => linkChildren (graph.listChild parent id) ids

/-- Lists a type in its namespace if it is a declaration with a name. -/
def linkType (graph : TypeGraph) (id : TypeId) (kind : TypeKind) : TypeGraph :=
  match kind.listingNamespace with
  | some owner => graph.listDeclaration owner id
  | none => graph

/-- Checks types and lists them until one fails, with the failure if there is one. -/
def linkTypes : TypeGraph → List (TypeId × TypeKind) → TypeGraph × Option CompileError
  | graph, [] => (graph, none)
  | graph, (id, kind) :: rest =>
    match graph.checkKind kind with
    | .error error => (graph, some error)
    | .ok () => linkTypes (graph.linkType id kind) rest

/-- The types of a graph with their positions. -/
def positionedKinds (graph : TypeGraph) : List (TypeId × TypeKind) :=
  graph.types.zipIdx.map fun (node, i) => (⟨i⟩, node.kind)

/-- Checks every position of a graph and rebuilds its lists; the graph is what the work has come to
when it fails. -/
def link (graph : TypeGraph) : TypeGraph × Option CompileError :=
  match graph.namespaces with
  | [] => (graph, some .missingGlobalNamespace)
  | global :: _ =>
    if global.parent.isSome then (graph, some .missingGlobalNamespace)
    else
      match linkChildren graph.clearLists graph.namespaceIds.tail with
      | (graph, some error) => (graph, some error)
      | (graph, none) =>
        match checkAll graph.checkOperation (graph.namespaces.flatMap (·.operations)) with
        | .error error => (graph, some error)
        | .ok () => linkTypes graph graph.positionedKinds

end TypeGraph

/-- A type graph and the service to compile from it. -/
structure Schema where
  graph : TypeGraph
  service : Service
  deriving DecidableEq, Repr

namespace Schema

/-- Fails unless a container exists and is one. -/
def checkContainer (graph : TypeGraph) : Container → Except CompileError Unit
  | .group id => graph.checkNamespace id
  | .interface id => do
    graph.checkType id
    match graph.kind? id with
    | some (.interface _) => .ok ()
    | _ => .error (.notAnInterface id)

/-- Fails unless the positions in an endpoint exist. -/
def checkEndpoint (graph : TypeGraph) (endpoint : HttpOperation) : Except CompileError Unit := do
  checkContainer graph endpoint.operation.container
  TypeGraph.checkAll graph.checkType (endpoint.parameters.map (·.type))
  TypeGraph.checkAll graph.checkType (endpoint.responses.filterMap (·.body))

/-- Fails unless the positions in a service exist. -/
def checkService (graph : TypeGraph) (service : Service) : Except CompileError Unit := do
  graph.checkNamespace service.root
  TypeGraph.checkAll (checkEndpoint graph) ((service.http.map (·.operations)).getD [])

/-- Links a graph and checks the service against it. -/
def make (graph : TypeGraph) (service : Service) : Except CompileError Schema :=
  match graph.link with
  | (_, some error) => .error error
  | (graph, none) => (checkService graph service).map fun _ => ⟨graph, service⟩

end Schema

end ServiceBindings
