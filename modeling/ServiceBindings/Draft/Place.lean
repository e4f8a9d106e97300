import ServiceBindings.Draft.Basic

/-!
# Places of declarations

Each namespace has a module, made together with those of its ancestors when it is first needed. The
declarations that a service starts with are those in its namespace and below.
-/

namespace ServiceBindings

namespace Draft

/-- The module of a namespace that has one already. -/
def moduleOf? (draft : Draft) (id : NamespaceId) : Option ModuleId :=
  draft.places.lookup id

/-- The module of a namespace; one that has none gets it in the module `parent`. -/
def openModule (graph : TypeGraph) (parent : ModuleId) (draft : Draft) (id : NamespaceId) :
    ModuleId × Draft :=
  match draft.moduleOf? id with
  | some m => (m, draft)
  | none =>
    let name := Identifier.valueName (graph.namespaceName id)
    let doc := (graph.namespace? id).bind (·.doc)
    let (m, modules) := draft.modules.addChild parent name .everywhere false
    (m, { draft with
      modules := (modules.setOrigin m id).setDoc m doc
      places := (id, m) :: draft.places })

/-- The module of the last of several namespaces, each of which lies in the one before it. -/
def openChain (graph : TypeGraph) : ModuleId → List NamespaceId → Draft → ModuleId × Draft
  | m, [], draft => (m, draft)
  | m, id :: ids, draft =>
    let (child, draft) := draft.openModule graph m id
    openChain graph child ids draft

end Draft

namespace Job

/-- The module of a namespace. -/
def place (job : Job) (id : NamespaceId) : Drafting ModuleId := do
  match (← get).moduleOf? id with
  | some m => return m
  | none =>
    match job.graph.chain id with
    | none => throw (.detachedNamespace (job.graph.namespaceName id))
    | some ids => modifyGet (Draft.openChain job.graph .global ids)

/-- The namespace of a declaration. -/
def ownerOf (job : Job) (id : TypeId) : Drafting NamespaceId := do
  match job.graph.owner? id with
  | some owner => return owner
  | none =>
    let name := ((job.graph.declaredName? id).map (·.pascalCase)).getD ""
    throw (.missingNamespace id name)

/-- The module of a declaration. -/
def placeOf (job : Job) (id : TypeId) : Drafting ModuleId := do
  job.place (← job.ownerOf id)

/-- The module of a container of operations. -/
def placeOfContainer (job : Job) : Container → Drafting ModuleId
  | .group id => job.place id
  | .interface id => job.placeOf id

/-- The identifier of a declaration. -/
def declarationName (job : Job) (id : TypeId) : Drafting String := do
  match (job.graph.declaredName? id).filter fun name => !name.isEmpty with
  | some name => return Identifier.escape name.pascalCase
  | none => throw (.anonymousWithoutName id)

/-- The name of the trait with the operations of a namespace. -/
def groupTraitName (job : Job) (id : NamespaceId) : String :=
  let name := Identifier.typeName (job.graph.namespaceName id)
  if name.isEmpty then "GlobalOperations" else name

/-- The name of the trait of a container of operations. -/
def traitName (job : Job) : Container → Drafting String
  | .group id => return job.groupTraitName id
  | .interface id => job.declarationName id

end Job

/-! ### The first declarations -/

namespace TypeGraph

/-- A namespace and all namespaces below it, at most `depth` deep, parents before their children. -/
def subtreeWithin (graph : TypeGraph) : Nat → NamespaceId → List NamespaceId
  | 0, _ => []
  | depth + 1, id =>
    let children := ((graph.namespace? id).map (·.children)).getD []
    id :: children.flatMap fun child => subtreeWithin graph depth child

/-- A namespace and all namespaces below it. -/
def subtree (graph : TypeGraph) (id : NamespaceId) : List NamespaceId :=
  graph.subtreeWithin graph.namespaces.length id

end TypeGraph

namespace Job

/-- Whether a type is an interface. -/
def isInterface (job : Job) (id : TypeId) : Bool :=
  match job.graph.kind? id with
  | some (.interface _) => true
  | _ => false

/-- Whether a type is a scalar that is spelled in place and never declared. -/
def isStandardScalar (job : Job) (id : TypeId) : Bool :=
  match job.graph.kind? id with
  | some (.scalar _) => (job.scalars.get? id).isSome
  | _ => false

/-- Whether a declaration of a namespace is one that the code starts with: any that is written, or
only the interfaces if what no operation needs is left out. -/
def isFirst (job : Job) (id : TypeId) : Bool :=
  if job.config.omitUnreachable then job.isInterface id else !job.isStandardScalar id

/-- The declarations of a namespace that the code starts with. -/
def firstOfNamespace (job : Job) (id : NamespaceId) : List DeclarationRef :=
  match job.graph.namespace? id with
  | none => []
  | some ns =>
    (ns.declarations.filter job.isFirst).map .type
      ++ if ns.operations.isEmpty then [] else [.operations id]

/-- The declarations that the code starts with. -/
def firstDeclarations (job : Job) : List DeclarationRef :=
  (job.graph.subtree job.service.root).flatMap job.firstOfNamespace

end Job

end ServiceBindings
