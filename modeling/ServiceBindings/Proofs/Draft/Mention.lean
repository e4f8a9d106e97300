import Mathlib.Data.List.Basic
import ServiceBindings.Proofs.Draft.Surface
import ServiceBindings.Proofs.Schema.Descent

/-!
# Mentions

Which declarations a declaration mentions, read off the schema alone.  A reference to a type names
the declaration of the type; arrays, maps and types without a name are looked through.  What an
operation returns is named as a whole, or variant by variant if the variants are split.  The
declarations that are needed are the least set that contains the roots and is closed under mention.
-/

namespace ServiceBindings

namespace TypeGraph

variable (graph : TypeGraph)

/-! ### What types name -/

/-- Whether a type is spelled by its declared name. -/
def IsNamed (id : TypeId) : Prop :=
  ∃ kind, graph.kind? id = some kind ∧ kind.isReference = true ∧ kind.declaredName ≠ none

/-- Whether a type is spelled by a name but declares none. -/
def IsAnonymous (id : TypeId) : Prop :=
  ∃ kind, graph.kind? id = some kind ∧ kind.isReference = true ∧ kind.declaredName = none

/-- Whether a type is an array or a map of another one. -/
def IsElement (id part : TypeId) : Prop :=
  graph.kind? id = some (.array part) ∨ graph.kind? id = some (.map part)

/-- The types of the fields of a record and of the variants of a union that carry information. -/
inductive IsMember (id : TypeId) : TypeId → Prop where
  | field {record : RecordType} {field : Field} : graph.kind? id = some (.record record) →
      field ∈ record.fields → graph.isValue field.type = false → IsMember id field.type
  | variant {union : UnionType} {variant : UnionVariant} : graph.kind? id = some (.union union) →
      variant ∈ union.variants → graph.isValue variant.type = false → IsMember id variant.type

/-- The declarations that a reference to a type names. -/
inductive Names : TypeId → TypeId → Prop where
  | named {id : TypeId} : graph.IsNamed id → Names id id
  | element {id part target : TypeId} : graph.IsElement id part → Names part target →
      Names id target
  | member {id part target : TypeId} : graph.IsAnonymous id → graph.IsMember id part →
      Names part target → Names id target

/-- Whether a union has several variants, which are all errors or all no errors. -/
def OneSided (union : UnionType) : Prop :=
  2 ≤ union.variants.length
    ∧ ∃ errors, ∀ variant ∈ union.variants, graph.isErrorRecord variant.type = errors

/-- The declarations that an operation names. -/
inductive OperationNames (operation : Operation) (target : TypeId) : Prop where
  | parameter {parameter : Field} : parameter ∈ operation.parameters →
      graph.isValue parameter.type = false → graph.Names parameter.type target →
      OperationNames operation target
  /-- A type that is no union, or a union whose variants are all on one side. -/
  | whole : (∀ union, graph.kind? operation.returnType = some (.union union) →
        graph.OneSided union) →
      graph.Names operation.returnType target → OperationNames operation target
  | variant {union : UnionType} {variant : UnionVariant} :
      graph.kind? operation.returnType = some (.union union) → ¬graph.OneSided union →
      variant ∈ union.variants → graph.Names variant.type target →
      OperationNames operation target

/-- The declarations that a declaration mentions. -/
inductive Mentions : DeclarationRef → DeclarationRef → Prop where
  | member {id part target : TypeId} : graph.IsMember id part → graph.Names part target →
      Mentions (.type id) (.type target)
  | operation {container : Container} {operation : Operation} {target : TypeId} :
      operation ∈ graph.operations container → graph.OperationNames operation target →
      Mentions container.declaration (.type target)

end TypeGraph

/-! ### Roots -/

namespace Job

variable (job : Job)

/-- The declarations that a job starts with. -/
inductive IsRoot : DeclarationRef → Prop where
  /-- A named declaration of the service, but no scalar that is spelled in place. -/
  | declaration {ns : NamespaceId} {id : TypeId} : job.config.omitUnreachable = false →
      job.graph.Descends job.service.root ns → job.graph.listing? id = some ns →
      job.isStandardScalar id = false → IsRoot (.type id)
  /-- Only interfaces are roots if the rest is left out unless it is needed. -/
  | interface {ns : NamespaceId} {id : TypeId} : job.config.omitUnreachable = true →
      job.graph.Descends job.service.root ns → job.graph.listing? id = some ns →
      job.isInterface id = true → IsRoot (.type id)
  | operations {ns : NamespaceId} : job.graph.Descends job.service.root ns →
      job.graph.operations (.group ns) ≠ [] → IsRoot (.operations ns)
  /-- The container of an endpoint whose operation exists. -/
  | container {http : HttpService} {endpoint : HttpOperation} {operation : Operation} :
      job.service.http = some http → job.config.http = true → endpoint ∈ http.operations →
      job.graph.operation? endpoint.operation = some operation →
      IsRoot endpoint.operation.container.declaration
  | parameter {http : HttpService} {endpoint : HttpOperation} {operation : Operation}
      {parameter : HttpParameter} {target : TypeId} :
      job.service.http = some http → job.config.http = true → endpoint ∈ http.operations →
      job.graph.operation? endpoint.operation = some operation →
      parameter ∈ endpoint.parameters → job.graph.isValue parameter.type = false →
      job.graph.Names parameter.type target → IsRoot (.type target)

/-- The declarations that are needed: the roots and whatever they mention. -/
inductive Needed : DeclarationRef → Prop where
  | root {declaration : DeclarationRef} : job.IsRoot declaration → Needed declaration
  | mention {declaration other : DeclarationRef} : Needed declaration →
      job.graph.Mentions declaration other → Needed other

end Job

end ServiceBindings
