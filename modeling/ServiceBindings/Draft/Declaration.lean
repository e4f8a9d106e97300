import ServiceBindings.Code.Trait
import ServiceBindings.Code.Union
import ServiceBindings.Draft.Return
import ServiceBindings.Schema.Containment

/-!
# Declarations

The declarations of a draft: structs, enums and traits with their types spelled from the module they
are written into.
-/

namespace ServiceBindings

namespace Job

/-! ### Records -/

/-- The adapter that reads and writes dates as seconds. -/
def timestampAdapter (job : Job) : String :=
  job.config.reexported "serde_with::TimestampSeconds<i64>"

/-- Whether an encoding is supported: that of a date as a number of seconds. -/
def isTimestamp (job : Job) (id : TypeId) (encoding : Encoding) : Bool :=
  let wire := job.graph.qualifiedName encoding.type
  job.graph.qualifiedName id = some (standardNamespace ++ ".utcDateTime")
    && encoding.name = "unixTimestamp"
    && (wire = some (standardNamespace ++ ".int32") || wire = some (standardNamespace ++ ".int64"))

/-- The adapter for the encoding of a field; one that is not supported is reported. -/
def adapterOf (job : Job) (field : Field) : Drafting (Option String) := do
  match field.encoding with
  | none => return none
  | some encoding =>
    if job.isTimestamp field.type encoding then return some job.timestampAdapter
    let detail := "`" ++ encoding.name ++ "` of `" ++ job.graph.displayName field.type ++ "` as `"
      ++ job.graph.displayName encoding.type ++ "`"
    Drafting.report (Diagnostic.make .unrecognizedEncoding field.span (some detail) [])
    return none

/-- The constant of a field that has a single value. -/
def recordConstant (job : Job) (field : Field) : Code.RecordConstant :=
  let (type, value) :=
    match job.graph.kind? field.type with
    | some (.literal value) => (value.constantType, value.toCode)
    | _ => ("()", "()")
  ⟨field.doc, Identifier.constName field.name, type, value⟩

/-- The field of a struct for a field of a record. -/
def recordField (job : Job) (id : TypeId) (name : String) (path : ModulePath) (field : Field) :
    Drafting Code.RecordField := do
  let ident := Identifier.valueName field.name
  let type ← job.spell field.type field.span .owned path (name ++ pascalCase field.name)
  let adapter ← job.adapterOf field
  return {
    doc := field.doc
    ident := ident
    type := type
    boxed := field.name ∈ job.graph.recursiveFields id
    optional := field.optional
    adapter := adapter
    rename := Code.renameFor ident field.nameOnWire }

/-- Whether a field has a default: it may be absent, or it is an array. -/
def fieldHasDefault (job : Job) (field : Field) : Bool :=
  field.optional ||
    match job.graph.kind? field.type with
    | some (.array _) => true
    | _ => false

/-- The struct of a record. -/
def recordDecl (job : Job) (id : TypeId) (record : RecordType) (name : String)
    (path : ModulePath) : Drafting Code.RecordDecl := do
  let stored := record.fields.filter fun field => !job.graph.isValue field.type
  let constant := record.fields.filter fun field => job.graph.isValue field.type
  let fields ← stored.mapM (job.recordField id name path)
  return {
    doc := (job.graph.type? id).bind (·.doc)
    name := name
    fields := fields
    constants := constant.map job.recordConstant
    hasDefault := stored.all job.fieldHasDefault }

/-! ### Unions -/

/-- What a variant of a union holds. -/
def payload (job : Job) (id : TypeId) (path : ModulePath) (preferred : String) (index : Nat)
    (variant : UnionVariant) : Drafting Code.Payload := do
  match job.graph.kind? variant.type with
  | some (.intrinsic .null) => return .null
  | some (.literal _) => return .value
  | _ =>
    let spelling ← job.spell variant.type none .owned path preferred
    return .type spelling (index ∈ job.graph.recursiveVariants id)

/-- The enum of some variants of a union. -/
def unionDecl (job : Job) (id : TypeId) (union : UnionType) (selected : List Nat)
    (doc : Option String) (name : String) (path : ModulePath) : Drafting Code.UnionDecl := do
  let variants := Code.selectVariants union selected
  let tag := Code.unionTag union variants
  let members ← ((Code.variantIdents job.graph variants).zip variants).mapM
    fun (ident, index, variant) => do
      let payload ← job.payload id path (name ++ Identifier.dropRaw ident) index variant
      return ({ ident, rename := Code.variantRename job.graph tag ident variant, payload } :
        Code.UnionMember)
  return { doc, name, tag, variants := members }

/-! ### Traits -/

/-- The name of a parameter type of an operation that has none. -/
def parameterTypeName (operation parameter : String) : String :=
  pascalCase operation ++ pascalCase parameter

/-- A parameter of a method: a required one, or an optional one. -/
def methodParameter (job : Job) (operation : String) (path : ModulePath) (parameter : Field) :
    Drafting (Sum (String × String) Code.OptionalParameter) := do
  let ident := Identifier.valueName parameter.name
  let preferred := parameterTypeName operation parameter.name
  let use : TypeUse := if parameter.optional then .owned else .param
  let type ← job.spell parameter.type parameter.span use path preferred
  return if parameter.optional then .inr ⟨parameter.doc, ident, type⟩ else .inl (ident, type)

/-- The parameters of an operation that carry information. -/
def informative (job : Job) (operation : Operation) : List Field :=
  operation.parameters.filter fun parameter => !job.graph.isValue parameter.type

/-- The method of an operation. -/
def method (job : Job) (container : Container) (trait : String) (path : ModulePath)
    (operation : Operation) : Drafting Code.Method := do
  let split ← job.splitReturn container operation
  let success ← job.spellSide split.success path
  let error ← job.spellSide split.error path
  let parameters ← (job.informative operation).mapM (job.methodParameter operation.name path)
  return {
    doc := operation.doc
    name := Code.methodName operation.name
    required := parameters.filterMap Sum.getLeft?
    optional := parameters.filterMap Sum.getRight?
    result := "impl " ++ job.config.host "OperationFuture" ++ "<" ++ success ++ ", Self::Error<"
      ++ error ++ ">>"
    optionsMethod := Code.optionsMethodName operation.name
    optionsType := Code.optionsTypeName trait operation.name }

/-- The trait of a container. -/
def traitDecl (job : Job) (container : Container) (name : String) (doc : Option String)
    (path : ModulePath) : Drafting Code.TraitDecl := do
  let methods ← (job.graph.operations container).mapM (job.method container name path)
  return { doc, name, methods }

/-! ### Writing declarations -/

/-- The error for a type that cannot be declared. -/
def notADeclaration (job : Job) (id : TypeId) : CompileError :=
  match job.graph.kind? id with
  | some kind => .notADeclaration id kind.shortName
  | none => .unknownType id

/-- The lines of a named type. -/
def typeLines (job : Job) (id : TypeId) (name : String) (path : ModulePath) :
    Drafting (List String) := do
  let doc := (job.graph.type? id).bind (·.doc)
  match job.graph.kind? id with
  | some (.record record) => return (← job.recordDecl id record name path).lines job.config
  | some (.enum enumeration) =>
    return (Code.EnumDecl.ofEnum doc name enumeration).lines job.config
  | some (.union union) =>
    let all := List.range union.variants.length
    return (← job.unionDecl id union all doc name path).lines job.config
  | some (.interface _) => return (← job.traitDecl (.interface id) name doc path).lines
  | some (.scalar _) => return Code.aliasLines doc name (← job.spellScalar id none .owned)
  | _ => throw (job.notADeclaration id)

/-- Writes a declaration into the module of its namespace. -/
def writeDeclaration (job : Job) : DeclarationRef → Drafting Unit
  | .type id => do
    let name ← job.declarationName id
    let m ← job.placeOf id
    Drafting.write m (← job.typeLines id name (← Drafting.pathOf m))
  | .operations id => do
    let m ← job.place id
    let trait ← job.traitDecl (.group id) (job.groupTraitName id) none (← Drafting.pathOf m)
    Drafting.write m trait.lines

/-- The lines of a synthetic declaration. -/
def syntheticLines (job : Job) : Synthetic → Drafting (List String)
  | .anonymous name id => do
    let doc := (job.graph.type? id).bind (·.doc)
    match job.graph.kind? id with
    | some (.record record) =>
      return (← job.recordDecl id record name syntheticPath).lines job.config
    | some (.union union) =>
      let all := List.range union.variants.length
      return (← job.unionDecl id union all doc name syntheticPath).lines job.config
    | _ => throw (job.notADeclaration id)
  | .subset name id variants => do
    match job.graph.kind? id with
    | some (.union union) =>
      return (← job.unionDecl id union variants none name syntheticPath).lines job.config
    | _ => throw (job.notADeclaration id)

/-- Writes a synthetic declaration, unless it was written before. -/
def writeSynthetic (job : Job) (synthetic : Synthetic) : Drafting Unit := do
  if synthetic.key ∈ (← get).synthesized then return
  modify fun draft => { draft with synthesized := synthetic.key :: draft.synthesized }
  Drafting.write .synthetic (← job.syntheticLines synthetic)

end Job

end ServiceBindings
