import ServiceBindings.Draft.Place

/-!
# References to types

Every type in the generated code is spelled as seen from the module it stands in. Spelling a type
asks for the declaration that the spelling names, so references make a draft grow.
-/

namespace ServiceBindings

/-! ### Arrays and maps -/

/-- A type built around another one. -/
inductive Wrapper where
  | array
  | map
  deriving DecidableEq, Repr

namespace Wrapper

/-- The name of what an array or a map holds. -/
def partName : Wrapper → String → String
  | array, name => Identifier.elementName name
  | map, name => Identifier.mapValueName name

end Wrapper

/-- A reference to a declaration for a use. -/
def referenceFor (use : TypeUse) (reference : String) : String :=
  match use with
  | .borrowed => "&" ++ reference
  | .owned | .param => reference

/-- An array or a map of a type, for a use. -/
def Wrapper.around (wrapper : Wrapper) (use : TypeUse) (part : String) : String :=
  match wrapper, use with
  | array, .owned => "Vec<" ++ part ++ ">"
  | array, _ => "&[" ++ part ++ "]"
  | map, use => referenceFor use ("::std::collections::HashMap<String, " ++ part ++ ">")

/-- Arrays and maps around a type, from the outermost one, for a use of the whole. -/
def wrapAll : List Wrapper → TypeUse → String → String
  | [], _, part => part
  | wrapper :: rest, use, part => wrapper.around use (wrapAll rest .owned part)

namespace TypeGraph

/-- The arrays and maps that a type consists of, from the outermost one, and the type in the middle,
if that is at most `limit` steps away. -/
def unwrapWithin (graph : TypeGraph) : Nat → TypeId → Option (List Wrapper × TypeId)
  | 0, _ => none
  | limit + 1, id =>
    match graph.kind? id with
    | some (.array element) =>
      (unwrapWithin graph limit element).map fun (rest, core) => (.array :: rest, core)
    | some (.map value) =>
      (unwrapWithin graph limit value).map fun (rest, core) => (.map :: rest, core)
    | _ => some ([], id)

/-- The arrays and maps that a type consists of, from the outermost one, and the type in the middle.
A type that only contains itself has none. -/
def unwrap (graph : TypeGraph) (id : TypeId) : Option (List Wrapper × TypeId) :=
  graph.unwrapWithin (graph.types.length + 1) id

end TypeGraph

/-! ### Names of synthetic declarations -/

namespace Draft

/-- Reserves a name in the module of synthetic declarations. -/
def nameSynthetic (draft : Draft) (base : String) : String × Draft :=
  let (name, names) := draft.syntheticNames.assign (Identifier.typeName base)
  (name, { draft with syntheticNames := names })

/-- Names a type without a name and queues its declaration. -/
def nameAnonymous (id : TypeId) (base : String) (draft : Draft) : String × Draft :=
  let (name, draft) := draft.nameSynthetic base
  (name, { draft with
    anonymous := (id, name) :: draft.anonymous
    synthetics := draft.synthetics ++ [.anonymous name id] })

/-- Names a subset of a union and queues its declaration. -/
def nameSubset (union : TypeId) (variants : List Nat) (base : String) (draft : Draft) :
    String × Draft :=
  let (name, draft) := draft.nameSynthetic base
  (name, { draft with
    subsets := ((union, base), name) :: draft.subsets
    synthetics := draft.synthetics ++ [.subset name union variants] })

end Draft

namespace Job

/-- The name of a type without a name: the one it has, or one after the preferred name. -/
def anonymousName (id : TypeId) (preferred : String) : Drafting String := do
  match (← get).anonymous.lookup id with
  | some name => return name
  | none =>
    if (Words.parse preferred).isEmpty then throw (.anonymousWithoutName id)
    modifyGet (Draft.nameAnonymous id preferred)

/-- The name of a subset of a union: the one that the same request got before, or a new one. -/
def subsetName (union : TypeId) (variants : List Nat) (preferred : String) : Drafting String := do
  match (← get).subsets.lookup (union, preferred) with
  | some name => return name
  | none => modifyGet (Draft.nameSubset union variants preferred)

/-! ### Spelling -/

/-- The spelling of a scalar. One that refines no standard scalar is reported and spelled as the
unit. -/
def spellScalar (job : Job) (id : TypeId) (span : Option Span) (use : TypeUse) :
    Drafting String := do
  match job.scalars.spelling? job.graph id with
  | some spelling => return spelling.forUse use
  | none =>
    let place := span <|> (job.graph.type? id).bind (·.span)
    Drafting.report
      (Diagnostic.make .unrecognizedScalar place (some (job.graph.displayName id)) [])
    return "()"

/-- The reference to a named declaration. -/
def spellDeclaration (job : Job) (id : TypeId) (path : ModulePath) : Drafting String := do
  let name ← job.declarationName id
  let target ← Drafting.pathOf (← job.placeOf id)
  Drafting.request (.type id)
  return path.itemReference target name

/-- The reference to a type without a name. -/
def spellAnonymous (id : TypeId) (path : ModulePath) (preferred : String) : Drafting String := do
  return path.itemReference syntheticPath (← anonymousName id preferred)

/-- The reference to a subset of a union. -/
def spellSubset (union : TypeId) (variants : List Nat) (path : ModulePath) (preferred : String) :
    Drafting String := do
  return path.itemReference syntheticPath (← subsetName union variants preferred)

/-- The spelling of an intrinsic type. -/
def spellIntrinsic (job : Job) : Intrinsic → String
  | .never => "!"
  | .void | .null => "()"
  | .unknown => job.config.reexported "serde_json::Value"
  | .errorType => "compile_error!(\"encountered an error type in the type graph\")"

/-- The spelling of a type that is neither an array nor a map. -/
def spellCore (job : Job) (id : TypeId) (span : Option Span) (use : TypeUse)
    (path : ModulePath) (preferred : String) : Drafting String := do
  match job.graph.kind? id with
  | none => throw (.unknownType id)
  | some kind =>
    match kind with
    | .scalar _ => job.spellScalar id span use
    | .record _ | .union _ =>
      if kind.declaredName.isNone then
        return referenceFor use (← spellAnonymous id path preferred)
      else
        return referenceFor use (← job.spellDeclaration id path)
    | .enum _ | .interface _ => return referenceFor use (← job.spellDeclaration id path)
    | .array _ | .map _ => throw (.endlessContainer id)
    | .literal _ => throw (.literalType id)
    | .intrinsic name => return job.spellIntrinsic name

/-- The spelling of a type as seen from the module at `path`; a type without a name that has none
yet is named after `preferred`. -/
def spell (job : Job) (id : TypeId) (span : Option Span) (use : TypeUse) (path : ModulePath)
    (preferred : String) : Drafting String := do
  match job.graph.unwrap id with
  | none => throw (.endlessContainer id)
  | some ([], core) => job.spellCore core span use path preferred
  | some (wrappers, core) =>
    let name := wrappers.foldl (fun name wrapper => wrapper.partName name) preferred
    return wrapAll wrappers use (← job.spellCore core span .owned path name)

end Job

end ServiceBindings
