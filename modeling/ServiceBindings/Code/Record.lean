import ServiceBindings.Code.Lines

/-!
# Structs and aliases

The code of a record: a struct with its fields and, for fields that have a single value, constants.
-/

namespace ServiceBindings.Code

/-- A field of a struct. -/
structure RecordField where
  doc : Option String
  ident : String
  /-- The spelling of the type, before it is boxed or made optional. -/
  type : String
  /-- Whether the field leads back to its struct. -/
  boxed : Bool
  optional : Bool
  /-- The adapter that reads and writes the field. -/
  adapter : Option String
  /-- The name on the wire, where the identifier is not that name. -/
  rename : Option String
  deriving DecidableEq, Repr

/-- A constant of a struct. -/
structure RecordConstant where
  doc : Option String
  ident : String
  type : String
  value : String
  deriving DecidableEq, Repr

/-- A struct. -/
structure RecordDecl where
  doc : Option String
  name : String
  fields : List RecordField
  constants : List RecordConstant
  /-- Whether every field has a default. -/
  hasDefault : Bool
  deriving DecidableEq, Repr

/-- A type that may be absent. -/
def optionOf (type : String) : String := "Option<" ++ type ++ ">"

namespace RecordField

/-- The type that the field is declared with. -/
def declaredType (field : RecordField) : String :=
  let type := if field.boxed then "Box<" ++ field.type ++ ">" else field.type
  if field.optional then optionOf type else type

/-- The attribute of the adapter. -/
def adapterAttribute (field : RecordField) (adapter : String) : String :=
  "#[serde_as(as = \"" ++ (if field.optional then optionOf adapter else adapter) ++ "\")]"

/-- The lines of a field. -/
def lines (field : RecordField) : List String :=
  docComment field.doc
    ++ (if field.optional then ["#[serde(default, skip_serializing_if = \"Option::is_none\")]"]
      else [])
    ++ field.adapter.toList.map field.adapterAttribute
    ++ field.rename.toList.map renameAttribute
    ++ ["pub " ++ field.ident ++ ": " ++ field.declaredType ++ ","]

end RecordField

/-- The lines of a constant. -/
def RecordConstant.lines (constant : RecordConstant) : List String :=
  docComment constant.doc
    ++ ["pub const " ++ constant.ident ++ ": " ++ constant.type ++ " = " ++ constant.value ++ ";"]

/-- The lines of a struct. -/
def RecordDecl.lines (config : Config) (record : RecordDecl) : List String :=
  let adapters := config.reexported "serde_with"
  let constants :=
    if record.constants.isEmpty then []
    else "" :: block ("impl " ++ record.name) (record.constants.flatMap RecordConstant.lines)
  docComment record.doc
    ++ (if record.fields.any (·.adapter.isSome) then
        ["#[" ++ adapters ++ "::serde_as(crate = \"" ++ adapters ++ "\")]"]
      else [])
    ++ serialized config
      (["Debug", "Clone", "PartialEq"] ++ if record.hasDefault then ["Default"] else [])
    ++ blockOrBraces ("pub struct " ++ record.name) (record.fields.flatMap RecordField.lines)
    ++ constants

/-- The lines of an alias for another type. -/
def aliasLines (doc : Option String) (name type : String) : List String :=
  docComment doc ++ ["pub type " ++ name ++ " = " ++ type ++ ";"]

end ServiceBindings.Code
