import ServiceBindings.Naming.Words
import ServiceBindings.Schema.Literal

/-!
# Types of a schema

A schema is a list of namespaces and a list of types. Types refer to each other by their position,
so a record may well contain itself.
-/

namespace ServiceBindings

/-- The position of a type in its graph. -/
structure TypeId where
  index : Nat
  deriving DecidableEq, Repr

/-- The position of a namespace in its graph. -/
structure NamespaceId where
  index : Nat
  deriving DecidableEq, Repr

/-- How messages name a type. -/
def TypeId.display (id : TypeId) : String := s!"type#{id.index}"

/-- How messages name a namespace. -/
def NamespaceId.display (id : NamespaceId) : String := s!"namespace#{id.index}"

/-- The namespace without name that every other one descends from. -/
def NamespaceId.global : NamespaceId := ⟨0⟩

/-- A range of bytes in the source of the schema. -/
structure Span where
  start : Nat
  stop : Nat
  deriving DecidableEq, Repr

/-- How a field is encoded on the wire. -/
structure Encoding where
  name : String
  type : TypeId
  deriving DecidableEq, Repr

/-- A field of a record or a parameter of an operation. -/
structure Field where
  name : String
  type : TypeId
  optional : Bool := false
  /-- The name on the wire, where it differs. -/
  wireName : Option String := none
  encoding : Option Encoding := none
  doc : Option String := none
  span : Option Span := none
  deriving DecidableEq, Repr

/-- The name of a field on the wire. -/
def Field.nameOnWire (field : Field) : String :=
  field.wireName.getD field.name

/-- An operation of an interface or of a namespace. -/
structure Operation where
  name : String
  parameters : List Field := []
  returnType : TypeId
  doc : Option String := none
  span : Option Span := none
  deriving DecidableEq, Repr

/-- A scalar, possibly refining another one. -/
structure ScalarType where
  name : String
  owner : NamespaceId
  base : Option TypeId := none
  deriving DecidableEq, Repr

/-- A record; one without a name is anonymous. -/
structure RecordType where
  name : Option String := none
  owner : Option NamespaceId := none
  /-- The names of the arguments of a template instance. -/
  templateArgs : List String := []
  /-- A name that replaces the composed one. -/
  friendlyName : Option String := none
  fields : List Field := []
  /-- Whether the record is an error shape. -/
  error : Bool := false
  deriving DecidableEq, Repr

/-- A member of an enumeration. -/
structure EnumMember where
  name : String
  value : Option LiteralValue := none
  doc : Option String := none
  deriving DecidableEq, Repr

/-- An enumeration. -/
structure EnumType where
  name : String
  owner : NamespaceId
  members : List EnumMember
  deriving DecidableEq, Repr

/-- A variant of a union. -/
structure UnionVariant where
  name : Option String := none
  type : TypeId
  deriving DecidableEq, Repr

/-- A union; one without a name is anonymous. -/
structure UnionType where
  name : Option String := none
  owner : Option NamespaceId := none
  variants : List UnionVariant
  /-- The property that carries the name of the variant. -/
  discriminator : Option String := none
  deriving DecidableEq, Repr

/-- An interface. -/
structure InterfaceType where
  name : String
  owner : NamespaceId
  operations : List Operation := []
  deriving DecidableEq, Repr

/-- A type that every schema has. -/
inductive Intrinsic where
  | never
  | void
  | null
  | unknown
  | errorType
  deriving DecidableEq, Repr

/-- What a type is. -/
inductive TypeKind where
  | scalar (scalar : ScalarType)
  | record (record : RecordType)
  | enum (enumeration : EnumType)
  | union (union : UnionType)
  | interface (interface : InterfaceType)
  | array (element : TypeId)
  | map (value : TypeId)
  | literal (value : LiteralValue)
  | intrinsic (name : Intrinsic)
  deriving DecidableEq, Repr

/-- A type with its documentation. -/
structure TypeNode where
  kind : TypeKind
  doc : Option String := none
  span : Option Span := none
  deriving DecidableEq, Repr

/-- A name that says something: an empty one counts as absent. -/
def presentName (name : Option String) : Option String :=
  name.filter fun text => !text.isEmpty

/-- The declared name of a record, composed with the template arguments. -/
def RecordType.declaredName (record : RecordType) : Option Words :=
  match presentName record.friendlyName with
  | some friendly => some (Words.parse friendly)
  | none =>
    (presentName record.name).map fun name => Words.ofComponents (name :: record.templateArgs)

namespace TypeKind

/-- The namespace that a declaration belongs to. -/
def owner : TypeKind → Option NamespaceId
  | scalar s => some s.owner
  | record r => r.owner
  | enum e => some e.owner
  | union u => u.owner
  | interface i => some i.owner
  | _ => none

/-- The declared name; anonymous records and unions and structural types have none. -/
def declaredName : TypeKind → Option Words
  | scalar s => some (Words.parse s.name)
  | record r => r.declaredName
  | enum e => some (Words.parse e.name)
  | union u => (presentName u.name).map Words.parse
  | interface i => some (Words.parse i.name)
  | _ => none

/-- The name as it is written in the schema. -/
def writtenName : TypeKind → Option String
  | scalar s => some s.name
  | record r => r.name
  | enum e => some e.name
  | union u => u.name
  | interface i => some i.name
  | _ => none

/-- Whether a type is declared under a name of its own. -/
def isDeclaration : TypeKind → Bool
  | scalar _ | record _ | enum _ | union _ | interface _ => true
  | _ => false

/-- Whether a type has a single value and no spelling. -/
def isValue : TypeKind → Bool
  | literal _ | intrinsic .null => true
  | _ => false

/-- The word for the kind of a type. -/
def shortName : TypeKind → String
  | scalar _ => "scalar"
  | record _ => "record"
  | enum _ => "enum"
  | union _ => "union"
  | interface _ => "interface"
  | array _ => "array"
  | map _ => "map"
  | literal _ => "literal"
  | intrinsic _ => "intrinsic"

/-- The namespace that lists a type among its declarations: that of a declaration with a name. -/
def listingNamespace (kind : TypeKind) : Option NamespaceId :=
  if kind.isDeclaration && kind.declaredName.isSome then kind.owner else none

/-- The types that values of a type contain. -/
def parts : TypeKind → List TypeId
  | record r => r.fields.map (·.type)
  | union u => u.variants.map (·.type)
  | array element => [element]
  | map value => [value]
  | _ => []

end TypeKind

end ServiceBindings
