import ServiceBindings.Code.Enumeration
import ServiceBindings.Schema.Graph

/-!
# Unions

The code of a union: an enum with a variant for each payload. It is tagged when the union has a
discriminator and all its variants are named; otherwise a value is read by trying one variant after
the other.
-/

namespace ServiceBindings.Code

/-- What a variant of a union holds. -/
inductive Payload where
  /-- Nothing: the variant is a single value. -/
  | value
  /-- Nothing: the variant is null on the wire. -/
  | null
  /-- A value of a type, boxed if the type leads back to the union. -/
  | type (spelling : String) (boxed : Bool)
  deriving DecidableEq, Repr

/-- A variant of a union. -/
structure UnionMember where
  ident : String
  /-- The name on the wire, where an attribute has to give it. -/
  rename : Option String
  payload : Payload
  deriving DecidableEq, Repr

/-- An enum with payloads. -/
structure UnionDecl where
  doc : Option String
  name : String
  /-- The property that holds the name of the variant. -/
  tag : Option String
  variants : List UnionMember
  deriving DecidableEq, Repr

/-! ### Names of variants -/

/-- The name that the payload gives to a variant. -/
def payloadName (graph : TypeGraph) (id : TypeId) : Option String :=
  match graph.kind? id with
  | some (.array element) =>
    (graph.declaredName? element).map fun name => name.pascalCase ++ "Array"
  | some (.literal value) => some (Identifier.typeName value.wireText)
  | some (.intrinsic .null) => some "Null"
  | some kind => kind.declaredName.map fun name => Identifier.escape name.pascalCase
  | none => none

/-- The identifier that a variant asks for: its name, else one after its payload, else its number.
-/
def variantName (graph : TypeGraph) (index : Nat) (variant : UnionVariant) : String :=
  match presentName (variant.name.map Identifier.typeName) with
  | some name => name
  | none => (presentName (payloadName graph variant.type)).getD ("Anonymous" ++ toString index)

/-- The variants of a union at given positions, with these positions. -/
def selectVariants (union : UnionType) (selected : List Nat) : List (Nat × UnionVariant) :=
  selected.filterMap fun index => (union.variants[index]?).map fun variant => (index, variant)

/-- The identifiers of selected variants, all different. -/
def variantIdents (graph : TypeGraph) (variants : List (Nat × UnionVariant)) : List String :=
  (NameScope.assignAll {} (variants.map fun (index, variant) => variantName graph index variant)).1

/-- The tag of a union: its discriminator, if all selected variants are named. -/
def unionTag (union : UnionType) (variants : List (Nat × UnionVariant)) : Option String :=
  union.discriminator.filter fun _ => variants.all fun (_, variant) => variant.name.isSome

/-- The name on the wire that a variant needs an attribute for: in a tagged union its own name, and
otherwise the text of the literal it stands for. -/
def variantRename (graph : TypeGraph) (tag : Option String) (ident : String)
    (variant : UnionVariant) : Option String :=
  match tag with
  | some _ => variant.name.bind (renameFor ident)
  | none =>
    match graph.kind? variant.type with
    | some (.literal value) => some value.wireText
    | _ => none

/-! ### Text -/

/-- The lines of a variant. -/
def UnionMember.lines (config : Config) (member : UnionMember) : List String :=
  member.rename.toList.map renameAttribute ++
    match member.payload with
    | .value => [member.ident ++ ","]
    | .null =>
      ["#[serde(with = \"" ++ config.host "serialize::null_variant" ++ "\")]", member.ident ++ ","]
    | .type spelling boxed =>
      [member.ident ++ "(" ++ (if boxed then "Box<" ++ spelling ++ ">" else spelling) ++ "),"]

/-- The lines of a union. -/
def UnionDecl.lines (config : Config) (union : UnionDecl) : List String :=
  let mode :=
    match union.tag with
    | some tag => "#[serde(tag = " ++ Text.quoted tag ++ ")]"
    | none => "#[serde(untagged)]"
  docComment union.doc
    ++ serialized config ["Debug", "Clone", "PartialEq"]
    ++ mode :: block ("pub enum " ++ union.name) (union.variants.flatMap (UnionMember.lines config))

end ServiceBindings.Code
