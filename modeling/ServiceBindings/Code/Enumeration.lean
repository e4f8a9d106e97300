import ServiceBindings.Code.Lines
import ServiceBindings.Naming.Identifier
import ServiceBindings.Naming.Scope
import ServiceBindings.Schema.Types

/-!
# Enumerations

The code of an enumeration: an enum of plain variants, each with its text on the wire, and an
implementation that displays these texts.
-/

namespace ServiceBindings.Code

/-- A variant of an enumeration. -/
structure EnumVariant where
  doc : Option String
  ident : String
  /-- The name on the wire, where the identifier is not that name. -/
  rename : Option String
  /-- The text that the variant displays. -/
  shown : String
  deriving DecidableEq, Repr

/-- An enum of plain variants. -/
structure EnumDecl where
  doc : Option String
  name : String
  variants : List EnumVariant
  deriving DecidableEq, Repr

/-- The name on the wire that an identifier needs an attribute for. -/
def renameFor (ident wire : String) : Option String :=
  if Identifier.dropRaw ident = wire then none else some wire

/-- The text of a member on the wire: its value, or its name if it has none. -/
def wireText (member : EnumMember) : String :=
  match member.value with
  | some value => value.wireText
  | none => member.name

/-- The identifier that a member asks for. -/
def memberName (index : Nat) (member : EnumMember) : String :=
  let name := Identifier.typeName member.name
  if name.isEmpty then "Member" ++ toString index else name

/-- The identifiers of the members, all different. -/
def memberIdents (members : List EnumMember) : List String :=
  (NameScope.assignAll {} (members.zipIdx.map fun (member, i) => memberName i member)).1

/-- The variant of a member. -/
def EnumVariant.ofMember (ident : String) (member : EnumMember) : EnumVariant where
  doc := member.doc
  ident := ident
  rename := renameFor ident (wireText member)
  shown := wireText member

/-- The enum of an enumeration. -/
def EnumDecl.ofEnum (doc : Option String) (name : String) (enumeration : EnumType) : EnumDecl where
  doc := doc
  name := name
  variants :=
    List.zipWith EnumVariant.ofMember (memberIdents enumeration.members) enumeration.members

/-- The lines of a variant. -/
def EnumVariant.lines (variant : EnumVariant) : List String :=
  docComment variant.doc ++ variant.rename.toList.map renameAttribute ++ [variant.ident ++ ","]

/-- The method that formats a value. -/
def formatHead : String :=
  "fn fmt(&self, f: &mut ::core::fmt::Formatter<'_>) -> ::core::fmt::Result"

/-- The lines of an enum. -/
def EnumDecl.lines (config : Config) (enumeration : EnumDecl) : List String :=
  let arms := enumeration.variants.map fun variant =>
    enumeration.name ++ "::" ++ variant.ident ++ " => f.write_str("
      ++ Text.quoted variant.shown ++ "),"
  docComment enumeration.doc
    ++ serialized config ["Debug", "Clone", "Copy", "PartialEq", "Eq", "Hash"]
    ++ block ("pub enum " ++ enumeration.name) (enumeration.variants.flatMap EnumVariant.lines)
    ++ "" :: block ("impl ::core::fmt::Display for " ++ enumeration.name)
      (block formatHead (block "match *self" arms))

end ServiceBindings.Code
