import ServiceBindings.Code.Enumeration
import ServiceBindings.Diagnostic.Basic
import ServiceBindings.Schema.Service

/-!
# Credentials

The credentials of a service: a type for an API key that is sent in a header. Other ways to
authenticate, and more than one of them, are reported.
-/

namespace ServiceBindings

/-- An API key that is sent in a header. -/
structure Credential where
  name : String
  header : String
  deriving DecidableEq, Repr

namespace Credential

/-- A text without a given ending. -/
def dropEnding? (ending text : String) : Option String :=
  (ending.toList.reverse.isPrefixOf? text.toList.reverse).map fun rest => String.ofList rest.reverse

/-- The name of the credential of a scheme: its identifier without the word `Auth` at the end. -/
def schemeName (id : String) : String :=
  match (dropEnding? "Auth" id).filter fun stem => !stem.isEmpty with
  | some stem => Identifier.typeName stem
  | none => Identifier.typeName id

/-- The credential of a service, or the problem with its schemes. -/
def ofSchemes : List AuthScheme → Option (Except Diagnostic Credential)
  | [] => none
  | [scheme] =>
    match scheme.kind with
    | .apiKey .header header => some (.ok ⟨schemeName scheme.id, header⟩)
    | kind =>
      let detail := "`" ++ scheme.id ++ "` (" ++ kind.describe ++ ")"
      some (.error (Diagnostic.make .unsupportedAuthentication none (some detail) []))
  | schemes =>
    let ids := schemes.map fun scheme => "`" ++ scheme.id ++ "`"
    let detail := "more than one scheme (" ++ Code.commaSeparated ids ++ ")"
    some (.error (Diagnostic.make .unsupportedAuthentication none (some detail)
      ["declare a single API key header scheme"]))

/-- The lines of the type of a credential. -/
def lines (credential : Credential) : List String :=
  let constant := "pub const HEADER_NAME: &'static str = " ++ Text.quoted credential.header ++ ";"
  let shown := "f.debug_struct(" ++ Text.quoted credential.name
    ++ ").field(\"key\", &\"<redacted>\").finish()"
  ("/// API key sent in the `" ++ credential.header ++ "` header.")
    :: Code.derives ["Clone", "PartialEq", "Eq"]
    :: Code.block ("pub struct " ++ credential.name) ["key: String,"]
    ++ "" :: Code.block ("impl " ++ credential.name)
      (Code.separated [
        [constant],
        Code.block "pub fn new(key: impl Into<String>) -> Self" [
          "Self " ++ Code.inBraces "key: key.into()"],
        Code.block "pub fn header_name(&self) -> &'static str" ["Self::HEADER_NAME"],
        Code.block "pub fn as_header_value(&self) -> &str" ["&self.key"]])
    ++ "" :: Code.block ("impl ::core::fmt::Debug for " ++ credential.name)
      (Code.block Code.formatHead [shown])

end Credential

end ServiceBindings
