import ServiceBindings.Config
import ServiceBindings.Text.Blank
import ServiceBindings.Text.Lines
import ServiceBindings.Text.Quoted

/-!
# Lines of code

Generated code is put together from lines. A block is a head, lines one level deeper, and a closing
brace.
-/

namespace ServiceBindings.Code

/-- Lines one level deeper; empty lines stay empty. -/
def indent (lines : List String) : List String :=
  lines.map fun line => if line.isEmpty then line else "    " ++ line

/-- Lines in braces after a head. -/
def block (head : String) (body : List String) : List String :=
  (head ++ " \x7b") :: indent body ++ ["\x7d"]

/-- Lines in braces after a head, or a pair of braces if there are no lines. -/
def blockOrBraces (head : String) (body : List String) : List String :=
  if body.isEmpty then [head ++ " \x7b\x7d"] else block head body

/-- Lines in braces after a head and the bounds of its type parameters. -/
def boundedBlock (head : String) (bounds body : List String) : List String :=
  head :: "where" :: indent bounds ++ "\x7b" :: indent body ++ ["\x7d"]

/-- Groups of lines with an empty line between two of them. -/
def separated : List (List String) → List String
  | [] => []
  | [group] => group
  | group :: groups => group ++ "" :: separated groups

/-- Text in braces on one line. -/
def inBraces (text : String) : String :=
  "\x7b " ++ text ++ " \x7d"

/-- Texts with commas between them. -/
def commaSeparated (texts : List String) : String :=
  ", ".intercalate texts

/-- A line of documentation. -/
def docLine (marker line : String) : String :=
  if line.isEmpty then marker else marker ++ " " ++ line

/-- The documentation of a declaration, without blanks around it and at the ends of its lines. -/
def docComment : Option String → List String
  | none => []
  | some doc =>
    (Text.lines (Text.trim doc.toList)).map fun line =>
      docLine "///" (String.ofList (Text.trimEnd line))

/-- The spelling of a type without values. -/
def emptyType : String := "::core::convert::Infallible"

/-- The attribute that derives implementations. -/
def derives (names : List String) : String :=
  "#[derive(" ++ commaSeparated names ++ ")]"

/-- The attributes that derive implementations together with serialization. -/
def serialized (config : Config) (names : List String) : List String :=
  let serde := config.reexported "serde"
  [derives (names ++ [serde ++ "::Deserialize", serde ++ "::Serialize"]),
    "#[serde(crate = \"" ++ serde ++ "\")]"]

/-- The attribute that gives a member another name on the wire. -/
def renameAttribute (wire : String) : String :=
  "#[serde(rename = " ++ Text.quoted wire ++ ")]"

end ServiceBindings.Code
