import ServiceBindings.Naming.Words

/-!
# Identifiers of the generated code

Names of a schema become identifiers: words are joined by the convention of the place, and a result
that is a keyword or starts with a digit is escaped. Element types of arrays and value types of maps
are named after what holds them.
-/

namespace ServiceBindings.Identifier

/-- The keywords that may be written as raw identifiers. -/
def keywords : List String := [
  "as", "break", "const", "continue", "else", "enum", "extern", "false", "fn", "for", "if",
  "impl", "in", "let", "loop", "match", "mod", "move", "mut", "pub", "ref", "return", "static",
  "struct", "trait", "true", "type", "unsafe", "use", "where", "while", "async", "await", "dyn",
  "abstract", "become", "box", "do", "final", "macro", "override", "priv", "typeof", "unsized",
  "virtual", "yield", "try", "gen"]

/-- The keywords that stand in paths and cannot be raw identifiers. -/
def pathKeywords : List String := ["self", "Self", "super", "crate"]

/-- Whether a text starts with an ASCII digit. -/
def startsWithDigit (name : String) : Bool :=
  match name.toList with
  | [] => false
  | c :: _ => c.isDigit

/-- The name made usable as an identifier. -/
def escape (name : String) : String :=
  if name ∈ pathKeywords then name ++ "_"
  else if name ∈ keywords then "r#" ++ name
  else if startsWithDigit name then "_" ++ name
  else name

/-- The identifier of a field, a function or a module. -/
def valueName (name : String) : String :=
  escape (snakeCase name)

/-- The identifier of a type or a variant. -/
def typeName (name : String) : String :=
  escape (pascalCase name)

/-- The identifier of a constant. -/
def constName (name : String) : String :=
  escape (upperSnakeCase name)

/-- A text without the marks of raw identifiers it starts with. -/
def dropRawChars : List Char → List Char
  | 'r' :: '#' :: rest => dropRawChars rest
  | cs => cs

/-- An identifier without the mark of a raw identifier. -/
def dropRaw (name : String) : String :=
  String.ofList (dropRawChars name.toList)

/-- The name for the elements of an array named `name`: an English plural loses its ending. -/
def elementName (name : String) : String :=
  match name.toList.reverse with
  | 's' :: 'e' :: 'i' :: stem => String.ofList (stem.reverse ++ ['y'])
  | 's' :: 'e' :: 's' :: 's' :: stem => String.ofList (stem.reverse ++ ['s', 's'])
  | 's' :: 'e' :: 'x' :: stem => String.ofList (stem.reverse ++ ['x'])
  | 's' :: 'e' :: 'h' :: 'c' :: stem => String.ofList (stem.reverse ++ ['c', 'h'])
  | 's' :: 'e' :: 'h' :: 's' :: stem => String.ofList (stem.reverse ++ ['s', 'h'])
  | 's' :: c :: stem =>
    if c = 's' || c = 'u' then name ++ "Item" else String.ofList (stem.reverse ++ [c])
  | _ => name ++ "Item"

/-- The name for the values of a map named `name`. -/
def mapValueName (name : String) : String :=
  name ++ "Value"

end ServiceBindings.Identifier
