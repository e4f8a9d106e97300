import ServiceBindings.Decimal.Format
import ServiceBindings.Json.Value

/-!
# Writing JSON

The compact form has no blanks. The pretty form puts every item and every member on a line of its
own, indented by two spaces a level.
-/

namespace ServiceBindings.Json

/-- Fractions are written with the fewest digits that read back, positionally from `1e-5` up to
`1e16` and with a signed exponent beyond, and of two equally near ones the even one. -/
def numberFormat : Decimal.Format := ⟨.even, -5, 16, true⟩

/-- The text of a number; one out of range is written as null. -/
def writeNumber : JsonNumber → List Char
  | .natural n => Decimal.digitsOf n
  | .negative n => '-' :: Decimal.digitsOf n
  | .fraction x => numberFormat.write x
  | .tooGreat => ['n', 'u', 'l', 'l']

/-- A number of two hexadecimal digits. -/
def hexPair (n : Nat) : List Char :=
  [Nat.digitChar (n / 16), Nat.digitChar (n % 16)]

/-- How one character stands in a string. -/
def writeChar (c : Char) : List Char :=
  if c = '"' then ['\\', '"']
  else if c = '\\' then ['\\', '\\']
  else if c = '\n' then ['\\', 'n']
  else if c = '\r' then ['\\', 'r']
  else if c = '\t' then ['\\', 't']
  else if c.toNat = 8 then ['\\', 'b']
  else if c.toNat = 12 then ['\\', 'f']
  else if c.toNat < 0x20 then ['\\', 'u', '0', '0'] ++ hexPair c.toNat
  else [c]

/-- A string with its quotes. -/
def writeString (text : String) : List Char :=
  '"' :: text.toList.flatMap writeChar ++ ['"']

/-- A string that may have no text; then it is written empty. -/
def writeText (text : Option String) : List Char :=
  writeString (text.getD "")

mutual

/-- The compact form of a value. -/
def writeChars : Json → List Char
  | .null => ['n', 'u', 'l', 'l']
  | .bool true => ['t', 'r', 'u', 'e']
  | .bool false => ['f', 'a', 'l', 's', 'e']
  | .number value => writeNumber value
  | .string text => writeText text
  | .array items => '[' :: writeItems items ++ [']']
  | .object members => '\x7b' :: writeMembers members ++ ['\x7d']

/-- The compact form of the items of an array. -/
def writeItems : List Json → List Char
  | [] => []
  | [item] => item.writeChars
  | item :: items => item.writeChars ++ ',' :: writeItems items

/-- The compact form of the members of an object. -/
def writeMembers : List (Option String × Json) → List Char
  | [] => []
  | [(key, value)] => writeText key ++ ':' :: value.writeChars
  | (key, value) :: members =>
    writeText key ++ ':' :: value.writeChars ++ ',' :: writeMembers members

end

/-- The compact form of a value. -/
def write (value : Json) : String :=
  String.ofList value.writeChars

/-- A line break and the indentation of a level. -/
def newLine (level : Nat) : List Char :=
  '\n' :: List.replicate (2 * level) ' '

mutual

/-- The pretty form of a value at a level of indentation. -/
def prettyChars (level : Nat) : Json → List Char
  | .array [] => ['[', ']']
  | .array items => '[' :: prettyItems (level + 1) items ++ newLine level ++ [']']
  | .object [] => ['\x7b', '\x7d']
  | .object members => '\x7b' :: prettyMembers (level + 1) members ++ newLine level ++ ['\x7d']
  | .null => ['n', 'u', 'l', 'l']
  | .bool true => ['t', 'r', 'u', 'e']
  | .bool false => ['f', 'a', 'l', 's', 'e']
  | .number value => writeNumber value
  | .string text => writeText text

/-- The pretty form of the items of an array. -/
def prettyItems (level : Nat) : List Json → List Char
  | [] => []
  | [item] => newLine level ++ item.prettyChars level
  | item :: items => newLine level ++ item.prettyChars level ++ ',' :: prettyItems level items

/-- The pretty form of the members of an object. -/
def prettyMembers (level : Nat) : List (Option String × Json) → List Char
  | [] => []
  | [(key, value)] => newLine level ++ writeText key ++ [':', ' '] ++ value.prettyChars level
  | (key, value) :: members =>
    newLine level ++ writeText key ++ [':', ' '] ++ value.prettyChars level
      ++ ',' :: prettyMembers level members

end

/-- The pretty form of a value. -/
def writePretty (value : Json) : String :=
  String.ofList (value.prettyChars 0)

end ServiceBindings.Json
