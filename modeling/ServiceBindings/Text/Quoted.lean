import ServiceBindings.Text.Hidden

/-!
# Quoted text

A text as a string literal of the generated code: between double quotes, with the quote, the
backslash and the usual control characters escaped, and hidden characters written by their number.
-/

namespace ServiceBindings.Text

/-- How one character stands in a string literal. -/
def quotedChar (c : Char) : List Char :=
  if c = '"' then ['\\', '"']
  else if c = '\\' then ['\\', '\\']
  else if c = '\n' then ['\\', 'n']
  else if c = '\r' then ['\\', 'r']
  else if c = '\t' then ['\\', 't']
  else if c.toNat = 0 then ['\\', '0']
  else if isHidden c then ['\\', 'u', '\x7b'] ++ Nat.toDigits 16 c.toNat ++ ['\x7d']
  else [c]

/-- The characters of the string literal of a text. -/
def quotedChars (cs : List Char) : List Char :=
  '"' :: cs.flatMap quotedChar ++ ['"']

/-- The string literal of a text. -/
def quoted (text : String) : String :=
  String.ofList (quotedChars text.toList)

end ServiceBindings.Text
