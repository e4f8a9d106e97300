import ServiceBindings.Decimal.Binary64

/-!
# JSON values

A JSON document as it was written: members keep their order and may repeat a key, whole numbers are
told from fractions, and a string or a number that no value can hold is kept as such, because a
reader that skips it must not mind.
-/

namespace ServiceBindings

/-- A JSON number. -/
inductive JsonNumber where
  /-- A whole number without sign of at most 64 bits. -/
  | natural (n : Nat)
  /-- The negative of a whole number, in the range of signed 64-bit numbers. -/
  | negative (n : Nat)
  /-- Any other number, rounded. -/
  | fraction (x : Binary64)
  /-- A number too great to be rounded. -/
  | tooGreat
  deriving DecidableEq, Repr

/-- A JSON value. A string that is not valid Unicode has no text. -/
inductive Json where
  | null
  | bool (value : Bool)
  | number (value : JsonNumber)
  | string (text : Option String)
  | array (items : List Json)
  | object (members : List (Option String × Json))
  deriving Repr

namespace Json

/-- A string value. -/
def ofString (text : String) : Json := .string (some text)

/-- A number value. -/
def ofNat (n : Nat) : Json := .number (.natural n)

/-- An object value. -/
def ofMembers (members : List (String × Json)) : Json :=
  .object (members.map fun member => (some member.1, member.2))

mutual

/-- Whether every string of a value is text, every number is in range, and arrays and objects are
nested at most `room` deep. -/
def isSound : Json → Nat → Bool
  | .null, _ => true
  | .bool _, _ => true
  | .number value, _ => value != .tooGreat
  | .string text, _ => text.isSome
  | .array _, 0 => false
  | .array items, room + 1 => allSound items room
  | .object _, 0 => false
  | .object members, room + 1 => membersSound members room

/-- Whether every value of a list is sound. -/
def allSound : List Json → Nat → Bool
  | [], _ => true
  | item :: items, room => item.isSound room && allSound items room

/-- Whether every key of a list of members is text and every value is sound. -/
def membersSound : List (Option String × Json) → Nat → Bool
  | [], _ => true
  | (key, value) :: members, room => key.isSome && value.isSound room && membersSound members room

end

end Json

end ServiceBindings
