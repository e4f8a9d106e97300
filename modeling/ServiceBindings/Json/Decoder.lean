import ServiceBindings.Json.Value

/-!
# Decoding JSON

The building blocks for reading records and choices from JSON values. A record is an object, in
which unknown keys are ignored and known ones must not repeat, or an array of the leading fields. A
choice is tagged by one of the members of its object.
-/

namespace ServiceBindings.Json

/-! ### Plain values -/

/-- The text of a string. -/
def asText : Json → Option String
  | .string text => text
  | _ => none

/-- A truth value. -/
def asBool : Json → Option Bool
  | .bool value => some value
  | _ => none

/-- A natural number below a bound, written without fraction and exponent. -/
def asNatBelow (bound : Nat) : Json → Option Nat
  | .number (.natural n) => if n < bound then some n else none
  | _ => none

/-- The items of an array. -/
def asList {α : Type} (decode : Json → Option α) : Json → Option (List α)
  | .array items => items.mapM decode
  | _ => none

/-! ### Fields -/

/-- A field that must be given. -/
def required {α : Type} (decode : Json → Option α) : Option Json → Option α
  | some value => decode value
  | none => none

/-- A field that may be absent or null. -/
def optional {α : Type} (decode : Json → Option α) : Option Json → Option (Option α)
  | none | some .null => some none
  | some value => (decode value).map some

/-- A field that may be absent. -/
def withDefault {α : Type} (default : α) (decode : Json → Option α) : Option Json → Option α
  | some value => decode value
  | none => some default

/-- The values of a key. -/
def valuesOf (key : String) (members : List (Option String × Json)) : List Json :=
  members.filterMap fun member => if member.1 = some key then some member.2 else none

/-- The only value of a key, which may be absent; a repeated key is refused. -/
def onlyValue (members : List (Option String × Json)) (key : String) : Option (Option Json) :=
  match valuesOf key members with
  | [] => some none
  | [value] => some (some value)
  | _ => none

/-- Whether all keys are text. -/
def keysAreText (members : List (Option String × Json)) : Bool :=
  members.all fun member => member.1.isSome

/-- The fields of an object, in the order of the given keys. -/
def objectFields (keys : List String) (members : List (Option String × Json)) :
    Option (List (Option Json)) :=
  if keysAreText members then keys.mapM (onlyValue members) else none

/-- The fields of a record, in the order of the given keys. -/
def fields (keys : List String) : Json → Option (List (Option Json))
  | .object members => objectFields keys members
  | .array items =>
    if items.length ≤ keys.length then
      some (items.map some ++ List.replicate (keys.length - items.length) none)
    else none
  | _ => none

/-! ### Choices -/

/-- The choice that a name stands for. -/
def namedChoice {α : Type} (choices : List (String × α)) (name : String) : Option α :=
  choices.lookup name

/-- A choice without fields: its name, or an object whose only member is the name with an empty
value. -/
def asChoice {α : Type} (isEmptyValue : Json → Bool) (choices : List (String × α)) :
    Json → Option α
  | .string (some name) => namedChoice choices name
  | .object [(some name, value)] => if isEmptyValue value then namedChoice choices name else none
  | _ => none

/-- Whether a value is null. -/
def isNull : Json → Bool
  | .null => true
  | _ => false

/-- Whether a value is null or an object without members. -/
def isNullOrEmpty : Json → Bool
  | .null | .object [] => true
  | _ => false

/-- The tag of a tagged choice and the rest of its members. -/
def taggedObject (key : String) (members : List (Option String × Json)) : Option (Json × Json) :=
  if keysAreText members then
    match valuesOf key members with
    | [tag] => some (tag, .object (members.filter fun member => member.1 ≠ some key))
    | _ => none
  else none

/-- The tag of a tagged choice and the rest: of an object the other members, of an array the other
items. -/
def tagged (key : String) : Json → Option (Json × Json)
  | .object members => taggedObject key members
  | .array (tag :: rest) => some (tag, .array rest)
  | _ => none

/-- The rest of a tagged choice without fields. -/
def noFields {α : Type} (value : α) : Json → Option α
  | .object _ | .array [] => some value
  | _ => none

/-- The choice that a tag names, or gives the position of. -/
def tagChoice {α : Type} (choices : List (String × α)) : Json → Option α
  | .string (some name) => namedChoice choices name
  | .number (.natural n) => (choices[n]?).map (·.2)
  | _ => none

end ServiceBindings.Json
