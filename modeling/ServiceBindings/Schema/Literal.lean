import ServiceBindings.Decimal.Format
import ServiceBindings.Text.Quoted

/-!
# Literal values

The values that a literal type or an enum member stands for, with their spelling in the generated
code and their text on the wire.
-/

namespace ServiceBindings

/-- A value written in a schema. -/
inductive LiteralValue where
  | bool (value : Bool)
  | number (value : Binary64)
  | string (value : String)
  deriving DecidableEq, Repr

namespace LiteralValue

/-- Fractions are written with the fewest digits that read back, positionally from `1e-4` up to
`1e16`, and of two equally near ones the greater one. -/
def fractionFormat : Decimal.Format := ⟨.up, -4, 16, false⟩

/-- The spelling of a number: a whole one has all its digits and no point. -/
def numberText (x : Binary64) : String :=
  match x.toNat? with
  | some n => String.ofList (Decimal.signOf x ++ Decimal.digitsOf n)
  | none => String.ofList (fractionFormat.write x)

/-- The literal of the generated code. -/
def toCode : LiteralValue → String
  | bool true => "true"
  | bool false => "false"
  | number value => numberText value
  | string value => Text.quoted value

/-- The text on the wire. -/
def wireText : LiteralValue → String
  | string value => value
  | value => value.toCode

/-- The word for the kind of a value. -/
def kindName : LiteralValue → String
  | bool _ => "bool"
  | number _ => "number"
  | string _ => "string"

/-- The type of a constant that holds the value. -/
def constantType : LiteralValue → String
  | string _ => "&'static str"
  | bool _ => "bool"
  | number value =>
    match value.toInt? with
    | some n => if -2147483648 ≤ n ∧ n ≤ 2147483647 then "i32" else "i64"
    | none => "f64"

end LiteralValue

end ServiceBindings
