import ServiceBindings.Decimal.Shortest

/-!
# Writing decimals

Positional and exponent notation of a decimal, and the choices that a format makes between them.
-/

namespace ServiceBindings.Decimal

/-- The choices of a number format. -/
structure Format where
  /-- Which of two equally near shortest decimals is written. -/
  tie : Tie
  /-- The least exponent of the first digit that is written positionally. -/
  least : Int
  /-- The first exponent of the first digit that is not written positionally. -/
  bound : Int
  /-- Whether an exponent that is not negative has a sign. -/
  plus : Bool

/-- The digits of a natural. -/
def digitsOf (n : Nat) : List Char :=
  Nat.toDigits 10 n

/-- Positional notation, with at least one digit on both sides of the point. -/
def positional (s : Scientific) : List Char :=
  let digits := digitsOf s.digits
  if 0 ≤ s.exponent then digits ++ List.replicate s.exponent.toNat '0' ++ ['.', '0']
  else
    let places := (-s.exponent).toNat
    if places < digits.length then
      digits.take (digits.length - places) ++ '.' :: digits.drop (digits.length - places)
    else
      ['0', '.'] ++ List.replicate (places - digits.length) '0' ++ digits

/-- The mark of an exponent; `plus` tells whether one that is not negative has a sign. -/
def exponentMark (plus : Bool) (exponent : Int) : List Char :=
  if exponent < 0 then 'e' :: '-' :: digitsOf (-exponent).toNat
  else if plus then 'e' :: '+' :: digitsOf exponent.toNat
  else 'e' :: digitsOf exponent.toNat

/-- Exponent notation, with one digit before the point and no point after a single digit. -/
def exponential (plus : Bool) (s : Scientific) : List Char :=
  let digits := digitsOf s.digits
  let mark := exponentMark plus (s.exponent + Int.ofNat digits.length - 1)
  match digits with
  | [] => mark
  | [d] => d :: mark
  | d :: ds => d :: '.' :: ds ++ mark

/-- The sign of a number. -/
def signOf (x : Binary64) : List Char :=
  if x.negative then ['-'] else []

/-- A number in a format. -/
def Format.write (format : Format) (x : Binary64) : List Char :=
  let s := shortest format.tie x
  let leading := s.exponent + Int.ofNat (digitsOf s.digits).length - 1
  signOf x ++
    if x.isZero || (format.least ≤ leading && leading < format.bound) then positional s
    else exponential format.plus s

end ServiceBindings.Decimal
