/-!
# Binary fractions of 64 bits

The finite numbers of the IEEE 754 binary64 format, as a sign, a significand and a power of two.
Every number has one representation: the significand has 53 bits, or fewer when the exponent is the
least one. Operations compute exactly and round once, to the nearest number and to the even one of
two that are equally near.
-/

namespace ServiceBindings

/-- The number `significand * 2 ^ exponent`, or its negative. -/
structure Binary64 where
  negative : Bool
  significand : Nat
  exponent : Int
  deriving DecidableEq, Repr

namespace Binary64

/-- The least exponent. -/
def minExponent : Int := -1074

/-- The greatest exponent. -/
def maxExponent : Int := 971

/-- Zero with a sign. -/
def zero (negative : Bool) : Binary64 := ⟨negative, 0, minExponent⟩

/-- The number with the other sign. -/
def neg (x : Binary64) : Binary64 := { x with negative := !x.negative }

/-- Whether a number is zero. -/
def isZero (x : Binary64) : Bool := x.significand == 0

/-- The quotient of two naturals, rounded to the nearest natural and to the even one of two. -/
def roundDiv (num den : Nat) : Nat :=
  let q := num / den
  let r := num % den
  if 2 * r < den then q
  else if den < 2 * r then q + 1
  else if q % 2 = 0 then q else q + 1

/-- A power of two. -/
def twoTo (n : Nat) : Nat := Nat.pow 2 n

/-- A power of ten. -/
def tenTo (n : Nat) : Nat := Nat.pow 10 n

/-- A fraction times a power of two, as a fraction. -/
def scale (num den : Nat) (exponent : Int) : Nat × Nat :=
  if 0 ≤ exponent then (num * twoTo exponent.toNat, den) else (num, den * twoTo (-exponent).toNat)

/-- The exponent at which the fraction `num / den` has a significand of 53 bits, or the least
exponent if that is greater. -/
def exponentFor (num den : Nat) : Int :=
  let guess : Int := Int.ofNat num.log2 - Int.ofNat den.log2 - 52
  let (n, d) := scale num den (-guess)
  let exact := if n < twoTo 52 * d then guess - 1 else guess
  max exact minExponent

/-- The number nearest to `num / den`, or none if that is too great. -/
def ofFraction (negative : Bool) (num den : Nat) : Option Binary64 :=
  if num = 0 then some (zero negative)
  else
    let exponent := exponentFor num den
    let (n, d) := scale num den (-exponent)
    let significand := roundDiv n d
    let (significand, exponent) :=
      if significand = twoTo 53 then (twoTo 52, exponent + 1) else (significand, exponent)
    if maxExponent < exponent then none else some ⟨negative, significand, exponent⟩

/-- The number nearest to a natural. -/
def ofNat (n : Nat) : Option Binary64 :=
  ofFraction false n 1

/-- The number nearest to a power of ten. -/
def powTen (n : Nat) : Option Binary64 :=
  ofFraction false (tenTo n) 1

/-- The number as a fraction without sign. -/
def toFraction (x : Binary64) : Nat × Nat :=
  scale x.significand 1 x.exponent

/-- The rounded product, or none if it is too great. -/
def mul (x y : Binary64) : Option Binary64 :=
  let (a, b) := x.toFraction
  let (c, d) := y.toFraction
  ofFraction (x.negative != y.negative) (a * c) (b * d)

/-- The rounded quotient, or none if it is too great or the divisor is zero. -/
def div (x y : Binary64) : Option Binary64 :=
  if y.isZero then none
  else
    let (a, b) := x.toFraction
    let (c, d) := y.toFraction
    ofFraction (x.negative != y.negative) (a * d) (b * c)

/-- The whole number without sign that a number is, if it is one. -/
def toNat? (x : Binary64) : Option Nat :=
  let (n, d) := x.toFraction
  if n % d = 0 then some (n / d) else none

/-- The whole number that a number is, if it is one. -/
def toInt? (x : Binary64) : Option Int :=
  x.toNat?.map fun n => if x.negative then -Int.ofNat n else Int.ofNat n

end Binary64

end ServiceBindings
