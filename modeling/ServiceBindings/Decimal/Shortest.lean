import ServiceBindings.Decimal.Binary64

/-!
# Shortest decimals

The decimal with the fewest digits among those that round to a given binary fraction, and of these
the nearest one. Decimals that lie exactly half way are told apart by the caller.
-/

namespace ServiceBindings.Decimal

open Binary64 (tenTo twoTo)

/-- Which of two equally near decimals is taken. -/
inductive Tie where
  /-- The greater one. -/
  | up
  /-- The one with the even last digit. -/
  | even
  deriving DecidableEq, Repr

/-- The number `digits * 10 ^ exponent`. -/
structure Scientific where
  digits : Nat
  exponent : Int
  deriving DecidableEq, Repr

/-- The decimals that round to a binary fraction: those between `low` and `high` quarter units
`2 ^ (exponent - 2)`, the value itself being `4 * significand` of them. The ends belong to the
interval when the significand is even. -/
structure Interval where
  low : Nat
  value : Nat
  high : Nat
  closed : Bool
  unit : Int

/-- The interval of the decimals that round to a number. Below a power of two the numbers lie twice
as close. -/
def interval (x : Binary64) : Interval where
  low :=
    if x.significand = twoTo 52 && x.exponent != Binary64.minExponent then 4 * x.significand - 1
    else 4 * x.significand - 2
  value := 4 * x.significand
  high := 4 * x.significand + 2
  closed := x.significand % 2 == 0
  unit := x.exponent - 2

/-- Multipliers that bring `a * 10 ^ exponent` and `b * 2 ^ unit` to a common scale. -/
def commonScale (exponent unit : Int) : Nat × Nat :=
  (tenTo exponent.toNat * twoTo (-unit).toNat, tenTo (-exponent).toNat * twoTo unit.toNat)

/-- The decimal of an interval on the grid of multiples of `10 ^ exponent`, if there is one: of the
two multiples next to the value, the nearer that lies in the interval. -/
def onGrid (tie : Tie) (i : Interval) (exponent : Int) : Option Nat :=
  let (up, down) := commonScale exponent i.unit
  let value := i.value * down
  let below := value / up
  let above := below + 1
  let lowOk := if i.closed then i.low * down ≤ below * up else i.low * down < below * up
  let highOk := if i.closed then above * up ≤ i.high * down else above * up < i.high * down
  let exact := below * up = value
  let toLow := value - below * up
  let toHigh := above * up - value
  let takeHigh :=
    if toLow < toHigh then false
    else if toHigh < toLow then true
    else
      match tie with
      | .up => true
      | .even => below % 2 = 1
  if exact then some below
  else if lowOk && (!highOk || !takeHigh) then some below
  else if highOk then some above
  else none

/-- The first grid that holds a decimal of the interval, from `exponent` downwards. -/
def firstGrid (tie : Tie) (i : Interval) : Nat → Int → Scientific
  | 0, exponent =>
    ⟨i.value * (commonScale exponent i.unit).2 / (commonScale exponent i.unit).1, exponent⟩
  | tries + 1, exponent =>
    match onGrid tie i exponent with
    | some digits => ⟨digits, exponent⟩
    | none => firstGrid tie i tries (exponent - 1)

/-- The exponent of ten of the first digit of a number that is not zero. -/
def leadingExponent (x : Binary64) : Int :=
  let (n, d) := x.toFraction
  let bits : Int := Int.ofNat n.log2 - Int.ofNat d.log2
  let guess : Int := bits * 30103 / 100000 - 1
  let reached (e : Int) : Bool := decide (tenTo e.toNat * d ≤ n * tenTo (-e).toNat)
  if reached (guess + 2) then guess + 2
  else if reached (guess + 1) then guess + 1
  else if reached guess then guess
  else guess - 1

/-- Trailing zeros of the digits moved into the exponent, at most `tries` of them. -/
def Scientific.normalize : Nat → Scientific → Scientific
  | 0, s => s
  | tries + 1, s =>
    if s.digits % 10 = 0 then normalize tries ⟨s.digits / 10, s.exponent + 1⟩ else s

/-- The shortest decimal of a number, without its sign. -/
def shortest (tie : Tie) (x : Binary64) : Scientific :=
  if x.isZero then ⟨0, 0⟩
  else (firstGrid tie (interval x) 20 (leadingExponent x)).normalize 20

end ServiceBindings.Decimal
