import ServiceBindings.Json.Value

/-!
# Reading numbers

A number is read by collecting its digits as a whole number of at most 64 bits and scaling that by a
power of ten. Digits beyond 64 bits only move the point. Both the collected digits and the scaled
result are rounded, so a long fraction may end up next to its nearest number.
-/

namespace ServiceBindings.JsonNumber

/-- The greatest number of 64 bits. -/
def maxNatural : Nat := 18446744073709551615

/-- The greatest exponent that is read. -/
def maxExponent : Nat := 2147483647

/-- The greatest number whose negative has 64 bits. -/
def maxNegative : Nat := 9223372036854775808

/-- The value of a digit. -/
def digitValue (c : Char) : Nat := c.toNat - '0'.toNat

/-- Digits joined to a whole number as long as it keeps to 64 bits, with the number of digits that
were joined. -/
def absorb (n : Nat) : List Char → Nat × Nat
  | [] => (n, 0)
  | c :: cs =>
    let next := n * 10 + digitValue c
    if maxNatural < next then (n, 0)
    else
      let (total, count) := absorb next cs
      (total, count + 1)

/-- The greatest exponent whose power of ten is a number. -/
def maxPower : Nat := 308

/-- A number divided by the greatest power of ten `steps` times, or until it is zero. -/
def divideBySteps : Nat → Binary64 → Option Binary64
  | 0, x => some x
  | steps + 1, x =>
    if x.isZero then some x
    else ((Binary64.powTen maxPower).bind x.div).bind (divideBySteps steps)

/-- A number divided by a power of ten, in steps of the greatest one and a last smaller step. -/
def scaleDown (x : Binary64) (exponent : Nat) : Option Binary64 :=
  let steps := (exponent - 1) / maxPower
  (divideBySteps steps x).bind fun y =>
    (Binary64.powTen (exponent - steps * maxPower)).bind y.div

/-- A number multiplied by a power of ten. -/
def scaleUp (x : Binary64) (exponent : Nat) : Option Binary64 :=
  if exponent ≤ maxPower then (Binary64.powTen exponent).bind x.mul
  else if x.isZero then some x
  else none

/-- The rounded value of `significand * 10 ^ exponent`, or of its negative. -/
def ofParts (negative : Bool) (significand : Nat) (exponent : Int) : JsonNumber :=
  let scaled :=
    (Binary64.ofNat significand).bind fun x =>
      if 0 ≤ exponent then scaleUp x exponent.toNat else scaleDown x (-exponent).toNat
  match scaled with
  | none => .tooGreat
  | some x => .fraction (if negative then x.neg else x)

/-- The value of a number without fraction and exponent. -/
def ofWhole (negative : Bool) (significand : Nat) : JsonNumber :=
  if !negative then .natural significand
  else if significand = 0 || maxNegative < significand then ofParts true significand 0
  else .negative significand

/-- The value of an exponent written in digits; an exponent out of range has none. -/
def exponentOf (digits : List Char) : Option Nat :=
  let n := digits.foldl (fun n c => n * 10 + digitValue c) 0
  if maxExponent < n then none else some n

/-- The exponent part of a number: whether it is negative, its digits, and what follows. -/
def readExponent (cs : List Char) : Option (Bool × List Char × List Char) :=
  let (down, cs) :=
    match cs with
    | '+' :: rest => (false, rest)
    | '-' :: rest => (true, rest)
    | rest => (false, rest)
  let digits := cs.takeWhile Char.isDigit
  if digits.isEmpty then none else some (down, digits, cs.dropWhile Char.isDigit)

/-- Ends a number whose digits are `significand * 10 ^ exponent`, reading an exponent part if there
is one. -/
def finish (negative : Bool) (significand : Nat) (exponent : Int) (cs : List Char) :
    Option (JsonNumber × List Char) :=
  match cs with
  | c :: rest =>
    if c = 'e' || c = 'E' then
      match readExponent rest with
      | none => none
      | some (down, digits, rest) =>
        match exponentOf digits with
        | some n =>
          some (ofParts negative significand (if down then exponent - n else exponent + n), rest)
        | none =>
          if significand ≠ 0 && !down then some (.tooGreat, rest)
          else some (.fraction (Binary64.zero negative), rest)
    else some (ofParts negative significand exponent, cs)
  | [] => some (ofParts negative significand exponent, cs)

/-- Reads a number without its sign. -/
def readUnsigned (negative : Bool) (cs : List Char) : Option (JsonNumber × List Char) :=
  let digits := cs.takeWhile Char.isDigit
  let rest := cs.dropWhile Char.isDigit
  if digits.isEmpty || (digits.head? = some '0' && 1 < digits.length) then none
  else
    let (significand, count) := absorb 0 digits
    let left := digits.length - count
    match rest with
    | '.' :: rest =>
      let places := rest.takeWhile Char.isDigit
      if places.isEmpty then none
      else
        let (significand, count) := absorb significand places
        finish negative significand (Int.ofNat left - Int.ofNat count) (rest.dropWhile Char.isDigit)
    | c :: _ =>
      if c = 'e' || c = 'E' then finish negative significand left rest
      else if left = 0 then some (ofWhole negative significand, rest)
      else some (ofParts negative significand left, rest)
    | [] =>
      if left = 0 then some (ofWhole negative significand, rest)
      else some (ofParts negative significand left, rest)

/-- Reads a number. -/
def read (cs : List Char) : Option (JsonNumber × List Char) :=
  match cs with
  | '-' :: rest => readUnsigned true rest
  | cs => readUnsigned false cs

end ServiceBindings.JsonNumber
