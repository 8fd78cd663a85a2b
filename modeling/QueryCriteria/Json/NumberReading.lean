import QueryCriteria.Json.Value
import QueryCriteria.Text.Numeral

/-!
# Reading JSON numbers

A number without a fraction and an exponent is an exact integer when it fits in 64 bits, signed or
unsigned. Every other number is a double. Its digits are collected into an unsigned significand of
64 bits: whole digits that do not fit only raise the decimal exponent, fraction digits after the
first one that does not fit are dropped. The significand is rounded to a double and then multiplied
or divided by a power of ten, which rounds a second time; the last digit of a long number may
therefore differ from the nearest double.
-/
namespace QueryCriteria.Json

open Text

/-- The parts of a number as they stand in a text: its digits before and after the point and the
sign and digits of its exponent. -/
structure NumberLiteral where
  negative : Bool
  whole : List Char
  fraction : Option (List Char)
  exponent : Option (Bool × List Char)

namespace NumberLiteral

/-- What does not fit in the significand. -/
def significandBound : Nat := UInt64.size

/-- The significand of the leading whole digits that fit, and the number of the others. -/
def collectWhole (significand : Nat) : List Char → Nat × Nat
  | [] => (significand, 0)
  | c :: rest =>
    let next := 10 * significand + digitValue c
    if next < significandBound then collectWhole next rest else (significand, rest.length + 1)

def collectFraction (significand count : Nat) : List Char → Nat × Nat
  | [] => (significand, count)
  | c :: rest =>
    let next := 10 * significand + digitValue c
    if next < significandBound then collectFraction next (count + 1) rest else (significand, count)

def powerOfTen (k : Nat) : Option Binary64 := Binary64.ofRatio false (Nat.pow 10 k) 1

/-- The greatest power of ten that is a finite double. -/
def maxPower : Nat := 308

/-- A double scaled by a power of ten. An exponent below the least power is worked off in steps;
three of them bring every significand to zero. -/
def scale : Nat → Binary64 → Int → Option Binary64
  | 0, x, _ => some x
  | fuel + 1, x, exponent =>
    if exponent.natAbs ≤ maxPower then do
      let power ← powerOfTen exponent.natAbs
      if 0 ≤ exponent then x.mul? power else x.div? power
    else if x.isZero then some x
    else if 0 ≤ exponent then none
    else do
      let step ← x.div? (← powerOfTen maxPower)
      scale fuel step (exponent + maxPower)

/-- Exponents whose magnitude is above this are not counted exactly. -/
def maxExponent : Nat := Nat.pow 2 31 - 1

/-- The double that the literal writes, unless it is out of range. -/
def toFloat? (l : NumberLiteral) : Option Binary64 :=
  let (whole, dropped) := collectWhole 0 l.whole
  let (significand, taken) := collectFraction whole 0 (l.fraction.getD [])
  let shift : Int := dropped - taken
  let magnitude : Option Binary64 := match l.exponent with
    | some (negative, digits) =>
      let size := natOfDigits digits
      if maxExponent < size then
        if negative || significand == 0 then some (Binary64.zero false) else none
      else do
        let x ← Binary64.ofInt significand
        scale 4 x (if negative then shift - size else shift + size)
    | none => do
      let x ← Binary64.ofInt significand
      scale 4 x shift
  magnitude.map (·.withSign l.negative)

/-- The number that the literal writes, unless it is out of range. Zero with a minus sign is a
double, since an integer has no sign of zero. -/
def toNumber? (l : NumberLiteral) : Option Number :=
  let size := natOfDigits l.whole
  if l.fraction.isNone && l.exponent.isNone && size < significandBound then
    if !l.negative then some (.integer size)
    else if 0 < size && size ≤ Nat.pow 2 63 then some (.integer (-(size : Int)))
    else (Binary64.ofInt size).map fun x => .float (x.withSign true)
  else l.toFloat?.map .float

end NumberLiteral
end QueryCriteria.Json
