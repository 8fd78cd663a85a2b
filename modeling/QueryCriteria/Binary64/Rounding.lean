import QueryCriteria.Binary64.Basic

/-!
# Rounding to the nearest double

Every operation here computes the exact ratio of two natural numbers first and rounds it once: to
the nearest double, a tie going to the even significand. The answer `none` means that the magnitude
is too large for a finite double.
-/
namespace QueryCriteria.Binary64

/-- The natural number nearest to `num / den`, the even one of two at the same distance. -/
def roundHalfEven (num den : Nat) : Nat :=
  let whole := num / den
  let rest := num % den
  if 2 * rest < den then whole
  else if den < 2 * rest then whole + 1
  else if whole % 2 = 0 then whole else whole + 1

/-- The double nearest to the magnitude `num / den`, counted in units. -/
def ofUnits (negative : Bool) (num den : Nat) : Option Binary64 :=
  let exponent := (num / den).log2 + 1 - 53
  let significand := roundHalfEven num (den * Nat.pow 2 exponent)
  if significand = Nat.pow 2 53 then ofParts? negative (Nat.pow 2 52) (exponent + 1)
  else ofParts? negative significand exponent

/-- The double nearest to the magnitude `num / den`. -/
def ofRatio (negative : Bool) (num den : Nat) : Option Binary64 :=
  ofUnits negative (num * unitsPerOne) den

def ofInt (n : Int) : Option Binary64 := ofRatio (n < 0) n.natAbs 1

def mul? (x y : Binary64) : Option Binary64 :=
  ofUnits (x.negative != y.negative) (x.units * y.units) unitsPerOne

/-- The quotient of two doubles, rounded; the divisor is not zero. -/
def div? (x y : Binary64) : Option Binary64 :=
  ofUnits (x.negative != y.negative) (x.units * unitsPerOne) y.units

/-- The double nearest to `digits * 10 ^ exponent`. Far outside the range of doubles the answer is
known without computing the power. -/
def ofDecimal (negative : Bool) (digits : Nat) (exponent : Int) : Option Binary64 :=
  let places := exponent + (Nat.toDigits 10 digits).length
  if digits = 0 ∨ places < -330 then some (zero negative)
  else if 310 < places then none
  else if 0 ≤ exponent then ofRatio negative (digits * Nat.pow 10 exponent.toNat) 1
  else ofRatio negative digits (Nat.pow 10 (-exponent).toNat)

end QueryCriteria.Binary64
