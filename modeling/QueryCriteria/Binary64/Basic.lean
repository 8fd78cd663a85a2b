/-!
# Finite doubles

A finite double-precision number is a sign, a significand of at most 53 bits and an exponent. Its
magnitude is `significand * 2 ^ exponent` units, where one unit is `2 ^ (-1074)`, the smallest
positive double. The significand has all 53 bits unless the exponent is zero, so each magnitude has
one representation; zero keeps its sign.
-/
namespace QueryCriteria

/-- A finite double-precision number. -/
structure Binary64 where
  negative : Bool
  significand : Nat
  exponent : Nat
  significand_lt : significand < Nat.pow 2 53
  exponent_le : exponent ≤ 2045
  normal : exponent = 0 ∨ Nat.pow 2 52 ≤ significand
  deriving DecidableEq

namespace Binary64

def zero (negative : Bool) : Binary64 :=
  ⟨negative, 0, 0, by decide, by decide, .inl rfl⟩

def isZero (x : Binary64) : Bool := x.significand == 0

/-- The magnitude in units of `2 ^ (-1074)`. -/
def units (x : Binary64) : Nat := x.significand * Nat.pow 2 x.exponent

def unitsPerOne : Nat := Nat.pow 2 1074

def withSign (x : Binary64) (negative : Bool) : Binary64 := { x with negative := negative }

/-- The double with the given parts, unless they are out of range. -/
def ofParts? (negative : Bool) (significand exponent : Nat) : Option Binary64 :=
  if h : significand < Nat.pow 2 53 ∧ exponent ≤ 2045 ∧
      (exponent = 0 ∨ Nat.pow 2 52 ≤ significand) then
    some ⟨negative, significand, exponent, h.1, h.2.1, h.2.2⟩
  else none

end Binary64
end QueryCriteria
