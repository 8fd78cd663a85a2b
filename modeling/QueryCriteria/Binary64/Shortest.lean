import QueryCriteria.Binary64.Basic

/-!
# The shortest decimal that reads back

A decimal reads back as a double when it lies in the interval of reals that round to the double;
the ends of the interval belong to it when the significand is even. The shortest decimal has the
fewest digits among those that read back, and is the nearest of these to the double. It is found on
the grids of one, two, up to seventeen digits: on each grid only the two neighbours of the double
can be in the interval.
-/
namespace QueryCriteria.Binary64

/-- The magnitude `digits * 10 ^ exponent`. -/
structure Decimal where
  digits : Nat
  exponent : Int
  deriving DecidableEq

def digitCount (n : Nat) : Nat := (Nat.toDigits 10 n).length

/-- The exponent of the leading decimal digit of a magnitude that is not zero. The smallest double
is above `10 ^ (-324)`, so scaling by that power leaves at least one digit. -/
def leadingExponent (x : Binary64) : Int :=
  (digitCount (x.units * Nat.pow 10 324 / unitsPerOne) : Int) - 325

/-- `n * 10 ^ k` in quarters of a unit, as a numerator over the denominator `gridScale k`. -/
def gridPoint (n : Nat) (k : Int) : Nat := 4 * n * unitsPerOne * Nat.pow 10 k.toNat

def gridScale (k : Int) : Nat := Nat.pow 10 (-k).toNat

def quarters (x : Binary64) : Nat := 4 * x.units

/-- The lower end of the interval that rounds to the magnitude, in quarters of a unit. Below a
power of two the doubles lie twice as close. -/
def lowerEnd (x : Binary64) : Nat :=
  let gap := if x.significand = Nat.pow 2 52 ∧ 0 < x.exponent then 1 else 2
  (4 * x.significand - gap) * Nat.pow 2 x.exponent

/-- The upper end of the interval that rounds to the magnitude, in quarters of a unit. -/
def upperEnd (x : Binary64) : Nat := (4 * x.significand + 2) * Nat.pow 2 x.exponent

/-- Whether the magnitude `n * 10 ^ k` reads back as the magnitude of the double. -/
def readsBack (x : Binary64) (n : Nat) (k : Int) : Bool :=
  let low := x.lowerEnd * gridScale k
  let high := x.upperEnd * gridScale k
  let point := gridPoint n k
  if x.significand % 2 = 0 then low ≤ point && point ≤ high else low < point && point < high

/-- The greatest `n` for which `n * 10 ^ k` does not exceed the magnitude. -/
def floorOnGrid (x : Binary64) (k : Int) : Nat :=
  x.units * gridScale k / (unitsPerOne * Nat.pow 10 k.toNat)

/-- Of two neighbours on a grid that both read back, the one nearer to the magnitude; at the same
distance the even one. -/
def nearerOnGrid (x : Binary64) (n : Nat) (k : Int) : Nat :=
  let below := x.quarters * gridScale k - gridPoint n k
  let above := gridPoint (n + 1) k - x.quarters * gridScale k
  if below < above then n
  else if above < below then n + 1
  else if n % 2 = 0 then n else n + 1

/-- The decimal on the grid of the given number of digits that reads back, if there is one. -/
def onGrid? (x : Binary64) (count : Nat) : Option Decimal :=
  let k := x.leadingExponent + 1 - count
  let n := x.floorOnGrid k
  match x.readsBack n k, x.readsBack (n + 1) k with
  | true, true => some ⟨x.nearerOnGrid n k, k⟩
  | true, false => some ⟨n, k⟩
  | false, true => some ⟨n + 1, k⟩
  | false, false => none

/-- The decimal without trailing zeros in its digits; `fuel` bounds their number. -/
def Decimal.trimZeros : Nat → Decimal → Decimal
  | 0, d => d
  | fuel + 1, d =>
    if d.digits % 10 = 0 ∧ d.digits ≠ 0 then trimZeros fuel ⟨d.digits / 10, d.exponent + 1⟩ else d

/-- The shortest decimal that reads back as the magnitude; seventeen digits always do. -/
def shortest (x : Binary64) : Decimal :=
  if x.isZero then ⟨0, 0⟩
  else
    let found := (List.range 17).findSome? fun i => x.onGrid? (i + 1)
    (found.getD ⟨x.floorOnGrid (x.leadingExponent - 16), x.leadingExponent - 16⟩).trimZeros 17

end QueryCriteria.Binary64
