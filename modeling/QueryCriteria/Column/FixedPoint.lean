import QueryCriteria.Text.Numeral

/-!
# Fixed-point decimals

A decimal column holds up to 96 bits of digits, of which at most 28 stand after the point. Trailing
zeros are kept, and zero has no sign.

A numeral has an optional sign, digits, and at most one point; an underscore may follow a digit.
When the digits after the point no longer fit, the next character decides the rounding, half up,
and the rest of the text is not looked at. Whole digits that do not fit are an error. A numeral may
go on with an exponent of at most 28, which moves the point.

The text of a number is first read without rounding, and else as a numeral with an exponent.
-/
namespace QueryCriteria

open Text

/-- The decimal `digits / 10 ^ scale`, or its negative. -/
structure FixedPoint where
  negative : Bool
  digits : Nat
  scale : Nat
  digits_lt : digits < Nat.pow 2 96
  scale_le : scale ≤ 28
  deriving DecidableEq

namespace FixedPoint

/-- The first number of digits that does not fit. -/
def bound : Nat := Nat.pow 2 96

def maxScale : Nat := 28

def ofParts? (negative : Bool) (digits scale : Nat) : Option FixedPoint :=
  if h : digits < Nat.pow 2 96 ∧ scale ≤ 28 then
    some ⟨negative && digits != 0, digits, scale, h.1, h.2⟩
  else none

/-- Rounds digits half up, where `c` is the first character that is left out. Digits that no longer
fit after that lose their last place. -/
def round? (digits scale : Nat) (c : Char) : Option (Nat × Nat) :=
  if c.isDigit || c = '_' || c = '.' then
    if c.isDigit && 5 ≤ digitValue c then
      if digits + 1 < bound then some (digits + 1, scale)
      else if scale = 0 then none
      else some ((digits + 5) / 10, scale - 1)
    else some (digits, scale)
  else none

/-- The digits and the scale of the rest of an unsigned numeral. The flags tell whether digits that
do not fit may be rounded off, and whether the point and a digit have been passed. -/
def readRest? (rounds pastPoint pastDigit : Bool) (digits scale : Nat) :
    List Char → Option (Nat × Nat)
  | [] => if pastDigit then some (digits, scale) else none
  | c :: rest =>
    if pastPoint && maxScale ≤ scale then if rounds then round? digits scale c else none
    else if c.isDigit then
      let next := 10 * digits + digitValue c
      if next < bound then
        readRest? rounds pastPoint true next (if pastPoint then scale + 1 else scale) rest
      else if pastPoint && rounds then round? digits scale c
      else none
    else if c = '.' && !pastPoint then readRest? rounds true pastDigit digits scale rest
    else if c = '_' && pastDigit then readRest? rounds pastPoint pastDigit digits scale rest
    else none

def splitSign : List Char → Bool × List Char
  | '-' :: cs => (true, cs)
  | '+' :: cs => (false, cs)
  | cs => (false, cs)

/-- The decimal that a numeral without an exponent writes. The flag tells whether digits that do not
fit may be rounded off. -/
def readPlain? (rounds : Bool) (cs : List Char) : Option FixedPoint := do
  let (negative, cs) := splitSign cs
  let (digits, scale) ← readRest? rounds false false 0 0 cs
  ofParts? negative digits scale

def shiftLeft? (x : FixedPoint) (places : Nat) : Option FixedPoint :=
  ofParts? x.negative x.digits (x.scale + places)

/-- The decimal with its point moved to the right, past its last digit if need be. -/
def shiftRight? (x : FixedPoint) (places : Nat) : Option FixedPoint :=
  ofParts? x.negative (x.digits * Nat.pow 10 (places - x.scale)) (x.scale - places)

/-- Moves the point of a decimal as the characters after an exponent mark say. -/
def applyExponent? (x : FixedPoint) (cs : List Char) : Option FixedPoint :=
  let readPlaces? (digits : List Char) : Option Nat :=
    (readBounded? UInt32.size digits).filter (· ≤ maxScale)
  match cs with
  | '-' :: digits => (readPlaces? digits).bind x.shiftLeft?
  | digits => (readPlaces? digits).bind x.shiftRight?

def isExponentMark (c : Char) : Bool := c = 'e' || c = 'E'

/-- The decimal that a numeral with an exponent writes. -/
def readScientific? (cs : List Char) : Option FixedPoint :=
  let isBase (c : Char) : Bool := !isExponentMark c
  match cs.dropWhile isBase with
  | [] => none
  | _ :: exponent => (readPlain? true (cs.takeWhile isBase)).bind (applyExponent? · exponent)

def read? (s : String) : Option FixedPoint :=
  if s.toList.any isExponentMark then readScientific? s.toList else readPlain? true s.toList

def readNumber? (s : String) : Option FixedPoint :=
  (readPlain? false s.toList).or (readScientific? s.toList)

def text (x : FixedPoint) : String :=
  let digits := (padded (x.scale + 1) x.digits).toList
  let whole := digits.take (digits.length - x.scale)
  let fraction := digits.drop (digits.length - x.scale)
  String.ofList ((if x.negative then ['-'] else []) ++ whole ++
    (if fraction.isEmpty then [] else '.' :: fraction))

end FixedPoint
end QueryCriteria
