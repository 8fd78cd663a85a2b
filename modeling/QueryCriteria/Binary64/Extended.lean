import QueryCriteria.Binary64.Layout
import QueryCriteria.Binary64.Rounding

/-!
# Doubles with infinities

The values of a floating point column: the finite doubles, the two infinities, and the value that is
no number. The text of such a value is a decimal with an optional exponent, or one of the names of
the other values in any letter case; a decimal out of range is an infinity.
-/
namespace QueryCriteria

open Text

/-- A double-precision value, finite or not. -/
inductive Extended where
  | finite (x : Binary64)
  | infinite (negative : Bool)
  | notANumber
  deriving DecidableEq

namespace Extended

/-- The value nearest to `digits * 10 ^ exponent`. -/
def ofDecimal (negative : Bool) (digits : Nat) (exponent : Int) : Extended :=
  match Binary64.ofDecimal negative digits exponent with
  | some x => .finite x
  | none => .infinite negative

/-- The whole number after an exponent mark, or zero where the text ends. -/
def readExponent? : List Char → Option Int
  | [] => some 0
  | mark :: cs => if mark == 'e' || mark == 'E' then readInt? cs else none

/-- A decimal without its sign: digits before or after a point, then an optional exponent. -/
def readDecimal? (negative : Bool) (cs : List Char) : Option Extended :=
  let whole := cs.takeWhile Char.isDigit
  let rest := cs.dropWhile Char.isDigit
  let (fraction, rest) := match rest with
    | '.' :: tail => (tail.takeWhile Char.isDigit, tail.dropWhile Char.isDigit)
    | _ => ([], rest)
  if whole.isEmpty && fraction.isEmpty then none
  else (readExponent? rest).map fun exponent =>
    ofDecimal negative (natOfDigits (whole ++ fraction)) (exponent - fraction.length)

def readUnsigned? (negative : Bool) (cs : List Char) : Option Extended :=
  let name := String.ofList (cs.map Char.toLower)
  if name == "inf" || name == "infinity" then some (.infinite negative)
  else if name == "nan" then some .notANumber
  else readDecimal? negative cs

/-- The value that a text writes, with at most one sign before it. -/
def read? (s : String) : Option Extended :=
  match s.toList with
  | '-' :: cs => readUnsigned? true cs
  | '+' :: cs => readUnsigned? false cs
  | cs => readUnsigned? false cs

def text : Extended → String
  | .finite x => x.text .positional
  | .infinite negative => if negative then "-inf" else "inf"
  | .notANumber => "NaN"

end Extended
end QueryCriteria
