import QueryCriteria.Binary64.Shortest
import QueryCriteria.Text.Numeral

/-!
# Writing doubles

A double is written with the digits of its shortest decimal. A layout says for which exponents of
the leading digit the number is written without an exponent of its own, and whether a whole number
keeps a fraction of one zero.
-/
namespace QueryCriteria.Binary64

open Text

/-- How the digits of a decimal are laid out. `plain` tells the exponents of the leading digit that
are written without an exponent. -/
structure Layout where
  plain : Int → Bool
  keepsFraction : Bool

/-- JSON numbers are plain from a hundred-thousandth up to sixteen whole digits, and always show
that they are not integers. -/
def Layout.json : Layout where
  plain e := -5 ≤ e && e ≤ 15
  keepsFraction := true

/-- A column value never has an exponent and has a fraction only if it is not whole. -/
def Layout.positional : Layout where
  plain _ := true
  keepsFraction := false

def plainText (layout : Layout) (digits : List Char) (exponent : Int) : List Char :=
  if 0 ≤ exponent then
    digits ++ List.replicate exponent.toNat '0' ++ (if layout.keepsFraction then ['.', '0'] else [])
  else
    let places := (-exponent).toNat
    if places < digits.length then
      digits.take (digits.length - places) ++ ['.'] ++ digits.drop (digits.length - places)
    else ['0', '.'] ++ List.replicate (places - digits.length) '0' ++ digits

/-- The digits with the point after the first one and the exponent of that digit. -/
def scientificText (digits : List Char) (leading : Int) : List Char :=
  let fraction := digits.drop 1
  digits.take 1 ++ (if fraction.isEmpty then [] else '.' :: fraction) ++
    ['e', if leading < 0 then '-' else '+'] ++ Nat.toDigits 10 leading.natAbs

def Decimal.text (layout : Layout) (d : Decimal) : List Char :=
  let digits := Nat.toDigits 10 d.digits
  let leading := d.exponent + digits.length - 1
  if layout.plain leading then plainText layout digits d.exponent
  else scientificText digits leading

def text (layout : Layout) (x : Binary64) : String :=
  String.ofList ((if x.negative then ['-'] else []) ++ x.shortest.text layout)

end QueryCriteria.Binary64
