import QueryCriteria.Text.Blank
import QueryCriteria.Text.Scan

/-!
# Dates

A date of the Gregorian calendar, extended to all years. It is written with a year of four digits; a
year that needs more of them, or is negative, has a sign. Reading allows shorter numbers, and blanks
around each part.
-/
namespace QueryCriteria

open Text

def isLeapYear (year : Int) : Bool := year % 4 == 0 && (year % 100 != 0 || year % 400 == 0)

def daysInMonth (year : Int) (month : Nat) : Nat :=
  if month = 2 then if isLeapYear year then 29 else 28
  else if month = 4 || month = 6 || month = 9 || month = 11 then 30
  else 31

theorem le_daysInMonth (year : Int) (month : Nat) : 28 ≤ daysInMonth year month := by
  unfold daysInMonth
  split
  · split <;> omega
  · split <;> omega

abbrev IsDate (year : Int) (month day : Nat) : Prop :=
  1 ≤ month ∧ month ≤ 12 ∧ 1 ≤ day ∧ day ≤ daysInMonth year month

structure Date where
  year : Int
  month : Nat
  day : Nat
  isDate : IsDate year month day
  deriving DecidableEq

namespace Date

def ofParts? (year : Int) (month day : Nat) : Option Date :=
  if h : IsDate year month day then some ⟨year, month, day, h⟩ else none

def next (d : Date) : Date :=
  if h : d.day < daysInMonth d.year d.month then
    ⟨d.year, d.month, d.day + 1, d.isDate.1, d.isDate.2.1, by omega, h⟩
  else if h : d.month < 12 then
    ⟨d.year, d.month + 1, 1, by omega, h, by omega,
      by have := le_daysInMonth d.year (d.month + 1); omega⟩
  else
    ⟨d.year + 1, 1, 1, by decide, by decide, by decide,
      by have := le_daysInMonth (d.year + 1) 1; omega⟩

def previous (d : Date) : Date :=
  if h : 1 < d.day then
    ⟨d.year, d.month, d.day - 1, d.isDate.1, d.isDate.2.1, by omega, by have := d.isDate; omega⟩
  else if h : 1 < d.month then
    ⟨d.year, d.month - 1, daysInMonth d.year (d.month - 1), by omega, by have := d.isDate; omega,
      by have := le_daysInMonth d.year (d.month - 1); omega, Nat.le_refl _⟩
  else ⟨d.year - 1, 12, 31, by decide, by decide, by decide, by simp [daysInMonth]⟩

/-- The years that a column can hold. -/
def isColumnYear (year : Int) : Bool := -262143 ≤ year && year ≤ 262142

/-- Reads a year. Without a sign it has at most four digits. -/
def scanYear? : List Char → Option (Int × List Char)
  | '-' :: cs => (scanNat? 1 cs.length cs).map fun (n, rest) => (-(n : Int), rest)
  | '+' :: cs => (scanNat? 1 cs.length cs).map fun (n, rest) => ((n : Int), rest)
  | cs => (scanNat? 1 4 cs).map fun (n, rest) => ((n : Int), rest)

def read? (s : String) : Option Date := do
  let (year, cs) ← scanYear? (trimLeft s.toList)
  let cs ← scanChar? '-' (trimLeft cs)
  let (month, cs) ← scanNat? 1 2 (trimLeft cs)
  let cs ← scanChar? '-' (trimLeft cs)
  let (day, cs) ← scanNat? 1 2 (trimLeft cs)
  if trimLeft cs = [] && isColumnYear year then ofParts? year month day else none

def yearText (year : Int) : String :=
  let digits := padded 4 year.natAbs
  if year < 0 then "-" ++ digits else if 9999 < year then "+" ++ digits else digits

def text (d : Date) : String :=
  yearText d.year ++ "-" ++ padded 2 d.month ++ "-" ++ padded 2 d.day

end Date
end QueryCriteria
