import QueryCriteria.Text.Blank
import QueryCriteria.Text.Scan

/-!
# Times of day

A time counts nanoseconds. Its sixtieth second is a leap second, which any minute may have. It is
written with as many groups of three fraction digits as it needs. Reading allows shorter numbers,
blanks around each part, and a time without seconds.
-/
namespace QueryCriteria

open Text

structure Time where
  hour : Nat
  minute : Nat
  second : Nat
  nanosecond : Nat
  isTime : hour < 24 ∧ minute < 60 ∧ second ≤ 60 ∧ nanosecond < 1000000000
  deriving DecidableEq

namespace Time

def ofParts? (hour minute second nanosecond : Nat) : Option Time :=
  if h : hour < 24 ∧ minute < 60 ∧ second ≤ 60 ∧ nanosecond < 1000000000 then
    some ⟨hour, minute, second, nanosecond, h⟩
  else none

/-- Reads the fraction of a second, if the text goes on with one. -/
def scanNanosecond? : List Char → Option (Nat × List Char)
  | '.' :: cs => scanFraction? 9 cs
  | cs => some (0, cs)

/-- Reads seconds and their fraction, if the text goes on at all. -/
def scanSecond? (cs : List Char) : Option (Nat × Nat × List Char) :=
  match trimLeft cs with
  | [] => some (0, 0, [])
  | cs => do
    let cs ← scanChar? ':' cs
    let (second, cs) ← scanNat? 1 2 (trimLeft cs)
    let (nanosecond, cs) ← scanNanosecond? cs
    return (second, nanosecond, cs)

def read? (s : String) : Option Time := do
  let (hour, cs) ← scanNat? 1 2 (trimLeft s.toList)
  let cs ← scanChar? ':' (trimLeft cs)
  let (minute, cs) ← scanNat? 1 2 (trimLeft cs)
  let (second, nanosecond, cs) ← scanSecond? cs
  if trimLeft cs = [] then ofParts? hour minute second nanosecond else none

def wholeText (t : Time) : String :=
  padded 2 t.hour ++ ":" ++ padded 2 t.minute ++ ":" ++ padded 2 t.second

/-- The text of a fraction in groups of three digits. -/
def fractionText (nanosecond : Nat) : String :=
  if nanosecond = 0 then ""
  else if nanosecond % 1000000 = 0 then "." ++ padded 3 (nanosecond / 1000000)
  else if nanosecond % 1000 = 0 then "." ++ padded 6 (nanosecond / 1000)
  else "." ++ padded 9 nanosecond

def text (t : Time) : String := t.wholeText ++ fractionText t.nanosecond

/-- The text of a time in whole microseconds; what is less is dropped. -/
def microsecondText (t : Time) : String :=
  t.wholeText ++ "." ++ padded 6 (t.nanosecond / 1000)

end Time
end QueryCriteria
