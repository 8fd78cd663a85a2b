import QueryCriteria.Column.Date
import QueryCriteria.Column.Time

/-!
# Instants

An instant is a date and a time of day in universal time. A text gives it in local time, with the
offset of that from universal time in hours and minutes. All its numbers have a fixed width, and
only the fraction of the second may be missing.
-/
namespace QueryCriteria

open Text

/-- A date and a time in universal time. -/
structure DateTime where
  date : Date
  time : Time
  deriving DecidableEq

namespace DateTime

def minutesPerDay : Nat := 24 * 60

/-- The time with another minute of the day, and the same seconds. -/
def withMinuteOfDay (t : Time) (minutes : Nat) (h : minutes < 24 * 60) : Time :=
  ⟨minutes / 60, minutes % 60, t.second, t.nanosecond, by omega, by omega, t.isTime.2.2⟩

/-- The instant of a local date and time, where `offset` minutes separate local from universal
time. -/
def ofLocal (date : Date) (time : Time) (offset : Int) : DateTime :=
  let minutes : Int := (time.hour * 60 + time.minute : Nat) - offset
  let date :=
    if minutes < 0 then date.previous
    else if (minutesPerDay : Int) ≤ minutes then date.next
    else date
  ⟨date, withMinuteOfDay time (minutes % (24 * 60)).toNat (by omega)⟩

def isMinusSign (c : Char) : Bool := c = '-' || c.toNat = 0x2212

def scanOffsetMinutes? (cs : List Char) : Option (Nat × List Char) := do
  let (hours, cs) ← scanNat? 2 2 cs
  let cs ← scanChar? ':' cs
  let (minutes, cs) ← scanNat? 2 2 cs
  if hours < 24 && minutes < 60 then return (hours * 60 + minutes, cs) else failure

/-- Reads an offset: the letter of universal time, or a sign with hours and minutes. -/
def scanOffset? : List Char → Option (Int × List Char)
  | [] => none
  | c :: cs =>
    if c = 'Z' || c = 'z' then some (0, cs)
    else if c = '+' then (scanOffsetMinutes? cs).map fun (n, rest) => ((n : Int), rest)
    else if isMinusSign c then (scanOffsetMinutes? cs).map fun (n, rest) => (-(n : Int), rest)
    else none

def scanSeparator? : List Char → Option (List Char)
  | c :: cs => if c = 'T' || c = 't' || c = ' ' then some cs else none
  | [] => none

def read? (s : String) : Option DateTime := do
  let (year, cs) ← scanNat? 4 4 s.toList
  let cs ← scanChar? '-' cs
  let (month, cs) ← scanNat? 2 2 cs
  let cs ← scanChar? '-' cs
  let (day, cs) ← scanNat? 2 2 cs
  let cs ← scanSeparator? cs
  let (hour, cs) ← scanNat? 2 2 cs
  let cs ← scanChar? ':' cs
  let (minute, cs) ← scanNat? 2 2 cs
  let cs ← scanChar? ':' cs
  let (second, cs) ← scanNat? 2 2 cs
  let (nanosecond, cs) ← Time.scanNanosecond? cs
  let (offset, cs) ← scanOffset? cs
  let date ← Date.ofParts? year month day
  let time ← Time.ofParts? hour minute second nanosecond
  if cs = [] then return ofLocal date time offset else failure

def text (d : DateTime) : String := d.date.text ++ "T" ++ d.time.text ++ "Z"

/-- The text of an instant in whole microseconds, with its offset. -/
def microsecondText (d : DateTime) : String :=
  d.date.text ++ " " ++ d.time.microsecondText ++ " +00:00"

end DateTime
end QueryCriteria
