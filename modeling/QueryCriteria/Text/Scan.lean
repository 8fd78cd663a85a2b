import QueryCriteria.Text.Numeral

/-!
# Scanning fixed forms

Dates and times are read part by part. Each step gives what it read together with the rest of the
text.
-/
namespace QueryCriteria.Text

/-- Reads a number of at least `least` and at most `greatest` digits. -/
def scanNat? (least greatest : Nat) (cs : List Char) : Option (Nat × List Char) :=
  let digits := (cs.take greatest).takeWhile Char.isDigit
  if digits.length < least then none else some (natOfDigits digits, cs.drop digits.length)

def scanChar? (c : Char) : List Char → Option (List Char)
  | d :: cs => if d = c then some cs else none
  | [] => none

/-- Reads a fraction of `places` digits: a shorter one is filled up with zeros, and further digits
are dropped. -/
def scanFraction? (places : Nat) (cs : List Char) : Option (Nat × List Char) :=
  let digits := cs.takeWhile Char.isDigit
  if digits.isEmpty then none
  else
    let kept := digits.take places
    some (natOfDigits kept * Nat.pow 10 (places - kept.length), cs.dropWhile Char.isDigit)

end QueryCriteria.Text
