/-!
# Sets of code points

A character class of a standard is a union of ranges of code points. It is stored as the ascending
list of the code points at which membership changes: the first one enters the class, the second one
leaves it, and so on. A character belongs to the class when an odd number of changes lie at or
before it.
-/
namespace QueryCriteria.Text

/-- A class of characters, by the ascending code points at which membership changes. -/
structure CodePoints where
  changes : List Nat

def CodePoints.contains (s : CodePoints) (c : Char) : Bool :=
  (s.changes.takeWhile (· ≤ c.toNat)).length % 2 == 1

end QueryCriteria.Text
