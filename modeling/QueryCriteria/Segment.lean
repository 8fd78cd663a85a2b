import QueryCriteria.Text.Blank

/-!
# Path segments

A segment is a name that can stand in a dotted path: it is not empty, has no dot, and neither starts
nor ends with a blank. A text may have several faults; the first of this list is the one reported.
-/
namespace QueryCriteria

open Text

/-- What keeps a text from being a segment. -/
inductive SegmentFault where
  | empty
  | dot
  | outerBlank
  deriving DecidableEq

def SegmentFault.message : SegmentFault → String
  | .empty => "empty segment"
  | .dot => "segment contains '.'"
  | .outerBlank => "segment has surrounding whitespace"

def segmentFault? (s : String) : Option SegmentFault :=
  if s = "" then some .empty
  else if '.' ∈ s.toList then some .dot
  else if hasOuterBlank s then some .outerBlank
  else none

def IsSegment (s : String) : Prop := segmentFault? s = none

instance (s : String) : Decidable (IsSegment s) := inferInstanceAs (Decidable (_ = _))

theorem isSegment_iff {s : String} :
    IsSegment s ↔ s ≠ "" ∧ '.' ∉ s.toList ∧ Text.hasOuterBlank s = false := by
  unfold IsSegment segmentFault?
  split
  · simp_all
  · split <;> simp_all

end QueryCriteria
