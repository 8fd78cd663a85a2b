import QueryCriteria.Proofs.Sql.LikePattern
import QueryCriteria.Proofs.Sql.RangesAndLists
import QueryCriteria.Proofs.Text.LowerCase

/-!
# Searches in any letter case

A search in any letter case lowers both sides, but not in the same way: the database lowers the
ASCII letters of the stored text, and the searched text has been lowered by the Unicode standard. So
such a search finds all that the search for the same text in the given letters finds, unless the
searched text has a capital letter outside of ASCII.
-/
namespace QueryCriteria.Sql

open Json Text

/-- A stored text matches the pattern of a predicate. A flagged predicate lowers the ASCII letters
of the stored text before. -/
inductive Predicate.Finds (S : LikeSemantics) (t : String) : Predicate → Prop
  | asStored {c : Column} {pattern : String} (h : S.Matches pattern.toList t.toList) :
    Finds S t (.like c false pattern)
  | lowered {c : Column} {pattern : String} (h : S.Matches pattern.toList t.toLower.toList) :
    Finds S t (.like c true pattern)

section Searches

variable (S : LikeSemantics) (c : Column) {s : String}

theorem finds_like_iff (t : String) :
    (searchPredicate .like c s).Finds S t ↔ s.toList <:+: t.toList := by
  rw [← S.matches_contains_iff]
  constructor
  · intro h
    cases h with
    | asStored h => exact h
  · intro h
    exact .asStored h

theorem finds_ilike_iff (t : String) :
    (searchPredicate .ilike c s).Finds S t ↔ (lowerCase s).toList <:+: t.toLower.toList := by
  rw [← S.matches_contains_iff]
  constructor
  · intro h
    cases h with
    | lowered h => exact h
  · intro h
    exact .lowered h

/-- The search in any letter case finds all that the other finds, or it misses the searched text
itself. -/
theorem finds_ilike_of_like_iff :
    (∀ t, (searchPredicate .like c s).Finds S t → (searchPredicate .ilike c s).Finds S t) ↔
      ∀ ch ∈ s.toList, ch.toNat < 128 ∨ lowerChar ch = [ch] := by
  simp only [finds_like_iff, finds_ilike_iff]
  rw [← lowerCase_isInfix_toLower_iff]
  constructor
  · intro h
    exact h s List.infix_rfl
  · intro h t ht
    exact lowerCase_isInfix_toLower_of_isInfix h ht

end Searches

theorem on_search {operator : Operator} (hpattern : operator.isPattern) (c : Column) {s : String}
    (hs : isAllBlank s = false) :
    operator.on .string c [.string s] = .ok (some (searchPredicate operator c s)) := by
  have hon : operator.on .string c [.string s] =
      patternPredicate operator .string c [.string s] := by
    cases operator <;> first | rfl | cases hpattern
  rw [hon, patternPredicate, hs]
  rfl

end QueryCriteria.Sql
