import QueryCriteria.Sql.Select

/-!
# Outlines of statements

The outline of a statement is what is left of it when one and the same value stands in the place of
every value that it binds. Statements with the same outline have the same text with placeholders,
and bind the same number of values.
-/
namespace QueryCriteria.Sql

/-- The value that stands in an outline for any other. -/
def hidden : ColumnValue := .unsigned 0

namespace Fragment

def outline : Fragment → Fragment
  | .value _ => .value hidden
  | fragment => fragment

@[simp] theorem outline_fixed (text : String) : (Fragment.fixed text).outline = .fixed text := rfl

@[simp] theorem outline_identifier (name : String) :
    (Fragment.identifier name).outline = .identifier name := rfl

@[simp] theorem outline_value (v : ColumnValue) : (Fragment.value v).outline = .value hidden := rfl

theorem prepared_outline (fragment : Fragment) : fragment.outline.prepared = fragment.prepared := by
  cases fragment <;> rfl

end Fragment

theorem preparedText_map_outline (fs : List Fragment) :
    preparedText (fs.map Fragment.outline) = preparedText fs := by
  simp [preparedText, Function.comp_def, Fragment.prepared_outline]

theorem length_boundValues_map_outline (fs : List Fragment) :
    (boundValues (fs.map Fragment.outline)).length = (boundValues fs).length := by
  unfold boundValues
  induction fs with
  | nil => rfl
  | cons fragment rest ih => cases fragment <;> simpa using ih

theorem map_outline_separatedBy (separator : String) (parts : List (List Fragment)) :
    (separatedBy separator parts).map Fragment.outline =
      separatedBy separator (parts.map (List.map Fragment.outline)) := by
  induction parts with
  | nil => rfl
  | cons part rest ih =>
    cases rest with
    | nil => rfl
    | cons next rest =>
      rw [separatedBy, List.map_append, List.map_cons, ih]
      · rfl
      · simp

@[simp] theorem map_outline_column (c : Column) :
    c.fragments.map Fragment.outline = c.fragments := by
  unfold Column.fragments
  cases c.qualifier <;> rfl

namespace Predicate

def columns : Predicate → List Column
  | .compare c _ _ => [c]
  | .between c _ _ => [c]
  | .member c _ _ => [c]
  | .like c _ _ => [c]
  | .null c _ => [c]
  | .equalColumns left right => [left, right]

def outline : Predicate → Predicate
  | .compare c comparison _ => .compare c comparison hidden
  | .between c _ _ => .between c hidden hidden
  | .member c isNegated values => .member c isNegated (values.map fun _ => hidden)
  | .like c isLowered _ => .like c isLowered ""
  | .null c isNegated => .null c isNegated
  | .equalColumns left right => .equalColumns left right

theorem columns_outline (p : Predicate) : p.outline.columns = p.columns := by
  cases p <;> rfl

theorem containsAnd_outline (p : Predicate) : p.outline.containsAnd = p.containsAnd := by
  cases p <;> rfl

theorem map_outline_valueList (values : List ColumnValue) :
    (valueList (values.map fun _ => hidden)).map Fragment.outline =
      (valueList values).map Fragment.outline := by
  simp [valueList, map_outline_separatedBy, Function.comp_def]

theorem fragments_outline (p : Predicate) :
    p.outline.fragments.map Fragment.outline = p.fragments.map Fragment.outline := by
  cases p with
  | compare c comparison v => simp [outline, fragments]
  | between c low high => simp [outline, fragments]
  | member c isNegated values =>
    simp only [outline, fragments, List.map_append, map_outline_valueList]
  | like c isLowered pattern => simp [outline, fragments]
  | null c isNegated => rfl
  | equalColumns left right => rfl

theorem conjunct_outline (p : Predicate) :
    p.outline.conjunct.map Fragment.outline = p.conjunct.map Fragment.outline := by
  unfold conjunct
  rw [containsAnd_outline]
  cases p.containsAnd <;> simp [fragments_outline]

end Predicate

theorem conditionFragments_outline (ps : List Predicate) :
    (conditionFragments (ps.map Predicate.outline)).map Fragment.outline =
      (conditionFragments ps).map Fragment.outline := by
  match ps with
  | [] => rfl
  | [p] => exact p.fragments_outline
  | p :: q :: rest =>
    have hconjuncts : ∀ ps : List Predicate,
        ((ps.map Predicate.outline).map Predicate.conjunct).map (List.map Fragment.outline) =
          (ps.map Predicate.conjunct).map (List.map Fragment.outline) := by
      intro ps
      simp [Function.comp_def, Predicate.conjunct_outline]
    have hmany : ∀ ps : List Predicate, 2 ≤ ps.length →
        conditionFragments ps = separatedBy " AND " (ps.map Predicate.conjunct) := by
      intro ps hlength
      match ps with
      | p :: q :: rest => rfl
    rw [hmany _ (by simp), hmany _ (by simp), map_outline_separatedBy, map_outline_separatedBy,
      hconjuncts]

namespace Select

def outline (s : Select) : Select :=
  { s with
    conditions := s.conditions.map Predicate.outline
    limit := s.limit.map fun _ => 0
    offset := s.offset.map fun _ => 0 }

theorem map_outline_boundFragments (word : String) (bound : Option Nat) :
    (boundFragments word (bound.map fun _ => 0)).map Fragment.outline =
      (boundFragments word bound).map Fragment.outline := by
  cases bound <;> rfl

theorem whereFragments_outline (s : Select) :
    s.outline.whereFragments.map Fragment.outline = s.whereFragments.map Fragment.outline := by
  unfold whereFragments outline
  cases s.conditions with
  | nil => rfl
  | cons p rest =>
    have h := conditionFragments_outline (p :: rest)
    simpa using h

theorem fragments_outline (s : Select) :
    s.outline.fragments.map Fragment.outline = s.fragments.map Fragment.outline := by
  have hwhere := s.whereFragments_outline
  have hlimit := map_outline_boundFragments " LIMIT " s.limit
  have hoffset := map_outline_boundFragments " OFFSET " s.offset
  unfold fragments
  simp only [List.map_append, hwhere]
  simp only [outline, hlimit, hoffset]
  rfl

/-- Statements with the same outline differ in their bound values only. -/
theorem prepared_eq_of_outline_eq {s u : Select} (h : s.outline = u.outline) :
    preparedText s.fragments = preparedText u.fragments ∧
      (boundValues s.fragments).length = (boundValues u.fragments).length := by
  have hfragments : s.fragments.map Fragment.outline = u.fragments.map Fragment.outline := by
    rw [← s.fragments_outline, h, u.fragments_outline]
  constructor
  · rw [← preparedText_map_outline, hfragments, preparedText_map_outline]
  · rw [← length_boundValues_map_outline, hfragments, length_boundValues_map_outline]

end Select
end QueryCriteria.Sql
