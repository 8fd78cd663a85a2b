import QueryCriteria.Proofs.Except
import QueryCriteria.Proofs.Sql.Outline
import QueryCriteria.Sql.Operator

/-!
# What operators look at

An operator checks and converts its values, but which predicate it builds depends only on which of
them are blank. `form` is the outline of the predicate as a function of that. Every predicate of an
operator is about the one column that it was given.
-/
namespace QueryCriteria.Sql

open Json

namespace Operator

/-- The values that an operator compares with; a list operator takes one array as the list. -/
def operands : Operator → List Value → List Value
  | .member _, vs => listItems vs
  | _, vs => vs

def blanks (operator : Operator) (vs : List Value) : List Bool :=
  (operator.operands vs).map isBlankValue

/-- The outline of the predicate of an operator, given which operands are blank. -/
def form (operator : Operator) (c : Column) (blanks : List Bool) : Option Predicate :=
  match operator, blanks with
  | .compare comparison, [false] => some (.compare c comparison hidden)
  | .between, [false, false] => some (.between c hidden hidden)
  | .between, [false, true] => some (.compare c .ge hidden)
  | .between, [true, false] => some (.compare c .le hidden)
  | .member isNegated, blanks =>
    if blanks.count false = 0 then none
    else some (.member c isNegated (List.replicate (blanks.count false) hidden))
  | .null isNegated, _ => some (.null c isNegated)
  | .ilike, [false] => some (.like c true "")
  | .like, [false] => some (.like c false "")
  | .startsWith, [false] => some (.like c false "")
  | .endsWith, [false] => some (.like c false "")
  | _, _ => none

theorem columns_of_form {operator : Operator} {c : Column} {blanks : List Bool} {p : Predicate}
    (h : operator.form c blanks = some p) : p.columns = [c] := by
  unfold form at h
  split at h
  case h_5 =>
    split at h
    · cases h
    · cases h
      rfl
  all_goals
    cases h
    try rfl

end Operator

section Values

variable {kind : ColumnKind} {c : Column} {result : Option Predicate}

theorem listItems_eq_self {vs : List Value} (h : ∀ items, vs ≠ [.array items]) :
    listItems vs = vs := by
  unfold listItems
  split
  · rename_i items
    exact absurd rfl (h items)
  · rfl

theorem isNone_of_coerceFilled {position : Nat} {v : Value} {value : Option ColumnValue}
    (h : coerceFilled kind position v = .ok value) : value.isNone = isBlankValue v := by
  unfold coerceFilled at h
  split at h
  · rename_i hblank
    cases h
    exact hblank.symm
  · rename_i hfilled
    obtain ⟨x, -, rfl⟩ := map_eq_ok_iff.mp h
    simp [hfilled]

theorem length_of_coerceAll {position : Nat} {vs : List Value} {values : List ColumnValue}
    (h : coerceAll kind position vs = .ok values) :
    values.length = (vs.map isBlankValue).count false := by
  induction vs generalizing position values with
  | nil =>
    cases h
    rfl
  | cons v rest ih =>
    simp only [coerceAll, bind_eq_ok_iff, pure_eq_ok_iff] at h
    obtain ⟨value, hvalue, others, hothers, rfl⟩ := h
    have hblank := isNone_of_coerceFilled hvalue
    have hlength := ih hothers
    rw [List.length_append, hlength, List.map_cons, ← hblank]
    cases value <;> simp [Nat.add_comm]

theorem outline_comparePredicate {comparison : Comparison} {vs : List Value}
    (h : comparePredicate kind c comparison vs = .ok result) :
    result.map Predicate.outline =
      (Operator.compare comparison).form c (vs.map isBlankValue) := by
  match vs with
  | [] => cases h
  | [v] =>
    simp only [comparePredicate, bind_eq_ok_iff, pure_eq_ok_iff] at h
    obtain ⟨value, hvalue, rfl⟩ := h
    have hblank := isNone_of_coerceFilled hvalue
    rw [List.map_singleton, ← hblank]
    cases value <;> rfl
  | v :: w :: rest => cases h

theorem outline_betweenPredicate {vs : List Value}
    (h : betweenPredicate kind c vs = .ok result) :
    result.map Predicate.outline = Operator.between.form c (vs.map isBlankValue) := by
  match vs with
  | [] => cases h
  | [v] => cases h
  | [low, high] =>
    simp only [betweenPredicate, bind_eq_ok_iff] at h
    obtain ⟨first, hfirst, last, hlast, h⟩ := h
    have hlow := isNone_of_coerceFilled hfirst
    have hhigh := isNone_of_coerceFilled hlast
    rw [List.map_cons, List.map_singleton, ← hlow, ← hhigh]
    cases first <;> cases last <;> cases h <;> rfl
  | v :: w :: x :: rest => cases h

theorem outline_memberPredicate {isNegated : Bool} {vs : List Value}
    (h : memberPredicate kind c isNegated vs = .ok result) :
    result.map Predicate.outline =
      (Operator.member isNegated).form c ((listItems vs).map isBlankValue) := by
  simp only [memberPredicate, bind_eq_ok_iff, pure_eq_ok_iff] at h
  obtain ⟨values, hvalues, rfl⟩ := h
  have hlength := length_of_coerceAll hvalues
  simp only [Operator.form, ← hlength]
  cases values with
  | nil => rfl
  | cons value rest =>
    rw [if_neg (by simp), if_neg (by simp), Option.map_some, Predicate.outline, List.map_const']

theorem outline_patternPredicate {operator : Operator} {vs : List Value}
    (hpattern : operator.isPattern) (h : patternPredicate operator kind c vs = .ok result) :
    result.map Predicate.outline = operator.form c (vs.map isBlankValue) := by
  unfold patternPredicate at h
  split at h
  · cases h
  · split at h
    · cases h
      cases operator <;> first | rfl | cases hpattern
    · rename_i s
      cases h
      have hblank : isBlankValue (.string s) = Text.isAllBlank s := rfl
      rw [List.map_singleton, hblank]
      cases Text.isAllBlank s <;> cases operator <;> first | rfl | cases hpattern
    · cases h
    · cases h

end Values

namespace OperatorProvider

variable (p : OperatorProvider) {c : Column} {vs : List Value} {result : Option Predicate}

/-- The outline of what an operator builds is determined by which of its operands are blank. -/
theorem outline_predicate (h : p.predicate c vs = .ok result) :
    result.map Predicate.outline = p.operator.form c (p.operator.blanks vs) := by
  unfold predicate at h
  unfold Operator.blanks
  split at h
  · rename_i comparison hop
    rw [hop]
    exact outline_comparePredicate h
  · rename_i hop
    rw [hop]
    exact outline_betweenPredicate h
  · rename_i isNegated hop
    rw [hop]
    exact outline_memberPredicate h
  · rename_i isNegated hop
    rw [hop]
    obtain ⟨-, -, hresult⟩ := bind_eq_ok_iff.mp h
    cases hresult
    rfl
  · rename_i hcompare hbetween hmember hnull
    have hpattern : p.operator.isPattern := by
      cases hop : p.operator <;> simp_all [Operator.isPattern]
    have houtline := outline_patternPredicate hpattern h
    cases hop : p.operator <;> simp_all [Operator.operands]

theorem columns_predicate {q : Predicate} (h : p.predicate c vs = .ok (some q)) :
    q.columns = [c] := by
  have houtline := p.outline_predicate h
  rw [Option.map_some] at houtline
  rw [← q.columns_outline]
  exact Operator.columns_of_form houtline.symm

end OperatorProvider
end QueryCriteria.Sql
