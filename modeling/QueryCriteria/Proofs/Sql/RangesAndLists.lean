import QueryCriteria.Proofs.Sql.Operator

/-!
# Ranges and lists of values

A range is the two comparisons with its ends taken together, and a list of values is as many
comparisons for equality: what they refuse, what they leave out as blank and which values they bind
is what the comparisons with the single values refuse, leave out and bind. Only the position in an
error tells where in the range or the list the value stood.
-/
namespace QueryCriteria

open Json

/-- The error of a value that stands at another position. -/
def ProviderError.atPosition (position : Nat) : ProviderError → ProviderError
  | .typeMismatch _ expected got => .typeMismatch position expected got
  | e => e

theorem ColumnKind.coerce_atPosition (kind : ColumnKind) (position : Nat) (v : Value) :
    kind.coerce position v = (kind.coerce 0 v).mapError (·.atPosition position) := by
  unfold coerce
  split
  · split
    · rfl
    · split <;> rfl
  · split
    · split <;> rfl
    · rfl
  · split <;> rfl
  · rfl

namespace Sql

def Operator.on (operator : Operator) (kind : ColumnKind) (c : Column) (vs : List Value) :
    Except ProviderError (Option Predicate) :=
  OperatorProvider.predicate ⟨operator, kind, none⟩ c vs

section Values

variable {kind : ColumnKind} {c : Column} {v : Value} {vs : List Value}

theorem coerceFilled_atPosition (position : Nat) (v : Value) :
    coerceFilled kind position v = (coerceFilled kind 0 v).mapError (·.atPosition position) := by
  unfold coerceFilled
  split
  · rfl
  · rw [kind.coerce_atPosition]
    cases kind.coerce 0 v <;> rfl

theorem coerceFilled_eq_none_iff {position : Nat} :
    coerceFilled kind position v = .ok none ↔ isBlankValue v := by
  unfold coerceFilled
  split
  · rename_i hblank
    simp [hblank]
  · rename_i hfilled
    simp [hfilled, map_eq_ok_iff]

theorem on_compare (comparison : Comparison) (v : Value) :
    (Operator.compare comparison).on kind c [v] =
      (coerceFilled kind 0 v).map (Option.map (.compare c comparison)) := by
  change comparePredicate kind c comparison [v] = _
  rw [comparePredicate]
  cases coerceFilled kind 0 v <;> rfl

theorem on_compare_eq_error_iff {comparison : Comparison} {e : ProviderError} :
    (Operator.compare comparison).on kind c [v] = .error e ↔ coerceFilled kind 0 v = .error e := by
  rw [on_compare, map_eq_error_iff]

theorem exists_on_compare_iff {comparison : Comparison} :
    (∃ p, (Operator.compare comparison).on kind c [v] = .ok p) ↔
      ∃ value, coerceFilled kind 0 v = .ok value := by
  rw [on_compare]
  cases coerceFilled kind 0 v <;> simp [Except.map]

theorem on_compare_eq_some_iff {comparison : Comparison} {value : ColumnValue} :
    (Operator.compare comparison).on kind c [v] = .ok (some (.compare c comparison value)) ↔
      coerceFilled kind 0 v = .ok (some value) := by
  rw [on_compare, map_eq_ok_iff]
  simp

theorem on_compare_eq_none_iff {comparison : Comparison} :
    (Operator.compare comparison).on kind c [v] = .ok none ↔ coerceFilled kind 0 v = .ok none := by
  rw [on_compare, map_eq_ok_iff]
  simp

theorem exists_of_on_compare_eq_some {comparison : Comparison} {p : Predicate}
    (h : (Operator.compare comparison).on kind c [v] = .ok (some p)) :
    ∃ value, coerceFilled kind 0 v = .ok (some value) ∧ p = .compare c comparison value := by
  rw [on_compare, map_eq_ok_iff] at h
  obtain ⟨filled, hfilled, hp⟩ := h
  obtain ⟨value, rfl, rfl⟩ := Option.map_eq_some_iff.mp hp
  exact ⟨value, hfilled, rfl⟩

/-- The range between two ends that may be open. -/
def rangePredicate? (c : Column) : Option ColumnValue → Option ColumnValue → Option Predicate
  | some low, some high => some (.between c low high)
  | some low, none => some (.compare c .ge low)
  | none, some high => some (.compare c .le high)
  | none, none => none

theorem on_between (low high : Value) :
    Operator.between.on kind c [low, high] = do
      let first ← coerceFilled kind 0 low
      let last ← (coerceFilled kind 0 high).mapError (·.atPosition 1)
      return rangePredicate? c first last := by
  change betweenPredicate kind c [low, high] = _
  rw [betweenPredicate, coerceFilled_atPosition 1 high]
  cases coerceFilled kind 0 low with
  | error e => rfl
  | ok first =>
    cases coerceFilled kind 0 high with
    | error e => rfl
    | ok last => cases first <;> cases last <;> rfl

theorem coerceAll_cons_eq_error_iff {position : Nat} {e : ProviderError} :
    coerceAll kind position (v :: vs) = .error e ↔
      (∃ source, coerceFilled kind 0 v = .error source ∧ source.atPosition position = e) ∨
        (∃ value, coerceFilled kind 0 v = .ok value) ∧ coerceAll kind (position + 1) vs = .error e := by
  rw [coerceAll, coerceFilled_atPosition position v]
  simp only [bind_eq_error_iff, mapError_eq_error_iff, mapError_eq_ok_iff, pure_ne_error,
    and_false, exists_false, or_false, exists_and_right]

/-- A list is refused for its first item that is refused, at the position of that. -/
theorem coerceAll_eq_error_iff {position : Nat} {e : ProviderError} :
    coerceAll kind position vs = .error e ↔ ∃ before v after source, vs = before ++ v :: after ∧
      (∀ w ∈ before, ∃ value, coerceFilled kind 0 w = .ok value) ∧
      coerceFilled kind 0 v = .error source ∧ source.atPosition (position + before.length) = e := by
  induction vs generalizing position with
  | nil => simp [coerceAll]
  | cons v rest ih =>
    have hnext (n : Nat) : position + 1 + n = position + (n + 1) := by omega
    rw [coerceAll_cons_eq_error_iff, ih]
    constructor
    · rintro (⟨source, hv, he⟩ | ⟨hv, before, w, after, source, rfl, hbefore, hw, he⟩)
      · exact ⟨[], v, rest, source, rfl, by simp, hv, he⟩
      · refine ⟨v :: before, w, after, source, rfl, ?_, hw, ?_⟩
        · exact List.forall_mem_cons.mpr ⟨hv, hbefore⟩
        · rwa [List.length_cons, ← hnext]
    · rintro ⟨before, w, after, source, hvs, hbefore, hw, he⟩
      cases before with
      | nil =>
        cases hvs
        exact .inl ⟨source, hw, he⟩
      | cons first before =>
        cases hvs
        obtain ⟨hv, hbefore⟩ := List.forall_mem_cons.mp hbefore
        refine .inr ⟨hv, before, w, after, source, rfl, hbefore, hw, ?_⟩
        rwa [hnext, ← List.length_cons]

theorem coerceAll_cons_eq_ok_iff {position : Nat} {values : List ColumnValue} :
    coerceAll kind position (v :: vs) = .ok values ↔
      ∃ value others, coerceFilled kind 0 v = .ok value ∧
        coerceAll kind (position + 1) vs = .ok others ∧ value.toList ++ others = values := by
  rw [coerceAll, coerceFilled_atPosition position v]
  simp only [bind_eq_ok_iff, mapError_eq_ok_iff, pure_eq_ok_iff, exists_and_left]

theorem coerceAll_eq_ok_iff {position : Nat} {values : List ColumnValue} :
    coerceAll kind position vs = .ok values ↔
      List.Forall₂ (fun v value => coerceFilled kind 0 v = .ok (some value))
        (vs.filter (!isBlankValue ·)) values := by
  induction vs generalizing position values with
  | nil => simp [coerceAll, eq_comm]
  | cons v rest ih =>
    rw [coerceAll_cons_eq_ok_iff]
    simp only [ih]
    cases hblank : isBlankValue v with
    | true =>
      have hv : coerceFilled kind 0 v = .ok none := coerceFilled_eq_none_iff.mpr hblank
      simp [hv, hblank]
    | false =>
      have hv : coerceFilled kind 0 v ≠ .ok none := by
        rw [Ne, coerceFilled_eq_none_iff, hblank]
        simp
      rw [List.filter_cons_of_pos (by simp [hblank]), List.forall₂_cons_left_iff]
      constructor
      · rintro ⟨value, others, hvalue, hothers, rfl⟩
        cases value with
        | none => exact absurd hvalue hv
        | some value => exact ⟨value, others, hvalue, hothers, rfl⟩
      · rintro ⟨value, others, hvalue, hothers, rfl⟩
        exact ⟨some value, others, hvalue, hothers, rfl⟩

theorem on_member (isNegated : Bool) (vs : List Value) :
    (Operator.member isNegated).on kind c vs = (coerceAll kind 0 (listItems vs)).map fun values =>
      if values.isEmpty then none else some (.member c isNegated values) := by
  change memberPredicate kind c isNegated vs = _
  rw [memberPredicate]
  cases coerceAll kind 0 (listItems vs) <;> rfl

end Values

section Ranges

variable {kind : ColumnKind} {c : Column} {low high : Value} {p q : Predicate}

theorem on_between_eq_ok_iff {result : Option Predicate} :
    Operator.between.on kind c [low, high] = .ok result ↔ ∃ first last,
      coerceFilled kind 0 low = .ok first ∧ coerceFilled kind 0 high = .ok last ∧
        rangePredicate? c first last = result := by
  rw [on_between]
  simp only [bind_eq_ok_iff, mapError_eq_ok_iff, pure_eq_ok_iff, exists_and_left]

theorem on_between_eq_error_iff {e : ProviderError} :
    Operator.between.on kind c [low, high] = .error e ↔
      (Operator.compare .ge).on kind c [low] = .error e ∨
        (∃ p, (Operator.compare .ge).on kind c [low] = .ok p) ∧
          ∃ source, (Operator.compare .le).on kind c [high] = .error source ∧
            source.atPosition 1 = e := by
  rw [on_between, exists_on_compare_iff, on_compare_eq_error_iff]
  simp only [on_compare_eq_error_iff, bind_eq_error_iff, mapError_eq_error_iff, pure_ne_error,
    and_false, exists_false, or_false, exists_and_right]

theorem on_between_eq_none_iff :
    Operator.between.on kind c [low, high] = .ok none ↔
      (Operator.compare .ge).on kind c [low] = .ok none ∧
        (Operator.compare .le).on kind c [high] = .ok none := by
  rw [on_between_eq_ok_iff, on_compare_eq_none_iff, on_compare_eq_none_iff]
  constructor
  · rintro ⟨first, last, hfirst, hlast, hnone⟩
    cases first with
    | some low => cases last <;> cases hnone
    | none =>
      cases last with
      | some high => cases hnone
      | none => exact ⟨hfirst, hlast⟩
  · intro h
    exact ⟨none, none, h.1, h.2, rfl⟩

theorem on_between_of_open_high (hlow : (Operator.compare .ge).on kind c [low] = .ok (some p))
    (hhigh : (Operator.compare .le).on kind c [high] = .ok none) :
    Operator.between.on kind c [low, high] = .ok (some p) := by
  obtain ⟨value, hvalue, rfl⟩ := exists_of_on_compare_eq_some hlow
  exact on_between_eq_ok_iff.mpr ⟨some value, none, hvalue, on_compare_eq_none_iff.mp hhigh, rfl⟩

theorem on_between_of_open_low (hlow : (Operator.compare .ge).on kind c [low] = .ok none)
    (hhigh : (Operator.compare .le).on kind c [high] = .ok (some p)) :
    Operator.between.on kind c [low, high] = .ok (some p) := by
  obtain ⟨value, hvalue, rfl⟩ := exists_of_on_compare_eq_some hhigh
  exact on_between_eq_ok_iff.mpr ⟨none, some value, on_compare_eq_none_iff.mp hlow, hvalue, rfl⟩

theorem on_between_of_both (hlow : (Operator.compare .ge).on kind c [low] = .ok (some p))
    (hhigh : (Operator.compare .le).on kind c [high] = .ok (some q)) :
    ∃ first last, p = .compare c .ge first ∧ q = .compare c .le last ∧
      Operator.between.on kind c [low, high] = .ok (some (.between c first last)) := by
  obtain ⟨first, hfirst, hp⟩ := exists_of_on_compare_eq_some hlow
  obtain ⟨last, hlast, hq⟩ := exists_of_on_compare_eq_some hhigh
  exact ⟨first, last, hp, hq,
    on_between_eq_ok_iff.mpr ⟨some first, some last, hfirst, hlast, rfl⟩⟩

end Ranges

section Lists

variable {kind : ColumnKind} {c : Column} {isNegated : Bool} {vs : List Value}

theorem on_member_eq_error_iff {e : ProviderError} :
    (Operator.member isNegated).on kind c vs = .error e ↔ ∃ before v after source,
      listItems vs = before ++ v :: after ∧
        (∀ w ∈ before, ∃ p, (Operator.compare .eq).on kind c [w] = .ok p) ∧
        (Operator.compare .eq).on kind c [v] = .error source ∧
        source.atPosition before.length = e := by
  rw [on_member, map_eq_error_iff, coerceAll_eq_error_iff]
  simp only [exists_on_compare_iff, on_compare_eq_error_iff, Nat.zero_add]

theorem exists_on_member_eq_error_iff :
    (∃ e, (Operator.member isNegated).on kind c vs = .error e) ↔
      ∃ v ∈ listItems vs, ∃ e, (Operator.compare .eq).on kind c [v] = .error e := by
  constructor
  · rintro ⟨e, he⟩
    obtain ⟨before, v, after, source, hitems, -, hv, -⟩ := on_member_eq_error_iff.mp he
    exact ⟨v, by simp [hitems], source, hv⟩
  · rintro ⟨v, hv, e, he⟩
    rw [on_compare_eq_error_iff] at he
    cases hall : coerceAll kind 0 (listItems vs) with
    | error source => exact ⟨source, by rw [on_member, hall]; rfl⟩
    | ok values =>
      have hfilled : v ∈ (listItems vs).filter (!isBlankValue ·) := by
        rw [List.mem_filter, Bool.not_eq_true', ← Bool.not_eq_true, ← coerceFilled_eq_none_iff, he]
        exact ⟨hv, by simp⟩
      obtain ⟨value, -, hvalue⟩ :=
        exists_of_forall₂_of_mem_left (coerceAll_eq_ok_iff.mp hall) hfilled
      rw [he] at hvalue
      cases hvalue

theorem on_member_eq_ok_iff {result : Option Predicate} :
    (Operator.member isNegated).on kind c vs = .ok result ↔ ∃ values,
      List.Forall₂ (fun v value => (Operator.compare .eq).on kind c [v] =
        .ok (some (.compare c .eq value))) ((listItems vs).filter (!isBlankValue ·)) values ∧
      (if values.isEmpty then none else some (.member c isNegated values)) = result := by
  rw [on_member, map_eq_ok_iff]
  simp only [coerceAll_eq_ok_iff, on_compare_eq_some_iff]

theorem on_member_eq_none_iff :
    (Operator.member isNegated).on kind c vs = .ok none ↔
      ∀ v ∈ listItems vs, isBlankValue v := by
  rw [on_member_eq_ok_iff]
  constructor
  · rintro ⟨values, hvalues, hnone⟩
    cases values with
    | nil =>
      have hempty := List.forall₂_nil_right_iff.mp hvalues
      simpa using hempty
    | cons value rest => cases hnone
  · intro h
    refine ⟨[], ?_, rfl⟩
    rw [List.forall₂_nil_right_iff]
    simpa using h

theorem on_member_eq_some_iff {p : Predicate} :
    (Operator.member isNegated).on kind c vs = .ok (some p) ↔ ∃ values, values ≠ [] ∧
      List.Forall₂ (fun v value => (Operator.compare .eq).on kind c [v] =
        .ok (some (.compare c .eq value))) ((listItems vs).filter (!isBlankValue ·)) values ∧
      p = .member c isNegated values := by
  rw [on_member_eq_ok_iff]
  constructor
  · rintro ⟨values, hvalues, hp⟩
    cases values with
    | nil => cases hp
    | cons value rest =>
      cases hp
      exact ⟨_, List.cons_ne_nil _ _, hvalues, rfl⟩
  · rintro ⟨values, hne, hvalues, rfl⟩
    refine ⟨values, hvalues, ?_⟩
    rw [if_neg]
    rwa [List.isEmpty_iff]

/-- A list given as one array is that list, so it makes no difference in which form it is given. -/
theorem on_member_array (h : ∀ items, vs ≠ [.array items]) :
    (Operator.member isNegated).on kind c [.array vs] = (Operator.member isNegated).on kind c vs := by
  rw [on_member, on_member, listItems_eq_self h, listItems]

end Lists

/-- An operator on several values agrees with the comparisons with the single ones: a range has the
values, or the error, of its ends, and a list those of its items. A list may be given as one array;
only one whose single item is an array has to be. -/
theorem ranges_and_lists_agree (kind : ColumnKind) (c : Column) :
    (∀ low high,
      (∀ e, Operator.between.on kind c [low, high] = .error e ↔
        (Operator.compare .ge).on kind c [low] = .error e ∨
          (∃ p, (Operator.compare .ge).on kind c [low] = .ok p) ∧
            ∃ source, (Operator.compare .le).on kind c [high] = .error source ∧
              source.atPosition 1 = e) ∧
      (Operator.between.on kind c [low, high] = .ok none ↔
        (Operator.compare .ge).on kind c [low] = .ok none ∧
          (Operator.compare .le).on kind c [high] = .ok none) ∧
      (∀ p, (Operator.compare .ge).on kind c [low] = .ok (some p) →
        (Operator.compare .le).on kind c [high] = .ok none →
        Operator.between.on kind c [low, high] = .ok (some p)) ∧
      (∀ p, (Operator.compare .ge).on kind c [low] = .ok none →
        (Operator.compare .le).on kind c [high] = .ok (some p) →
        Operator.between.on kind c [low, high] = .ok (some p)) ∧
      ∀ p q, (Operator.compare .ge).on kind c [low] = .ok (some p) →
        (Operator.compare .le).on kind c [high] = .ok (some q) →
        ∃ first last, p = .compare c .ge first ∧ q = .compare c .le last ∧
          Operator.between.on kind c [low, high] = .ok (some (.between c first last))) ∧
    ∀ isNegated vs,
      ((∃ e, (Operator.member isNegated).on kind c vs = .error e) ↔
        ∃ v ∈ listItems vs, ∃ e, (Operator.compare .eq).on kind c [v] = .error e) ∧
      (∀ e, (Operator.member isNegated).on kind c vs = .error e ↔ ∃ before v after source,
        listItems vs = before ++ v :: after ∧
          (∀ w ∈ before, ∃ p, (Operator.compare .eq).on kind c [w] = .ok p) ∧
          (Operator.compare .eq).on kind c [v] = .error source ∧
          source.atPosition before.length = e) ∧
      ((Operator.member isNegated).on kind c vs = .ok none ↔
        ∀ v ∈ listItems vs, isBlankValue v) ∧
      (∀ p, (Operator.member isNegated).on kind c vs = .ok (some p) ↔ ∃ values, values ≠ [] ∧
        List.Forall₂ (fun v value => (Operator.compare .eq).on kind c [v] =
          .ok (some (.compare c .eq value))) ((listItems vs).filter (!isBlankValue ·)) values ∧
        p = .member c isNegated values) ∧
      ((∀ items, vs ≠ [.array items]) → (Operator.member isNegated).on kind c [.array vs] =
        (Operator.member isNegated).on kind c vs) ∧
      ∀ items, vs = [.array items] →
        (Operator.member isNegated).on kind c [.array vs] = .error (kind.mismatch 0 "array") := by
  refine ⟨?_, ?_⟩
  · intro low high
    refine ⟨?_, on_between_eq_none_iff, ?_, ?_, ?_⟩
    · intro e
      exact on_between_eq_error_iff
    · intro p hlow hhigh
      exact on_between_of_open_high hlow hhigh
    · intro p hlow hhigh
      exact on_between_of_open_low hlow hhigh
    · intro p q hlow hhigh
      exact on_between_of_both hlow hhigh
  · intro isNegated vs
    refine ⟨exists_on_member_eq_error_iff, ?_, on_member_eq_none_iff, ?_, on_member_array, ?_⟩
    · intro e
      exact on_member_eq_error_iff
    · intro p
      exact on_member_eq_some_iff
    · rintro items rfl
      rfl

end Sql
end QueryCriteria
