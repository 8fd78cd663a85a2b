import QueryCriteria.Proofs.Binary64.Extended
import QueryCriteria.Proofs.Column.NumberText
import QueryCriteria.Proofs.Sql.RangesAndLists

/-!
# The values that predicates bind

An operator that compares binds the values of its operands that are not blank, each converted by
itself, in their order. So what a column makes of a single text tells what a predicate can bind: in
an integer or a truth column these are the values of numbers and of truth values; in a floating
point column they are doubles, and besides them, for certain texts only, values that no number has.
-/
namespace QueryCriteria

open Json Text

namespace Sql

section Fragments

variable (fs gs : List Fragment)

@[simp] theorem boundValues_nil : boundValues [] = [] := rfl

@[simp] theorem boundValues_fixed_cons (text : String) :
    boundValues (.fixed text :: fs) = boundValues fs := rfl

@[simp] theorem boundValues_identifier_cons (name : String) :
    boundValues (.identifier name :: fs) = boundValues fs := rfl

@[simp] theorem boundValues_value_cons (v : ColumnValue) :
    boundValues (.value v :: fs) = v :: boundValues fs := rfl

@[simp] theorem boundValues_append : boundValues (fs ++ gs) = boundValues fs ++ boundValues gs :=
  List.filterMap_append

@[simp] theorem boundValues_column (c : Column) : boundValues c.fragments = [] := by
  unfold Column.fragments
  cases c.qualifier <;> simp

theorem boundValues_separatedBy_values (separator : String) (values : List ColumnValue) :
    boundValues (separatedBy separator (values.map fun v => [.value v])) = values := by
  induction values with
  | nil => rfl
  | cons v rest ih =>
    cases rest with
    | nil => rfl
    | cons w rest =>
      rw [List.map_cons, separatedBy, boundValues_append, boundValues_fixed_cons, ih]
      · simp
      · simp

end Fragments

namespace Predicate

/-- The values that a predicate compares its column with. -/
def values : Predicate → List ColumnValue
  | .compare _ _ v => [v]
  | .between _ low high => [low, high]
  | .member _ _ values => values
  | .like _ _ pattern => [.string pattern]
  | .null .. => []
  | .equalColumns .. => []

theorem boundValues_fragments (p : Predicate) : boundValues p.fragments = p.values := by
  cases p with
  | compare c comparison v => simp [fragments, values]
  | between c low high => simp [fragments, values]
  | member c isNegated values =>
    simp [fragments, Predicate.values, valueList, boundValues_separatedBy_values]
  | like c isLowered pattern => cases isLowered <;> simp [fragments, values]
  | null c isNegated => simp [fragments, values]
  | equalColumns left right => simp [fragments, values]

end Predicate

section Operators

variable {kind : ColumnKind} {c : Column} {vs : List Value} {q : Predicate}

theorem coerceAll_cons {position : Nat} {v : Value} {value : Option ColumnValue}
    {others : List ColumnValue} (hv : coerceFilled kind 0 v = .ok value)
    (hothers : coerceAll kind (position + 1) vs = .ok others) :
    coerceAll kind position (v :: vs) = .ok (value.toList ++ others) :=
  coerceAll_cons_eq_ok_iff.mpr ⟨value, others, hv, hothers, rfl⟩

/-- A comparison converts its operands as a list of them is converted. -/
theorem coerceAll_of_on_compare {comparison : Comparison}
    (h : (Operator.compare comparison).on kind c vs = .ok (some q)) :
    coerceAll kind 0 vs = .ok q.values := by
  match vs with
  | [] => cases h
  | [v] =>
    obtain ⟨value, hvalue, rfl⟩ := exists_of_on_compare_eq_some h
    exact coerceAll_cons hvalue rfl
  | v :: w :: rest => cases h

theorem coerceAll_of_on_between (h : Operator.between.on kind c vs = .ok (some q)) :
    coerceAll kind 0 vs = .ok q.values := by
  match vs with
  | [] => cases h
  | [v] => cases h
  | [low, high] =>
    obtain ⟨first, last, hfirst, hlast, hrange⟩ := on_between_eq_ok_iff.mp h
    rw [coerceAll_cons hfirst (coerceAll_cons hlast rfl)]
    cases first <;> cases last <;> cases hrange <;> rfl
  | v :: w :: x :: rest => cases h

theorem coerceAll_of_on_member {isNegated : Bool}
    (h : (Operator.member isNegated).on kind c vs = .ok (some q)) :
    coerceAll kind 0 (listItems vs) = .ok q.values := by
  rw [on_member] at h
  obtain ⟨values, hvalues, hq⟩ := map_eq_ok_iff.mp h
  split at hq
  · cases hq
  · cases hq
    exact hvalues

theorem coerceAll_of_on_null {isNegated : Bool}
    (h : (Operator.null isNegated).on kind c vs = .ok (some q)) :
    coerceAll kind 0 vs = .ok q.values := by
  match vs with
  | [] =>
    cases h
    rfl
  | v :: rest => cases h

/-- An operator that compares binds its operands that are not blank, each converted by itself. -/
theorem boundValues_of_predicate {p : OperatorProvider} (hpattern : p.operator.isPattern = false)
    (h : p.predicate c vs = .ok (some q)) :
    List.Forall₂ (fun v value => coerceFilled p.kind 0 v = .ok (some value))
      ((p.operator.operands vs).filter (!isBlankValue ·)) (boundValues q.fragments) := by
  rw [q.boundValues_fragments]
  have hall : coerceAll p.kind 0 (p.operator.operands vs) = .ok q.values := by
    obtain ⟨operator, kind, rootQualifier⟩ := p
    change operator.on kind c vs = .ok (some q) at h
    cases operator with
    | compare comparison => exact coerceAll_of_on_compare h
    | between => exact coerceAll_of_on_between h
    | member isNegated => exact coerceAll_of_on_member h
    | null isNegated => exact coerceAll_of_on_null h
    | like => cases hpattern
    | ilike => cases hpattern
    | startsWith => cases hpattern
    | endsWith => cases hpattern
  exact coerceAll_eq_ok_iff.mp hall

theorem isPattern_eq_false_of_predicate {p : OperatorProvider} (hkind : p.kind.isTextual = false)
    (h : p.predicate c vs = .ok (some q)) : p.operator.isPattern = false := by
  obtain ⟨operator, kind, rootQualifier⟩ := p
  change operator.on kind c vs = .ok (some q) at h
  have hrefused {operator : Operator} :
      patternPredicate operator kind c vs ≠ .ok (some q) := by
    unfold patternPredicate
    simp_all
  cases operator with
  | like => exact absurd h hrefused
  | ilike => exact absurd h hrefused
  | startsWith => exact absurd h hrefused
  | endsWith => exact absurd h hrefused
  | _ => rfl

end Operators

end Sql

namespace ColumnKind

variable {position : Nat} {v : ColumnValue} {s : String}

theorem exists_number_of_text_integer (h : integer.coerce position (.string s) = .ok v) :
    ∃ n, integer.coerce position (.number n) = .ok v := by
  rw [coerce_string_eq_ok_iff (by decide)] at h
  obtain ⟨i, hread, rfl⟩ := Option.map_eq_some_iff.mp h
  obtain ⟨-, hrange⟩ := Option.filter_eq_some_iff.mp hread
  refine ⟨.integer i, ?_⟩
  rw [coerce_number_eq_ok_iff rfl, ofNumber?, if_pos hrange]

theorem exists_bool_of_text (h : bool.coerce position (.string s) = .ok v) :
    ∃ b, bool.coerce position (.bool b) = .ok v := by
  rw [coerce_string_eq_ok_iff (by decide)] at h
  obtain ⟨b, -, rfl⟩ := Option.map_eq_some_iff.mp h
  exact ⟨b, rfl⟩

theorem exists_number_double_iff :
    (∃ n, double.coerce position (.number n) = .ok v) ↔ ∃ x, v = .double (.finite x) := by
  simp only [coerce_number_eq_ok_iff (show double.isNumeric from rfl)]
  constructor
  · rintro ⟨n, hn⟩
    cases n with
    | integer i =>
      obtain ⟨x, -, rfl⟩ := Option.map_eq_some_iff.mp hn
      exact ⟨x, rfl⟩
    | float x =>
      cases hn
      exact ⟨x, rfl⟩
  · rintro ⟨x, rfl⟩
    exact ⟨.float x, rfl⟩

theorem text_double_eq_ok_iff : double.coerce position (.string s) = .ok v ↔
    ∃ x, Extended.read? (trim s) = some x ∧ v = .double x := by
  rw [coerce_string_eq_ok_iff (by decide), ofText?, Option.map_eq_some_iff]
  exact exists_congr fun x => and_congr_right fun _ => eq_comm

theorem finite_text_double_iff (h : double.coerce position (.string s) = .ok v) :
    (∃ x, v = .double (.finite x)) ↔ ¬ Extended.WritesNonFinite (trim s) := by
  obtain ⟨x, hread, rfl⟩ := text_double_eq_ok_iff.mp h
  rw [← Extended.isFinite_iff_of_read? hread]
  simp [Extended.IsFinite]

theorem not_writesNonFinite_of_blank (h : isAllBlank s) :
    ¬ Extended.WritesNonFinite (trim s) := by
  have htrim : trim s = "" := by
    have hempty : isAllBlank "" := rfl
    have happend := trim_append h hempty ""
    rwa [String.append_empty, String.append_empty] at happend
  have hread : Extended.read? "" = none := rfl
  rw [htrim]
  intro hwrites
  obtain ⟨x, hx⟩ := Extended.exists_read?_of_writesNonFinite hwrites
  rw [hread] at hx
  cases hx

end ColumnKind

namespace Sql

variable {c : Column} {vs : List Value} {q : Predicate}

theorem finite_iff_of_coerceFilled {v : Value} {value : ColumnValue}
    (h : coerceFilled .double 0 v = .ok (some value)) :
    (∃ x, value = .double (.finite x)) ↔
      ∀ s, v = .string s → ¬ Extended.WritesNonFinite (trim s) := by
  unfold coerceFilled at h
  split at h
  · cases h
  · obtain ⟨value', hvalue, heq⟩ := map_eq_ok_iff.mp h
    cases heq
    cases v with
    | string s => simp [ColumnKind.finite_text_double_iff hvalue]
    | number n => simp [ColumnKind.exists_number_double_iff.mp ⟨n, hvalue⟩]
    | _ => cases hvalue

/-- A predicate on a floating point column binds finite doubles only, unless one of its operands is
a text that writes a value that is not finite. -/
theorem finite_boundValues_iff {p : OperatorProvider} (hkind : p.kind = .double)
    (h : p.predicate c vs = .ok (some q)) :
    (∀ v ∈ boundValues q.fragments, ∃ x, v = .double (.finite x)) ↔
      ∀ s, .string s ∈ p.operator.operands vs → ¬ Extended.WritesNonFinite (trim s) := by
  have hpattern := isPattern_eq_false_of_predicate (by rw [hkind]; rfl) h
  have hbound := boundValues_of_predicate hpattern h
  rw [hkind] at hbound
  constructor
  · intro hfinite s hs
    by_cases hblank : isAllBlank s
    · exact ColumnKind.not_writesNonFinite_of_blank hblank
    · have hfilled : .string s ∈ (p.operator.operands vs).filter (!isBlankValue ·) := by
        simp [hs, isBlankValue, hblank]
      obtain ⟨v, hv, hcoerced⟩ := exists_of_forall₂_of_mem_left hbound hfilled
      exact (finite_iff_of_coerceFilled hcoerced).mp (hfinite v hv) s rfl
  · intro hoperands v hv
    obtain ⟨w, hw, hcoerced⟩ := exists_of_forall₂_of_mem_right hbound hv
    rw [finite_iff_of_coerceFilled hcoerced]
    rintro s rfl
    exact hoperands s (List.mem_of_mem_filter hw)

/-- A text gives an integer or a truth column only what a value of its own type gives it. It gives a
floating point column a value of a number exactly if it does not write a value that is not finite,
and such texts are the only way for such a value into a predicate. -/
theorem text_values_beyond_numbers (position : Nat) (s : String) :
    (∀ v, ColumnKind.integer.coerce position (.string s) = .ok v →
      ∃ n, ColumnKind.integer.coerce position (.number n) = .ok v) ∧
    (∀ v, ColumnKind.bool.coerce position (.string s) = .ok v →
      ∃ b, ColumnKind.bool.coerce position (.bool b) = .ok v) ∧
    (∀ v, ColumnKind.double.coerce position (.string s) = .ok v →
      ((∃ n, ColumnKind.double.coerce position (.number n) = .ok v) ↔
        ¬ Extended.WritesNonFinite (trim s)) ∧
      ((∃ x, v = .double (.finite x)) ↔ ¬ Extended.WritesNonFinite (trim s))) ∧
    (Extended.WritesNonFinite (trim s) →
      ∃ v, ColumnKind.double.coerce position (.string s) = .ok v) ∧
    ∀ (p : OperatorProvider) c vs q, p.kind = .double → p.predicate c vs = .ok (some q) →
      ((∀ v ∈ boundValues q.fragments, ∃ x, v = .double (.finite x)) ↔
        ∀ t, .string t ∈ p.operator.operands vs → ¬ Extended.WritesNonFinite (trim t)) := by
  refine ⟨?_, ?_, ?_, ?_, ?_⟩
  · intro v hv
    exact ColumnKind.exists_number_of_text_integer hv
  · intro v hv
    exact ColumnKind.exists_bool_of_text hv
  · intro v hv
    rw [ColumnKind.exists_number_double_iff]
    exact ⟨ColumnKind.finite_text_double_iff hv, ColumnKind.finite_text_double_iff hv⟩
  · intro hwrites
    obtain ⟨x, hread⟩ := Extended.exists_read?_of_writesNonFinite hwrites
    exact ⟨.double x, ColumnKind.text_double_eq_ok_iff.mpr ⟨x, hread, rfl⟩⟩
  · intro p c vs q hkind h
    exact finite_boundValues_iff hkind h

/-- The name of the value that is no number is accepted, and bound by a comparison. -/
theorem nan_text_is_not_finite :
    ColumnKind.double.coerce 0 (.string "nan") = .ok (.double .notANumber) ∧
      (∀ n, ColumnKind.double.coerce 0 (.number n) ≠ .ok (.double .notANumber)) ∧
      OperatorProvider.predicate ⟨.compare .eq, .double, none⟩ ⟨none, "balance"⟩ [.string "nan"] =
        .ok (some (.compare ⟨none, "balance"⟩ .eq (.double .notANumber))) := by
  refine ⟨by decide, ?_, by decide⟩
  intro n hn
  obtain ⟨x, hx⟩ := ColumnKind.exists_number_double_iff.mp ⟨n, hn⟩
  cases hx

end Sql
end QueryCriteria
