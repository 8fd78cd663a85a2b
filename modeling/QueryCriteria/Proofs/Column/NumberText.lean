import QueryCriteria.Column.Value
import QueryCriteria.Proofs.Binary64.Layout
import QueryCriteria.Proofs.Column.FixedPoint
import QueryCriteria.Proofs.Text.Blank

/-!
# Numbers and their texts

Forms send numbers as texts. An integer column and a decimal column take the text of a number, with
blanks around it, for the number itself: what one of the two is converted to, so is the other, and
where one is refused, the other is. An integer column takes exactly the integers of 64 bits.
-/
namespace QueryCriteria

open Text

namespace Text

theorem isBlank_of_isNumberChar {c : Char} (h : IsNumberChar c) : isBlank c = false := by
  rcases h with h | h
  · have hchars : ∀ v < 10, isBlank (Nat.digitChar v) = false := by decide
    rw [← digitChar_digitValue h]
    exact hchars _ (digitValue_lt h)
  · simp only [List.mem_cons, List.not_mem_nil, or_false] at h
    rcases h with rfl | rfl | rfl | rfl <;> rfl

end Text

namespace Json.Number

theorem isNumberChar_of_mem_text {n : Number} {c : Char} (h : c ∈ n.text.toList) :
    IsNumberChar c := by
  cases n with
  | integer i =>
    rw [text, toList_signedDecimal, List.mem_append] at h
    rcases h with h | h
    · right
      split at h <;> simp_all
    · exact isNumberChar_of_mem_toDigits h
  | float x => exact Binary64.isNumberChar_of_mem_text h

theorem trim_text {before after : String} (hbefore : isAllBlank before) (hafter : isAllBlank after)
    (n : Number) : trim (before ++ n.text ++ after) = n.text := by
  rw [trim_append hbefore hafter, trim_eq_self_iff]
  apply hasOuterBlank_eq_false
  intro c hc
  exact isBlank_of_isNumberChar (isNumberChar_of_mem_text hc)

/-- The text of a double is short and has a point, or has an exponent mark. -/
theorem float_text_cases (x : Binary64) :
    ('.' ∈ (text (.float x)).toList ∧ (text (.float x)).toList.length ≤ 25) ∨
      'e' ∈ (text (.float x)).toList := by
  have hsign : (if x.negative then ['-'] else []).length ≤ 1 := by split <;> simp
  rw [text, Binary64.text, String.toList_ofList, List.mem_append, List.mem_append,
    List.length_append]
  rcases x.shortest_text_json_cases with ⟨hpoint, hlen⟩ | hmark
  · exact .inl ⟨.inr hpoint, by omega⟩
  · exact .inr (.inr hmark)

theorem readInt?_float_text (x : Binary64) : readInt? (text (.float x)).toList = none := by
  cases hread : readInt? (text (.float x)).toList with
  | none => rfl
  | some i =>
    have hall := List.all_eq_true.mp (all_of_readInt? hread)
    rcases float_text_cases x with ⟨hpoint, -⟩ | hmark
    · exact absurd (hall _ hpoint) (by decide)
    · exact absurd (hall _ hmark) (by decide)

theorem readNumber?_text (n : Number) : FixedPoint.readNumber? n.text = FixedPoint.read? n.text := by
  apply FixedPoint.readNumber?_eq_read?
  cases n with
  | integer i =>
    right
    apply FixedPoint.readPlain?_rounds_of_digits
    rw [text, toList_signedDecimal]
    split
    · exact all_isDigit_toDigits _
    · rw [List.nil_append, FixedPoint.splitSign_of_digits (all_isDigit_toDigits _)]
      exact all_isDigit_toDigits _
  | float x =>
    rcases float_text_cases x with ⟨-, hlen⟩ | hmark
    · right
      apply FixedPoint.readPlain?_rounds_of_length
      exact hlen.trans (by decide)
    · exact .inl (List.any_eq_true.mpr ⟨'e', hmark, rfl⟩)

end Json.Number

namespace ColumnKind

open Json

theorem isInt64_iff {i : Int} : isInt64 i ↔ -2 ^ 63 ≤ i ∧ i ≤ 2 ^ 63 - 1 := by
  have hmin : Int64.minValue.toInt = -2 ^ 63 := rfl
  have hmax : Int64.maxValue.toInt = 2 ^ 63 - 1 := rfl
  rw [isInt64, Bool.and_eq_true, decide_eq_true_eq, decide_eq_true_eq, hmin, hmax]

variable {kind : ColumnKind} {position : Nat} {v : ColumnValue}

/-- What a text writes in an integer or a decimal column is what its number is there. -/
theorem ofText?_text (h : kind = .integer ∨ kind = .decimal) (n : Number) :
    kind.ofText? n.text = kind.ofNumber? n := by
  rcases h with rfl | rfl
  · cases n with
    | integer i =>
      simp only [ofText?, ofNumber?, Number.text, readInt?_signedDecimal, Option.filter_some]
      split <;> rfl
    | float x =>
      simp only [ofText?, ofNumber?, Number.readInt?_float_text, Option.filter_none,
        Option.map_none]
  · simp only [ofText?, ofNumber?, Number.readNumber?_text]

theorem coerce_string_eq_ok_iff {s : String} (h : kind ≠ .string) :
    kind.coerce position (.string s) = .ok v ↔ kind.ofText? (trim s) = some v := by
  unfold coerce
  dsimp only
  rw [if_neg h]
  cases kind.ofText? (trim s) <;> simp

theorem coerce_number_eq_ok_iff {n : Number} (h : kind.isNumeric) :
    kind.coerce position (.number n) = .ok v ↔ kind.ofNumber? n = some v := by
  unfold coerce
  dsimp only
  rw [if_pos h]
  cases kind.ofNumber? n <;> simp

/-- An integer column and a decimal column convert a number exactly where they convert its text, with
any blanks around it, and to the same value. In an integer column these are the integers of 64
bits. -/
theorem number_and_text_agree (n : Number) (position : Nat) {before after : String}
    (hbefore : isAllBlank before) (hafter : isAllBlank after) :
    (∀ kind ∈ [integer, decimal], ∀ v,
        kind.coerce position (.string (before ++ n.text ++ after)) = .ok v ↔
          kind.coerce position (.number n) = .ok v) ∧
      ∀ v, integer.coerce position (.number n) = .ok v ↔
        ∃ i : Int, n = .integer i ∧ -2 ^ 63 ≤ i ∧ i ≤ 2 ^ 63 - 1 ∧ v = .integer i := by
  constructor
  · intro kind hmem v
    have hkind : kind = .integer ∨ kind = .decimal := by simpa using hmem
    have hstring : kind ≠ .string := by rcases hkind with rfl | rfl <;> decide
    have hnumeric : kind.isNumeric := by rcases hkind with rfl | rfl <;> rfl
    rw [coerce_string_eq_ok_iff hstring, coerce_number_eq_ok_iff hnumeric,
      Number.trim_text hbefore hafter, ofText?_text hkind]
  · intro v
    rw [coerce_number_eq_ok_iff rfl]
    cases n with
    | integer i =>
      simp only [ofNumber?, isInt64_iff, Number.integer.injEq]
      constructor
      · intro h
        split at h
        · rename_i hrange
          cases h
          exact ⟨i, rfl, hrange.1, hrange.2, rfl⟩
        · cases h
      · intro h
        obtain ⟨j, rfl, hmin, hmax, rfl⟩ := h
        rw [if_pos ⟨hmin, hmax⟩]
    | float x => simp [ofNumber?]

/-- A number that a form sends with blanks around it. -/
theorem padded_text_eq_integer :
    isAllBlank " " ∧ isAllBlank "\t" ∧
      integer.coerce 0 (.string (" " ++ Number.text (.integer 18) ++ "\t")) = .ok (.integer 18) := by
  have hbefore : isAllBlank " " := by decide
  have hafter : isAllBlank "\t" := by decide
  have hagree := number_and_text_agree (.integer 18) 0 hbefore hafter
  refine ⟨hbefore, hafter, ?_⟩
  rw [hagree.1 integer (by decide), hagree.2]
  exact ⟨18, rfl, by decide, by decide, rfl⟩

end ColumnKind
end QueryCriteria
