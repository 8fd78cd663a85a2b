import Mathlib.Algebra.Group.Nat.Defs
import Mathlib.Data.List.TakeWhile
import QueryCriteria.Column.FixedPoint
import QueryCriteria.Proofs.Text.Numeral

/-!
# Reading decimals with and without rounding

A text is read with rounding, and the text of a number without it, with an exponent only as the
second choice. The two ways agree on every text that has an exponent mark, and on every other text
whose digits need no rounding: it is short enough, or it has no point.
-/
namespace QueryCriteria.FixedPoint

open Text

variable {pastPoint pastDigit : Bool} {digits scale : Nat} {cs : List Char}

theorem pow_maxScale_lt_bound : 10 ^ maxScale < bound := by decide

/-- Characters that are no more than the places of a decimal need no rounding. -/
theorem readRest?_rounds_of_length {places : Nat} (hscale : scale ≤ places)
    (hdigits : digits < 10 ^ places) (hlen : places + cs.length ≤ maxScale) :
    readRest? true pastPoint pastDigit digits scale cs =
      readRest? false pastPoint pastDigit digits scale cs := by
  induction cs generalizing pastPoint pastDigit digits scale places with
  | nil => rfl
  | cons c rest ih =>
    rw [List.length_cons] at hlen
    -- Rounding starts when there is no place left, which so few characters do not reach.
    have hroom : ¬ (pastPoint && decide (maxScale ≤ scale)) = true := by
      simp only [Bool.and_eq_true, decide_eq_true_eq, not_and]
      omega
    rw [readRest?, readRest?, if_neg hroom, if_neg hroom]
    by_cases hc : c.isDigit
    · have hnext : 10 * digits + digitValue c < 10 ^ (places + 1) := by
        have hvalue := digitValue_lt hc
        rw [Nat.pow_succ]
        omega
      have hbound : 10 * digits + digitValue c < bound := by
        have hpow : 10 ^ (places + 1) ≤ 10 ^ maxScale :=
          Nat.pow_le_pow_right (by decide) (by omega)
        have hlimit := pow_maxScale_lt_bound
        omega
      rw [if_pos hc, if_pos hc]
      dsimp only
      rw [if_pos hbound, if_pos hbound]
      apply ih _ hnext (by omega)
      split <;> omega
    · rw [if_neg hc, if_neg hc]
      split
      · exact ih hscale hdigits (by omega)
      · split
        · exact ih hscale hdigits (by omega)
        · rfl

theorem readRest?_rounds_of_digits (h : cs.all Char.isDigit) :
    readRest? true false pastDigit digits scale cs =
      readRest? false false pastDigit digits scale cs := by
  induction cs generalizing pastDigit digits with
  | nil => rfl
  | cons c rest ih =>
    rw [List.all_cons, Bool.and_eq_true] at h
    rw [readRest?, readRest?]
    simp only [Bool.false_and, Bool.false_eq_true, if_false, if_pos h.1]
    split
    · exact ih h.2
    · rfl

/-- Without rounding a numeral has no characters but digits, points and underscores. -/
theorem all_of_readRest?_exact {r : Nat × Nat}
    (h : readRest? false pastPoint pastDigit digits scale cs = some r) :
    cs.all fun c => c.isDigit || c = '.' || c = '_' := by
  induction cs generalizing pastPoint pastDigit digits scale with
  | nil => rfl
  | cons c rest ih =>
    rw [readRest?] at h
    rw [List.all_cons, Bool.and_eq_true]
    split at h
    · cases h
    · split at h
      · rename_i hc
        dsimp only at h
        split at h
        · exact ⟨by simp [hc], ih h⟩
        · simp at h
      · split at h
        · rename_i hc
          exact ⟨by simp_all, ih h⟩
        · split at h
          · rename_i hc
            exact ⟨by simp_all, ih h⟩
          · cases h

theorem splitSign_of_digits (h : cs.all Char.isDigit) : splitSign cs = (false, cs) := by
  unfold splitSign
  split
  · exact absurd h (by simp)
  · exact absurd h (by simp)
  · rfl

theorem length_splitSign_le (cs : List Char) : (splitSign cs).2.length ≤ cs.length := by
  unfold splitSign
  split <;> simp

theorem mem_splitSign {c : Char} (hc : c ∈ cs) (hminus : c ≠ '-') (hplus : c ≠ '+') :
    c ∈ (splitSign cs).2 := by
  unfold splitSign
  split
  · simpa [hminus] using hc
  · simpa [hplus] using hc
  · exact hc

theorem readPlain?_rounds_of_length (h : cs.length ≤ maxScale) :
    readPlain? true cs = readPlain? false cs := by
  have hlen := length_splitSign_le cs
  unfold readPlain?
  dsimp only
  rw [readRest?_rounds_of_length (Nat.zero_le 0) Nat.one_pos (by omega)]

theorem readPlain?_rounds_of_digits (h : (splitSign cs).2.all Char.isDigit) :
    readPlain? true cs = readPlain? false cs := by
  unfold readPlain?
  dsimp only
  rw [readRest?_rounds_of_digits h]

theorem readPlain?_exact_of_mark (h : cs.any isExponentMark) : readPlain? false cs = none := by
  obtain ⟨c, hc, hmark⟩ := List.any_eq_true.mp h
  have hmark : c = 'e' ∨ c = 'E' := by simpa [isExponentMark] using hmark
  have hmem : c ∈ (splitSign cs).2 := by
    apply mem_splitSign hc <;> rcases hmark with rfl | rfl <;> decide
  unfold readPlain?
  dsimp only
  cases hread : readRest? false false false 0 0 (splitSign cs).2 with
  | none => rfl
  | some r =>
    have hall := List.all_eq_true.mp (all_of_readRest?_exact hread) c hmem
    rcases hmark with rfl | rfl <;> exact absurd hall (by decide)

theorem readScientific?_of_no_mark (h : cs.any isExponentMark = false) :
    readScientific? cs = none := by
  have hbase : cs.dropWhile (fun c => !isExponentMark c) = [] := by
    rw [List.dropWhile_eq_nil_iff]
    simpa using h
  unfold readScientific?
  dsimp only
  rw [hbase]

/-- Both ways to read a decimal agree on a text that has an exponent or needs no rounding. -/
theorem readNumber?_eq_read? {s : String}
    (h : s.toList.any isExponentMark ∨ readPlain? true s.toList = readPlain? false s.toList) :
    readNumber? s = read? s := by
  unfold readNumber? read?
  cases hmark : s.toList.any isExponentMark with
  | true => rw [readPlain?_exact_of_mark hmark, Option.none_or, if_pos rfl]
  | false =>
    have hplain := h.resolve_left (by simp [hmark])
    rw [readScientific?_of_no_mark hmark, Option.or_none, ← hplain]
    rfl

end QueryCriteria.FixedPoint
