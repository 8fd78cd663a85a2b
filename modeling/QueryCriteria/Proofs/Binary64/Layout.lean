import Mathlib.Data.Nat.Digits.Defs
import Mathlib.Tactic.Ring
import QueryCriteria.Binary64.Layout
import QueryCriteria.Proofs.Text.Numeral

/-!
# The texts of doubles

The shortest decimal of a double has at most seventeen digits, or is the power of ten behind the
greatest of these. So a JSON number without an exponent is short: it has a point and at most
twenty-four characters beside its sign. Every other double has an exponent mark in its text.
-/
namespace QueryCriteria.Binary64

open Text

theorem lt_pow_digitCount (n : Nat) : n < 10 ^ digitCount n :=
  (Nat.length_toDigits_le_iff (by decide) Nat.length_toDigits_pos).mp (Nat.le_refl _)

theorem unitsPerOne_pos : 0 < unitsPerOne := by
  unfold unitsPerOne
  generalize 1074 = places
  exact Nat.two_pow_pos places

/-- A magnitude is below the power of ten with as many zeros as it has digits on a grid, and so is
its part on any coarser or finer grid. -/
theorem div_lt_pow_of_exponents {units one scale count left right : Nat} (hone : 0 < one)
    (hexp : digitCount (units * Nat.pow 10 scale / one) + left = scale + count + right) :
    units * Nat.pow 10 left / (one * Nat.pow 10 right) < 10 ^ count := by
  have hplaces := lt_pow_digitCount (units * Nat.pow 10 scale / one)
  generalize digitCount (units * Nat.pow 10 scale / one) = places at hexp hplaces
  rw [Nat.div_lt_iff_lt_mul hone, Nat.pow_eq] at hplaces
  rw [Nat.pow_eq, Nat.pow_eq,
    Nat.div_lt_iff_lt_mul (Nat.mul_pos hone (Nat.pow_pos (by decide)))]
  have hscaled : units * 10 ^ left * 10 ^ scale < 10 ^ count * (one * 10 ^ right) * 10 ^ scale := by
    calc units * 10 ^ left * 10 ^ scale = units * 10 ^ scale * 10 ^ left := by ring
      _ < 10 ^ places * one * 10 ^ left :=
        Nat.mul_lt_mul_of_pos_right hplaces (Nat.pow_pos (by decide))
      _ = one * 10 ^ (places + left) := by rw [pow_add]; ring
      _ = 10 ^ count * (one * 10 ^ right) * 10 ^ scale := by rw [hexp, pow_add, pow_add]; ring
  exact Nat.lt_of_mul_lt_mul_right hscaled

theorem floorOnGrid_lt (x : Binary64) (count : Nat) :
    x.floorOnGrid (x.leadingExponent + 1 - count) < 10 ^ count := by
  -- The scale is named, since the power of ten is not to be computed.
  obtain ⟨scale, hscale, hleading⟩ : ∃ scale, scale = 324 ∧
      x.leadingExponent + 325 = digitCount (x.units * Nat.pow 10 scale / unitsPerOne) := by
    refine ⟨324, rfl, ?_⟩
    unfold leadingExponent
    omega
  unfold floorOnGrid gridScale
  apply div_lt_pow_of_exponents unitsPerOne_pos
  show digitCount (x.units * Nat.pow 10 scale / unitsPerOne) + _ = scale + _ + _
  omega

theorem pow_le_of_digitCount {n : Nat} (hn : n ≠ 0) : 10 ^ (digitCount n - 1) ≤ n := by
  by_cases hone : digitCount n ≤ 1
  · rw [Nat.sub_eq_zero_of_le hone]
    exact Nat.one_le_iff_ne_zero.mpr hn
  · have hmany : 0 < digitCount n - 1 := by omega
    by_contra hlt
    have hlength : digitCount n ≤ digitCount n - 1 :=
      (Nat.length_toDigits_le_iff (by decide) hmany).mpr (Nat.not_le.mp hlt)
    omega

/-- A magnitude reaches the power of ten that begins its digits, on every grid that has them. -/
theorem div_pos_of_exponents {units one scale count left right : Nat} (hone : 0 < one)
    (hpos : 0 < units * Nat.pow 10 scale / one)
    (hexp : digitCount (units * Nat.pow 10 scale / one) + left = scale + (count + 1) + right) :
    0 < units * Nat.pow 10 left / (one * Nat.pow 10 right) := by
  obtain ⟨places, hplaces⟩ : ∃ places,
      digitCount (units * Nat.pow 10 scale / one) = places + 1 :=
    Nat.exists_eq_succ_of_ne_zero (Nat.ne_of_gt Nat.length_toDigits_pos)
  have hle := pow_le_of_digitCount (Nat.ne_of_gt hpos)
  rw [hplaces, Nat.add_sub_cancel] at hle
  rw [hplaces] at hexp
  rw [Nat.le_div_iff_mul_le hone, Nat.pow_eq] at hle
  rw [Nat.pow_eq, Nat.pow_eq, Nat.div_pos_iff]
  refine ⟨Nat.mul_pos hone (Nat.pow_pos (by decide)), ?_⟩
  have hscaled : one * 10 ^ right * 10 ^ scale ≤ units * 10 ^ left * 10 ^ scale := by
    calc one * 10 ^ right * 10 ^ scale = one * 10 ^ (scale + right) := by rw [pow_add]; ring
      _ ≤ one * 10 ^ (places + left) :=
        Nat.mul_le_mul_left _ (Nat.pow_le_pow_right (by decide) (by omega))
      _ = 10 ^ places * one * 10 ^ left := by rw [pow_add]; ring
      _ ≤ units * 10 ^ scale * 10 ^ left := Nat.mul_le_mul_right _ hle
      _ = units * 10 ^ left * 10 ^ scale := by ring
  exact Nat.le_of_mul_le_mul_right hscaled (Nat.pow_pos (by decide))

theorem units_pos {x : Binary64} (h : x.isZero = false) : 0 < x.units := by
  have hne : x.significand ≠ 0 := by simpa [isZero] using h
  exact Nat.mul_pos (Nat.pos_of_ne_zero hne) (Nat.pow_pos (by decide))

theorem unitsPerOne_le : unitsPerOne ≤ Nat.pow 10 324 := by decide +kernel

/-- On no grid does a double that is not zero fall below the first number. -/
theorem floorOnGrid_pos {x : Binary64} (h : x.isZero = false) (count : Nat) :
    0 < x.floorOnGrid (x.leadingExponent + 1 - (count + 1 : Nat)) := by
  obtain ⟨scale, hscale, hsmallest, hleading⟩ : ∃ scale, scale = 324 ∧
      unitsPerOne ≤ Nat.pow 10 scale ∧
      x.leadingExponent + 325 = digitCount (x.units * Nat.pow 10 scale / unitsPerOne) := by
    refine ⟨324, rfl, unitsPerOne_le, ?_⟩
    unfold leadingExponent
    omega
  have hpos : 0 < x.units * Nat.pow 10 scale / unitsPerOne := by
    refine Nat.div_pos ?_ unitsPerOne_pos
    exact hsmallest.trans (Nat.le_mul_of_pos_left _ (units_pos h))
  unfold floorOnGrid gridScale
  refine @div_pos_of_exponents _ _ scale count _ _ unitsPerOne_pos hpos ?_
  show digitCount (x.units * Nat.pow 10 scale / unitsPerOne) + _ = scale + _ + _
  omega

theorem nearerOnGrid_cases (x : Binary64) (n : Nat) (k : Int) :
    x.nearerOnGrid n k = n ∨ x.nearerOnGrid n k = n + 1 := by
  unfold nearerOnGrid
  dsimp only
  split
  · exact .inl rfl
  · split
    · exact .inr rfl
    · split
      · exact .inl rfl
      · exact .inr rfl

theorem onGrid?_digits_cases {x : Binary64} {count : Nat} {d : Decimal}
    (h : x.onGrid? count = some d) :
    d.digits = x.floorOnGrid (x.leadingExponent + 1 - count) ∨
      d.digits = x.floorOnGrid (x.leadingExponent + 1 - count) + 1 := by
  unfold onGrid? at h
  dsimp only at h
  split at h
  · cases h
    exact x.nearerOnGrid_cases _ _
  · cases h
    exact .inl rfl
  · cases h
    exact .inr rfl
  · cases h

theorem onGrid?_digits_le {x : Binary64} {count : Nat} {d : Decimal}
    (h : x.onGrid? count = some d) : d.digits ≤ 10 ^ count := by
  have hlt := x.floorOnGrid_lt count
  rcases onGrid?_digits_cases h with h | h <;> omega

theorem onGrid?_digits_ne_zero {x : Binary64} {count : Nat} {d : Decimal}
    (hx : x.isZero = false) (h : x.onGrid? (count + 1) = some d) : d.digits ≠ 0 := by
  have hpos := floorOnGrid_pos hx count
  rcases onGrid?_digits_cases h with h | h <;> omega

theorem Decimal.trimZeros_digits_le (fuel : Nat) (d : Decimal) :
    (Decimal.trimZeros fuel d).digits ≤ d.digits := by
  induction fuel generalizing d with
  | zero => exact Nat.le_refl _
  | succ fuel ih =>
    rw [Decimal.trimZeros]
    split
    · apply (ih _).trans
      exact Nat.div_le_self _ _
    · exact Nat.le_refl _

theorem shortest_digits_le (x : Binary64) : x.shortest.digits ≤ 10 ^ 17 := by
  unfold shortest
  split
  · exact Nat.zero_le _
  · apply (Decimal.trimZeros_digits_le _ _).trans
    cases hfound : (List.range 17).findSome? fun i => x.onGrid? (i + 1) with
    | none =>
      have hlt := x.floorOnGrid_lt 17
      have hk : x.leadingExponent + 1 - (17 : Nat) = x.leadingExponent - 16 := by omega
      rw [hk] at hlt
      exact hlt.le
    | some d =>
      obtain ⟨i, hi, hgrid⟩ := List.exists_of_findSome?_eq_some hfound
      apply (onGrid?_digits_le hgrid).trans
      apply Nat.pow_le_pow_right (by decide)
      have hlt := List.mem_range.mp hi
      omega

theorem Decimal.trimZeros_digits_ne_zero (fuel : Nat) {d : Decimal} (h : d.digits ≠ 0) :
    (Decimal.trimZeros fuel d).digits ≠ 0 := by
  induction fuel generalizing d with
  | zero => exact h
  | succ fuel ih =>
    rw [Decimal.trimZeros]
    split
    · apply ih
      dsimp only
      omega
    · exact h

/-- The decimal of a double is zero only if the double is. -/
theorem shortest_digits_ne_zero {x : Binary64} (h : x.isZero = false) : x.shortest.digits ≠ 0 := by
  unfold shortest
  rw [h]
  apply Decimal.trimZeros_digits_ne_zero
  cases hfound : (List.range 17).findSome? fun i => x.onGrid? (i + 1) with
  | none =>
    have hpos := floorOnGrid_pos h 16
    have hk : x.leadingExponent + 1 - (16 + 1 : Nat) = x.leadingExponent - 16 := by omega
    rw [hk] at hpos
    exact hpos.ne'
  | some d =>
    obtain ⟨i, -, hgrid⟩ := List.exists_of_findSome?_eq_some hfound
    exact onGrid?_digits_ne_zero h hgrid

theorem length_toDigits_shortest_le (x : Binary64) :
    (Nat.toDigits 10 x.shortest.digits).length ≤ 18 := by
  apply Nat.toDigits_length 10 _ 18 (by decide)
  apply Nat.lt_of_le_of_lt x.shortest_digits_le
  decide

section Json

variable {digits : List Char} {exponent : Int}

theorem point_mem_plainText_json : '.' ∈ plainText .json digits exponent := by
  unfold plainText
  split
  · simp [Layout.json]
  · dsimp only
    split <;> simp

theorem length_plainText_json_le (hlen : digits.length ≤ 18)
    (hplain : Layout.json.plain (exponent + digits.length - 1)) :
    (plainText .json digits exponent).length ≤ 24 := by
  simp only [Layout.json, Bool.and_eq_true, decide_eq_true_eq] at hplain
  unfold plainText
  split
  · simp only [Layout.json, if_true, List.length_append, List.length_replicate, List.length_cons,
      List.length_nil]
    omega
  · dsimp only
    split
    · simp only [List.length_append, List.length_take, List.length_drop, List.length_cons,
        List.length_nil]
      omega
    · simp only [List.length_append, List.length_replicate, List.length_cons, List.length_nil]
      omega

theorem exponentMark_mem_scientificText {leading : Int} : 'e' ∈ scientificText digits leading := by
  simp [scientificText]

end Json

/-- A JSON number that is no integer has a point and is short, or has an exponent mark. -/
theorem shortest_text_json_cases (x : Binary64) :
    ('.' ∈ x.shortest.text .json ∧ (x.shortest.text .json).length ≤ 24) ∨
      'e' ∈ x.shortest.text .json := by
  unfold Decimal.text
  dsimp only
  split
  · rename_i hplain
    exact .inl ⟨point_mem_plainText_json,
      length_plainText_json_le x.length_toDigits_shortest_le hplain⟩
  · exact .inr exponentMark_mem_scientificText

theorem mem_plainText {layout : Layout} {digits : List Char} {exponent : Int} {c : Char}
    (h : c ∈ plainText layout digits exponent) : c ∈ digits ∨ c = '.' ∨ c = '0' := by
  unfold plainText at h
  split at h
  · rw [List.mem_append, List.mem_append, List.mem_replicate] at h
    rcases h with (h | ⟨-, rfl⟩) | h
    · exact .inl h
    · exact .inr (.inr rfl)
    · split at h
      · exact .inr (by simpa using h)
      · cases h
  · dsimp only at h
    split at h
    · rw [List.mem_append, List.mem_append, List.mem_singleton] at h
      rcases h with (h | h) | h
      · exact .inl (List.mem_of_mem_take h)
      · exact .inr (.inl h)
      · exact .inl (List.mem_of_mem_drop h)
    · rw [List.mem_append, List.mem_append, List.mem_replicate, List.mem_cons,
        List.mem_singleton] at h
      rcases h with (h | ⟨-, rfl⟩) | h
      · exact .inr h.symm
      · exact .inr (.inr rfl)
      · exact .inl h

theorem mem_scientificText {digits : List Char} {leading : Int} {c : Char}
    (h : c ∈ scientificText digits leading) :
    c ∈ digits ∨ c ∈ Nat.toDigits 10 leading.natAbs ∨ c ∈ ['-', '+', '.', 'e'] := by
  unfold scientificText at h
  dsimp only at h
  rw [List.mem_append, List.mem_append, List.mem_append, List.mem_cons,
    List.mem_singleton] at h
  rcases h with ((h | h) | rfl | rfl) | h
  · exact .inl (List.mem_of_mem_take h)
  · split at h
    · cases h
    · rcases List.mem_cons.mp h with rfl | h
      · exact .inr (.inr (by decide))
      · exact .inl (List.mem_of_mem_drop h)
  · exact .inr (.inr (by decide))
  · right
    right
    split <;> decide
  · exact .inr (.inl h)

theorem Decimal.isNumberChar_of_mem_text {layout : Layout} {d : Decimal} {c : Char}
    (h : c ∈ d.text layout) : IsNumberChar c := by
  unfold Decimal.text at h
  dsimp only at h
  split at h
  · rcases mem_plainText h with h | rfl | rfl
    · exact isNumberChar_of_mem_toDigits h
    · exact .inr (by decide)
    · exact .inl rfl
  · rcases mem_scientificText h with h | h | h
    · exact isNumberChar_of_mem_toDigits h
    · exact isNumberChar_of_mem_toDigits h
    · exact .inr h

theorem isNumberChar_of_mem_text {layout : Layout} {x : Binary64} {c : Char}
    (h : c ∈ (x.text layout).toList) : IsNumberChar c := by
  rw [text, String.toList_ofList, List.mem_append] at h
  rcases h with h | h
  · right
    split at h <;> simp_all
  · exact Decimal.isNumberChar_of_mem_text h

end QueryCriteria.Binary64
