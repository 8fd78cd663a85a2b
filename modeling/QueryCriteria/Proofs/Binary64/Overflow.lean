import Mathlib.Tactic.Ring
import QueryCriteria.Binary64.Rounding
import QueryCriteria.Proofs.Binary64.Layout

/-!
# Overflow

Rounding has no answer for a magnitude that is too large. These are the magnitudes from the middle
between the greatest double and the power of two above it on: the middle itself goes to the even
significand, which is that of the power of two. Whether a decimal is too large is decided before it
is rounded where its digits alone tell, and this changes nothing.
-/
namespace QueryCriteria.Binary64

section RoundHalfEven

variable {num den bound : Nat}

/-- Rounding reaches an even number from the middle below it on. -/
theorem le_roundHalfEven_iff (hden : 0 < den) (heven : bound % 2 = 0) :
    bound ≤ roundHalfEven num den ↔ 2 * (bound * den) ≤ 2 * num + den := by
  have hnum := Nat.div_add_mod' num den
  have hrest := Nat.mod_lt num hden
  unfold roundHalfEven
  dsimp only
  generalize num / den = whole at hnum
  generalize num % den = rest at hnum hrest
  rcases Nat.lt_trichotomy bound (whole + 1) with hbelow | hnext | habove
  · have hscaled : bound * den ≤ whole * den := Nat.mul_le_mul_right den (Nat.le_of_lt_succ hbelow)
    split
    · omega
    · split
      · omega
      · split <;> omega
  · have hscaled : bound * den = whole * den + den := by rw [hnext, Nat.succ_mul]
    split
    · omega
    · split
      · omega
      · split <;> omega
  · have hscaled : (whole + 2) * den ≤ bound * den := Nat.mul_le_mul_right den habove
    rw [Nat.add_mul] at hscaled
    split
    · omega
    · split
      · omega
      · split <;> omega

theorem le_roundHalfEven (hden : 0 < den) (h : bound * den ≤ num) :
    bound ≤ roundHalfEven num den := by
  have hwhole : bound ≤ num / den := (Nat.le_div_iff_mul_le hden).mpr h
  unfold roundHalfEven
  dsimp only
  split
  · exact hwhole
  · split
    · omega
    · split <;> omega

theorem roundHalfEven_le (hden : 0 < den) (h : num ≤ bound * den) :
    roundHalfEven num den ≤ bound := by
  have hnum := Nat.div_add_mod' num den
  have hwhole : num / den ≤ bound := Nat.div_le_of_le_mul (by rwa [Nat.mul_comm])
  unfold roundHalfEven
  dsimp only
  generalize num / den = whole at hnum hwhole
  generalize num % den = rest at hnum
  -- A rest is only left below the bound.
  have hlt : 0 < rest → whole + 1 ≤ bound := by
    intro hrest
    have hscaled : whole * den < bound * den := by omega
    exact Nat.lt_of_mul_lt_mul_right hscaled
  split
  · exact hwhole
  · split
    · exact hlt (by omega)
    · split
      · exact hwhole
      · exact hlt (by omega)

end RoundHalfEven

theorem ofParts?_eq_none_iff {negative : Bool} {significand exponent : Nat} :
    ofParts? negative significand exponent = none ↔
      ¬ (significand < Nat.pow 2 53 ∧ exponent ≤ 2045 ∧
        (exponent = 0 ∨ Nat.pow 2 52 ≤ significand)) := by
  unfold ofParts?
  split
  · rename_i h
    simp [h]
  · rename_i h
    simp [h]

/-- The exponent of a magnitude in units, where its significand has 53 bits. -/
def unitExponent (num den : Nat) : Nat := (num / den).log2 + 1 - 53

section Units

variable {num den : Nat} {negative : Bool}

theorem lt_of_unitExponent (hden : 0 < den) : num < 2 ^ (53 + unitExponent num den) * den := by
  have hbits : num / den < 2 ^ ((num / den).log2 + 1) := Nat.lt_log2_self
  have hpow : 2 ^ ((num / den).log2 + 1) ≤ 2 ^ (53 + unitExponent num den) := by
    apply Nat.pow_le_pow_right (by decide)
    unfold unitExponent
    omega
  exact (Nat.div_lt_iff_lt_mul hden).mp (hbits.trans_le hpow)

theorem le_of_unitExponent (hden : 0 < den) (h : 0 < unitExponent num den) :
    2 ^ (52 + unitExponent num den) * den ≤ num := by
  have hlog : 52 + unitExponent num den = (num / den).log2 := by
    unfold unitExponent at h ⊢
    omega
  have hne : num / den ≠ 0 := by
    intro hzero
    rw [unitExponent, hzero] at h
    exact absurd h (by decide)
  rw [hlog]
  exact (Nat.le_div_iff_mul_le hden).mp (Nat.log2_self_le hne)

/-- A magnitude has no finite double where its exponent is too large, or where it is the greatest
exponent and rounding carries over. -/
theorem ofUnits_eq_none_iff_exponent (hden : 0 < den) :
    ofUnits negative num den = none ↔ 2046 ≤ unitExponent num den ∨
      unitExponent num den = 2045 ∧
        2 ^ 53 ≤ roundHalfEven num (den * 2 ^ unitExponent num den) := by
  have hscaled : 0 < den * 2 ^ unitExponent num den := Nat.mul_pos hden (Nat.two_pow_pos _)
  have hgreatest : roundHalfEven num (den * 2 ^ unitExponent num den) ≤ 2 ^ 53 := by
    apply roundHalfEven_le hscaled
    have hlt : num < 2 ^ (53 + unitExponent num den) * den := lt_of_unitExponent hden
    rw [Nat.pow_add, Nat.mul_assoc, Nat.mul_comm _ den] at hlt
    exact hlt.le
  have hleast : 0 < unitExponent num den →
      2 ^ 52 ≤ roundHalfEven num (den * 2 ^ unitExponent num den) := by
    intro hpos
    apply le_roundHalfEven hscaled
    have hle := le_of_unitExponent hden hpos
    rwa [Nat.pow_add, Nat.mul_assoc, Nat.mul_comm _ den] at hle
  unfold ofUnits
  dsimp only
  rw [← unitExponent, Nat.pow_eq, Nat.pow_eq, Nat.pow_eq]
  generalize roundHalfEven num (den * 2 ^ unitExponent num den) = significand at *
  generalize unitExponent num den = exponent at *
  split
  · rw [ofParts?_eq_none_iff, Nat.pow_eq, Nat.pow_eq]
    omega
  · rw [ofParts?_eq_none_iff, Nat.pow_eq, Nat.pow_eq]
    omega

/-- In units, the magnitudes without a finite double are those from the middle above the greatest
one on. -/
theorem ofUnits_eq_none_iff (hden : 0 < den) :
    ofUnits negative num den = none ↔ (2 ^ 54 - 1) * 2 ^ 2044 * den ≤ num := by
  obtain ⟨places, hplaces⟩ : ∃ places, places = 2044 := ⟨2044, rfl⟩
  rw [ofUnits_eq_none_iff_exponent hden, ← hplaces, Nat.mul_assoc]
  have hpos : 0 < 2 ^ places * den := Nat.mul_pos (Nat.two_pow_pos _) hden
  -- Only at the greatest exponent does it depend on the rounding whether there is an overflow.
  rcases Nat.lt_trichotomy (unitExponent num den) 2045 with hbelow | hgreatest | habove
  · have hlt : num < 2 ^ 53 * (2 ^ places * den) := by
      calc num < 2 ^ (53 + unitExponent num den) * den := lt_of_unitExponent hden
        _ ≤ 2 ^ (53 + places) * den := by
          apply Nat.mul_le_mul_right
          exact Nat.pow_le_pow_right (by decide) (by omega)
        _ = 2 ^ 53 * (2 ^ places * den) := by rw [Nat.pow_add, Nat.mul_assoc]
    omega
  · have hdouble : den * 2 ^ unitExponent num den = 2 * (2 ^ places * den) := by
      have hexponent : unitExponent num den = places + 1 := by omega
      rw [hexponent, Nat.pow_succ]
      ring
    have hcarries : 2 ^ 53 ≤ roundHalfEven num (den * 2 ^ unitExponent num den) ↔
        2 * (2 ^ 53 * (2 * (2 ^ places * den))) ≤ 2 * num + 2 * (2 ^ places * den) := by
      rw [hdouble]
      exact le_roundHalfEven_iff (by omega) (by decide)
    rw [hcarries]
    omega
  · have hle : 2 ^ 54 * (2 ^ places * den) ≤ num := by
      calc 2 ^ 54 * (2 ^ places * den) = 2 ^ (54 + places) * den := by
            rw [Nat.pow_add, Nat.mul_assoc]
        _ ≤ 2 ^ (52 + unitExponent num den) * den := by
          apply Nat.mul_le_mul_right
          exact Nat.pow_le_pow_right (by decide) (by omega)
        _ ≤ num := le_of_unitExponent hden (by omega)
    omega

end Units

/-- The least magnitude without a finite double: the middle between the greatest double and the
power of two above it. -/
def overflowBound : Nat := (Nat.pow 2 54 - 1) * Nat.pow 2 970

theorem overflowBound_pos : 0 < overflowBound := by
  unfold overflowBound
  generalize 970 = places
  exact Nat.mul_pos (by decide) (Nat.two_pow_pos places)

theorem overflowBound_le {places : Nat} (h : 310 ≤ places) : overflowBound ≤ 10 ^ places := by
  obtain ⟨blocks, hblocks⟩ : ∃ blocks, blocks = 11 := ⟨11, rfl⟩
  obtain ⟨zeros, hzeros⟩ : ∃ zeros, zeros = 970 := ⟨970, rfl⟩
  have hsplit : 54 + zeros = 93 * blocks + 1 := by omega
  calc overflowBound ≤ 2 ^ 54 * 2 ^ zeros := by
        unfold overflowBound
        rw [← hzeros, Nat.pow_eq, Nat.pow_eq]
        exact Nat.mul_le_mul_right _ (by decide)
    _ = (2 ^ 93) ^ blocks * 2 := by rw [← Nat.pow_add, hsplit, Nat.pow_succ, Nat.pow_mul]
    _ ≤ (10 ^ 28) ^ blocks * 10 ^ 2 :=
      Nat.mul_le_mul (Nat.pow_le_pow_left (by decide) blocks) (by decide)
    _ ≤ 10 ^ places := by
      rw [← Nat.pow_mul, ← Nat.pow_add]
      exact Nat.pow_le_pow_right (by decide) (by omega)

theorem ofRatio_eq_none_iff {negative : Bool} {num den : Nat} (hden : 0 < den) :
    ofRatio negative num den = none ↔ overflowBound * den ≤ num := by
  have hunits : overflowBound * den * unitsPerOne = (2 ^ 54 - 1) * 2 ^ 2044 * den := by
    obtain ⟨places, hplaces⟩ : ∃ places, places = 970 := ⟨970, rfl⟩
    obtain ⟨more, hmore⟩ : ∃ more, more = 1074 := ⟨1074, rfl⟩
    have hsum : 2044 = places + more := by omega
    unfold overflowBound unitsPerOne
    rw [hsum, ← hplaces, ← hmore, Nat.pow_eq, Nat.pow_eq, Nat.pow_eq, Nat.pow_add]
    ring
  rw [ofRatio, ofUnits_eq_none_iff hden, ← hunits]
  exact Nat.mul_le_mul_right_iff unitsPerOne_pos

/-- A decimal has no finite double exactly if its magnitude reaches the bound. -/
theorem ofDecimal_eq_none_iff {negative : Bool} {digits : Nat} {exponent : Int} :
    ofDecimal negative digits exponent = none ↔
      overflowBound * 10 ^ (-exponent).toNat ≤ digits * 10 ^ exponent.toNat := by
  have hpow (k : Nat) : 0 < 10 ^ k := Nat.pow_pos (by decide)
  have hlt := lt_pow_digitCount digits
  unfold ofDecimal
  dsimp only
  rw [← digitCount]
  split
  · rename_i hsmall
    simp only [reduceCtorEq, false_iff, Nat.not_le]
    rcases hsmall with rfl | hsmall
    · rw [Nat.zero_mul]
      exact Nat.mul_pos overflowBound_pos (hpow _)
    · have hzero : exponent.toNat = 0 := by omega
      rw [hzero, Nat.pow_zero, Nat.mul_one]
      calc digits < 10 ^ digitCount digits := hlt
        _ ≤ 10 ^ (-exponent).toNat := Nat.pow_le_pow_right (by decide) (by omega)
        _ ≤ overflowBound * 10 ^ (-exponent).toNat := Nat.le_mul_of_pos_left _ overflowBound_pos
  · rename_i hsmall
    rw [not_or] at hsmall
    split
    · simp only [true_iff]
      have hle := pow_le_of_digitCount hsmall.1
      obtain ⟨places, hplaces⟩ : ∃ places,
          places + (-exponent).toNat = digitCount digits - 1 + exponent.toNat :=
        ⟨digitCount digits - 1 + exponent.toNat - (-exponent).toNat, by omega⟩
      calc overflowBound * 10 ^ (-exponent).toNat ≤ 10 ^ places * 10 ^ (-exponent).toNat :=
            Nat.mul_le_mul_right _ (overflowBound_le (by omega))
        _ = 10 ^ (digitCount digits - 1) * 10 ^ exponent.toNat := by
          rw [← Nat.pow_add, hplaces, Nat.pow_add]
        _ ≤ digits * 10 ^ exponent.toNat := Nat.mul_le_mul_right _ hle
    · split
      · have hzero : (-exponent).toNat = 0 := by omega
        rw [ofRatio_eq_none_iff Nat.one_pos, hzero, Nat.pow_zero, Nat.pow_eq]
      · have hzero : exponent.toNat = 0 := by omega
        rw [Nat.pow_eq, ofRatio_eq_none_iff (hpow _), hzero, Nat.pow_zero, Nat.mul_one]

end QueryCriteria.Binary64
