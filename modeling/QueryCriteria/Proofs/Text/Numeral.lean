import Mathlib.Data.List.Induction
import QueryCriteria.Text.Numeral

/-!
# Numerals and their values

A list of digits writes one number, and a number is written by its shortest digits behind any number
of zeros. So a reader of digits accepts exactly these lists, and gives back the number that was
printed.
-/
namespace QueryCriteria.Text

theorem toNat_of_isDigit {c : Char} (h : c.isDigit) : 48 ≤ c.toNat ∧ c.toNat ≤ 57 := by
  simp only [Char.isDigit, Bool.and_eq_true, decide_eq_true_eq] at h
  exact ⟨UInt32.le_iff_toNat_le.mp h.1, UInt32.le_iff_toNat_le.mp h.2⟩

theorem digitValue_lt {c : Char} (h : c.isDigit) : digitValue c < 10 := by
  have hrange := toNat_of_isDigit h
  have hzero : '0'.toNat = 48 := rfl
  unfold digitValue
  omega

theorem digitChar_digitValue {c : Char} (h : c.isDigit) : (digitValue c).digitChar = c := by
  have hrange := toNat_of_isDigit h
  have hchar : ∀ v < 10, Nat.digitChar v = Char.ofNat (48 + v) := by decide
  have hzero : '0'.toNat = 48 := rfl
  have htoNat : 48 + digitValue c = c.toNat := by
    unfold digitValue
    omega
  rw [hchar _ (digitValue_lt h), htoNat, Char.ofNat_toNat]

theorem natOfDigits_eq (cs : List Char) : natOfDigits cs = Nat.ofDigitChars 10 cs 0 :=
  Nat.ofDigitChars_eq_foldl.symm

theorem natOfDigits_concat (cs : List Char) (c : Char) :
    natOfDigits (cs ++ [c]) = 10 * natOfDigits cs + digitValue c := by
  simp [natOfDigits]

theorem all_isDigit_toDigits (n : Nat) : (Nat.toDigits 10 n).all Char.isDigit := by
  rw [List.all_eq_true]
  intro c hc
  exact Nat.isDigit_of_mem_toDigits (by decide) (by decide) hc

theorem takeWhile_isDigit_append {digits rest : List Char} (hdigits : digits.all Char.isDigit)
    (hrest : ∀ c ∈ rest.head?, c.isDigit = false) :
    (digits ++ rest).takeWhile Char.isDigit = digits := by
  rw [List.takeWhile_append_of_pos (List.all_eq_true.mp hdigits)]
  cases rest with
  | nil => simp
  | cons c rest => simp [hrest c rfl]

theorem dropWhile_isDigit_append {digits rest : List Char} (hdigits : digits.all Char.isDigit)
    (hrest : ∀ c ∈ rest.head?, c.isDigit = false) :
    (digits ++ rest).dropWhile Char.isDigit = rest := by
  rw [List.dropWhile_append_of_pos (List.all_eq_true.mp hdigits)]
  cases rest with
  | nil => rfl
  | cons c rest => simp [hrest c rfl]

/-- The digits of a number, behind any number of zeros. -/
def IsNumeral (cs : List Char) (n : Nat) : Prop :=
  ∃ zeros, cs = List.replicate zeros '0' ++ Nat.toDigits 10 n

theorem isNumeral_toDigits (n : Nat) : IsNumeral (Nat.toDigits 10 n) n := ⟨0, rfl⟩

theorem IsNumeral.concat {cs : List Char} {n : Nat} (h : IsNumeral cs n) {c : Char}
    (hc : c.isDigit) : IsNumeral (cs ++ [c]) (10 * n + digitValue c) := by
  obtain ⟨zeros, rfl⟩ := h
  have hlast : Nat.toDigits 10 (digitValue c) = [c] := by
    rw [Nat.toDigits_of_lt_base (digitValue_lt hc), digitChar_digitValue hc]
  rcases Nat.eq_zero_or_pos n with rfl | hpos
  · -- The zero is one more of those in front.
    refine ⟨zeros + 1, ?_⟩
    rw [Nat.mul_zero, Nat.zero_add, hlast, Nat.toDigits_zero, List.replicate_succ']
  · refine ⟨zeros, ?_⟩
    rw [← Nat.toDigits_append_toDigits (by decide) hpos (digitValue_lt hc), hlast,
      List.append_assoc]

theorem isNumeral_natOfDigits {cs : List Char} (hne : cs ≠ []) (h : cs.all Char.isDigit) :
    IsNumeral cs (natOfDigits cs) := by
  induction cs using List.reverseRecOn with
  | nil => exact absurd rfl hne
  | append_singleton cs c ih =>
    rw [List.all_append, Bool.and_eq_true, List.all_cons, List.all_nil, Bool.and_true] at h
    rw [natOfDigits_concat]
    by_cases hnil : cs = []
    · subst hnil
      refine ⟨0, ?_⟩
      simp [natOfDigits, Nat.toDigits_of_lt_base (digitValue_lt h.2), digitChar_digitValue h.2]
    · exact (ih hnil h.1).concat h.2

theorem IsNumeral.ne_nil {cs : List Char} {n : Nat} (h : IsNumeral cs n) : cs ≠ [] := by
  obtain ⟨zeros, rfl⟩ := h
  simp [Nat.toDigits_ne_nil]

theorem IsNumeral.all_isDigit {cs : List Char} {n : Nat} (h : IsNumeral cs n) :
    cs.all Char.isDigit := by
  obtain ⟨zeros, rfl⟩ := h
  rw [List.all_append, all_isDigit_toDigits, Bool.and_true, List.all_eq_true]
  intro c hc
  rw [List.eq_of_mem_replicate hc]
  rfl

theorem IsNumeral.natOfDigits_eq {cs : List Char} {n : Nat} (h : IsNumeral cs n) :
    natOfDigits cs = n := by
  obtain ⟨zeros, rfl⟩ := h
  rw [Text.natOfDigits_eq, Nat.ofDigitChars_append, Nat.ofDigitChars_replicate_zero, Nat.mul_zero,
    Nat.ofDigitChars_ten_toDigits]

theorem IsNumeral.unique {cs : List Char} {m n : Nat} (hm : IsNumeral cs m) (hn : IsNumeral cs n) :
    m = n :=
  hm.natOfDigits_eq.symm.trans hn.natOfDigits_eq

/-- Reading accepts exactly the numerals. -/
theorem readNat?_eq_some_iff {cs : List Char} {n : Nat} : readNat? cs = some n ↔ IsNumeral cs n := by
  unfold readNat?
  constructor
  · intro h
    split at h
    · rename_i hdigits
      cases h
      exact isNumeral_natOfDigits hdigits.1 hdigits.2
    · cases h
  · intro h
    rw [if_pos ⟨h.ne_nil, h.all_isDigit⟩, h.natOfDigits_eq]

/-- The numerals of machine numbers: one plus sign may stand before the digits. -/
def IsUnsignedNumeral (cs : List Char) (n : Nat) : Prop :=
  IsNumeral cs n ∨ ∃ digits, cs = '+' :: digits ∧ IsNumeral digits n

theorem not_isNumeral_plus (cs : List Char) (n : Nat) : ¬ IsNumeral ('+' :: cs) n := by
  intro h
  have hdigits := h.all_isDigit
  rw [List.all_cons, Bool.and_eq_true] at hdigits
  exact absurd hdigits.1 (by decide)

theorem IsUnsignedNumeral.unique {cs : List Char} {m n : Nat} (hm : IsUnsignedNumeral cs m)
    (hn : IsUnsignedNumeral cs n) : m = n := by
  rcases hm with hm | ⟨digits, rfl, hm⟩
  · rcases hn with hn | ⟨digits, rfl, hn⟩
    · exact hm.unique hn
    · exact absurd hm (not_isNumeral_plus _ _)
  · rcases hn with hn | ⟨digits', heq, hn⟩
    · exact absurd hn (not_isNumeral_plus _ _)
    · cases heq
      exact hm.unique hn

theorem readBounded?_eq_some_iff {bound : Nat} {cs : List Char} {n : Nat} :
    readBounded? bound cs = some n ↔ IsUnsignedNumeral cs n ∧ n < bound := by
  unfold readBounded? IsUnsignedNumeral
  split
  · rename_i rest
    rw [Option.filter_eq_some_iff, readNat?_eq_some_iff, decide_eq_true_eq]
    simp [not_isNumeral_plus]
  · rename_i hplus
    rw [Option.filter_eq_some_iff, readNat?_eq_some_iff, decide_eq_true_eq]
    constructor
    · intro h
      exact ⟨.inl h.1, h.2⟩
    · rintro ⟨hnumeral | ⟨digits, hcs, -⟩, hlt⟩
      · exact ⟨hnumeral, hlt⟩
      · exact absurd hcs (hplus digits)

section Signed

variable {cs : List Char} {n : Int}

theorem toList_signedDecimal (n : Int) :
    (signedDecimal n).toList = (if n < 0 then ['-'] else []) ++ Nat.toDigits 10 n.natAbs := by
  unfold signedDecimal decimal
  split
  · simp only [String.toList_append, String.toList_ofList]
    rfl
  · rw [String.toList_ofList]
    rfl

theorem readInt?_of_isNumeral {n : Nat} (h : IsNumeral cs n) : readInt? cs = some (n : Int) := by
  have hread := readNat?_eq_some_iff.mpr h
  unfold readInt?
  split
  · exact absurd h.all_isDigit (by simp)
  · exact absurd h (not_isNumeral_plus _ _)
  · rw [hread]
    rfl

theorem readInt?_signedDecimal (n : Int) : readInt? (signedDecimal n).toList = some n := by
  have hread := readNat?_eq_some_iff.mpr (isNumeral_toDigits n.natAbs)
  rw [toList_signedDecimal]
  split
  · rw [List.singleton_append, readInt?, hread]
    simp only [Option.bind_eq_bind, Option.bind_some, Option.pure_def, Option.map_some,
      Option.some.injEq]
    omega
  · rw [List.nil_append, readInt?_of_isNumeral (isNumeral_toDigits _), Option.some.injEq]
    omega

theorem all_of_readInt? (h : readInt? cs = some n) :
    cs.all fun c => c.isDigit || c = '-' || c = '+' := by
  have hdigits {digits : List Char} {m : Nat} (hread : readNat? digits = some m) :
      digits.all fun c => c.isDigit || c = '-' || c = '+' := by
    have hnumeral := readNat?_eq_some_iff.mp hread
    rw [List.all_eq_true]
    intro c hc
    rw [List.all_eq_true.mp hnumeral.all_isDigit c hc]
    rfl
  unfold readInt? at h
  split at h
  · rename_i digits
    cases hread : readNat? digits with
    | none => simp [hread] at h
    | some m =>
      rw [List.all_cons, hdigits hread]
      rfl
  · rename_i digits
    cases hread : readNat? digits with
    | none => simp [hread] at h
    | some m =>
      rw [List.all_cons, hdigits hread]
      rfl
  · cases hread : readNat? cs with
    | none => simp [hread] at h
    | some m => exact hdigits hread

end Signed

def IsNumberChar (c : Char) : Prop := c.isDigit ∨ c ∈ ['-', '+', '.', 'e']

theorem isNumberChar_of_mem_toDigits {n : Nat} {c : Char} (h : c ∈ Nat.toDigits 10 n) :
    IsNumberChar c :=
  .inl (Nat.isDigit_of_mem_toDigits (by decide) (by decide) h)

end QueryCriteria.Text
