import Mathlib.Data.List.Infix
import QueryCriteria.Text.LowerCase

/-!
# Two ways to lower a text

The lower case of the Unicode standard and that of the ASCII letters alone agree on a text exactly
if lowering leaves all of its characters outside of ASCII as they are. The Unicode way never makes a
text shorter, so that where the two differ, neither text lies inside the other.
-/
namespace QueryCriteria.Text

theorem toList_toLower (s : String) : s.toLower.toList = s.toList.map Char.toLower :=
  String.toList_map

/-- Only the first run has capitals below 128. -/
theorem findSome?_tail_caseRuns {code : Nat} (h : code < 128) :
    caseRuns.tail.findSome? (·.lower? code) = none := by
  have hfirst : ∀ r ∈ caseRuns.tail, 128 ≤ r.first := by decide +kernel
  rw [List.findSome?_eq_none_iff]
  intro r hr
  have hle := hfirst r hr
  unfold CaseRun.lower?
  rw [if_neg]
  simp only [Bool.and_eq_true, decide_eq_true_eq]
  omega

theorem lowerChar_of_ascii {c : Char} (h : c.toNat < 128) : lowerChar c = [c.toLower] := by
  have hletters : ∀ n < 128, ((CaseRun.lower? ⟨65, 90, 1, 97⟩ n).map Char.ofNat).getD
      (Char.ofNat n) = (Char.ofNat n).toLower := by decide
  have hletter := hletters c.toNat h
  rw [Char.ofNat_toNat] at hletter
  have hdotted : (c.toNat == 0x130) = false := by
    rw [beq_eq_false_iff_ne]
    omega
  have hruns : caseRuns = ⟨65, 90, 1, 97⟩ :: caseRuns.tail := rfl
  rw [← hletter]
  unfold lowerChar
  rw [hdotted, hruns, List.findSome?_cons, findSome?_tail_caseRuns h]
  cases CaseRun.lower? ⟨65, 90, 1, 97⟩ c.toNat <;> rfl

theorem toLower_of_not_ascii {c : Char} (h : 128 ≤ c.toNat) : c.toLower = c := by
  unfold Char.toLower
  rw [dif_neg]
  rintro ⟨-, hle⟩
  have hcode : c.toNat ≤ 90 := UInt32.le_iff_toNat_le.mp hle
  omega

theorem isDigit_of_toLower {c : Char} (h : c.toLower.isDigit) : c.isDigit := by
  by_cases hascii : c.toNat < 128
  · have hchars : ∀ n < 128, (Char.ofNat n).toLower.isDigit → (Char.ofNat n).isDigit := by decide
    rw [← Char.ofNat_toNat c] at h ⊢
    exact hchars _ hascii h
  · rwa [toLower_of_not_ascii (by omega)] at h

theorem lowerChar_eq_toLower_iff {c : Char} :
    lowerChar c = [c.toLower] ↔ c.toNat < 128 ∨ lowerChar c = [c] := by
  by_cases hascii : c.toNat < 128
  · simp [hascii, lowerChar_of_ascii]
  · rw [toLower_of_not_ascii (by omega)]
    simp [hascii]

/-- The small forms of a character in a text. -/
def smallForms (before : List Char) (c : Char) (rest : List Char) : List Char :=
  if c == capitalSigma then
    if meetsCased before && !meetsCased rest then [Char.ofNat 0x3C2] else [Char.ofNat 0x3C3]
  else lowerChar c

theorem lowerChars_cons (before : List Char) (c : Char) (rest : List Char) :
    lowerChars before (c :: rest) = smallForms before c rest ++ lowerChars (c :: before) rest := rfl

theorem lowerChar_ne_nil (c : Char) : lowerChar c ≠ [] := by
  unfold lowerChar
  split
  · simp
  · split <;> simp

theorem smallForms_ne_nil (before : List Char) (c : Char) (rest : List Char) :
    smallForms before c rest ≠ [] := by
  unfold smallForms
  split
  · split <;> simp
  · exact lowerChar_ne_nil c

theorem smallForms_eq_iff {before : List Char} {c : Char} {rest : List Char} :
    smallForms before c rest = [c.toLower] ↔ lowerChar c = [c.toLower] := by
  unfold smallForms
  split
  · rename_i hsigma
    have hlower : lowerChar capitalSigma ≠ [capitalSigma.toLower] := by decide
    rw [beq_iff_eq] at hsigma
    subst hsigma
    simp only [hlower, iff_false]
    split <;> decide
  · rfl

theorem length_le_length_lowerChars (before cs : List Char) :
    cs.length ≤ (lowerChars before cs).length := by
  induction cs generalizing before with
  | nil => exact Nat.zero_le _
  | cons c rest ih =>
    have hsmall := List.length_pos_iff.mpr (smallForms_ne_nil before c rest)
    have hrest := ih (c :: before)
    rw [lowerChars_cons, List.length_cons, List.length_append]
    omega

theorem lowerChars_eq_map_toLower_iff {before cs : List Char} :
    lowerChars before cs = cs.map Char.toLower ↔ ∀ c ∈ cs, lowerChar c = [c.toLower] := by
  induction cs generalizing before with
  | nil => simp [lowerChars]
  | cons c rest ih =>
    rw [lowerChars_cons, List.map_cons, List.forall_mem_cons, ← @ih (c :: before),
      ← @smallForms_eq_iff before c rest]
    constructor
    · intro h
      have hlength := congrArg List.length h
      have hsmall := List.length_pos_iff.mpr (smallForms_ne_nil before c rest)
      have hrest := length_le_length_lowerChars (c :: before) rest
      rw [List.length_append, List.length_cons, List.length_map] at hlength
      -- The rest is no shorter, so that one character is left for the first one.
      have hone : (smallForms before c rest).length = [c.toLower].length := by
        rw [List.length_singleton]
        omega
      exact List.append_inj h hone
    · rintro ⟨hsmall, hrest⟩
      rw [hsmall, hrest]
      rfl

/-- The lower case of a text lies inside its ASCII lower case only if they are the same. -/
theorem lowerCase_isInfix_toLower_iff {s : String} :
    (lowerCase s).toList <:+: s.toLower.toList ↔
      ∀ c ∈ s.toList, c.toNat < 128 ∨ lowerChar c = [c] := by
  simp only [← lowerChar_eq_toLower_iff]
  rw [lowerCase, String.toList_ofList, toList_toLower, ← @lowerChars_eq_map_toLower_iff []]
  constructor
  · intro h
    apply h.sublist.eq_of_length_le
    rw [List.length_map]
    exact length_le_length_lowerChars [] s.toList
  · intro h
    rw [h]

/-- The texts that contain a text contain its lower case when their ASCII letters are lowered, if
this holds of the text itself. -/
theorem lowerCase_isInfix_toLower_of_isInfix {s t : String}
    (h : (lowerCase s).toList <:+: s.toLower.toList) (ht : s.toList <:+: t.toList) :
    (lowerCase s).toList <:+: t.toLower.toList := by
  rw [toList_toLower] at h ⊢
  exact h.trans (ht.map Char.toLower)

end QueryCriteria.Text
