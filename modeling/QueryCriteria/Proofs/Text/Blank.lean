import Mathlib.Data.List.Basic
import QueryCriteria.Text.Blank

/-!
# Trimming

Trimming keeps a text that neither starts nor ends with a blank, and takes away whatever blanks are
put around it.
-/
namespace QueryCriteria.Text

theorem trimLeft_isSuffix (cs : List Char) : trimLeft cs <:+ cs := List.dropWhile_suffix _

theorem trimRight_isPrefix (cs : List Char) : trimRight cs <+: cs := by
  rw [← List.reverse_suffix, trimRight, List.reverse_reverse]
  exact List.dropWhile_suffix _

theorem trimLeft_eq_self_iff {cs : List Char} : trimLeft cs = cs ↔ cs.head?.any isBlank = false := by
  cases cs with
  | nil => simp [trimLeft]
  | cons c rest =>
    rw [trimLeft, List.dropWhile_cons]
    cases hc : isBlank c with
    | false => simp [hc]
    | true =>
      simp only [if_true, List.head?_cons, Option.any_some, hc, reduceCtorEq, iff_false]
      intro heq
      have hle := (List.dropWhile_suffix (l := rest) isBlank).length_le
      rw [heq, List.length_cons] at hle
      omega

theorem trimRight_eq_self_iff {cs : List Char} :
    trimRight cs = cs ↔ cs.getLast?.any isBlank = false := by
  rw [trimRight, List.reverse_eq_iff, ← List.head?_reverse]
  exact trimLeft_eq_self_iff

/-- Trimming keeps exactly the texts that neither start nor end with a blank. -/
theorem trim_eq_self_iff {s : String} : trim s = s ↔ hasOuterBlank s = false := by
  rw [hasOuterBlank, Bool.or_eq_false_iff, ← trimLeft_eq_self_iff, ← trimRight_eq_self_iff, trim,
    ← String.toList_inj, String.toList_ofList]
  constructor
  · intro h
    have hleft : trimLeft s.toList = s.toList := by
      apply (trimLeft_isSuffix _).eq_of_length_le
      rw [← congrArg List.length h]
      exact (trimRight_isPrefix _).length_le
    rw [hleft] at h
    exact ⟨hleft, h⟩
  · rintro ⟨hleft, hright⟩
    rw [hleft, hright]

theorem hasOuterBlank_eq_false {s : String} (h : ∀ c ∈ s.toList, isBlank c = false) :
    hasOuterBlank s = false := by
  rw [hasOuterBlank, Bool.or_eq_false_iff]
  constructor
  · cases hhead : s.toList.head? with
    | none => rfl
    | some c => exact h c (List.mem_of_head? hhead)
  · cases hlast : s.toList.getLast? with
    | none => rfl
    | some c => exact h c (List.mem_of_getLast? hlast)

variable {before after cs : List Char}

theorem trimLeft_append (hbefore : before.all isBlank) : trimLeft (before ++ cs) = trimLeft cs :=
  List.dropWhile_append_of_pos (List.all_eq_true.mp hbefore)

theorem trimRight_append (hafter : after.all isBlank) : trimRight (cs ++ after) = trimRight cs := by
  rw [trimRight, List.reverse_append, List.dropWhile_append_of_pos]
  · rfl
  · simpa using hafter

theorem trim_append {before after : String} (hbefore : isAllBlank before)
    (hafter : isAllBlank after) (s : String) : trim (before ++ s ++ after) = trim s := by
  rw [trim, trim, String.toList_append, String.toList_append, List.append_assoc,
    trimLeft_append hbefore]
  congr 1
  rw [trimLeft, trimLeft, List.dropWhile_append]
  split
  · rename_i hempty
    have hafter : after.toList.dropWhile isBlank = [] := by
      rw [← List.append_nil after.toList, List.dropWhile_append_of_pos (List.all_eq_true.mp hafter),
        List.dropWhile_nil]
    rw [hafter, List.isEmpty_iff.mp hempty]
  · exact trimRight_append hafter

end QueryCriteria.Text
