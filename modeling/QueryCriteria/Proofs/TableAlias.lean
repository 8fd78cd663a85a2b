import QueryCriteria.JoinTree

/-!
# Distinct aliases

The alias of a node ends in the number of the node, behind its last underscore. So the number can be
read off the alias whatever the association is called, also when its name itself ends in an
underscore and digits, and also when a reader does not tell capital letters from small ones.
-/
namespace QueryCriteria

open Text

/-- What follows the last occurrence of an element is determined by the whole list. -/
theorem tail_eq_of_append_cons_eq {α : Type} {a : α} {l l' s s' : List α} (hs : a ∉ s)
    (hs' : a ∉ s') (h : l ++ a :: s = l' ++ a :: s') : s = s' := by
  rcases List.append_eq_append_iff.mp h with ⟨m, -, hm⟩ | ⟨m, -, hm⟩
  · cases m with
    | nil => exact (List.cons.inj hm).2
    | cons b m =>
      have hs_eq : s = m ++ a :: s' := (List.cons.inj hm).2
      exact absurd (by simp [hs_eq]) hs
  · cases m with
    | nil => exact (List.cons.inj hm).2.symm
    | cons b m =>
      have hs_eq : s' = m ++ a :: s := (List.cons.inj hm).2
      exact absurd (by simp [hs_eq]) hs'

theorem toDigits_ten_injective {m n : Nat} (h : Nat.toDigits 10 m = Nat.toDigits 10 n) :
    m = n := by
  rw [← Nat.ofDigitChars_ten_toDigits (n := m), h, Nat.ofDigitChars_ten_toDigits]

theorem map_toLower_toDigits (n : Nat) :
    (Nat.toDigits 10 n).map Char.toLower = Nat.toDigits 10 n := by
  have hdigit : ∀ c ∈ Nat.toDigits 10 n, c.toLower = c := by
    intro c hc
    have hd : c.isDigit := Nat.isDigit_of_mem_toDigits (by decide) (by decide) hc
    simp only [Char.isDigit, Bool.and_eq_true, decide_eq_true_eq] at hd
    unfold Char.toLower
    rw [dif_neg]
    intro hu
    exact absurd (UInt32.le_trans hu.1 hd.2) (by decide)
  exact (List.map_congr_left hdigit).trans (List.map_id _)

theorem toList_toLower_aliasOf (name : String) (id : NodeId) :
    (aliasOf name id).toLower.toList =
      name.toList.map Char.toLower ++ '_' :: Nat.toDigits 10 id := by
  have hunderscore : "_".toList = ['_'] := rfl
  have hlower (s : String) : s.toLower = s.map Char.toLower := rfl
  simp [aliasOf, decimal, hlower, hunderscore, map_toLower_toDigits]

/-- Nodes with the same alias have the same number, even up to the case of ASCII letters. -/
theorem id_eq_of_toLower_aliasOf_eq {name name' : String} {id id' : NodeId}
    (h : (aliasOf name id).toLower = (aliasOf name' id').toLower) : id = id' := by
  have hlist := congrArg String.toList h
  rw [toList_toLower_aliasOf, toList_toLower_aliasOf] at hlist
  exact toDigits_ten_injective
    (tail_eq_of_append_cons_eq Nat.underscore_not_in_toDigits Nat.underscore_not_in_toDigits hlist)

end QueryCriteria
