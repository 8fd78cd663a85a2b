import Mathlib.Data.List.Nodup
import QueryCriteria.Keyed

/-!
# Keys of ordered maps

A key is looked up or it is none of the keys. An update under a key leaves the other keys alone. If
no key is repeated, then every entry is the one that is looked up under its key.
-/
namespace QueryCriteria.Keyed

variable {α : Type} {key other : String} {f : α → α} {value : α} {entries : List (String × α)}

theorem update_cons (k : String) (v : α) :
    update key f ((k, v) :: entries) =
      (k, if k = key then f v else v) :: update key f entries := by
  rw [update, List.map_cons, ← update]
  dsimp only
  split <;> rfl

theorem lookup_update_self : (update key f entries).lookup key = (entries.lookup key).map f := by
  induction entries with
  | nil => rfl
  | cons e rest ih =>
    obtain ⟨k, v⟩ := e
    rw [update_cons]
    by_cases hk : k = key
    · simp [hk]
    · have hne : (key == k) = false := beq_eq_false_iff_ne.mpr (Ne.symm hk)
      simp only [List.lookup_cons, hne, ih]

theorem lookup_update_of_ne (h : other ≠ key) :
    (update key f entries).lookup other = entries.lookup other := by
  induction entries with
  | nil => rfl
  | cons e rest ih =>
    obtain ⟨k, v⟩ := e
    rw [update_cons, List.lookup_cons, List.lookup_cons, ih]
    by_cases hk : k = key
    · subst hk
      rw [beq_eq_false_iff_ne.mpr h]
    · rw [if_neg hk]

theorem lookup_eq_none_iff : entries.lookup key = none ↔ key ∉ keys entries := by
  rw [List.lookup_eq_none_iff, keys, List.mem_map]
  constructor
  · rintro h ⟨e, he, rfl⟩
    simpa using h e he
  · intro h e he
    exact bne_iff_ne.mpr fun heq => h ⟨e, he, heq.symm⟩

theorem lookup_of_mem (hnodup : (keys entries).Nodup) (h : (key, value) ∈ entries) :
    entries.lookup key = some value := by
  induction entries with
  | nil => cases h
  | cons e rest ih =>
    obtain ⟨k, v⟩ := e
    obtain ⟨hk, hnodup⟩ := List.nodup_cons.mp hnodup
    rcases List.mem_cons.mp h with heq | hrest
    · cases heq
      simp
    · have hne : key ≠ k := by
        rintro rfl
        exact hk (List.mem_map.mpr ⟨(key, value), hrest, rfl⟩)
      rw [List.lookup_cons, beq_eq_false_iff_ne.mpr hne]
      exact ih hnodup hrest

theorem mem_keys_insert {k : String} :
    k ∈ keys (insert key value entries) ↔ k = key ∨ k ∈ keys entries := by
  induction entries with
  | nil => simp [insert, keys]
  | cons e rest ih =>
    obtain ⟨k', v⟩ := e
    rw [keys] at ih
    rw [insert]
    split
    · rename_i hk
      subst hk
      simp [keys]
    · simp only [keys, List.map_cons, List.mem_cons, ih]
      tauto

theorem nodup_keys_insert (h : (keys entries).Nodup) :
    (keys (insert key value entries)).Nodup := by
  induction entries with
  | nil => simp [insert, keys]
  | cons e rest ih =>
    obtain ⟨k, v⟩ := e
    obtain ⟨hk, hnodup⟩ := List.nodup_cons.mp h
    rw [insert]
    split
    · rename_i heq
      subst heq
      exact h
    · rename_i hne
      refine List.nodup_cons.mpr ⟨?_, ih hnodup⟩
      intro hmem
      rcases mem_keys_insert.mp hmem with heq | hmem
      · exact hne heq
      · exact hk hmem

theorem insert_of_notMem (h : key ∉ keys entries) :
    insert key value entries = entries ++ [(key, value)] := by
  induction entries with
  | nil => rfl
  | cons e rest ih =>
    obtain ⟨k, v⟩ := e
    simp only [keys, List.map_cons, List.mem_cons, not_or] at h
    rw [insert, if_neg (Ne.symm h.1), ih h.2, List.cons_append]

theorem mem_of_mem_insert {entry : String × α} (h : entry ∈ insert key value entries) :
    entry = (key, value) ∨ entry ∈ entries := by
  induction entries with
  | nil => exact .inl (List.mem_singleton.mp h)
  | cons e rest ih =>
    obtain ⟨k, v⟩ := e
    rw [insert] at h
    split at h
    · exact (List.mem_cons.mp h).imp_right (List.mem_cons_of_mem _)
    · rcases List.mem_cons.mp h with rfl | h
      · exact .inr List.mem_cons_self
      · exact (ih h).imp_right (List.mem_cons_of_mem _)

theorem count_keys_filter {p : String → Bool} (h : p key = true) :
    (keys (entries.filter fun e => p e.1)).count key = (keys entries).count key := by
  have hkeys : keys (entries.filter fun e => p e.1) = (keys entries).filter p :=
    List.filter_map.symm
  rw [hkeys, List.count_filter h]

end QueryCriteria.Keyed
