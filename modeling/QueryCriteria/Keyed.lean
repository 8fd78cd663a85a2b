/-!
# Ordered maps

A map that keeps the order in which its keys were first inserted is a list of pairs. Inserting under
a key that is present replaces the value where it stands. Looking up a key is `List.lookup`.
-/
namespace QueryCriteria.Keyed

variable {α : Type}

def keys (entries : List (String × α)) : List String := entries.map Prod.fst

/-- The entries with a value for a key: in the place of the old value, or else at the end. -/
def insert (key : String) (value : α) : List (String × α) → List (String × α)
  | [] => [(key, value)]
  | (k, v) :: rest => if k = key then (key, value) :: rest else (k, v) :: insert key value rest

/-- The entries with a function applied to the values under a key. -/
def update (key : String) (f : α → α) (entries : List (String × α)) : List (String × α) :=
  entries.map fun (k, v) => if k = key then (k, f v) else (k, v)

/-- The first key that occurred before, where `seen` holds the keys already passed. -/
def firstRepeated? (seen : List String) : List String → Option String
  | [] => none
  | key :: rest => if key ∈ seen then some key else firstRepeated? (key :: seen) rest

theorem lookup_insert_self (key : String) (value : α) (entries : List (String × α)) :
    (insert key value entries).lookup key = some value := by
  induction entries with
  | nil => simp [insert]
  | cons e rest ih =>
    obtain ⟨k, v⟩ := e
    unfold insert
    split
    · simp
    · rename_i h
      have hk : (key == k) = false := by simp [Ne.symm h]
      simp [List.lookup_cons, hk, ih]

theorem lookup_insert_of_ne {key other : String} (h : other ≠ key) (value : α)
    (entries : List (String × α)) :
    (insert key value entries).lookup other = entries.lookup other := by
  have ho : (other == key) = false := by simp [h]
  induction entries with
  | nil => simp [insert, List.lookup_cons, ho]
  | cons e rest ih =>
    obtain ⟨k, v⟩ := e
    unfold insert
    split
    · rename_i hk
      subst hk
      simp [List.lookup_cons, ho]
    · simp [ih, List.lookup_cons]

theorem keys_update (key : String) (f : α → α) (entries : List (String × α)) :
    keys (update key f entries) = keys entries := by
  simp only [keys, update, List.map_map]
  congr 1
  funext e
  simp only [Function.comp]
  split <;> rfl

end QueryCriteria.Keyed
