/-!
# Dotted names

A path is written as its names with a dot between any two. Splitting a text at its dots gives at
least one segment, and joining the segments gives the text back.
-/
namespace QueryCriteria.Text

def splitAtDots : List Char → List (List Char)
  | [] => [[]]
  | c :: cs =>
    if c = '.' then [] :: splitAtDots cs
    else match splitAtDots cs with
      | [] => [[c]]
      | segment :: rest => (c :: segment) :: rest

/-- The segments of a text, between its dots. -/
def segments (s : String) : List String := (splitAtDots s.toList).map String.ofList

def dotted : List String → String
  | [] => ""
  | [name] => name
  | name :: rest => name ++ "." ++ dotted rest

theorem splitAtDots_ne_nil (cs : List Char) : splitAtDots cs ≠ [] := by
  cases cs with
  | nil => simp [splitAtDots]
  | cons c cs =>
    unfold splitAtDots
    split
    · simp
    · split <;> simp

theorem segments_ne_nil (s : String) : segments s ≠ [] := by
  simp [segments, splitAtDots_ne_nil]

theorem toList_dotted_cons (name : String) (rest : List String) (h : rest ≠ []) :
    (dotted (name :: rest)).toList = name.toList ++ '.' :: (dotted rest).toList := by
  cases rest with
  | nil => exact absurd rfl h
  | cons next rest => simp [dotted]

theorem splitAtDots_append {name : List Char} (h : '.' ∉ name) (rest : List Char) :
    splitAtDots (name ++ '.' :: rest) = name :: splitAtDots rest := by
  induction name with
  | nil => simp [splitAtDots]
  | cons c cs ih =>
    simp only [List.mem_cons, not_or] at h
    simp [splitAtDots, ih h.2, Ne.symm h.1]

theorem splitAtDots_of_notMem {name : List Char} (h : '.' ∉ name) :
    splitAtDots name = [name] := by
  induction name with
  | nil => simp [splitAtDots]
  | cons c cs ih =>
    simp only [List.mem_cons, not_or] at h
    simp [splitAtDots, ih h.2, Ne.symm h.1]

theorem notMem_of_mem_splitAtDots {cs segment : List Char} (h : segment ∈ splitAtDots cs) :
    '.' ∉ segment := by
  induction cs generalizing segment with
  | nil => simp_all [splitAtDots]
  | cons c cs ih =>
    unfold splitAtDots at h
    split at h
    · rcases List.mem_cons.mp h with rfl | h
      · simp
      · exact ih h
    · rename_i hc
      split at h
      · simp_all [Ne.symm]
      · rename_i first rest heq
        rcases List.mem_cons.mp h with rfl | h
        · have hfirst : '.' ∉ first := ih (by simp [heq])
          simp [hfirst, Ne.symm hc]
        · exact ih (by simp [heq, h])

/-- Joining the segments of a text gives the text back. -/
theorem dotted_segments (s : String) : dotted (segments s) = s := by
  suffices h : ∀ cs, (dotted ((splitAtDots cs).map String.ofList)).toList = cs by
    apply String.toList_inj.mp
    exact h s.toList
  intro cs
  induction cs with
  | nil => simp [splitAtDots, dotted]
  | cons c cs ih =>
    unfold splitAtDots
    split
    · rename_i hc
      rw [List.map_cons, toList_dotted_cons _ _ (by simp [splitAtDots_ne_nil]), ih, hc]
      simp
    · split
      · rename_i heq
        exact absurd heq (splitAtDots_ne_nil cs)
      · rename_i first rest heq
        rw [heq] at ih
        cases rest with
        | nil => simp_all [dotted]
        | cons next rest =>
          rw [List.map_cons, toList_dotted_cons _ _ (by simp)] at ih ⊢
          simp_all

/-- Splitting joined names gives the names back, unless there are none. -/
theorem segments_dotted {names : List String} (hne : names ≠ [])
    (h : ∀ name ∈ names, '.' ∉ name.toList) : segments (dotted names) = names := by
  unfold segments
  induction names with
  | nil => exact absurd rfl hne
  | cons name rest ih =>
    cases rest with
    | nil => simp [dotted, splitAtDots_of_notMem (h name (by simp))]
    | cons next rest =>
      rw [toList_dotted_cons _ _ (by simp), splitAtDots_append (h name (by simp))]
      simp only [List.map_cons, String.ofList_toList]
      rw [ih (by simp) fun n hn => h n (by simp [hn])]

end QueryCriteria.Text
