import QueryCriteria.Proofs.Keyed
import QueryCriteria.TransferObject

/-!
# Runs of operations on a transfer object

A client fills a transfer object by operations, and some of them may fail. An entry stays where it
was first put, its filters are only added to, and its sort is given once. Every operation is made of
three changes: of the paging bounds, by a new entry at the end, and inside the entry of one id. With
each of them a transfer object grows, hence so it does in a run. An operation that fails changes
nothing.
-/
namespace QueryCriteria

variable {P : Type}

/-- What becomes of an entry: it may get more filters at the end, and a sort if it has none. -/
structure Entry.Grows (e e' : Entry P) : Prop where
  propertyId : e'.propertyId = e.propertyId
  filters : e.filters <+: e'.filters
  sort : ∀ c, e.sort = some c → e'.sort = some c

namespace TransferObject

/-- One operation of a client. -/
inductive Operation (P : Type) where
  | getOrCreate (id : String)
  | add (e : Entry P)
  | addFilter (id : String) (c : FilterCriterion P)
  | setSort (id : String) (c : SortCriterion)
  | withPaging (first max : Option Int32)
  | setFirstResult (first : Option Int32)
  | setMaxResults (max : Option Int32)

/-- The transfer object after an operation, and the answer of the operation. -/
def perform (t : TransferObject P) :
    Operation P → TransferObject P × Except CriteriaError Unit
  | .getOrCreate id => (t.ensure id, .ok ())
  | .add e => t.add e
  | .addFilter id c => (t.addFilter id c, .ok ())
  | .setSort id c => t.setSort id c
  | .withPaging first max => (t.withPaging first max, .ok ())
  | .setFirstResult first => (t.setFirstResult first, .ok ())
  | .setMaxResults max => (t.setMaxResults max, .ok ())

/-- The transfer object after operations, failed ones included. -/
def run (t : TransferObject P) (ops : List (Operation P)) : TransferObject P :=
  ops.foldl (fun t op => (t.perform op).1) t

/-- Every entry stands under its own property id, and under no other. -/
structure WellKeyed (t : TransferObject P) : Prop where
  propertyId : ∀ entry ∈ t.entries, entry.2.propertyId = entry.1
  nodup : t.propertyIds.Nodup

theorem WellKeyed.find?_of_mem {t : TransferObject P} (h : t.WellKeyed) {id : String} {e : Entry P}
    (he : (id, e) ∈ t.entries) : t.find? id = some e :=
  Keyed.lookup_of_mem h.nodup he

/-- What becomes of a transfer object: its entries stay in their places and grow, and other entries
follow them. -/
structure Grows (t u : TransferObject P) : Prop where
  wellKeyed : t.WellKeyed → u.WellKeyed
  ids : t.propertyIds <+: u.propertyIds
  entries : ∀ id e, t.find? id = some e → ∃ e', u.find? id = some e' ∧ e.Grows e'

namespace Grows

variable {t u v : TransferObject P}

theorem of_entries_eq (h : u.entries = t.entries) : t.Grows u where
  wellKeyed ht := ⟨by rw [h]; exact ht.propertyId, by rw [propertyIds, h]; exact ht.nodup⟩
  ids := by
    have hids : u.propertyIds = t.propertyIds := congrArg Keyed.keys h
    exact hids ▸ List.prefix_rfl
  entries id e he := ⟨e, by rw [find?, h]; exact he, rfl, List.prefix_rfl, fun _ hc => hc⟩

theorem refl (t : TransferObject P) : t.Grows t := of_entries_eq rfl

theorem trans (htu : t.Grows u) (huv : u.Grows v) : t.Grows v where
  wellKeyed := huv.wellKeyed ∘ htu.wellKeyed
  ids := htu.ids.trans huv.ids
  entries := by
    intro id e he
    obtain ⟨e', he', h⟩ := htu.entries id e he
    obtain ⟨e'', he'', h'⟩ := huv.entries id e' he'
    exact ⟨e'', he'', h'.propertyId.trans h.propertyId, h.filters.trans h'.filters,
      fun c hc => h'.sort c (h.sort c hc)⟩

theorem append {e : Entry P} (hnew : t.find? e.propertyId = none) :
    t.Grows { t with entries := t.entries ++ [(e.propertyId, e)] } where
  wellKeyed := by
    intro ht
    have hkey : e.propertyId ∉ Keyed.keys t.entries := Keyed.lookup_eq_none_iff.mp hnew
    refine ⟨List.forall_mem_append.mpr ⟨ht.propertyId, by simp⟩, ?_⟩
    rw [propertyIds, Keyed.keys, List.map_append]
    exact List.nodup_append_comm.mp (List.nodup_cons.mpr ⟨hkey, ht.nodup⟩)
  ids := by
    rw [propertyIds, propertyIds, Keyed.keys, Keyed.keys, List.map_append]
    exact List.prefix_append _ _
  entries := by
    intro id e' he'
    have hold : t.entries.lookup id = some e' := he'
    refine ⟨e', ?_, rfl, List.prefix_rfl, fun _ hc => hc⟩
    rw [find?, List.lookup_append, hold]
    rfl

theorem update {id : String} {f : Entry P → Entry P} (hf : ∀ e, t.find? id = some e → e.Grows (f e)) :
    t.Grows { t with entries := Keyed.update id f t.entries } where
  wellKeyed := by
    intro ht
    refine ⟨?_, ?_⟩
    · rintro ⟨key, e⟩ hmem
      obtain ⟨⟨k, v⟩, hv, heq⟩ := List.mem_map.mp hmem
      have hkey : v.propertyId = k := ht.propertyId (k, v) hv
      by_cases hk : k = id
      · subst hk
        simp only [if_true, Prod.mk.injEq] at heq
        obtain ⟨rfl, rfl⟩ := heq
        exact (hf v (ht.find?_of_mem hv)).propertyId.trans hkey
      · simp only [if_neg hk, Prod.mk.injEq] at heq
        obtain ⟨rfl, rfl⟩ := heq
        exact hkey
    · rw [propertyIds, Keyed.keys_update]
      exact ht.nodup
  ids := by
    have hids : Keyed.keys (Keyed.update id f t.entries) = t.propertyIds :=
      Keyed.keys_update id f t.entries
    exact hids ▸ List.prefix_rfl
  entries := by
    intro other e he
    by_cases hother : other = id
    · subst hother
      refine ⟨f e, ?_, hf e he⟩
      rw [find?, Keyed.lookup_update_self, ← find?, he]
      rfl
    · refine ⟨e, ?_, rfl, List.prefix_rfl, fun _ hc => hc⟩
      rw [find?, Keyed.lookup_update_of_ne hother]
      exact he

end Grows

/-- The entry of an id, which is empty as long as there is none. -/
def entryOf (t : TransferObject P) (id : String) : Entry P := (t.find? id).getD (.empty id)

section Steps

variable {t : TransferObject P} {id : String} {c : SortCriterion}

theorem isSome_find?_iff : (t.find? id).isSome = true ↔ id ∈ t.propertyIds := by
  rw [← not_iff_not, Option.not_isSome_iff_eq_none]
  exact Keyed.lookup_eq_none_iff

theorem find?_ensure_self (t : TransferObject P) (id : String) :
    (t.ensure id).find? id = some (t.entryOf id) := by
  unfold ensure entryOf
  cases h : t.find? id with
  | some e => simp [h]
  | none =>
    have hnone : t.entries.lookup id = none := h
    simp [find?, List.lookup_append, hnone]

theorem find?_of_isSome_sort (h : (t.entryOf id).sort.isSome = true) :
    t.find? id = some (t.entryOf id) := by
  unfold entryOf at h ⊢
  cases he : t.find? id with
  | some e => rfl
  | none =>
    rw [he] at h
    cases h

theorem grows_ensure (t : TransferObject P) (id : String) : t.Grows (t.ensure id) := by
  unfold ensure
  split
  · exact .refl t
  · rename_i h
    exact .append (e := .empty id) (Option.not_isSome_iff_eq_none.mp h)

theorem add_of_mem {e : Entry P} (h : e.propertyId ∈ t.propertyIds) :
    t.add e = (t, .error (.duplicatePropertyId e.propertyId)) := by
  rw [add, if_pos (isSome_find?_iff.mpr h)]

theorem add_of_notMem {e : Entry P} (h : e.propertyId ∉ t.propertyIds) :
    t.add e = ({ t with entries := t.entries ++ [(e.propertyId, e)] }, .ok ()) := by
  rw [add, if_neg (mt isSome_find?_iff.mp h)]

/-- A second sort is refused. The entry is there already, hence none is made. -/
theorem setSort_of_isSome (hs : (t.entryOf id).sort.isSome = true) :
    t.setSort id c = (t, .error (.sortAlreadyAssigned (t.entryOf id).propertyId)) := by
  have hensure : t.ensure id = t := by
    rw [ensure, find?_of_isSome_sort hs]
    rfl
  rw [setSort, find?_ensure_self, hensure, Option.getD_some, Entry.setSort, if_pos hs]

theorem setSort_of_isNone (hs : (t.entryOf id).sort = none) :
    t.setSort id c = ({ t.ensure id with
      entries := Keyed.update id (fun _ => { t.entryOf id with sort := some c })
        (t.ensure id).entries }, .ok ()) := by
  rw [setSort, find?_ensure_self, Option.getD_some, Entry.setSort, hs]
  rfl

theorem grows_setSort (t : TransferObject P) (id : String) (c : SortCriterion) :
    t.Grows (t.setSort id c).1 := by
  cases hs : (t.entryOf id).sort with
  | none =>
    rw [setSort_of_isNone hs]
    refine (grows_ensure t id).trans (.update ?_)
    intro e he
    rw [find?_ensure_self, Option.some.injEq] at he
    subst he
    refine ⟨rfl, List.prefix_rfl, fun old hold => ?_⟩
    rw [hs] at hold
    cases hold
  | some old =>
    rw [setSort_of_isSome (by rw [hs]; rfl)]
    exact .refl t

theorem grows_perform (t : TransferObject P) (op : Operation P) : t.Grows (t.perform op).1 := by
  cases op with
  | getOrCreate id => exact grows_ensure t id
  | add e =>
    rw [perform]
    by_cases h : e.propertyId ∈ t.propertyIds
    · rw [add_of_mem h]
      exact .refl t
    · rw [add_of_notMem h]
      exact .append (Keyed.lookup_eq_none_iff.mpr h)
  | addFilter id c =>
    refine (grows_ensure t id).trans (.update ?_)
    intro e _
    exact ⟨rfl, List.prefix_append _ _, fun _ hc => hc⟩
  | setSort id c => exact grows_setSort t id c
  | withPaging | setFirstResult | setMaxResults => exact .of_entries_eq rfl

theorem perform_eq_error_iff {op : Operation P} {err : CriteriaError} :
    (t.perform op).2 = .error err ↔
      (∃ e, op = .add e ∧ e.propertyId ∈ t.propertyIds ∧
        .duplicatePropertyId e.propertyId = err) ∨
      ∃ id c, op = .setSort id c ∧ (t.entryOf id).sort.isSome = true ∧
        .sortAlreadyAssigned (t.entryOf id).propertyId = err := by
  cases op with
  | add e =>
    rw [perform]
    by_cases h : e.propertyId ∈ t.propertyIds
    · rw [add_of_mem h]
      simp [h]
    · rw [add_of_notMem h]
      simp [h]
  | setSort id c =>
    rw [perform]
    cases hs : (t.entryOf id).sort with
    | none =>
      rw [setSort_of_isNone hs]
      simp [hs]
    | some old =>
      rw [setSort_of_isSome (by rw [hs]; rfl)]
      simp [hs]
  | getOrCreate | addFilter | withPaging | setFirstResult | setMaxResults => simp [perform]

/-- An operation that fails changes nothing. -/
theorem perform_of_error {op : Operation P} {err : CriteriaError}
    (h : (t.perform op).2 = .error err) : (t.perform op).1 = t := by
  rcases perform_eq_error_iff.mp h with ⟨e, rfl, hmem, -⟩ | ⟨id, c, rfl, hs, -⟩
  · rw [perform, add_of_mem hmem]
  · rw [perform, setSort_of_isSome hs]

end Steps

section Views

variable {t : TransferObject P} {id other : String}

theorem entryOf_append {e : Entry P} (hnew : e.propertyId ∉ t.propertyIds) :
    entryOf { t with entries := t.entries ++ [(e.propertyId, e)] } id =
      if id = e.propertyId then e else t.entryOf id := by
  have hnone : t.entries.lookup e.propertyId = none := Keyed.lookup_eq_none_iff.mpr hnew
  unfold entryOf find?
  rw [List.lookup_append]
  split
  · rename_i h
    simp [h, hnone]
  · rename_i h
    have hne : (id == e.propertyId) = false := beq_eq_false_iff_ne.mpr h
    simp [List.lookup_cons, hne]

theorem entryOf_update {f : Entry P → Entry P} (hid : id ∈ t.propertyIds) :
    entryOf { t with entries := Keyed.update id f t.entries } other =
      if other = id then f (t.entryOf id) else t.entryOf other := by
  unfold entryOf find?
  split
  · rename_i h
    obtain ⟨e, he⟩ := Option.isSome_iff_exists.mp (isSome_find?_iff.mpr hid)
    have hlookup : t.entries.lookup id = some e := he
    simp [h, Keyed.lookup_update_self, hlookup]
  · rename_i h
    rw [Keyed.lookup_update_of_ne h]

theorem entryOf_of_notMem (h : id ∉ t.propertyIds) : t.entryOf id = .empty id := by
  rw [entryOf, find?, Keyed.lookup_eq_none_iff.mpr h]
  rfl

theorem entryOf_ensure : (t.ensure id).entryOf other = t.entryOf other := by
  unfold ensure
  split
  · rfl
  · rename_i h
    have hnew : id ∉ t.propertyIds := mt isSome_find?_iff.mpr h
    refine (entryOf_append (e := .empty id) hnew).trans ?_
    split
    · rename_i hother
      rw [hother]
      exact (entryOf_of_notMem hnew).symm
    · rfl

theorem mem_propertyIds_ensure : id ∈ (t.ensure id).propertyIds := by
  rw [← isSome_find?_iff, find?_ensure_self]
  rfl

theorem entryOf_addFilter {c : FilterCriterion P} : (t.addFilter id c).entryOf other =
    if other = id then (t.entryOf id).addFilter c else t.entryOf other := by
  rw [addFilter, entryOf_update mem_propertyIds_ensure, entryOf_ensure, entryOf_ensure]

theorem entryOf_setSort {c : SortCriterion} (hs : (t.entryOf id).sort = none) :
    (t.setSort id c).1.entryOf other =
      if other = id then { t.entryOf id with sort := some c } else t.entryOf other := by
  rw [setSort_of_isNone hs, entryOf_update mem_propertyIds_ensure, entryOf_ensure]

end Views

def Operation.setsSort (id : String) : Operation P → Bool
  | .setSort id' _ => id' == id
  | _ => false

def Operation.addsSort (id : String) : Operation P → Bool
  | .add e => e.propertyId == id && e.sort.isSome
  | _ => false

/-- The operations of a run that succeed. -/
def succeeded : TransferObject P → List (Operation P) → List (Operation P)
  | _, [] => []
  | t, op :: rest =>
    match t.perform op with
    | (u, .ok ()) => op :: succeeded u rest
    | (u, .error _) => succeeded u rest

section Sorts

variable (t : TransferObject P) (id : String)

/-- How often an id has a sort, which is once at most. -/
def sortCount : Nat := if (t.entryOf id).sort.isSome then 1 else 0

variable {t id}

theorem sortCount_congr {u : TransferObject P} (h : (u.entryOf id).sort = (t.entryOf id).sort) :
    u.sortCount id = t.sortCount id := by
  rw [sortCount, sortCount, h]

/-- A sort is counted when an operation gives it. -/
theorem sortCount_perform {op : Operation P} {u : TransferObject P}
    (h : t.perform op = (u, .ok ())) : u.sortCount id = t.sortCount id +
      ((if op.setsSort id then 1 else 0) + if op.addsSort id then 1 else 0) := by
  cases op with
  | add e =>
    rw [perform] at h
    by_cases hmem : e.propertyId ∈ t.propertyIds
    · rw [add_of_mem hmem] at h
      cases h
    · rw [add_of_notMem hmem] at h
      cases h
      rw [sortCount, entryOf_append hmem]
      by_cases hid : id = e.propertyId
      · -- The id is new, so nothing was counted for it before.
        subst hid
        simp [sortCount, entryOf_of_notMem hmem, Entry.empty, Operation.setsSort,
          Operation.addsSort]
      · simp [sortCount, hid, Ne.symm hid, Operation.setsSort, Operation.addsSort]
  | setSort key c =>
    rw [perform] at h
    cases hs : (t.entryOf key).sort with
    | some old =>
      rw [setSort_of_isSome (by rw [hs]; rfl)] at h
      cases h
    | none =>
      have hu : u = (t.setSort key c).1 := by rw [h]
      rw [hu, sortCount, entryOf_setSort hs]
      by_cases hid : id = key
      · subst hid
        simp [sortCount, hs, Operation.setsSort, Operation.addsSort]
      · simp [sortCount, hid, Ne.symm hid, Operation.setsSort, Operation.addsSort]
  | addFilter key c =>
    cases h
    refine sortCount_congr ?_
    rw [entryOf_addFilter]
    split
    · rename_i hid
      rw [hid]
      rfl
    · rfl
  | getOrCreate key =>
    cases h
    exact sortCount_congr (by rw [entryOf_ensure])
  | withPaging | setFirstResult | setMaxResults =>
    cases h
    rfl

theorem sortCount_run (ops : List (Operation P)) :
    (t.run ops).sortCount id = t.sortCount id +
      ((t.succeeded ops).countP (·.setsSort id) + (t.succeeded ops).countP (·.addsSort id)) := by
  induction ops generalizing t with
  | nil => rfl
  | cons op rest ih =>
    rw [run, List.foldl_cons, ← run, ih, succeeded]
    rcases h : t.perform op with ⟨u, err | done⟩
    · have hanswer : (t.perform op).2 = .error err := by rw [h]
      have hu : u = t := by
        have herror := perform_of_error hanswer
        rwa [h] at herror
      rw [hu]
    · dsimp only
      rw [sortCount_perform h, List.countP_cons, List.countP_cons]
      omega

end Sorts

theorem run_append (t : TransferObject P) (ops more : List (Operation P)) :
    t.run (ops ++ more) = (t.run ops).run more := by
  rw [run, List.foldl_append, ← run, ← run]

theorem grows_run (t : TransferObject P) (ops : List (Operation P)) : t.Grows (t.run ops) := by
  induction ops generalizing t with
  | nil => exact .refl t
  | cons op rest ih => exact (grows_perform t op).trans (ih (t.perform op).1)

theorem wellKeyed_empty : (empty : TransferObject P).WellKeyed := by
  refine ⟨?_, List.nodup_nil⟩
  intro entry hentry
  cases hentry

theorem WellKeyed.propertyId_entryOf {t : TransferObject P} (h : t.WellKeyed) (id : String) :
    (t.entryOf id).propertyId = id := by
  unfold entryOf
  cases he : t.find? id with
  | none => rfl
  | some e =>
    obtain ⟨before, after, hentries, -⟩ := List.lookup_eq_some_iff.mp he
    exact h.propertyId (id, e) (by rw [hentries]; simp)

/-- Whatever operations a client performs, failed ones included, every entry stands under its own
property id and only grows: ids keep their places, filters follow filters, and a sort stays. An
operation fails only if its id or its sort is there, and then it changes nothing. -/
theorem run_only_grows (ops more : List (Operation P)) :
    let t := (empty : TransferObject P).run ops
    let u := (empty : TransferObject P).run (ops ++ more)
    (∀ entry ∈ t.entries, entry.2.propertyId = entry.1) ∧
    t.propertyIds.Nodup ∧
    t.propertyIds <+: u.propertyIds ∧
    (∀ id e, t.find? id = some e → ∃ e', u.find? id = some e' ∧ e.filters <+: e'.filters ∧
      ∀ c, e.sort = some c → e'.sort = some c) ∧
    (∀ id, (empty.succeeded ops).countP (·.setsSort id) +
      (empty.succeeded ops).countP (·.addsSort id) =
        if (t.entryOf id).sort.isSome then 1 else 0) ∧
    (∀ op err, (t.perform op).2 = .error err → (t.perform op).1 = t) ∧
    (∀ op err, (t.perform op).2 = .error err ↔
      (∃ e, op = .add e ∧ e.propertyId ∈ t.propertyIds ∧
        .duplicatePropertyId e.propertyId = err) ∨
      ∃ id c, op = .setSort id c ∧ (t.entryOf id).sort.isSome = true ∧
        .sortAlreadyAssigned id = err) := by
  intro t u
  have ht : t.WellKeyed := (grows_run empty ops).wellKeyed wellKeyed_empty
  have hu : t.Grows u := by
    have hrun : u = t.run more := run_append empty ops more
    rw [hrun]
    exact grows_run t more
  refine ⟨ht.propertyId, ht.nodup, hu.ids, ?_, ?_, fun op err => perform_of_error, ?_⟩
  · intro id e he
    obtain ⟨e', he', h⟩ := hu.entries id e he
    exact ⟨e', he', h.filters, h.sort⟩
  · intro id
    have hcount : t.sortCount id = (empty : TransferObject P).sortCount id +
        ((empty.succeeded ops).countP (·.setsSort id) +
          (empty.succeeded ops).countP (·.addsSort id)) := sortCount_run ops
    have hzero : (empty : TransferObject P).sortCount id = 0 := rfl
    rw [hzero, Nat.zero_add] at hcount
    exact hcount.symm
  · intro op err
    rw [perform_eq_error_iff]
    simp only [ht.propertyId_entryOf]

end TransferObject
end QueryCriteria
