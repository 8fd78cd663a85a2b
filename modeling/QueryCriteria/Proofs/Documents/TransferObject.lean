import QueryCriteria.Documents.TransferObject
import QueryCriteria.Proofs.Documents.Criterion

/-!
# Resolution of documents

A document gives a transfer object exactly if no property id is repeated and every criterion is well
formed. The criteria of a document are taken entry by entry. If a property id is repeated, the first
repetition is the error; else it is the refusal of the first criterion that is not well formed. The
transfer object can also be built by the operations on transfer objects, and none of them refuses.
-/
namespace QueryCriteria

namespace Keyed

theorem firstRepeated?_eq_some_iff {seen keys : List String} {key : String} :
    firstRepeated? seen keys = some key ↔
      ∃ before after, keys = before ++ key :: after ∧ before.Nodup ∧
        (∀ k ∈ before, k ∉ seen) ∧ (key ∈ seen ∨ key ∈ before) := by
  induction keys generalizing seen with
  | nil => simp [firstRepeated?]
  | cons first rest ih =>
    rw [firstRepeated?]
    split
    · rename_i hseen
      constructor
      · intro h
        cases h
        exact ⟨[], rest, rfl, .nil, by simp, .inl hseen⟩
      · rintro ⟨before, after, hkeys, -, hunseen, -⟩
        rcases List.cons_eq_append_iff.mp hkeys with ⟨rfl, heq⟩ | ⟨before, rfl, -⟩
        · cases heq
          rfl
        · exact absurd hseen (hunseen first List.mem_cons_self)
    · rename_i hunseen
      -- Below, `first` is among the keys seen; here it becomes the first of those before.
      rw [ih]
      constructor
      · rintro ⟨before, after, rfl, hnodup, hbefore, hkey⟩
        have hfirst : first ∉ before := fun h => hbefore first h List.mem_cons_self
        refine ⟨first :: before, after, rfl, List.nodup_cons.mpr ⟨hfirst, hnodup⟩, ?_, ?_⟩
        · refine List.forall_mem_cons.mpr ⟨hunseen, fun k hk hmem => ?_⟩
          exact hbefore k hk (List.mem_cons_of_mem _ hmem)
        · simp only [List.mem_cons] at hkey ⊢
          tauto
      · rintro ⟨before, after, hkeys, hnodup, hbefore, hkey⟩
        rcases List.cons_eq_append_iff.mp hkeys with ⟨rfl, heq⟩ | ⟨before, rfl, hrest⟩
        · cases heq
          simp [hunseen] at hkey
        · obtain ⟨hfirst, hnodup⟩ := List.nodup_cons.mp hnodup
          refine ⟨before, after, hrest, hnodup, ?_, ?_⟩
          · intro k hk hmem
            rcases List.mem_cons.mp hmem with rfl | hmem
            · exact hfirst hk
            · exact hbefore k (List.mem_cons_of_mem _ hk) hmem
          · simp only [List.mem_cons] at hkey ⊢
            tauto

theorem firstRepeated?_eq_none_iff {seen keys : List String} :
    firstRepeated? seen keys = none ↔ keys.Nodup ∧ ∀ k ∈ keys, k ∉ seen := by
  induction keys generalizing seen with
  | nil => simp [firstRepeated?]
  | cons first rest ih =>
    rw [firstRepeated?]
    split
    · rename_i hseen
      simp [hseen]
    · rename_i hunseen
      rw [ih, List.nodup_cons, List.forall_mem_cons]
      simp only [List.mem_cons, not_or]
      constructor
      · rintro ⟨hnodup, hrest⟩
        exact ⟨⟨fun h => (hrest first h).1 rfl, hnodup⟩, hunseen, fun k hk => (hrest k hk).2⟩
      · rintro ⟨⟨hfirst, hnodup⟩, -, hrest⟩
        refine ⟨hnodup, fun k hk => ⟨?_, hrest k hk⟩⟩
        rintro rfl
        exact hfirst hk

/-- The key that is the first to occur again. -/
def FirstRepeated (keys : List String) (key : String) : Prop :=
  ∃ before after, keys = before ++ key :: after ∧ before.Nodup ∧ key ∈ before

theorem firstRepeated?_nil_eq_some_iff {keys : List String} {key : String} :
    firstRepeated? [] keys = some key ↔ FirstRepeated keys key := by
  rw [firstRepeated?_eq_some_iff, FirstRepeated]
  simp

theorem firstRepeated?_nil_eq_none_iff {keys : List String} :
    firstRepeated? [] keys = none ↔ keys.Nodup := by
  rw [firstRepeated?_eq_none_iff]
  simp

end Keyed

variable {P : Type} {r : Registry P}

def documentOrder (entries : List (String × RawEntry)) : List (String × RawCriterion) :=
  entries.flatMap fun (id, e) => e.criteria.map (id, ·)

theorem mem_keys_of_mem_documentOrder {entries : List (String × RawEntry)} {id : String}
    {c : RawCriterion} (h : (id, c) ∈ documentOrder entries) : id ∈ Keyed.keys entries := by
  obtain ⟨entry, hentry, hc⟩ := List.mem_flatMap.mp h
  obtain ⟨c', -, heq⟩ := List.mem_map.mp hc
  cases heq
  exact List.mem_map.mpr ⟨entry, hentry, rfl⟩

namespace RawTransferObject

section Entries

variable {entries : List (String × RawEntry)}

theorem resolveEntries_eq_mapM (entries : List (String × RawEntry)) :
    resolveEntries r entries =
      entries.mapM fun entry => (entry.2.resolve r entry.1).map (entry.1, ·) := by
  induction entries with
  | nil => rfl
  | cons entry rest ih =>
    rw [resolveEntries, ih, List.mapM_cons]
    cases entry.2.resolve r entry.1 <;> rfl

theorem resolveEntries_eq_ok_iff {resolved : List (String × Entry P)} :
    resolveEntries r entries = .ok resolved ↔
      List.Forall₂ (fun entry resolved => entry.2.Gives r entry.1 resolved.2 ∧
        entry.1 = resolved.1) entries resolved := by
  rw [resolveEntries_eq_mapM, mapM_eq_ok_iff]
  simp only [map_eq_ok_iff, RawEntry.resolve_eq_ok_iff, Prod.ext_iff, exists_eq_right_right]

theorem exists_resolveEntries_eq_ok_iff :
    (∃ resolved, resolveEntries r entries = .ok resolved) ↔
      ∀ entry ∈ documentOrder entries, entry.2.WellFormed r := by
  have hentry : ∀ entry : String × RawEntry,
      (∃ resolved, (entry.2.resolve r entry.1).map (entry.1, ·) = .ok resolved) ↔
        ∀ c ∈ entry.2.criteria, c.WellFormed r := by
    intro entry
    rw [← RawEntry.exists_resolve_eq_ok_iff entry.1]
    simp only [map_eq_ok_iff]
    exact ⟨fun ⟨_, e, he, _⟩ => ⟨e, he⟩, fun ⟨e, he⟩ => ⟨_, e, he, rfl⟩⟩
  rw [resolveEntries_eq_mapM, exists_mapM_eq_ok_iff]
  simp only [hentry, documentOrder, List.forall_mem_flatMap, List.forall_mem_map]

theorem resolveEntries_eq_error_iff {e : CriteriaError} :
    resolveEntries r entries = .error e ↔ FirstRefused r (documentOrder entries) e := by
  induction entries with
  | nil => simp [resolveEntries, documentOrder, not_firstRefused_nil]
  | cons entry rest ih =>
    have horder : documentOrder (entry :: rest) =
        entry.2.criteria.map (entry.1, ·) ++ documentOrder rest := rfl
    rw [horder, firstRefused_append_iff, ← ih, ← RawEntry.resolve_eq_error_iff, List.forall_mem_map,
      ← RawEntry.exists_resolve_eq_ok_iff entry.1, resolveEntries]
    simp only [bind_eq_error_iff, pure_ne_error, and_false, exists_false, or_false]
    rw [exists_and_right]

end Entries

/-- A transfer object with one more entry of a document; a second entry of an id is refused. -/
def addEntry (r : Registry P) (u : TransferObject P) (entry : String × RawEntry) :
    Except CriteriaError (TransferObject P) := do
  match u.add (← entry.2.build r entry.1) with
  | (u, .ok ()) => return u
  | (_, .error e) => .error e

/-- The transfer object built by its operations, entry by entry. -/
def build (t : RawTransferObject) (r : Registry P) : Except CriteriaError (TransferObject P) :=
  match Keyed.firstRepeated? [] t.propertyIds with
  | some id => .error (.duplicatePropertyId id)
  | none => t.criteria.foldlM (addEntry r)
    (TransferObject.empty.withPaging t.firstResult t.maxResults)

/-- Entries with new ids that differ from each other are added one by one, and none is refused. -/
theorem foldlM_addEntry {entries : List (String × RawEntry)} {u : TransferObject P}
    (hnodup : (Keyed.keys entries).Nodup) (hnew : ∀ key ∈ Keyed.keys entries, u.find? key = none) :
    entries.foldlM (addEntry r) u =
      (resolveEntries r entries).map fun added => { u with entries := u.entries ++ added } := by
  induction entries generalizing u with
  | nil => simp [resolveEntries, Except.map, pure, Except.pure]
  | cons entry rest ih =>
    obtain ⟨id, e⟩ := entry
    obtain ⟨hid, hnodup⟩ := List.nodup_cons.mp hnodup
    obtain ⟨hfresh, hnew⟩ := List.forall_mem_cons.mp hnew
    rw [List.foldlM_cons, resolveEntries, addEntry, RawEntry.build_eq_resolve]
    cases hentry : e.resolve r id with
    | error err => rfl
    | ok first =>
      have hpropertyId : first.propertyId = id := (RawEntry.resolve_eq_ok_iff.mp hentry).propertyId
      have hadd : u.add first = ({ u with entries := u.entries ++ [(id, first)] }, .ok ()) := by
        rw [TransferObject.add, hpropertyId, hfresh]
        rfl
      -- The later ids stay new, since the one just added is none of them.
      have hrest : ∀ key ∈ Keyed.keys rest,
          TransferObject.find? { u with entries := u.entries ++ [(id, first)] } key = none := by
        intro key hkey
        have hne : (key == id) = false := beq_eq_false_iff_ne.mpr fun h => hid (h ▸ hkey)
        have hold : u.entries.lookup key = none := hnew key hkey
        simp [TransferObject.find?, List.lookup_append, hold, List.lookup_cons, hne]
      simp only [bind, Except.bind, hadd, pure, Except.pure]
      rw [ih hnodup hrest]
      cases resolveEntries r rest with
      | error err => rfl
      | ok others => simp [Except.map]

theorem build_eq_resolve (t : RawTransferObject) (r : Registry P) : t.build r = t.resolve r := by
  unfold build resolve
  cases hrepeated : Keyed.firstRepeated? [] t.propertyIds with
  | some id => rfl
  | none =>
    have hnodup := Keyed.firstRepeated?_nil_eq_none_iff.mp hrepeated
    have hempty : ∀ key ∈ Keyed.keys t.criteria, TransferObject.find?
        ((TransferObject.empty : TransferObject P).withPaging t.firstResult t.maxResults) key =
          none := by
      intro key hkey
      rfl
    dsimp only
    rw [foldlM_addEntry hnodup hempty]
    cases resolveEntries r t.criteria <;> rfl

structure Gives (r : Registry P) (t : RawTransferObject) (u : TransferObject P) : Prop where
  firstResult : u.firstResult = t.firstResult
  maxResults : u.maxResults = t.maxResults
  entries : List.Forall₂ (fun entry resolved => entry.2.Gives r entry.1 resolved.2 ∧
    entry.1 = resolved.1) t.criteria u.entries

theorem Gives.propertyIds {t : RawTransferObject} {u : TransferObject P} (h : t.Gives r u) :
    u.propertyIds = t.propertyIds := by
  have hkeys : List.Forall₂ Eq (t.criteria.map Prod.fst) (u.entries.map Prod.fst) :=
    List.rel_map (fun _ _ hentry => hentry.2) h.entries
  rw [List.forall₂_eq_eq_eq] at hkeys
  exact hkeys.symm

section Resolve

variable {t : RawTransferObject}

/-- A document without a repeated property id is resolved entry by entry. -/
theorem resolve_of_nodup (h : t.propertyIds.Nodup) : t.resolve r =
    (resolveEntries r t.criteria).map fun entries => ⟨t.firstResult, t.maxResults, entries⟩ := by
  unfold resolve
  rw [Keyed.firstRepeated?_nil_eq_none_iff.mpr h]
  cases resolveEntries r t.criteria <;> rfl

theorem resolve_of_not_nodup (h : ¬ t.propertyIds.Nodup) :
    ∃ id, Keyed.FirstRepeated t.propertyIds id ∧
      t.resolve r = .error (.duplicatePropertyId id) := by
  rw [← Keyed.firstRepeated?_nil_eq_none_iff] at h
  obtain ⟨id, hid⟩ := Option.ne_none_iff_exists'.mp h
  exact ⟨id, Keyed.firstRepeated?_nil_eq_some_iff.mp hid, by rw [resolve, hid]⟩

theorem resolve_eq_ok_iff {u : TransferObject P} :
    t.resolve r = .ok u ↔ t.propertyIds.Nodup ∧ t.Gives r u := by
  by_cases hnodup : t.propertyIds.Nodup
  · rw [resolve_of_nodup hnodup, map_eq_ok_iff, and_iff_right hnodup]
    simp only [resolveEntries_eq_ok_iff]
    constructor
    · rintro ⟨entries, hentries, rfl⟩
      exact ⟨rfl, rfl, hentries⟩
    · rintro ⟨hfirst, hmax, hentries⟩
      exact ⟨u.entries, hentries, by rw [← hfirst, ← hmax]⟩
  · obtain ⟨id, -, herror⟩ := resolve_of_not_nodup (r := r) hnodup
    rw [herror]
    simp [hnodup]

theorem exists_resolve_eq_ok_iff :
    (∃ u, t.resolve r = .ok u) ↔
      t.propertyIds.Nodup ∧ ∀ entry ∈ documentOrder t.criteria, entry.2.WellFormed r := by
  by_cases hnodup : t.propertyIds.Nodup
  · rw [resolve_of_nodup hnodup, and_iff_right hnodup, ← exists_resolveEntries_eq_ok_iff]
    simp only [map_eq_ok_iff]
    exact ⟨fun ⟨_, entries, h, _⟩ => ⟨entries, h⟩, fun ⟨entries, h⟩ => ⟨_, entries, h, rfl⟩⟩
  · obtain ⟨id, -, herror⟩ := resolve_of_not_nodup (r := r) hnodup
    rw [herror]
    simp [hnodup]

theorem resolve_eq_error_iff {e : CriteriaError} :
    t.resolve r = .error e ↔
      (∃ id, Keyed.FirstRepeated t.propertyIds id ∧ e = .duplicatePropertyId id) ∨
        t.propertyIds.Nodup ∧ FirstRefused r (documentOrder t.criteria) e := by
  by_cases hnodup : t.propertyIds.Nodup
  · have hnone : ∀ id, ¬ Keyed.FirstRepeated t.propertyIds id := by
      intro id hid
      rw [← Keyed.firstRepeated?_nil_eq_some_iff,
        Keyed.firstRepeated?_nil_eq_none_iff.mpr hnodup] at hid
      cases hid
    rw [resolve_of_nodup hnodup, map_eq_error_iff, resolveEntries_eq_error_iff]
    simp [hnone, hnodup]
  · obtain ⟨id, hid, herror⟩ := resolve_of_not_nodup (r := r) hnodup
    rw [herror]
    constructor
    · intro h
      cases h
      exact .inl ⟨id, hid, rfl⟩
    · rintro (⟨id', hid', rfl⟩ | ⟨h, -⟩)
      · rw [← Keyed.firstRepeated?_nil_eq_some_iff] at hid hid'
        rw [hid, Option.some.injEq] at hid'
        rw [hid']
      · exact absurd h hnodup

end Resolve

/-- A document gives a transfer object exactly if its property ids differ and its criteria are well
formed. The error is the first repeated id, or else the refusal of the first criterion in order.
Building the transfer object by its operations makes no difference. -/
theorem resolve_by_document_order (t : RawTransferObject) (r : Registry P) :
    ((∃ u, t.resolve r = .ok u) ↔
      t.propertyIds.Nodup ∧ ∀ entry ∈ documentOrder t.criteria, entry.2.WellFormed r) ∧
    (∀ u, t.resolve r = .ok u ↔ t.propertyIds.Nodup ∧ t.Gives r u) ∧
    (∀ u, t.resolve r = .ok u → u.propertyIds = t.propertyIds) ∧
    (∀ e, t.resolve r = .error e ↔
      (∃ id, Keyed.FirstRepeated t.propertyIds id ∧ e = .duplicatePropertyId id) ∨
        t.propertyIds.Nodup ∧ FirstRefused r (documentOrder t.criteria) e) ∧
    (∀ e, t.resolve r = .error e →
      (∃ id, e = .duplicatePropertyId id) ∨ (∃ id reason, e = .invalidCriterion id reason) ∨
        (∃ name, e = .unknownProvider name) ∨ ∃ path reason, e = .invalidPropertyPath path reason) ∧
    t.build r = t.resolve r := by
  refine ⟨exists_resolve_eq_ok_iff, fun u => resolve_eq_ok_iff, ?_, fun e => resolve_eq_error_iff,
    ?_, t.build_eq_resolve r⟩
  · intro u hu
    exact (resolve_eq_ok_iff.mp hu).2.propertyIds
  · intro e he
    rcases resolve_eq_error_iff.mp he with ⟨id, -, rfl⟩ | ⟨-, before, id, c, after, -, -, hrefused⟩
    · exact .inl ⟨id, rfl⟩
    · exact .inr hrefused.error_cases

end RawTransferObject
end QueryCriteria
