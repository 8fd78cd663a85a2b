import QueryCriteria.Documents.Criterion
import QueryCriteria.Proofs.Documents.Target

/-!
# Well-formed criteria

A filter can be resolved if it has no unknown member, names a registered provider and has a
well-formed target; a sort needs no provider. In an entry the filters stand before the sort, and the
first criterion of this order that is not well formed is the one that is refused. An entry can also
be built by its operations. They might refuse a sort, but never do.
-/
namespace QueryCriteria

open Json

variable {P : Type} {r : Registry P} {id : String}

namespace RawFilter

/-- A filter that can be resolved with the providers of a registry. -/
structure WellFormed (r : Registry P) (f : RawFilter) : Prop where
  known : RawTarget.Known f.others
  provider : ∃ provider, r.find? f.provider = some provider
  target : f.target.WellFormed

structure Gives (r : Registry P) (f : RawFilter) (c : FilterCriterion P) : Prop where
  known : RawTarget.Known f.others
  provider : r.find? f.provider = some c.provider
  target : f.target.Addresses c.target
  valuePaths : c.valuePaths = f.valuePaths
  directValues : c.directValues = f.directValues

/-- Why a filter of a property id is refused. An unknown member counts before an unknown provider,
and this before the target. -/
inductive Refused (r : Registry P) (id : String) (f : RawFilter) : CriteriaError → Prop
  | unknownField {key : String} (h : RawTarget.FirstUnknown f.others key) :
    Refused r id f (.invalidCriterion id ("unknown field " ++ ticked key))
  | unknownProvider (known : RawTarget.Known f.others) (h : r.find? f.provider = none) :
    Refused r id f (.unknownProvider f.provider)
  | target {e : CriteriaError} (known : RawTarget.Known f.others)
    (provider : ∃ provider, r.find? f.provider = some provider) (h : f.target.Refused id e) :
    Refused r id f e

variable {f : RawFilter}

theorem resolve_eq_ok_iff {c : FilterCriterion P} : f.resolve r id = .ok c ↔ f.Gives r c := by
  unfold resolve
  rw [bind_eq_ok_iff]
  constructor
  · rintro ⟨done, hknown, h⟩
    cases hprovider : r.find? f.provider with
    | none =>
      rw [hprovider] at h
      cases h
    | some provider =>
      rw [hprovider] at h
      obtain ⟨target, htarget, hc⟩ := bind_eq_ok_iff.mp h
      cases hc
      exact ⟨RawTarget.checkOthers_eq_ok_iff.mp hknown, hprovider,
        RawTarget.toPropertyPath_eq_ok_iff.mp htarget, rfl, rfl⟩
  · rintro ⟨hknown, hprovider, htarget, hpaths, hvalues⟩
    refine ⟨(), RawTarget.checkOthers_eq_ok_iff.mpr hknown, ?_⟩
    simp only [hprovider, bind_eq_ok_iff, RawTarget.toPropertyPath_eq_ok_iff]
    exact ⟨c.target, htarget, by rw [← hpaths, ← hvalues]; rfl⟩

theorem resolve_eq_error_iff {e : CriteriaError} :
    f.resolve r id = .error e ↔ f.Refused r id e := by
  unfold resolve
  rw [bind_eq_error_iff, RawTarget.checkOthers_eq_error_iff]
  simp only [RawTarget.checkOthers_eq_ok_iff]
  constructor
  · rintro (⟨key, hkey, rfl⟩ | ⟨-, hknown, h⟩)
    · exact .unknownField hkey
    · cases hprovider : r.find? f.provider with
      | none =>
        rw [hprovider] at h
        cases h
        exact .unknownProvider hknown hprovider
      | some provider =>
        simp only [hprovider, bind_eq_error_iff, RawTarget.toPropertyPath_eq_error_iff,
          pure_ne_error, and_false, exists_false, or_false] at h
        exact .target hknown ⟨provider, hprovider⟩ h
  · intro h
    cases h with
    | unknownField hkey => exact .inl ⟨_, hkey, rfl⟩
    | unknownProvider hknown hprovider => exact .inr ⟨(), hknown, by rw [hprovider]⟩
    | target hknown hprovider htarget =>
      obtain ⟨provider, hprovider⟩ := hprovider
      refine .inr ⟨(), hknown, ?_⟩
      simp only [hprovider]
      exact bind_eq_error_iff.mpr (.inl (RawTarget.toPropertyPath_eq_error_iff.mpr htarget))

example : RawFilter.resolve (.empty : Registry Unit) "age"
    ⟨.empty, none, none, "eq", [("x", .null)]⟩ =
      .error (.invalidCriterion "age" "unknown field `x`") := rfl

theorem exists_resolve_eq_ok_iff (id : String) :
    (∃ c, f.resolve r id = .ok c) ↔ f.WellFormed r := by
  simp only [resolve_eq_ok_iff]
  constructor
  · rintro ⟨c, hc⟩
    exact ⟨hc.known, ⟨c.provider, hc.provider⟩, RawTarget.exists_addresses_iff.mp ⟨_, hc.target⟩⟩
  · rintro ⟨hknown, ⟨provider, hprovider⟩, hwell⟩
    obtain ⟨target, htarget⟩ := RawTarget.exists_addresses_iff.mpr hwell
    exact ⟨⟨target, f.valuePaths, f.directValues, provider⟩, hknown, hprovider, htarget, rfl, rfl⟩

end RawFilter

namespace RawSort

structure WellFormed (s : RawSort) : Prop where
  known : RawTarget.Known s.others
  target : s.target.WellFormed

structure Gives (s : RawSort) (c : SortCriterion) : Prop where
  known : RawTarget.Known s.others
  target : s.target.Addresses c.target
  ascending : c.ascending = s.ascending

inductive Refused (id : String) (s : RawSort) : CriteriaError → Prop
  | unknownField {key : String} (h : RawTarget.FirstUnknown s.others key) :
    Refused id s (.invalidCriterion id ("unknown field " ++ ticked key))
  | target {e : CriteriaError} (known : RawTarget.Known s.others) (h : s.target.Refused id e) :
    Refused id s e

variable {s : RawSort}

theorem resolve_eq_ok_iff {c : SortCriterion} : s.resolve id = .ok c ↔ s.Gives c := by
  unfold resolve
  simp only [bind_eq_ok_iff, RawTarget.checkOthers_eq_ok_iff, RawTarget.toPropertyPath_eq_ok_iff]
  constructor
  · rintro ⟨-, hknown, target, htarget, hc⟩
    cases hc
    exact ⟨hknown, htarget, rfl⟩
  · rintro ⟨hknown, htarget, hascending⟩
    exact ⟨(), hknown, c.target, htarget, by rw [← hascending]; rfl⟩

theorem resolve_eq_error_iff {e : CriteriaError} : s.resolve id = .error e ↔ s.Refused id e := by
  unfold resolve
  simp only [bind_eq_error_iff, RawTarget.checkOthers_eq_ok_iff,
    RawTarget.checkOthers_eq_error_iff, RawTarget.toPropertyPath_eq_error_iff, pure_ne_error,
    and_false, exists_false, or_false]
  constructor
  · rintro (⟨key, hkey, rfl⟩ | ⟨-, hknown, htarget⟩)
    · exact .unknownField hkey
    · exact .target hknown htarget
  · intro h
    cases h with
    | unknownField hkey => exact .inl ⟨_, hkey, rfl⟩
    | target hknown htarget => exact .inr ⟨(), hknown, htarget⟩

theorem exists_resolve_eq_ok_iff (id : String) : (∃ c, s.resolve id = .ok c) ↔ s.WellFormed := by
  simp only [resolve_eq_ok_iff]
  constructor
  · rintro ⟨c, hc⟩
    exact ⟨hc.known, RawTarget.exists_addresses_iff.mp ⟨_, hc.target⟩⟩
  · rintro ⟨hknown, hwell⟩
    obtain ⟨target, htarget⟩ := RawTarget.exists_addresses_iff.mpr hwell
    exact ⟨⟨target, s.ascending⟩, hknown, htarget, rfl⟩

end RawSort

inductive RawCriterion where
  | filter (f : RawFilter)
  | sort (s : RawSort)

def RawCriterion.WellFormed (r : Registry P) : RawCriterion → Prop
  | .filter f => f.WellFormed r
  | .sort s => s.WellFormed

def RawCriterion.Refused (r : Registry P) (id : String) : RawCriterion → CriteriaError → Prop
  | .filter f => f.Refused r id
  | .sort s => s.Refused id

theorem RawCriterion.Refused.error_cases {c : RawCriterion} {e : CriteriaError}
    (h : c.Refused r id e) :
    (∃ id reason, e = .invalidCriterion id reason) ∨ (∃ name, e = .unknownProvider name) ∨
      ∃ path reason, e = .invalidPropertyPath path reason := by
  cases c with
  | filter f =>
    cases h with
    | unknownField => exact .inl ⟨_, _, rfl⟩
    | unknownProvider => exact .inr (.inl ⟨_, rfl⟩)
    | target _ _ htarget => exact htarget.error_cases.imp_right .inr
  | sort s =>
    cases h with
    | unknownField => exact .inl ⟨_, _, rfl⟩
    | target _ htarget => exact htarget.error_cases.imp_right .inr

/-- The refusal of the first criterion that is not well formed. -/
def FirstRefused (r : Registry P) (criteria : List (String × RawCriterion)) (e : CriteriaError) :
    Prop :=
  ∃ before id c after, criteria = before ++ (id, c) :: after ∧
    (∀ entry ∈ before, entry.2.WellFormed r) ∧ c.Refused r id e

section FirstRefused

variable {e : CriteriaError}

theorem not_firstRefused_nil : ¬ FirstRefused r [] e := by
  rintro ⟨before, id, c, after, h, -⟩
  simp at h

theorem firstRefused_cons_iff {c : RawCriterion} {rest : List (String × RawCriterion)} :
    FirstRefused r ((id, c) :: rest) e ↔
      c.Refused r id e ∨ c.WellFormed r ∧ FirstRefused r rest e := by
  constructor
  · rintro ⟨before, id', c', after, h, hbefore, hrefused⟩
    rcases List.cons_eq_append_iff.mp h with ⟨rfl, heq⟩ | ⟨before, rfl, hrest⟩
    · cases heq
      exact .inl hrefused
    · obtain ⟨hwell, hbefore⟩ := List.forall_mem_cons.mp hbefore
      exact .inr ⟨hwell, before, id', c', after, hrest, hbefore, hrefused⟩
  · rintro (hrefused | ⟨hwell, before, id', c', after, rfl, hbefore, hrefused⟩)
    · exact ⟨[], id, c, rest, rfl, by simp, hrefused⟩
    · exact ⟨(id, c) :: before, id', c', after, rfl, List.forall_mem_cons.mpr ⟨hwell, hbefore⟩,
        hrefused⟩

theorem firstRefused_append_iff {criteria others : List (String × RawCriterion)} :
    FirstRefused r (criteria ++ others) e ↔
      FirstRefused r criteria e ∨
        (∀ entry ∈ criteria, entry.2.WellFormed r) ∧ FirstRefused r others e := by
  induction criteria with
  | nil => simp [not_firstRefused_nil]
  | cons entry rest ih =>
    obtain ⟨id, c⟩ := entry
    rw [List.cons_append, firstRefused_cons_iff, firstRefused_cons_iff, ih, List.forall_mem_cons]
    tauto

end FirstRefused

namespace RawEntry

def criteria (e : RawEntry) : List RawCriterion :=
  e.filters.map .filter ++ e.sort.toList.map .sort

structure Gives (r : Registry P) (id : String) (e : RawEntry) (entry : Entry P) : Prop where
  propertyId : entry.propertyId = id
  filters : List.Forall₂ (RawFilter.Gives r) e.filters entry.filters
  sort : Option.Rel RawSort.Gives e.sort entry.sort

theorem resolveFilters_eq_mapM (fs : List RawFilter) :
    resolveFilters r id fs = fs.mapM (·.resolve r id) := by
  induction fs with
  | nil => rfl
  | cons f rest ih => rw [resolveFilters, ih, List.mapM_cons]

section Filters

variable {fs : List RawFilter}

theorem resolveFilters_eq_ok_iff {cs : List (FilterCriterion P)} :
    resolveFilters r id fs = .ok cs ↔ List.Forall₂ (RawFilter.Gives r) fs cs := by
  rw [resolveFilters_eq_mapM, mapM_eq_ok_iff]
  simp only [RawFilter.resolve_eq_ok_iff]

theorem exists_resolveFilters_eq_ok_iff (id : String) :
    (∃ cs, resolveFilters r id fs = .ok cs) ↔ ∀ f ∈ fs, f.WellFormed r := by
  simp only [resolveFilters_eq_mapM, exists_mapM_eq_ok_iff, RawFilter.exists_resolve_eq_ok_iff]

theorem resolveFilters_eq_error_iff {e : CriteriaError} :
    resolveFilters r id fs = .error e ↔ FirstRefused r (fs.map fun f => (id, .filter f)) e := by
  rw [resolveFilters_eq_mapM]
  induction fs with
  | nil => simp [not_firstRefused_nil, pure, Except.pure]
  | cons f rest ih =>
    rw [mapM_cons_eq_error_iff, ih, List.map_cons, firstRefused_cons_iff,
      RawFilter.resolve_eq_error_iff, RawFilter.exists_resolve_eq_ok_iff]
    rfl

end Filters

def resolveSort (id : String) : Option RawSort → Except CriteriaError (Option SortCriterion)
  | none => .ok none
  | some s => (s.resolve id).map some

section Sorts

variable {sort : Option RawSort}

theorem resolveSort_eq_ok_iff {c : Option SortCriterion} :
    resolveSort id sort = .ok c ↔ Option.Rel RawSort.Gives sort c := by
  cases sort with
  | none => cases c <;> simp [resolveSort]
  | some s =>
    rw [resolveSort, map_eq_ok_iff]
    cases c <;> simp [RawSort.resolve_eq_ok_iff]

theorem exists_resolveSort_eq_ok_iff (id : String) :
    (∃ c, resolveSort id sort = .ok c) ↔ ∀ s ∈ sort.toList, s.WellFormed := by
  cases sort with
  | none => simp [resolveSort]
  | some s =>
    simp only [resolveSort, map_eq_ok_iff, Option.toList_some, List.forall_mem_singleton]
    rw [← RawSort.exists_resolve_eq_ok_iff id]
    exact ⟨fun ⟨c, s, h, _⟩ => ⟨s, h⟩, fun ⟨s, h⟩ => ⟨some s, s, h, rfl⟩⟩

theorem resolveSort_eq_error_iff {e : CriteriaError} :
    resolveSort id sort = .error e ↔
      FirstRefused r (sort.toList.map fun s => (id, .sort s)) e := by
  cases sort with
  | none => simp [resolveSort, not_firstRefused_nil]
  | some s =>
    rw [resolveSort, map_eq_error_iff, RawSort.resolve_eq_error_iff, Option.toList_some,
      List.map_singleton, firstRefused_cons_iff]
    simp only [not_firstRefused_nil, and_false, or_false]
    rfl

end Sorts

variable {e : RawEntry}

theorem resolve_eq : e.resolve r id = do
    let filters ← resolveFilters r id e.filters
    let sort ← resolveSort id e.sort
    return ⟨id, filters, sort⟩ := by
  unfold resolve
  congr 1
  funext filters
  cases e.sort with
  | none => rfl
  | some s =>
    dsimp only [resolveSort]
    cases s.resolve id <;> rfl

theorem resolve_eq_ok_iff {entry : Entry P} : e.resolve r id = .ok entry ↔ e.Gives r id entry := by
  rw [resolve_eq]
  simp only [bind_eq_ok_iff, pure_eq_ok_iff, resolveFilters_eq_ok_iff, resolveSort_eq_ok_iff]
  constructor
  · rintro ⟨cs, hcs, sort, hsort, rfl⟩
    exact ⟨rfl, hcs, hsort⟩
  · rintro ⟨rfl, hcs, hsort⟩
    exact ⟨entry.filters, hcs, entry.sort, hsort, rfl⟩

theorem exists_resolve_eq_ok_iff (id : String) :
    (∃ entry, e.resolve r id = .ok entry) ↔ ∀ c ∈ e.criteria, c.WellFormed r := by
  have hcriteria : (∀ c ∈ e.criteria, c.WellFormed r) ↔
      (∀ f ∈ e.filters, f.WellFormed r) ∧ ∀ s ∈ e.sort.toList, s.WellFormed := by
    rw [criteria, List.forall_mem_append, List.forall_mem_map, List.forall_mem_map]
    rfl
  rw [hcriteria, ← exists_resolveFilters_eq_ok_iff id,
    ← exists_resolveSort_eq_ok_iff id, resolve_eq]
  simp only [bind_eq_ok_iff, pure_eq_ok_iff]
  constructor
  · rintro ⟨entry, cs, hcs, sort, hsort, -⟩
    exact ⟨⟨cs, hcs⟩, sort, hsort⟩
  · rintro ⟨⟨cs, hcs⟩, sort, hsort⟩
    exact ⟨_, cs, hcs, sort, hsort, rfl⟩

theorem resolve_eq_error_iff {err : CriteriaError} :
    e.resolve r id = .error err ↔ FirstRefused r (e.criteria.map (id, ·)) err := by
  have hcriteria : e.criteria.map (id, ·) = e.filters.map (fun f => (id, .filter f)) ++
      e.sort.toList.map fun s => (id, .sort s) := by
    simp [criteria, Function.comp_def]
  rw [hcriteria, firstRefused_append_iff, ← resolveFilters_eq_error_iff,
    ← resolveSort_eq_error_iff, List.forall_mem_map, resolve_eq]
  simp only [bind_eq_error_iff, pure_ne_error, and_false, exists_false, or_false]
  rw [exists_and_right, exists_resolveFilters_eq_ok_iff]
  rfl

/-- The entry built by its operations, where the second assignment of a sort would be refused. -/
def build (r : Registry P) (id : String) (e : RawEntry) : Except CriteriaError (Entry P) := do
  let filled ← e.filters.foldlM (fun entry f => return entry.addFilter (← f.resolve r id))
    (Entry.empty id)
  match e.sort with
  | none => return filled
  | some s => filled.setSort (← s.resolve id)

theorem foldlM_addFilter (entry : Entry P) (fs : List RawFilter) :
    fs.foldlM (fun entry f => return entry.addFilter (← f.resolve r id)) entry =
      (resolveFilters r id fs).map fun cs => { entry with filters := entry.filters ++ cs } := by
  induction fs generalizing entry with
  | nil => simp [resolveFilters, Except.map, pure, Except.pure]
  | cons f rest ih =>
    rw [List.foldlM_cons, resolveFilters]
    cases f.resolve r id with
    | error err => rfl
    | ok c =>
      change rest.foldlM _ (entry.addFilter c) = _
      rw [ih]
      cases resolveFilters r id rest with
      | error err => rfl
      | ok cs => simp [Entry.addFilter, Except.map, bind, Except.bind, pure, Except.pure]

/-- No sort is refused, as an entry gets its only one when it has none. -/
theorem build_eq_resolve : e.build r id = e.resolve r id := by
  unfold build resolve
  rw [foldlM_addFilter]
  cases resolveFilters r id e.filters with
  | error err => rfl
  | ok cs =>
    cases e.sort with
    | none => rfl
    | some s => rfl

end RawEntry

end QueryCriteria
