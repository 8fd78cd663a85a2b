import QueryCriteria.Proofs.PlanSize

/-!
# Raised limits

The limits decide whether a transfer object is compiled, and have no part in what it is compiled to.
So higher limits keep every plan, and every error that is not about a limit. A transfer object that
is refused because of one limit passes it when this limit is raised to the count of the transfer
object. The limits that are checked before still let it pass, so that it can only be refused because
of a limit that is checked later.
-/
namespace QueryCriteria

variable {P : Type}

/-- The length of the longest association path. -/
def TransferObject.depth (t : TransferObject P) : Nat :=
  (t.paths.map AssociationPath.length).foldr max 0

inductive Limit where
  | entries
  | filters
  | sortKeys
  | depth
  deriving DecidableEq

namespace Limit

def what : Limit → String
  | .entries => "propertyId entries"
  | .filters => "filter criteria"
  | .sortKeys => "sort keys"
  | .depth => "association depth"

def place : Limit → Nat
  | .entries => 0
  | .filters => 1
  | .sortKeys => 2
  | .depth => 3

def bound (l : Limits) : Limit → Nat
  | .entries => l.maxEntries
  | .filters => l.maxFilters
  | .sortKeys => l.maxSortKeys
  | .depth => l.maxDepth

/-- Limits with another bound in one place. -/
def withBound (l : Limits) (n : Nat) : Limit → Limits
  | .entries => { l with maxEntries := n }
  | .filters => { l with maxFilters := n }
  | .sortKeys => { l with maxSortKeys := n }
  | .depth => { l with maxDepth := n }

/-- The count of a transfer object that a limit bounds. The depth is that of its longest path. -/
def count (t : TransferObject P) : Limit → Nat
  | .entries => t.entries.length
  | .filters => (t.entries.map (·.2.filters.length)).sum
  | .sortKeys => t.entries.countP (·.2.sort.isSome)
  | .depth => t.depth

theorem eq_of_place_eq {k j : Limit} (h : k.place = j.place) : k = j := by
  cases k <;> cases j <;> simp_all [place]

@[simp] theorem bound_withBound_self (l : Limits) (n : Nat) (k : Limit) :
    k.bound (k.withBound l n) = n := by
  cases k <;> rfl

theorem bound_withBound_of_ne (l : Limits) (n : Nat) {k j : Limit} (h : j ≠ k) :
    j.bound (k.withBound l n) = j.bound l := by
  cases k <;> cases j <;> simp_all [bound, withBound]

end Limit

def CriteriaError.IsAboutLimit (e : CriteriaError) : Prop :=
  ∃ what max got, e = .limitExceeded what max got

namespace TransferObject

variable {t : TransferObject P}

theorem depth_le_iff {n : Nat} : t.depth ≤ n ↔ ∀ p ∈ t.paths, p.length ≤ n := by
  unfold depth
  induction t.paths with
  | nil => simp
  | cons p rest ih => simp [ih]

end TransferObject

namespace Limits

variable {l l' : Limits} {t : TransferObject P} {e : CriteriaError}

theorem admits_iff : l.Admits t ↔ ∀ k : Limit, k.count t ≤ k.bound l := by
  have hdepth := forall_criteria_iff (t := t) (·.association.length ≤ l.maxDepth)
  have hpaths : t.depth ≤ l.maxDepth ↔
      ∀ entry ∈ t.criteria, entry.2.target.association.length ≤ l.maxDepth := by
    rw [TransferObject.depth_le_iff, t.paths_eq_map_criteria, List.forall_mem_map]
  constructor
  · intro h k
    cases k with
    | entries => exact h.entries
    | filters => exact h.filters
    | sortKeys => exact h.sorts
    | depth => exact hpaths.mpr (hdepth.mpr ⟨h.filterPaths, h.sortPaths⟩)
  · intro h
    obtain ⟨hfilters, hsorts⟩ := hdepth.mp (hpaths.mp (h .depth))
    exact ⟨h .entries, h .filters, h .sortKeys, hfilters, hsorts⟩

/-- The refusal of a transfer object because of a limit: one of its counts is above the bound, and
no limit that is checked before is exceeded. -/
structure RefusesFor (l : Limits) (t : TransferObject P) (k : Limit) (got : Nat) : Prop where
  excess : k.bound l < got
  le_count : got ≤ k.count t
  eq_count : k ≠ .depth → got = k.count t
  earlier : ∀ j : Limit, j.place < k.place → j.count t ≤ j.bound l

theorem Refuses.exists_limit (h : l.Refuses t e) :
    ∃ (k : Limit) (got : Nat), l.RefusesFor t k got ∧
      e = .limitExceeded k.what (k.bound l) got := by
  -- A limit that refuses comes behind those which the object is within.
  cases h with
  | entries excess =>
    refine ⟨.entries, _, ⟨excess, Nat.le_refl _, fun _ => rfl, ?_⟩, rfl⟩
    intro j hj
    cases hj
  | filters entries excess =>
    refine ⟨.filters, _, ⟨excess, Nat.le_refl _, fun _ => rfl, ?_⟩, rfl⟩
    intro j hj
    cases j with
    | entries => exact entries
    | filters | sortKeys | depth => simp [Limit.place] at hj
  | sorts entries filters excess =>
    refine ⟨.sortKeys, _, ⟨excess, Nat.le_refl _, fun _ => rfl, ?_⟩, rfl⟩
    intro j hj
    cases j with
    | entries => exact entries
    | filters => exact filters
    | sortKeys | depth => simp [Limit.place] at hj
  | @depth entries filters sorts before after id c criteria within excess =>
    have hpath : c.target.association ∈ t.paths := by
      rw [t.paths_eq_map_criteria, criteria]
      simp
    refine ⟨.depth, _, ⟨excess, TransferObject.depth_le_iff.mp (Nat.le_refl _) _ hpath,
      fun hne => absurd rfl hne, ?_⟩, rfl⟩
    intro j hj
    cases j with
    | entries => exact entries
    | filters => exact filters
    | sortKeys => exact sorts
    | depth => simp [Limit.place] at hj

theorem admits_or_refuses (l : Limits) (t : TransferObject P) :
    l.Admits t ∨ ∃ e, l.Refuses t e := by
  cases hcheck : l.checkTransferObject t with
  | ok done => exact .inl (checkTransferObject_eq_ok_iff.mp hcheck)
  | error e => exact .inr ⟨e, checkTransferObject_eq_error_iff.mp hcheck⟩

/-- A limit that is raised to the count of a transfer object leaves only the later limits to refuse
it. -/
theorem RefusesFor.later {k j : Limit} {got got' : Nat} (h : l.RefusesFor t k got)
    (hraised : (k.withBound l (k.count t)).RefusesFor t j got') :
    k.place < j.place ∧ j.bound (k.withBound l (k.count t)) = j.bound l := by
  have hexcess := hraised.excess
  have hcount := hraised.le_count
  have hne : j ≠ k := by
    intro heq
    rw [heq, Limit.bound_withBound_self] at hexcess
    rw [heq] at hcount
    omega
  rw [Limit.bound_withBound_of_ne l _ hne] at hexcess
  refine ⟨?_, Limit.bound_withBound_of_ne l _ hne⟩
  rcases Nat.lt_trichotomy k.place j.place with hlater | hsame | hbefore
  · exact hlater
  · exact absurd (Limit.eq_of_place_eq hsame).symm hne
  · have hearlier := h.earlier j hbefore
    omega

end Limits

namespace TransferObject

open Limits

variable {t : TransferObject P} {policy : ConflictPolicy} {f : FilterObject} {l l' : Limits}
  {e : CriteriaError}

/-- All limits that accept a transfer object have it compiled in the same way. -/
theorem compile_eq_of_admits (h : l.Admits t) (h' : l'.Admits t) :
    t.compile ⟨policy, l⟩ f = t.compile ⟨policy, l'⟩ f := by
  unfold compile
  dsimp only
  rw [checkTransferObject_eq_ok_iff.mpr h, checkTransferObject_eq_ok_iff.mpr h']

theorem compile_eq_of_le (hle : ∀ k : Limit, k.bound l ≤ k.bound l') (h : l.Admits t) :
    t.compile ⟨policy, l'⟩ f = t.compile ⟨policy, l⟩ f := by
  have h' : l'.Admits t := admits_iff.mpr fun k => (admits_iff.mp h k).trans (hle k)
  exact compile_eq_of_admits h' h

theorem compile_of_refuses (h : l.Refuses t e) : t.compile ⟨policy, l⟩ f = .error e := by
  unfold compile
  dsimp only
  rw [checkTransferObject_eq_error_iff.mpr h]
  rfl

/-- Behind the check of the limits, an error about a limit can only come from the filter object. -/
theorem exists_path_of_isAboutLimit (hl : l.Admits t) (h : t.compile ⟨policy, l⟩ f = .error e)
    (he : e.IsAboutLimit) : ∃ path, f path = .error e := by
  obtain ⟨what, max, got, rfl⟩ := he
  have hcheck := checkTransferObject_eq_ok_iff.mpr hl
  rw [checkTransferObject_eq] at hcheck
  rw [compile_eq_planByStages, planByStages] at h
  cases hlimits : l.firstExceeded? t with
  | some measure =>
    rw [hlimits] at hcheck
    cases hcheck
  | none =>
    simp only [hlimits, bind_eq_error_iff, pure_ne_error, and_false, exists_false, or_false] at h
    rcases h with hpaths | ⟨tree, -, hfilters⟩
    · obtain ⟨c, hc⟩ := JoinTree.exists_conflict_of_registerPaths hpaths
      cases hc
    · obtain ⟨entry, -, hfails⟩ := exists_of_mapM_eq_error hfilters
      rcases FilterCriterion.error_of_contribution hfails with hpath | ⟨source, hsource⟩
      · exact hpath
      · cases hsource

/-- With a limit raised to the count of a transfer object, what is still an error about a limit is
about a later one, unless the filter object reports it. -/
theorem later_of_compile_raised {k : Limit} {got : Nat} (hk : l.RefusesFor t k got)
    (h : t.compile ⟨policy, k.withBound l (k.count t)⟩ f = .error e) (he : e.IsAboutLimit) :
    (∃ path, f path = .error e) ∨
      ∃ (j : Limit) (got' : Nat), k.place < j.place ∧
        e = .limitExceeded j.what (j.bound l) got' := by
  rcases (k.withBound l (k.count t)).admits_or_refuses t with hadmits | ⟨e', hrefuses⟩
  · exact .inl (exists_path_of_isAboutLimit hadmits h he)
  · obtain ⟨j, got', hj, he'⟩ := hrefuses.exists_limit
    obtain ⟨hlater, hbound⟩ := hk.later hj
    rw [compile_of_refuses hrefuses, Except.error.injEq] at h
    exact .inr ⟨j, got', hlater, by rw [← h, he', hbound]⟩

/-- Limits only refuse. A plan, or an error that is not about a limit, is the same under higher
limits. An error about a limit is about a count above its bound; with the count as the bound only a
later limit refuses, unless the filter object reports an error about a limit. -/
theorem limits_only_refuse (t : TransferObject P) (policy : ConflictPolicy) (f : FilterObject)
    (l : Limits) :
    (∀ l', (∀ k : Limit, k.bound l ≤ k.bound l') →
      (∀ plan, t.compile ⟨policy, l⟩ f = .ok plan → t.compile ⟨policy, l'⟩ f = .ok plan) ∧
      ∀ e, ¬ e.IsAboutLimit → t.compile ⟨policy, l⟩ f = .error e →
        t.compile ⟨policy, l'⟩ f = .error e) ∧
    ∀ what max got, t.compile ⟨policy, l⟩ f = .error (.limitExceeded what max got) →
      (l.Admits t ∧ ∃ path, f path = .error (.limitExceeded what max got)) ∨
      ∃ k : Limit, what = k.what ∧ max = k.bound l ∧ max < got ∧ got ≤ k.count t ∧
        (k ≠ .depth → got = k.count t) ∧
        ((∃ plan, t.compile ⟨policy, k.withBound l (k.count t)⟩ f = .ok plan) ∨
          ∃ e, t.compile ⟨policy, k.withBound l (k.count t)⟩ f = .error e ∧
            (¬ e.IsAboutLimit ∨ (∃ path, f path = .error e) ∨
              ∃ (j : Limit) (got' : Nat), k.place < j.place ∧
                e = .limitExceeded j.what (j.bound l) got')) := by
  constructor
  · intro l' hle
    constructor
    · intro plan hplan
      rw [compile_eq_of_le hle (admits_of_compile hplan), hplan]
    · intro e he herror
      rcases l.admits_or_refuses t with hadmits | ⟨e', hrefuses⟩
      · rw [compile_eq_of_le hle hadmits, herror]
      · obtain ⟨k, got, -, he'⟩ := hrefuses.exists_limit
        rw [compile_of_refuses hrefuses, Except.error.injEq] at herror
        exact absurd ⟨_, _, _, herror.symm.trans he'⟩ he
  · intro what max got herror
    rcases l.admits_or_refuses t with hadmits | ⟨e', hrefuses⟩
    · exact .inl ⟨hadmits, exists_path_of_isAboutLimit hadmits herror ⟨_, _, _, rfl⟩⟩
    · obtain ⟨k, got', hk, he'⟩ := hrefuses.exists_limit
      rw [compile_of_refuses hrefuses, he', Except.error.injEq] at herror
      cases herror
      refine .inr ⟨k, rfl, rfl, hk.excess, hk.le_count, hk.eq_count, ?_⟩
      cases hraised : t.compile ⟨policy, k.withBound l (k.count t)⟩ f with
      | ok plan => exact .inl ⟨plan, rfl⟩
      | error e =>
        refine .inr ⟨e, rfl, ?_⟩
        by_cases he : e.IsAboutLimit
        · exact .inr (later_of_compile_raised hk hraised he)
        · exact .inl he

end TransferObject
end QueryCriteria
