import Mathlib.Algebra.Group.Action.Defs
import Mathlib.Algebra.Order.BigOperators.Group.List
import QueryCriteria.Proofs.CompiledPlan

/-!
# The size of a plan

The limits bound what a transfer object asks for, and through this what the compiler builds. A step
of a registration adds at most one node or one conflict, so a tree has no more of both than the
registered paths have steps. There is one path for each filter and each sort, and none is deeper
than the limits allow.
-/
namespace QueryCriteria

variable {P : Type}

namespace JoinTree

/-- The number of the nodes and the recorded conflicts of a tree. -/
def weight (t : JoinTree) : Nat := t.size + t.conflicts.length

@[simp] theorem weight_record (t : JoinTree) (c : JoinConflict) :
    (t.record c).weight = t.weight + 1 := by
  simp [weight, record, size, Nat.add_assoc]

@[simp] theorem weight_addChild (t : JoinTree) (parent : NodeId) (step : Step)
    (names : List String) : (t.addChild parent step names).weight = t.weight + 1 := by
  simp [weight, Nat.add_right_comm]

/-- Each step of a registration adds at most one node or one conflict. -/
theorem weight_registerSteps_le (policy : ConflictPolicy) (steps : List Step) (t : JoinTree)
    (current : NodeId) (names : List String) :
    (registerSteps policy t current names steps).1.weight ≤ t.weight + steps.length := by
  induction steps generalizing t current names with
  | nil => exact Nat.le_refl _
  | cons step rest ih =>
    rw [List.length_cons]
    cases hnext : t.idOf? (names ++ [step.name]) with
    | none =>
      rw [registerSteps_new policy hnext]
      have hrest := ih (t.addChild current step (names ++ [step.name])) t.size
        (names ++ [step.name])
      rw [weight_addChild] at hrest
      omega
    | some id =>
      by_cases hk : t.kindAt id = step.kind
      · rw [registerSteps_known policy hnext hk]
        have hrest := ih t id (names ++ [step.name])
        omega
      · cases policy with
        | firstWins =>
          rw [registerSteps_firstWins hnext hk]
          have hrest := ih
            (t.record ⟨Text.dotted (names ++ [step.name]), t.kindAt id, step.kind⟩) id
            (names ++ [step.name])
          rw [weight_record] at hrest
          omega
        | reject =>
          rw [registerSteps_reject hnext hk]
          exact Nat.le_add_right _ _

/-- Any calls, failed ones included, add at most one node or one conflict for each step of their
paths. -/
theorem weight_after_le (calls : List (ConflictPolicy × AssociationPath)) :
    (after calls).weight ≤ (calls.map (·.2.length)).sum + 1 := by
  induction calls using List.reverseRecOn with
  | nil => exact Nat.le_refl _
  | append_singleton calls call ih =>
    have hlast := weight_registerSteps_le call.1 call.2.steps (after calls) 0 []
    rw [after_concat, List.map_append, List.sum_append, List.map_singleton, List.sum_singleton]
    unfold register
    unfold AssociationPath.length at ih ⊢
    omega

theorem weight_afterPaths_le (policy : ConflictPolicy) (paths : List AssociationPath) :
    (afterPaths policy paths).weight ≤ (paths.map AssociationPath.length).sum + 1 := by
  have hcalls := weight_after_le (paths.map (policy, ·))
  rw [List.map_map] at hcalls
  exact hcalls

theorem WellFormed.weight_eq {t : JoinTree} (h : t.WellFormed) :
    t.weight = t.joins.length + t.conflicts.length + 1 := by
  rw [weight, h.size_eq, chains, List.length_map]
  omega

theorem depth_afterPaths_le {paths : List AssociationPath} {bound : Nat}
    (hpaths : ∀ p ∈ paths, p.length ≤ bound) {id : NodeId} {node : JoinNode}
    (hnode : (afterPaths .firstWins paths).node? id = some node) : node.depth ≤ bound := by
  by_cases hroot : node.path.names = []
  · rw [JoinNode.depth, ← AssociationPath.length_names, hroot]
    exact Nat.zero_le bound
  · have hid := (wellFormed_afterPaths .firstWins paths).index.mpr ⟨node, hnode, rfl⟩
    have hchain : node.path.names ∈ (afterPaths .firstWins paths).chains :=
      (wellFormed_afterPaths .firstWins paths).mem_chains.mpr ⟨hroot, by rw [hid]; rfl⟩
    obtain ⟨p, hp, hprefix⟩ := mem_chains_afterPaths.mp hchain
    have hle := (AssociationPath.mem_chains.mp hprefix).2.length_le
    rw [AssociationPath.length_names, AssociationPath.length_names] at hle
    exact hle.trans (hpaths p hp)

end JoinTree

namespace Limits

variable {l : Limits} {t : TransferObject P} {e : CriteriaError}

/-- The counts of a transfer object are within the limits. -/
structure Admits (l : Limits) (t : TransferObject P) : Prop where
  entries : t.entries.length ≤ l.maxEntries
  filters : (t.entries.map (·.2.filters.length)).sum ≤ l.maxFilters
  sorts : t.entries.countP (·.2.sort.isSome) ≤ l.maxSortKeys
  filterPaths : ∀ entry ∈ t.entries, ∀ c ∈ entry.2.filters,
    c.target.association.length ≤ l.maxDepth
  sortPaths : ∀ entry ∈ t.entries, ∀ c ∈ entry.2.sort, c.target.association.length ≤ l.maxDepth

/-- The error for the first count of a transfer object that is above its limit. Of the criteria, the
first too deep one in the order of compilation counts. -/
inductive Refuses (l : Limits) (t : TransferObject P) : CriteriaError → Prop
  | entries (excess : l.maxEntries < t.entries.length) :
    Refuses l t (.limitExceeded "propertyId entries" l.maxEntries t.entries.length)
  | filters (entries : t.entries.length ≤ l.maxEntries)
    (excess : l.maxFilters < (t.entries.map (·.2.filters.length)).sum) :
    Refuses l t (.limitExceeded "filter criteria" l.maxFilters
      (t.entries.map (·.2.filters.length)).sum)
  | sorts (entries : t.entries.length ≤ l.maxEntries)
    (filters : (t.entries.map (·.2.filters.length)).sum ≤ l.maxFilters)
    (excess : l.maxSortKeys < t.entries.countP (·.2.sort.isSome)) :
    Refuses l t (.limitExceeded "sort keys" l.maxSortKeys (t.entries.countP (·.2.sort.isSome)))
  | depth (entries : t.entries.length ≤ l.maxEntries)
    (filters : (t.entries.map (·.2.filters.length)).sum ≤ l.maxFilters)
    (sorts : t.entries.countP (·.2.sort.isSome) ≤ l.maxSortKeys)
    {before after : List (String × Criterion P)} {id : String} {c : Criterion P}
    (criteria : t.criteria = before ++ (id, c) :: after)
    (within : ∀ entry ∈ before, entry.2.target.association.length ≤ l.maxDepth)
    (excess : l.maxDepth < c.target.association.length) :
    Refuses l t (.limitExceeded "association depth" l.maxDepth c.target.association.length)

theorem check_eq_ok_iff {what : String} {max got : Nat} {u : Unit} :
    check what max got = .ok u ↔ got ≤ max := by
  unfold check
  by_cases h : max < got
  · simp [h]
  · simpa [h] using Nat.le_of_not_lt h

theorem check_eq_error_iff {what : String} {max got : Nat} :
    check what max got = .error e ↔ max < got ∧ e = .limitExceeded what max got := by
  unfold check
  by_cases h : max < got
  · simp [h, eq_comm]
  · simp [h]

theorem checkPaths_eq_ok_iff {paths : List AssociationPath} :
    l.checkPaths paths = .ok () ↔ ∀ p ∈ paths, p.length ≤ l.maxDepth := by
  induction paths with
  | nil => simp [checkPaths]
  | cons p rest ih =>
    simp only [checkPaths, checkPath, bind_eq_ok_iff, check_eq_ok_iff, ih, List.forall_mem_cons,
      exists_const]

theorem checkPaths_eq_error_iff {paths : List AssociationPath} :
    l.checkPaths paths = .error e ↔ ∃ before p after, paths = before ++ p :: after ∧
      (∀ q ∈ before, q.length ≤ l.maxDepth) ∧ l.maxDepth < p.length ∧
      e = .limitExceeded "association depth" l.maxDepth p.length := by
  induction paths with
  | nil => simp [checkPaths]
  | cons p rest ih =>
    simp only [checkPaths, checkPath, bind_eq_error_iff, check_eq_error_iff, check_eq_ok_iff,
      exists_const, ih]
    constructor
    · rintro (⟨hover, rfl⟩ | ⟨hle, before, q, after, rfl, hbefore, hover, rfl⟩)
      · exact ⟨[], p, rest, rfl, by simp, hover, rfl⟩
      · exact ⟨p :: before, q, after, rfl, List.forall_mem_cons.mpr ⟨hle, hbefore⟩, hover, rfl⟩
    · rintro ⟨before, q, after, hpaths, hbefore, hover, rfl⟩
      rcases List.cons_eq_append_iff.mp hpaths with ⟨rfl, hq⟩ | ⟨rest', rfl, rfl⟩
      · cases hq
        exact .inl ⟨hover, rfl⟩
      · obtain ⟨hle, hbefore⟩ := List.forall_mem_cons.mp hbefore
        exact .inr ⟨hle, rest', q, after, rfl, hbefore, hover, rfl⟩

theorem filterCount_eq_sum (t : TransferObject P) :
    filterCount t = (t.entries.map (·.2.filters.length)).sum := by
  rw [filterCount_eq, TransferObject.filters, List.length_flatMap]
  simp

theorem forall_criteria_iff (holds : PropertyPath → Prop) :
    (∀ entry ∈ t.criteria, holds entry.2.target) ↔
      (∀ entry ∈ t.entries, ∀ c ∈ entry.2.filters, holds c.target) ∧
      ∀ entry ∈ t.entries, ∀ c ∈ entry.2.sort, holds c.target := by
  rw [← forall₂_and]
  simp only [TransferObject.criteria, List.forall_mem_flatMap, List.forall_mem_map,
    Entry.criteria, List.forall_mem_append, Option.mem_toList, Option.mem_def, Criterion.target]

/-- The limits accept the transfer objects whose counts are within them. -/
theorem checkTransferObject_eq_ok_iff : l.checkTransferObject t = .ok () ↔ l.Admits t := by
  have hdepth := forall_criteria_iff (t := t) (·.association.length ≤ l.maxDepth)
  unfold checkTransferObject
  simp only [bind_eq_ok_iff, check_eq_ok_iff, checkPaths_eq_ok_iff, exists_const,
    filterCount_eq_sum, List.forall_mem_map, hdepth]
  constructor
  · rintro ⟨hentries, hfilters, hsorts, hfilterPaths, hsortPaths⟩
    exact ⟨hentries, hfilters, hsorts, hfilterPaths, hsortPaths⟩
  · rintro ⟨hentries, hfilters, hsorts, hfilterPaths, hsortPaths⟩
    exact ⟨hentries, hfilters, hsorts, hfilterPaths, hsortPaths⟩

theorem checkTransferObject_eq_error_iff : l.checkTransferObject t = .error e ↔ l.Refuses t e := by
  unfold checkTransferObject
  simp only [bind_eq_error_iff, check_eq_error_iff, check_eq_ok_iff, exists_const,
    checkPaths_eq_error_iff, filterCount_eq_sum]
  constructor
  · rintro (⟨hover, rfl⟩ | ⟨hentries, ⟨hover, rfl⟩ | ⟨hfilters, ⟨hover, rfl⟩ |
      ⟨hsorts, before, p, after, hpaths, hbefore, hover, rfl⟩⟩⟩)
    · exact .entries hover
    · exact .filters hentries hover
    · exact .sorts hentries hfilters hover
    · obtain ⟨before, rest, hcriteria, rfl, hrest⟩ := List.map_eq_append_iff.mp hpaths
      obtain ⟨⟨id, c⟩, after, rfl, rfl, -⟩ := List.map_eq_cons_iff.mp hrest
      exact .depth hentries hfilters hsorts hcriteria (List.forall_mem_map.mp hbefore) hover
  · intro h
    cases h with
    | entries hover => exact .inl ⟨hover, rfl⟩
    | filters hentries hover => exact .inr ⟨hentries, .inl ⟨hover, rfl⟩⟩
    | sorts hentries hfilters hover => exact .inr ⟨hentries, .inr ⟨hfilters, .inl ⟨hover, rfl⟩⟩⟩
    | @depth hentries hfilters hsorts before after id c hcriteria hbefore hover =>
      refine .inr ⟨hentries, .inr ⟨hfilters, .inr ⟨hsorts, _, c.target.association,
        after.map (·.2.target.association), ?_, List.forall_mem_map.mpr hbefore, hover, rfl⟩⟩⟩
      rw [hcriteria, List.map_append, List.map_cons]

/-- What limits allow a plan to be. -/
structure Bounds (l : Limits) (p : Plan P) : Prop where
  predicates : p.predicates.length ≤ l.maxFilters
  orderings : p.orderings.length ≤ l.maxSortKeys
  depth : ∀ id node, p.tree.node? id = some node → node.depth ≤ l.maxDepth
  joins : p.tree.joins.length ≤ l.maxDepth * (l.maxFilters + l.maxSortKeys)
  conflicts : p.tree.conflicts.length ≤ l.maxDepth * (l.maxFilters + l.maxSortKeys)

end Limits

namespace TransferObject

open JoinTree Limits

variable {t : TransferObject P} {options : Options} {f : FilterObject} {plan : Plan P}

theorem length_paths (t : TransferObject P) :
    t.paths.length = t.filters.length + t.sorts.length := by
  rw [paths, filters, sorts, List.length_flatMap, List.length_flatMap, List.length_flatMap,
    ← List.sum_map_add]
  simp

theorem admits_of_compile (h : t.compile options f = .ok plan) : options.limits.Admits t := by
  obtain ⟨_, hcheck, -⟩ := bind_eq_ok_iff.mp h
  exact checkTransferObject_eq_ok_iff.mp hcheck

theorem length_filters_le {l : Limits} (h : l.Admits t) : t.filters.length ≤ l.maxFilters := by
  rw [← filterCount_eq, filterCount_eq_sum]
  exact h.filters

theorem length_sorts_le {l : Limits} (h : l.Admits t) : t.sorts.length ≤ l.maxSortKeys := by
  rw [← sortCount_eq]
  exact h.sorts

theorem length_le_of_mem_paths {l : Limits} (h : l.Admits t) {p : AssociationPath}
    (hp : p ∈ t.paths) : p.length ≤ l.maxDepth := by
  rw [paths_eq_map_criteria] at hp
  obtain ⟨entry, hentry, rfl⟩ := List.mem_map.mp hp
  exact (forall_criteria_iff (·.association.length ≤ l.maxDepth)).mpr
    ⟨h.filterPaths, h.sortPaths⟩ entry hentry

/-- The joins and the conflicts of a plan are together no more than the steps that the limits
allow. -/
theorem length_joins_add_conflicts_le (h : t.compile options f = .ok plan) :
    plan.tree.joins.length + plan.tree.conflicts.length ≤
      options.limits.maxDepth * (options.limits.maxFilters + options.limits.maxSortKeys) := by
  have hadmits := admits_of_compile h
  have hweight := weight_afterPaths_le .firstWins t.paths
  rw [← tree_of_compile h, (wellFormed_of_compile h).weight_eq] at hweight
  have hfilters := length_filters_le hadmits
  have hsorts := length_sorts_le hadmits
  calc plan.tree.joins.length + plan.tree.conflicts.length
      ≤ (t.paths.map AssociationPath.length).sum := by omega
    _ ≤ (t.paths.map AssociationPath.length).length • options.limits.maxDepth :=
        List.sum_le_card_nsmul _ _ (List.forall_mem_map.mpr fun p hp =>
          length_le_of_mem_paths hadmits hp)
    _ = options.limits.maxDepth * (t.filters.length + t.sorts.length) := by
        rw [List.length_map, length_paths, smul_eq_mul, Nat.mul_comm]
    _ ≤ options.limits.maxDepth * (options.limits.maxFilters + options.limits.maxSortKeys) :=
        Nat.mul_le_mul_left _ (Nat.add_le_add hfilters hsorts)

theorem bounds_of_compile (h : t.compile options f = .ok plan) : options.limits.Bounds plan := by
  have hadmits := admits_of_compile h
  have hjoins := length_joins_add_conflicts_le h
  constructor
  case predicates =>
    rw [predicates_of_compile h]
    exact (List.length_filterMap_le _ _).trans (length_filters_le hadmits)
  case orderings =>
    obtain ⟨-, -, horderings, -⟩ := compile_eq_ok h
    rw [horderings, List.length_map]
    exact length_sorts_le hadmits
  case depth =>
    intro id node hnode
    rw [tree_of_compile h] at hnode
    exact depth_afterPaths_le (fun p hp => length_le_of_mem_paths hadmits hp) hnode
  case joins => omega
  case conflicts => omega

/-- The limits bound every plan: its predicates, its sort keys, the depth of its nodes, its joins
and its recorded conflicts. They accept exactly the transfer objects with all counts within them,
and refuse every other one with the first count that is not. -/
theorem plan_within_limits (t : TransferObject P) (l : Limits) :
    (∀ policy f plan, t.compile ⟨policy, l⟩ f = .ok plan → l.Bounds plan) ∧
    (l.checkTransferObject t = .ok () ↔ l.Admits t) ∧
    ∀ e, l.checkTransferObject t = .error e ↔ l.Refuses t e := by
  refine ⟨?_, checkTransferObject_eq_ok_iff, fun e => checkTransferObject_eq_error_iff⟩
  intro policy f plan h
  exact bounds_of_compile h

end TransferObject
end QueryCriteria
