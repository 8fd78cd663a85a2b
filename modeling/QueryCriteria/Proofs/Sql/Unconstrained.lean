import QueryCriteria.Proofs.PlanSize
import QueryCriteria.Proofs.Sql.Effect

/-!
# Plans that ask for nothing

A plan is unconstrained if it has no joins but the root, no predicates, no sort keys and no paging
bounds. These are the plans that leave a statement as it is. Any other plan that is applied shows in
the statement: each part of a plan that is not empty makes the same part of the statement longer,
and a paging bound appears where there was none.
-/
namespace QueryCriteria

variable {P : Type}

theorem JoinTree.WellFormed.hasNoJoins_iff {tree : JoinTree} (h : tree.WellFormed) :
    tree.hasNoJoins = true ↔ tree.joins = [] := by
  have hsize := h.size_eq
  rw [JoinTree.chains, List.length_map] at hsize
  rw [JoinTree.hasNoJoins, beq_iff_eq, hsize, ← List.length_eq_zero_iff]
  omega

namespace Plan

/-- A plan of which every part is empty. -/
structure AsksNothing (p : Plan P) : Prop where
  joins : p.tree.joins = []
  predicates : p.predicates = []
  orderings : p.orderings = []
  firstResult : p.firstResult = none
  maxResults : p.maxResults = none

theorem isUnconstrained_iff {p : Plan P} (h : p.tree.WellFormed) :
    p.isUnconstrained = true ↔ p.AsksNothing := by
  simp only [isUnconstrained, Bool.and_eq_true, h.hasNoJoins_iff, List.isEmpty_iff,
    Option.isNone_iff_eq_none]
  constructor
  · intro hparts
    obtain ⟨⟨⟨⟨hjoins, hpredicates⟩, horderings⟩, hfirst⟩, hmax⟩ := hparts
    exact ⟨hjoins, hpredicates, horderings, hfirst, hmax⟩
  · intro hparts
    exact ⟨⟨⟨⟨hparts.joins, hparts.predicates⟩, hparts.orderings⟩, hparts.firstResult⟩,
      hparts.maxResults⟩

end Plan

namespace TransferObject

variable {t : TransferObject P} {options : Options} {f : FilterObject}

theorem compile_of_isEmpty (hempty : ∀ entry ∈ t.entries, entry.2.isEmpty = true)
    (hcount : t.entries.length ≤ options.limits.maxEntries) :
    t.compile options f = .ok ⟨.empty, [], [], t.firstResult, t.maxResults⟩ := by
  have hparts : ∀ entry ∈ t.entries, entry.2.filters = [] ∧ entry.2.sort = none := by
    intro entry hentry
    simpa [Entry.isEmpty] using hempty entry hentry
  have hfilters : (t.entries.map (·.2.filters.length)).sum = 0 := by
    refine List.sum_eq_zero (List.forall_mem_map.mpr fun entry hentry => ?_)
    rw [(hparts entry hentry).1, List.length_nil]
  have hsorts : t.entries.countP (·.2.sort.isSome) = 0 := by
    refine List.countP_eq_zero.mpr fun entry hentry => ?_
    rw [(hparts entry hentry).2]
    exact Bool.false_ne_true
  have hadmits : options.limits.Admits t := by
    refine ⟨hcount, ?_, ?_, fun entry hentry c hc => ?_, fun entry hentry c hc => ?_⟩
    · rw [hfilters]
      exact Nat.zero_le _
    · rw [hsorts]
      exact Nat.zero_le _
    · rw [(hparts entry hentry).1] at hc
      cases hc
    · rw [(hparts entry hentry).2] at hc
      cases hc
  have hcriteria : t.criteria = [] := by
    refine List.flatMap_eq_nil_iff.mpr fun entry hentry => ?_
    obtain ⟨hnone, hsort⟩ := hparts entry hentry
    simp [Entry.criteria, hnone, hsort]
  unfold compile
  rw [Limits.checkTransferObject_eq_ok_iff.mpr hadmits, hcriteria]
  rfl

end TransferObject

namespace Sql.Select

variable {s u : Select} {r : Resolver} {plan : Plan Predicate}

/-- What a statement can get: a join, a condition, a sort key or a paging bound. -/
inductive Gained (s u : Select) : Prop
  | join (h : s.joins.length < u.joins.length)
  | condition (h : s.conditions.length < u.conditions.length)
  | sortKey (h : s.sortKeys.length < u.sortKeys.length)
  | limit (h : s.limit = none) (h' : u.limit.isSome)
  | offset (h : s.offset = none) (h' : u.offset.isSome)

theorem Gained.ne (h : Gained s u) : u ≠ s := by
  intro heq
  subst heq
  cases h with
  | join h | condition h | sortKey h => exact Nat.lt_irrefl _ h
  | limit h h' | offset h h' =>
    rw [h] at h'
    cases h'

theorem apply_of_asksNothing (h : plan.AsksNothing) (s : Select) (r : Resolver) :
    s.apply plan r = (s, .ok ()) := by
  obtain ⟨hjoins, hpredicates, horderings, hfirst, hmax⟩ := h
  refine apply_eq_ok_iff_extended.mpr ⟨?_, ?_, [], [], ?_, ?_, ?_⟩
  · simp [IsRowCount, hfirst]
  · simp [IsRowCount, hmax]
  · rw [hjoins]
    exact .nil
  · rw [horderings]
    exact .nil
  · simp [hpredicates, hfirst, hmax]

theorem gained_of_apply (h : ¬ plan.AsksNothing) (hlimit : s.limit = none)
    (hoffset : s.offset = none) (happly : s.apply plan r = (u, .ok ())) : Gained s u := by
  obtain ⟨-, -, joins, keys, hjoins, hkeys, rfl⟩ := apply_eq_ok_iff_extended.mp happly
  by_cases htree : plan.tree.joins = []
  · by_cases hpredicates : plan.predicates = []
    · by_cases horderings : plan.orderings = []
      · by_cases hfirst : plan.firstResult = none
        · have hmax : plan.maxResults ≠ none := fun hmax =>
            h ⟨htree, hpredicates, horderings, hfirst, hmax⟩
          refine .limit hlimit ?_
          simpa [Option.isSome_iff_ne_none, hlimit] using hmax
        · refine .offset hoffset ?_
          simpa [Option.isSome_iff_ne_none, hoffset] using hfirst
      · have hsorts := List.length_pos_iff.mpr horderings
        rw [hkeys.length_eq] at hsorts
        refine .sortKey ?_
        rw [List.length_append]
        omega
    · refine .condition ?_
      simpa [List.length_pos_iff] using hpredicates
  · have hnodes := List.length_pos_iff.mpr htree
    rw [hjoins.length_eq] at hnodes
    refine .join ?_
    rw [List.length_append]
    omega

/-- A compiled plan is unconstrained exactly if it leaves statements as they are; any other adds a
join, a condition, a sort key or a paging bound. Transfer objects without paging bounds whose
entries are all empty compile to such plans, unless they have too many entries. -/
theorem unconstrained_iff_unchanged :
    (∀ (t : TransferObject Predicate) options f plan, t.compile options f = .ok plan →
      ∀ (s : Select) (r : Resolver),
        (plan.isUnconstrained = true → s.apply plan r = (s, .ok ())) ∧
        (plan.isUnconstrained = false → s.limit = none → s.offset = none →
          ∀ u, s.apply plan r = (u, .ok ()) → u ≠ s ∧ Gained s u)) ∧
    ∀ (t : TransferObject Predicate) options f,
      (∀ entry ∈ t.entries, entry.2.isEmpty = true) → t.firstResult = none →
      t.maxResults = none →
        ((∃ plan, t.compile options f = .ok plan) ↔
          t.entries.length ≤ options.limits.maxEntries) ∧
        ∀ plan, t.compile options f = .ok plan → plan.isUnconstrained = true := by
  constructor
  · intro t options f plan hplan s r
    have hwell := TransferObject.wellFormed_of_compile hplan
    constructor
    · intro hunconstrained
      exact apply_of_asksNothing ((Plan.isUnconstrained_iff hwell).mp hunconstrained) s r
    · intro hconstrained hlimit hoffset u happly
      have hasks : ¬ plan.AsksNothing := by
        rw [← Plan.isUnconstrained_iff hwell, hconstrained]
        exact Bool.false_ne_true
      have hgained := gained_of_apply hasks hlimit hoffset happly
      exact ⟨hgained.ne, hgained⟩
  · intro t options f hempty hfirst hmax
    have hcount : ∀ plan, t.compile options f = .ok plan →
        t.entries.length ≤ options.limits.maxEntries :=
      fun plan hplan => (TransferObject.admits_of_compile hplan).entries
    constructor
    · constructor
      · intro hcompiles
        obtain ⟨plan, hplan⟩ := hcompiles
        exact hcount plan hplan
      · intro hle
        exact ⟨_, TransferObject.compile_of_isEmpty hempty hle⟩
    · intro plan hplan
      have hsame := TransferObject.compile_of_isEmpty (f := f) hempty (hcount plan hplan)
      rw [hplan, Except.ok.injEq] at hsame
      rw [hsame, hfirst, hmax]
      rfl

end Sql.Select

namespace TransferObject

/-- A transfer object that names properties and asks nothing about them. -/
def idle (count : Nat) : TransferObject P :=
  ⟨none, none, (List.range count).map fun i => (Text.decimal i, .empty (Text.decimal i))⟩

/-- Empty entries count too: with one more than the limit there is no plan. -/
theorem too_many_empty_entries :
    (∀ entry ∈ (idle 65 : TransferObject Sql.Predicate).entries, entry.2.isEmpty = true) ∧
      (idle 65 : TransferObject Sql.Predicate).firstResult = none ∧
      (idle 65 : TransferObject Sql.Predicate).maxResults = none ∧
      (idle 65 : TransferObject Sql.Predicate).compile .standard .none =
        .error (.limitExceeded "propertyId entries" 64 65) := by
  refine ⟨?_, rfl, rfl, rfl⟩
  intro entry hentry
  obtain ⟨i, -, rfl⟩ := List.mem_map.mp hentry
  rfl

end TransferObject
end QueryCriteria
