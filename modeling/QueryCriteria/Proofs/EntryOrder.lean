import QueryCriteria.Proofs.CompiledPlan
import QueryCriteria.Proofs.JoinTree.Agreement

/-!
# The order of the entries

The entries of a transfer object are compiled in turn, and the numbers of the nodes tell the order.
Where no two criteria disagree on a join kind, nothing else does. Every node that a criterion leads
to has the path of the criterion as its effective path, so a provider that reads no more than this
answers the same in whatever order the entries are compiled.
-/
namespace QueryCriteria

open JoinTree

variable {P : Type}

/-- The provider reads of a node no more than its effective path. -/
def Provider.ReadsPath (provider : Provider P) : Prop :=
  ∀ node node' property values, node.path = node'.path →
    provider node property values = provider node' property values

/-- What the sort keys of a plan ask for: effective paths, properties and directions. -/
def Plan.sortedBy (plan : Plan P) : List (AssociationPath × String × Bool) :=
  plan.orderings.map fun key => (plan.tree.pathAt key.node, key.property, key.ascending)

def Entry.sortedBy (e : Entry P) : List (AssociationPath × String × Bool) :=
  e.sort.toList.map fun c => (c.target.association, c.target.property, c.ascending)

namespace JoinTree.Agree

variable {paths : List AssociationPath} (h : Agree paths) {p : AssociationPath} (hp : p ∈ paths)

include h hp

theorem path_nodeFor : ((afterPaths .firstWins paths).nodeFor p).path = p := by
  have hwell := wellFormed_afterPaths .firstWins paths
  obtain ⟨id, hid⟩ := exists_idOf?_afterPaths hp
  exact hwell.path_eq_of_joinsAsAsked (hwell.node?_of_idOf? hid) (h.joinsAsAsked hp)
    (hwell.names_nodeFor hid)

theorem pathAt_nodeFor :
    (afterPaths .firstWins paths).pathAt ((afterPaths .firstWins paths).nodeFor p).id = p := by
  obtain ⟨id, hid⟩ := exists_idOf?_afterPaths hp
  rw [(wellFormed_afterPaths .firstWins paths).pathAt_nodeFor hid, h.path_nodeFor hp]

end JoinTree.Agree

section Perm

variable {t u : TransferObject P} (h : t.entries.Perm u.entries)

include h

theorem TransferObject.filters_perm : t.filters.Perm u.filters := h.flatMap_right _

theorem TransferObject.sorts_perm : t.sorts.Perm u.sorts := h.flatMap_right _

theorem TransferObject.paths_perm : t.paths.Perm u.paths := h.flatMap_right _

theorem Limits.measures_perm (l : Limits) : (l.measures t).Perm (l.measures u) := by
  unfold measures
  rw [h.length_eq, (TransferObject.filters_perm h).length_eq,
    (TransferObject.sorts_perm h).length_eq]
  exact ((TransferObject.paths_perm h).map _).append_left _

theorem Limits.firstExceeded?_eq_none_of_perm {l : Limits} (ht : l.firstExceeded? t = none) :
    l.firstExceeded? u = none := by
  unfold firstExceeded? at ht ⊢
  rw [List.find?_eq_none] at ht ⊢
  intro measure hmeasure
  exact ht measure ((l.measures_perm h).mem_iff.mpr hmeasure)

end Perm

/-- The entries of one transfer object in the order of another, where no two criteria ask for
different kinds at one chain of names and the providers read effective paths only. -/
structure TransferObject.Rearranged (t u : TransferObject P) : Prop where
  entries : t.entries.Perm u.entries
  kinds : Agree t.paths
  providers : ∀ entry ∈ t.filters, entry.2.provider.ReadsPath

namespace TransferObject

variable {t u : TransferObject P} {options : Options} {f : FilterObject} {plan plan' : Plan P}

/-- Where the kinds agree, the sort keys ask for what the sorts do. -/
theorem sortedBy_of_compile (hkinds : Agree t.paths) (hplan : t.compile options f = .ok plan) :
    plan.sortedBy = t.entries.flatMap fun entry => entry.2.sortedBy := by
  obtain ⟨-, -, horderings, -⟩ := compile_eq_ok hplan
  have hsorts : plan.sortedBy =
      t.sorts.map fun c => (c.target.association, c.target.property, c.ascending) := by
    rw [Plan.sortedBy, horderings, tree_of_compile hplan, List.map_map]
    apply List.map_congr_left
    intro c hc
    exact congrArg (·, c.target.property, c.ascending) (hkinds.pathAt_nodeFor (sort_mem_paths hc))
  rw [hsorts, sorts, List.map_flatMap]
  rfl

namespace Rearranged

variable (h : Rearranged t u)

include h

theorem symm : Rearranged u t where
  entries := h.entries.symm
  kinds := h.kinds.of_perm (paths_perm h.entries)
  providers := by
    intro entry hentry
    exact h.providers entry ((filters_perm h.entries).mem_iff.mpr hentry)

/-- A filter contributes the same in both orders. -/
theorem contribution_eq {entry : String × FilterCriterion P} (hentry : entry ∈ t.filters) :
    entry.2.contribution (afterPaths .firstWins t.paths) f entry.1 =
      entry.2.contribution (afterPaths .firstWins u.paths) f entry.1 := by
  have hpath := filter_mem_paths hentry
  have hpath' := (paths_perm h.entries).mem_iff.mp hpath
  apply FilterCriterion.contribution_congr
  intro values
  apply h.providers entry hentry
  rw [h.kinds.path_nodeFor hpath, h.symm.kinds.path_nodeFor hpath']

theorem predicatesIn_eq {key : String} {e : Entry P} (he : (key, e) ∈ t.entries) :
    e.predicatesIn (afterPaths .firstWins t.paths) f =
      e.predicatesIn (afterPaths .firstWins u.paths) f := by
  apply List.filterMap_congr
  intro c hc
  have hentry : (e.propertyId, c) ∈ t.filters :=
    List.mem_flatMap.mpr ⟨(key, e), he, List.mem_map.mpr ⟨c, hc, rfl⟩⟩
  simp only [FilterCriterion.predicate?, h.contribution_eq hentry]

/-- No path is rejected, since there are no conflicts. -/
theorem registerPaths_eq (policy : ConflictPolicy) :
    JoinTree.empty.registerPaths policy t.paths = .ok (afterPaths .firstWins t.paths) :=
  registerPaths_of_conflicts_eq_nil policy h.kinds.conflicts_eq_nil

theorem exists_compile (hplan : ∃ plan, t.compile options f = .ok plan) :
    ∃ plan, u.compile options f = .ok plan := by
  obtain ⟨hlimits, tree, htree, hfilters⟩ := exists_compile_iff.mp hplan
  rw [h.registerPaths_eq, Except.ok.injEq] at htree
  subst htree
  refine exists_compile_iff.mpr ⟨Limits.firstExceeded?_eq_none_of_perm h.entries hlimits, _,
    h.symm.registerPaths_eq _, ?_⟩
  intro entry hentry
  have hentry' := (filters_perm h.entries).mem_iff.mpr hentry
  rw [← h.contribution_eq hentry']
  exact hfilters entry hentry'

end Rearranged

/-- The order of the entries decides the order of the output and the numbers of the nodes, and
nothing else. Both orders compile or none does; the nodes have the same effective paths, and every
entry contributes the same predicates and sort key. -/
theorem compile_rearranged (h : Rearranged t u) (options : Options) (f : FilterObject) :
    ((∃ plan, t.compile options f = .ok plan) ↔ ∃ plan, u.compile options f = .ok plan) ∧
    ∀ plan plan', t.compile options f = .ok plan → u.compile options f = .ok plan' →
      (plan.tree.conflicts = [] ∧ plan'.tree.conflicts = []) ∧
      (plan.tree.nodes.map (·.path)).Perm (plan'.tree.nodes.map (·.path)) ∧
      (plan.predicates = t.entries.flatMap (fun entry => entry.2.predicatesIn plan.tree f) ∧
        plan'.predicates = u.entries.flatMap (fun entry => entry.2.predicatesIn plan.tree f)) ∧
      (plan.sortedBy = t.entries.flatMap (fun entry => entry.2.sortedBy) ∧
        plan'.sortedBy = u.entries.flatMap (fun entry => entry.2.sortedBy)) ∧
      (t.firstResult = u.firstResult → plan.firstResult = plan'.firstResult) ∧
      (t.maxResults = u.maxResults → plan.maxResults = plan'.maxResults) := by
  refine ⟨⟨h.exists_compile, h.symm.exists_compile⟩, ?_⟩
  intro plan plan' hplan hplan'
  have htree := tree_of_compile hplan
  have htree' := tree_of_compile hplan'
  obtain ⟨-, -, -, hfirst, hmax⟩ := compile_eq_ok hplan
  obtain ⟨-, -, -, hfirst', hmax'⟩ := compile_eq_ok hplan'
  have hpredicates' :
      plan'.predicates = u.entries.flatMap fun entry => entry.2.predicatesIn plan.tree f := by
    rw [predicates_eq_flatMap hplan', htree, htree']
    apply List.flatMap_congr
    intro entry hentry
    exact h.symm.predicatesIn_eq hentry
  refine ⟨⟨?_, ?_⟩, ?_, ⟨predicates_eq_flatMap hplan, hpredicates'⟩,
    ⟨sortedBy_of_compile h.kinds hplan, sortedBy_of_compile h.symm.kinds hplan'⟩, ?_, ?_⟩
  · rw [htree, h.kinds.conflicts_eq_nil]
  · rw [htree', h.symm.kinds.conflicts_eq_nil]
  · rw [htree, htree']
    exact h.kinds.paths_perm (paths_perm h.entries)
  · intro hsame
    rw [hfirst, hfirst', hsame]
  · intro hsame
    rw [hmax, hmax', hsame]

def townEntry : String × Entry String :=
  let team : Step := ⟨"team", .leftOuter, by decide⟩
  let town : PropertyPath := ⟨⟨[team]⟩, "town", by decide⟩
  ("town", ⟨"town", [.ofValue town (.string "Rome") fun node property _ =>
    .ok (some (node.path.key ++ "/" ++ property))], some ⟨town, false⟩⟩)

def leadEntry : String × Entry String :=
  let team : Step := ⟨"team", .leftOuter, by decide⟩
  let lead : Step := ⟨"lead", .inner, by decide⟩
  ("lead", ⟨"lead", [], some ⟨⟨⟨[team, lead]⟩, "surname", by decide⟩, true⟩⟩)

theorem compile_rearranged_people :
    ∃ plan plan',
      (TransferObject.mk none none [townEntry, leadEntry]).compile ⟨.reject, .standard⟩ .none =
        .ok plan ∧
      (TransferObject.mk none none [leadEntry, townEntry]).compile ⟨.reject, .standard⟩ .none =
        .ok plan' ∧
      (plan.tree.nodes.map (·.path)).Perm (plan'.tree.nodes.map (·.path)) ∧
      plan'.predicates = townEntry.2.predicatesIn plan.tree .none ∧
      plan.sortedBy = townEntry.2.sortedBy ++ leadEntry.2.sortedBy ∧
      plan'.sortedBy = leadEntry.2.sortedBy ++ townEntry.2.sortedBy := by
  have h : Rearranged ⟨none, none, [townEntry, leadEntry]⟩
      ⟨none, none, [leadEntry, townEntry]⟩ := by
    refine ⟨.swap _ _ _, by decide, ?_⟩
    intro entry hentry
    simp only [TransferObject.filters, townEntry, leadEntry, List.flatMap_cons,
      List.flatMap_nil, List.map_cons, List.map_nil, List.append_nil, List.mem_cons,
      List.not_mem_nil, or_false] at hentry
    subst hentry
    intro node node' property values hpath
    exact congrArg (fun p : AssociationPath => Except.ok (some (p.key ++ "/" ++ property))) hpath
  obtain ⟨plan, hplan⟩ : ∃ plan, (TransferObject.mk none none [townEntry, leadEntry]).compile
      ⟨.reject, .standard⟩ .none = .ok plan := ⟨_, rfl⟩
  obtain ⟨hboth, hsame⟩ := compile_rearranged h ⟨.reject, .standard⟩ .none
  obtain ⟨plan', hplan'⟩ := hboth.mp ⟨plan, hplan⟩
  obtain ⟨-, hpaths, ⟨-, hpredicates⟩, ⟨hsorted, hsorted'⟩, -⟩ := hsame plan plan' hplan hplan'
  exact ⟨plan, plan', hplan, hplan', hpaths, hpredicates, hsorted, hsorted'⟩

end TransferObject
end QueryCriteria
