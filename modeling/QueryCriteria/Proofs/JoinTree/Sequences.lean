import Mathlib.Data.List.Induction
import QueryCriteria.Proofs.JoinTree.Conflicts

/-!
# Sequences of paths

The paths of a query are registered one after another, all under one policy. Under `firstWins` the
result is determined by the sequence as a whole: for every chain of names the earliest path that
asks for it wins, and the conflicts are the steps that ask for something else. Under `reject` the
same sequence leads to the same tree, up to the first of these conflicts.
-/
namespace QueryCriteria

namespace AssociationPath

/-- The kind that a path asks for at the prefix with a chain of names, if it has this prefix. -/
def requested? (p : AssociationPath) (names : List String) : Option JoinKind :=
  (p.prefixes.find? (·.names = names)).bind lastKind?

theorem mem_prefixes {p q : AssociationPath} :
    q ∈ p.prefixes ↔ ∃ k < p.length, q = p.take (k + 1) := by
  simp [prefixes, eq_comm]

theorem exists_lastKind?_of_mem_prefixes {p q : AssociationPath} (hq : q ∈ p.prefixes) :
    ∃ kind, q.lastKind? = some kind := by
  obtain ⟨k, hk, rfl⟩ := mem_prefixes.mp hq
  exact exists_lastKind?_take hk

theorem eq_of_names_eq_of_mem_prefixes {p q r : AssociationPath} (hq : q ∈ p.prefixes)
    (hr : r ∈ p.prefixes) (hnames : q.names = r.names) : q = r := by
  obtain ⟨j, hj, rfl⟩ := mem_prefixes.mp hq
  obtain ⟨k, hk, rfl⟩ := mem_prefixes.mp hr
  have hlen := congrArg List.length hnames
  unfold length at hj hk
  simp only [length_names, length, take, List.length_take] at hlen
  have hjk : j = k := by omega
  rw [hjk]

theorem requested?_of_mem_prefixes {p q : AssociationPath} (hq : q ∈ p.prefixes) :
    p.requested? q.names = q.lastKind? := by
  have hfound : p.prefixes.find? (·.names = q.names) = some q := by
    cases hr : p.prefixes.find? (·.names = q.names) with
    | none => exact absurd (List.find?_eq_none.mp hr q hq) (by simp)
    | some r =>
      have hnames : r.names = q.names := by simpa using List.find?_some hr
      rw [eq_of_names_eq_of_mem_prefixes (List.mem_of_find?_eq_some hr) hq hnames]
  rw [requested?, hfound, Option.bind_some]

end AssociationPath

namespace JoinTree

open AssociationPath

/-- The tree after a sequence of paths, each registered under the policy. -/
def afterPaths (policy : ConflictPolicy) (paths : List AssociationPath) : JoinTree :=
  after (paths.map (policy, ·))

/-- Every registration of a sequence succeeds, each in the tree that those before it have made. -/
def AllSucceed (policy : ConflictPolicy) (paths : List AssociationPath) : Prop :=
  ∀ before p rest, paths = before ++ p :: rest →
    ∃ id, ((afterPaths policy before).register policy p).2 = .ok id

/-- The kind that the earliest path with a chain of names as prefix asks for there. -/
def winner (paths : List AssociationPath) (names : List String) : Option JoinKind :=
  paths.findSome? (·.requested? names)

theorem winner_concat (paths : List AssociationPath) (p : AssociationPath) (names : List String) :
    winner (paths ++ [p]) names = (winner paths names).or (p.requested? names) := by
  simp [winner]

theorem exists_winner {paths : List AssociationPath} {p q : AssociationPath} (hp : p ∈ paths)
    (hq : q ∈ p.prefixes) : ∃ kind, winner paths q.names = some kind := by
  obtain ⟨kind, hkind⟩ := exists_lastKind?_of_mem_prefixes hq
  rw [← requested?_of_mem_prefixes hq] at hkind
  cases hw : winner paths q.names with
  | none => simp [List.findSome?_eq_none_iff.mp hw p hp] at hkind
  | some winning => exact ⟨winning, rfl⟩

theorem exists_of_winner_eq_some {paths : List AssociationPath} {names : List String}
    {kind : JoinKind} (h : winner paths names = some kind) :
    ∃ p ∈ paths, ∃ q ∈ p.prefixes, q.names = names ∧ q.lastKind? = some kind := by
  obtain ⟨p, hp, hrequested⟩ := List.exists_of_findSome?_eq_some h
  obtain ⟨q, hq, hkind⟩ := Option.bind_eq_some_iff.mp hrequested
  exact ⟨p, hp, q, List.mem_of_find?_eq_some hq, by simpa using List.find?_some hq, hkind⟩

theorem wellFormed_afterPaths (policy : ConflictPolicy) (paths : List AssociationPath) :
    (afterPaths policy paths).WellFormed :=
  wellFormed_after _

@[simp] theorem afterPaths_nil (policy : ConflictPolicy) : afterPaths policy [] = empty := rfl

theorem afterPaths_concat (policy : ConflictPolicy) (paths : List AssociationPath)
    (p : AssociationPath) :
    afterPaths policy (paths ++ [p]) = ((afterPaths policy paths).register policy p).1 := by
  simp [afterPaths]

theorem extends_afterPaths (before rest : List AssociationPath) :
    Extends (afterPaths .firstWins before) (afterPaths .firstWins (before ++ rest)) := by
  induction rest using List.reverseRecOn with
  | nil =>
    rw [List.append_nil]
    exact Extends.refl _
  | append_singleton rest p ih =>
    rw [← List.append_assoc, afterPaths_concat]
    exact ih.trans ((wellFormed_afterPaths _ _).extends_register _ _)

theorem kindOf?_register_firstWins {t : JoinTree} (h : t.WellFormed) (p : AssociationPath)
    (names : List String) :
    (t.register .firstWins p).1.kindOf? names = (t.kindOf? names).or (p.requested? names) := by
  rw [requested?, prefixes_eq_prefixesFrom]
  exact kindOf?_registerSteps_firstWins h (p := .root) h.idOf?_nil p.steps names

/-- Under `firstWins` the kinds in force are the winning ones. -/
theorem kindOf?_afterPaths_firstWins (paths : List AssociationPath) :
    (afterPaths .firstWins paths).kindOf? = winner paths := by
  funext names
  induction paths using List.reverseRecOn with
  | nil =>
    rw [afterPaths_nil, kindOf?_empty]
    rfl
  | append_singleton paths p ih =>
    rw [afterPaths_concat, kindOf?_register_firstWins (wellFormed_afterPaths _ _), ih,
      winner_concat]

theorem conflicts_afterPaths_concat (paths : List AssociationPath) (p : AssociationPath) :
    (afterPaths .firstWins (paths ++ [p])).conflicts =
      (afterPaths .firstWins paths).conflicts ++ p.clashes (winner paths) := by
  rw [afterPaths_concat, (wellFormed_afterPaths _ _).conflicts_register_firstWins,
    kindOf?_afterPaths_firstWins]

/-- A later path does not change what wins at the prefixes of an earlier one. -/
theorem clashes_winner_concat_of_mem {paths : List AssociationPath} {p q : AssociationPath}
    (hp : p ∈ paths) : p.clashes (winner (paths ++ [q])) = p.clashes (winner paths) := by
  apply List.filterMap_congr
  intro r hr
  obtain ⟨kind, hkind⟩ := exists_winner hp hr
  apply clash?_congr
  rw [winner_concat, hkind, Option.some_or]

theorem clashes_winner_concat_self (paths : List AssociationPath) (p : AssociationPath) :
    p.clashes (winner (paths ++ [p])) = p.clashes (winner paths) := by
  apply List.filterMap_congr
  intro r hr
  cases hw : winner paths r.names with
  | some kind =>
    apply clash?_congr
    rw [winner_concat, hw, Option.some_or]
  | none =>
    obtain ⟨kind, hkind⟩ := exists_lastKind?_of_mem_prefixes hr
    rw [clash?_of_kinds_eq_none hw, clash?_eq_none_iff hkind]
    intro winning hwinning
    rw [winner_concat, hw, Option.none_or, requested?_of_mem_prefixes hr, hkind] at hwinning
    exact (Option.some.inj hwinning).symm

/-- Under `firstWins` the conflicts are the steps that ask for another kind than the winning one. -/
theorem conflicts_afterPaths (paths : List AssociationPath) :
    (afterPaths .firstWins paths).conflicts = paths.flatMap (clashes (winner paths)) := by
  induction paths using List.reverseRecOn with
  | nil => rfl
  | append_singleton paths p ih =>
    rw [conflicts_afterPaths_concat, ih, List.flatMap_append, List.flatMap_singleton,
      clashes_winner_concat_self,
      List.flatMap_congr fun q hq => clashes_winner_concat_of_mem hq]

theorem allSucceed_firstWins (paths : List AssociationPath) : AllSucceed .firstWins paths := by
  intro before p rest _
  exact (wellFormed_afterPaths _ _).exists_register_firstWins p

theorem conflicts_afterPaths_prefix (before rest : List AssociationPath) :
    (afterPaths .firstWins before).conflicts <+:
      (afterPaths .firstWins (before ++ rest)).conflicts := by
  induction rest using List.reverseRecOn with
  | nil => simp
  | append_singleton rest p ih =>
    rw [← List.append_assoc, conflicts_afterPaths_concat]
    exact ih.trans (List.prefix_append _ _)

/-- As long as there is no conflict, the policies lead to the same tree. -/
theorem afterPaths_reject_eq {paths : List AssociationPath}
    (h : (afterPaths .firstWins paths).conflicts = []) :
    afterPaths .reject paths = afterPaths .firstWins paths := by
  induction paths using List.reverseRecOn with
  | nil => rfl
  | append_singleton paths p ih =>
    rw [conflicts_afterPaths_concat, List.append_eq_nil_iff] at h
    obtain ⟨hbefore, hclashes⟩ := h
    rw [afterPaths_concat, afterPaths_concat, ih hbefore,
      (wellFormed_afterPaths _ _).register_reject_eq, kindOf?_afterPaths_firstWins, hclashes]
    rfl

/-- The first conflict of a sequence arises at a path before which there was none. -/
theorem exists_of_head?_conflicts {paths : List AssociationPath} {c : JoinConflict}
    (h : (afterPaths .firstWins paths).conflicts.head? = some c) :
    ∃ before p rest, paths = before ++ p :: rest ∧
      (afterPaths .firstWins before).conflicts = [] ∧
      (p.clashes (winner before)).head? = some c := by
  induction paths using List.reverseRecOn with
  | nil => cases h
  | append_singleton paths p ih =>
    by_cases hbefore : (afterPaths .firstWins paths).conflicts = []
    · rw [conflicts_afterPaths_concat, hbefore, List.nil_append] at h
      exact ⟨paths, p, [], rfl, hbefore, h⟩
    · rw [conflicts_afterPaths_concat, List.head?_append_of_ne_nil _ hbefore] at h
      obtain ⟨before, q, rest, rfl, hnone, hclash⟩ := ih h
      exact ⟨before, q, rest ++ [p], by simp, hnone, hclash⟩

/-- Where a path has the first conflict of the sequence, `reject` fails with it. -/
theorem register_afterPaths_reject {before : List AssociationPath} {p : AssociationPath}
    {c : JoinConflict} (h : (afterPaths .firstWins before).conflicts = [])
    (hclash : (p.clashes (winner before)).head? = some c) :
    (afterPaths .reject before).register .reject p = (afterPaths .firstWins before, .error c) := by
  rw [afterPaths_reject_eq h, (wellFormed_afterPaths _ _).register_reject_eq_error,
    kindOf?_afterPaths_firstWins]
  exact ⟨rfl, hclash⟩

/-- Under `reject` a sequence succeeds exactly if under `firstWins` it has no conflict. -/
theorem allSucceed_reject_iff {paths : List AssociationPath} :
    AllSucceed .reject paths ↔ (afterPaths .firstWins paths).conflicts = [] := by
  constructor
  · intro hsucceed
    by_contra hne
    obtain ⟨c, hc⟩ := Option.isSome_iff_exists.mp (List.isSome_head?.mpr hne)
    obtain ⟨before, p, rest, hpaths, hnone, hclash⟩ := exists_of_head?_conflicts hc
    obtain ⟨id, hid⟩ := hsucceed before p rest hpaths
    rw [register_afterPaths_reject hnone hclash] at hid
    cases hid
  · intro hnone before p rest hpaths
    have hconcat : (afterPaths .firstWins (before ++ [p])).conflicts = [] := by
      have hshorter := conflicts_afterPaths_prefix (before ++ [p]) rest
      rw [List.append_assoc, List.singleton_append, ← hpaths, hnone] at hshorter
      exact List.prefix_nil.mp hshorter
    rw [conflicts_afterPaths_concat, List.append_eq_nil_iff] at hconcat
    obtain ⟨hbefore, hclashes⟩ := hconcat
    rw [afterPaths_reject_eq hbefore, (wellFormed_afterPaths _ _).register_reject_eq,
      kindOf?_afterPaths_firstWins, hclashes]
    exact (wellFormed_afterPaths _ _).exists_register_firstWins p

theorem kind?_eq_winner {paths : List AssociationPath} {id : NodeId} {node : JoinNode}
    (hnode : (afterPaths .firstWins paths).node? id = some node) :
    node.kind? = winner paths node.path.names := by
  have hid := (wellFormed_afterPaths .firstWins paths).index.mpr ⟨node, hnode, rfl⟩
  rw [← kindOf?_afterPaths_firstWins, kindOf?, hid, Option.bind_some, hnode, Option.bind_some]

/-- Under `firstWins` a node joins as the earliest path with its chain asks, and the conflicts are
the steps that ask for something else. Under `reject` a sequence succeeds exactly if there are none;
else the first path that has one fails with it, in the tree of `firstWins`. -/
theorem afterPaths_firstWins_and_reject (paths : List AssociationPath) :
    let conflicts := (afterPaths .firstWins paths).conflicts
    AllSucceed .firstWins paths ∧
    (∀ id node, (afterPaths .firstWins paths).node? id = some node → id ≠ 0 →
      ∃ kind, node.kind? = some kind ∧ winner paths node.path.names = some kind) ∧
    conflicts = paths.flatMap (clashes (winner paths)) ∧
    (AllSucceed .reject paths ↔ conflicts = []) ∧
    (conflicts = [] → afterPaths .reject paths = afterPaths .firstWins paths) ∧
    (∀ c, conflicts.head? = some c →
      ∃ before p rest, paths = before ++ p :: rest ∧
        AllSucceed .reject before ∧
        (afterPaths .reject before).register .reject p =
          (afterPaths .firstWins before, .error c) ∧
        (afterPaths .firstWins before).conflicts = [] ∧
        (afterPaths .firstWins (before ++ [p])).conflicts.head? = some c) := by
  refine ⟨allSucceed_firstWins paths, ?_, conflicts_afterPaths paths, allSucceed_reject_iff,
    afterPaths_reject_eq, ?_⟩
  · intro id node hnode hid
    have hwinner := kind?_eq_winner hnode
    obtain ⟨parent, above, step, -, -, heq⟩ :=
      (wellFormed_afterPaths .firstWins paths).child hnode hid
    have hkind : node.kind? = some step.kind := by
      rw [heq]
      simp [JoinNode.kind?]
    exact ⟨step.kind, hkind, hwinner.symm.trans hkind⟩
  · intro c hc
    obtain ⟨before, p, rest, hpaths, hnone, hclash⟩ := exists_of_head?_conflicts hc
    refine ⟨before, p, rest, hpaths, allSucceed_reject_iff.mpr hnone,
      register_afterPaths_reject hnone hclash, hnone, ?_⟩
    rw [conflicts_afterPaths_concat, hnone, List.nil_append, hclash]

end JoinTree
end QueryCriteria
