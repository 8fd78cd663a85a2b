import Mathlib.Data.List.Basic
import QueryCriteria.Proofs.JoinTree.Registration

/-!
# Conflicts of a registration

Whether a path conflicts with a tree depends on the kinds in force alone: on `kindOf?`, which gives
the kind of a chain of names that the tree joins. The conflicts of a path are read off its prefixes
from the root outwards. Under `firstWins` a registration records exactly these. Under `reject` the
first of them ends it, and if there is none it does what `firstWins` does. No conflict can follow a
new node, since below it nothing is joined yet. That is why a rejected path leaves the tree as it
was.
-/
namespace QueryCriteria

open Text

namespace AssociationPath

def lastKind? (p : AssociationPath) : Option JoinKind := p.last?.map Step.kind

/-- The prefixes from the root outwards, the root left out. -/
def prefixes (p : AssociationPath) : List AssociationPath :=
  (List.range p.length).map fun k => p.take (k + 1)

/-- The paths that more and more of the steps lead to from the end of a path. -/
def prefixesFrom (p : AssociationPath) : List Step → List AssociationPath
  | [] => []
  | step :: rest => p.push step :: prefixesFrom (p.push step) rest

theorem prefixesFrom_eq (p : AssociationPath) (steps : List Step) :
    p.prefixesFrom steps =
      (List.range steps.length).map fun k => ⟨p.steps ++ steps.take (k + 1)⟩ := by
  induction steps generalizing p with
  | nil => rfl
  | cons step rest ih =>
    rw [prefixesFrom, ih, List.length_cons, List.range_succ_eq_map]
    simp [push, Function.comp_def]

theorem prefixes_eq_prefixesFrom (p : AssociationPath) :
    p.prefixes = root.prefixesFrom p.steps := by
  simp [prefixesFrom_eq, prefixes, length, take, root]

theorem length_lt_of_mem_prefixesFrom {p q : AssociationPath} {steps : List Step}
    (hq : q ∈ p.prefixesFrom steps) : p.length < q.length ∧ p.names <+: q.names := by
  rw [prefixesFrom_eq] at hq
  obtain ⟨k, hk, rfl⟩ := List.mem_map.mp hq
  have hpos : 0 < (steps.take (k + 1)).length := by
    rw [List.length_take]
    have := List.mem_range.mp hk
    omega
  constructor
  · simp only [length, List.length_append]
    omega
  · simp [names]

/-- The conflict of the last step with the kinds in force, if there is one. -/
def clash? (kinds : List String → Option JoinKind) (p : AssociationPath) : Option JoinConflict :=
  match kinds p.names, p.lastKind? with
  | some registered, some requested =>
    if registered = requested then none else some ⟨p.key, registered, requested⟩
  | _, _ => none

/-- The conflicts of the steps with the kinds in force, from the root outwards. -/
def clashes (kinds : List String → Option JoinKind) (p : AssociationPath) : List JoinConflict :=
  p.prefixes.filterMap (clash? kinds)

variable {kinds : List String → Option JoinKind} {p : AssociationPath}

theorem clash?_eq_some_iff {c : JoinConflict} :
    p.clash? kinds = some c ↔
      c.path = p.key ∧ kinds p.names = some c.registered ∧ p.lastKind? = some c.requested ∧
        c.registered ≠ c.requested := by
  obtain ⟨path, registered, requested⟩ := c
  unfold clash?
  split
  · rename_i r q hr hq
    by_cases heq : r = q
    · simp only [if_pos heq, hr, hq, Option.some.injEq, reduceCtorEq, false_iff]
      rintro ⟨-, rfl, rfl, hne⟩
      exact hne heq
    · simp only [if_neg heq, hr, hq, Option.some.injEq, JoinConflict.mk.injEq]
      constructor
      · rintro ⟨rfl, rfl, rfl⟩
        exact ⟨rfl, rfl, rfl, heq⟩
      · rintro ⟨rfl, rfl, rfl, -⟩
        exact ⟨rfl, rfl, rfl⟩
  · rename_i hnone
    simp only [reduceCtorEq, false_iff]
    rintro ⟨-, hr, hq, -⟩
    exact hnone _ _ hr hq

theorem clash?_of_kinds_eq_none (h : kinds p.names = none) : p.clash? kinds = none := by
  simp [clash?, h]

theorem clash?_eq_none_iff {requested : JoinKind} (hq : p.lastKind? = some requested) :
    p.clash? kinds = none ↔ ∀ kind, kinds p.names = some kind → kind = requested := by
  unfold clash?
  cases hk : kinds p.names with
  | none => simp
  | some registered => simp [hq]

theorem clash?_congr {other : List String → Option JoinKind} (h : kinds p.names = other p.names) :
    p.clash? kinds = p.clash? other := by
  simp [clash?, h]

theorem exists_lastKind?_take {k : Nat} (hk : k < p.length) :
    ∃ kind, (p.take (k + 1)).lastKind? = some kind := by
  have hne : p.steps.take (k + 1) ≠ [] := by
    intro hnil
    rw [List.take_eq_nil_iff] at hnil
    rcases hnil with hzero | hempty
    · cases hzero
    · simp [length, hempty] at hk
  exact ⟨_, by rw [lastKind?, last?, take, List.getLast?_eq_some_getLast hne]; rfl⟩

@[simp] theorem lastKind?_push (step : Step) : (p.push step).lastKind? = some step.kind := by
  simp [lastKind?]

theorem clash?_push_eq_none {step : Step} (h : kinds (p.push step).names = some step.kind) :
    (p.push step).clash? kinds = none := by
  rw [clash?_eq_none_iff (lastKind?_push step), h]
  intro kind hkind
  exact (Option.some.inj hkind).symm

end AssociationPath

namespace JoinTree

open AssociationPath

/-- The join kind in force for a chain of names, if the tree joins it. -/
def kindOf? (t : JoinTree) (names : List String) : Option JoinKind :=
  ((t.idOf? names).bind t.node?).bind JoinNode.kind?

theorem kindOf?_of_idOf?_eq_none {t : JoinTree} {names : List String}
    (h : t.idOf? names = none) : t.kindOf? names = none := by
  simp [kindOf?, h]

theorem kindOf?_empty (names : List String) : empty.kindOf? names = none := by
  by_cases h : names = []
  · simp [kindOf?, idOf?_empty, node?_empty, h, JoinNode.kind?, JoinNode.root,
      AssociationPath.root, last?]
  · simp [kindOf?, idOf?_empty, h]

theorem kindOf?_record (t : JoinTree) (c : JoinConflict) : (t.record c).kindOf? = t.kindOf? := rfl

namespace WellFormed

variable {t : JoinTree} (h : t.WellFormed)

include h

theorem kindOf?_of_idOf? {names : List String} {name : String} {id : NodeId}
    (hid : t.idOf? (names ++ [name]) = some id) :
    t.kindOf? (names ++ [name]) = some (t.kindAt id) := by
  obtain ⟨node, hnode, hnames⟩ := h.index.mp hid
  rcases h.root_or_child hnode with ⟨-, heq⟩ | ⟨-, parent, above, step, -, -, heq⟩
  · rw [heq] at hnames
    simp [JoinNode.root] at hnames
  · have hkind : node.kind? = some step.kind := by rw [heq]; simp [JoinNode.kind?]
    simp [kindOf?, kindAt, hid, hnode, hkind]

theorem kindOf?_addChild {parent : NodeId} {names : List String} {step : Step}
    (hp : t.idOf? names = some parent) (others : List String) :
    (t.addChild parent step (names ++ [step.name])).kindOf? others =
      if others = names ++ [step.name] then some step.kind else t.kindOf? others := by
  unfold kindOf?
  rw [idOf?_addChild]
  by_cases ho : others = names ++ [step.name]
  · simp [ho, node?_addChild_size _ _ (h.lt_size_of_idOf? hp), JoinNode.kind?]
  · rw [if_neg ho, if_neg ho]
    cases hid : t.idOf? others with
    | none => rfl
    | some id =>
      have hlt := h.lt_size_of_idOf? hid
      obtain ⟨node, hnode⟩ := exists_node?_of_lt hlt
      simp [node?_addChild_of_lt _ _ hlt, hnode, JoinNode.kind?]

/-- What one step of a registration does: it stays in the tree, where the kinds agree or a conflict
arises, or it adds a node below which nothing was joined. -/
theorem registerSteps_cons {current : NodeId} {p : AssociationPath}
    (hid : t.idOf? p.names = some current) (step : Step) (rest : List Step) :
    (∃ id, t.idOf? (p.push step).names = some id ∧ t.kindOf? (p.push step).names = some step.kind ∧
      ∀ policy, registerSteps policy t current p.names (step :: rest) =
        registerSteps policy t id (p.push step).names rest) ∨
    (∃ id c, t.idOf? (p.push step).names = some id ∧ (p.push step).clash? t.kindOf? = some c ∧
      registerSteps .firstWins t current p.names (step :: rest) =
        registerSteps .firstWins (t.record c) id (p.push step).names rest ∧
      registerSteps .reject t current p.names (step :: rest) = (t, .error c)) ∨
    (∃ u : JoinTree, u.WellFormed ∧ u.idOf? (p.push step).names = some t.size ∧
      u.conflicts = t.conflicts ∧
      (∀ longer, (p.push step).names <+: longer → t.kindOf? longer = none) ∧
      (∀ names, u.kindOf? names =
        if names = (p.push step).names then some step.kind else t.kindOf? names) ∧
      ∀ policy, registerSteps policy t current p.names (step :: rest) =
        registerSteps policy u t.size (p.push step).names rest) := by
  rw [names_push]
  cases hnext : t.idOf? (p.names ++ [step.name]) with
  | none =>
    right; right
    refine ⟨t.addChild current step (p.names ++ [step.name]), h.addChild hid hnext, ?_,
      conflicts_addChild _ _, ?_, h.kindOf?_addChild hid,
      fun policy => registerSteps_new policy hnext⟩
    · simp [idOf?_addChild]
    · intro longer hlonger
      exact kindOf?_of_idOf?_eq_none (h.idOf?_eq_none_of_prefix hnext hlonger)
  | some id =>
    have hkind := h.kindOf?_of_idOf? hnext
    by_cases hk : t.kindAt id = step.kind
    · left
      exact ⟨id, rfl, hk ▸ hkind, fun policy => registerSteps_known policy hnext hk⟩
    · right; left
      refine ⟨id, _, rfl, ?_, registerSteps_firstWins hnext hk, registerSteps_reject hnext hk⟩
      rw [clash?_eq_some_iff]
      exact ⟨by rw [key, names_push], by rw [names_push, hkind], lastKind?_push step, hk⟩

end WellFormed

/-- Two trees whose kinds in force agree but for one chain give the same conflicts below it. -/
theorem clash?_congr_of_mem {t u : JoinTree} {p q : AssociationPath} {kind : JoinKind}
    {rest : List Step}
    (hu : ∀ names, u.kindOf? names = if names = p.names then some kind else t.kindOf? names)
    (hq : q ∈ p.prefixesFrom rest) : q.clash? u.kindOf? = q.clash? t.kindOf? := by
  apply clash?_congr
  rw [hu, if_neg]
  intro heq
  have hlt := (length_lt_of_mem_prefixesFrom hq).1
  rw [← length_names, ← length_names, heq] at hlt
  exact Nat.lt_irrefl _ hlt

theorem exists_registerSteps_firstWins {t : JoinTree} (h : t.WellFormed) {current : NodeId}
    {p : AssociationPath} (hid : t.idOf? p.names = some current) (steps : List Step) :
    ∃ id, (registerSteps .firstWins t current p.names steps).2 = .ok id := by
  induction steps generalizing t current p with
  | nil => exact ⟨current, rfl⟩
  | cons step rest ih =>
    rcases h.registerSteps_cons hid step rest with
      ⟨id, hnext, -, heq⟩ | ⟨id, c, hnext, -, heq, -⟩ | ⟨u, hu, hnext, -, -, -, heq⟩
    · rw [heq]
      exact ih h hnext
    · rw [heq]
      exact ih (h.record c) hnext
    · rw [heq]
      exact ih hu hnext

/-- Under `firstWins` a registration records the conflicts with the kinds that were in force. -/
theorem conflicts_registerSteps_firstWins {t : JoinTree} (h : t.WellFormed) {current : NodeId}
    {p : AssociationPath} (hid : t.idOf? p.names = some current) (steps : List Step) :
    (registerSteps .firstWins t current p.names steps).1.conflicts =
      t.conflicts ++ (p.prefixesFrom steps).filterMap (clash? t.kindOf?) := by
  induction steps generalizing t current p with
  | nil => simp [prefixesFrom]
  | cons step rest ih =>
    rcases h.registerSteps_cons hid step rest with
      ⟨id, hnext, hkind, heq⟩ | ⟨id, c, hnext, hc, heq, -⟩ |
        ⟨u, hu, hnext, hconflicts, hnone, hkinds, heq⟩
    · have hc : (p.push step).clash? t.kindOf? = none := clash?_push_eq_none hkind
      rw [heq, ih h hnext, prefixesFrom, List.filterMap_cons_none hc]
    · rw [heq, ih (h.record c) hnext, prefixesFrom, List.filterMap_cons_some hc,
        conflicts_record, kindOf?_record, List.append_assoc, List.singleton_append]
    · have hc : (p.push step).clash? t.kindOf? = none :=
        clash?_of_kinds_eq_none (hnone _ List.prefix_rfl)
      rw [heq, ih hu hnext, prefixesFrom, List.filterMap_cons_none hc, hconflicts,
        List.filterMap_congr fun q hq => clash?_congr_of_mem hkinds hq]

/-- Under `firstWins` a registration brings into force what the path asks for, where nothing was. -/
theorem kindOf?_registerSteps_firstWins {t : JoinTree} (h : t.WellFormed) {current : NodeId}
    {p : AssociationPath} (hid : t.idOf? p.names = some current) (steps : List Step)
    (names : List String) :
    (registerSteps .firstWins t current p.names steps).1.kindOf? names =
      (t.kindOf? names).or
        (((p.prefixesFrom steps).find? (·.names = names)).bind lastKind?) := by
  induction steps generalizing t current p with
  | nil => simp [prefixesFrom]
  | cons step rest ih =>
    rcases h.registerSteps_cons hid step rest with
      ⟨id, hnext, hkind, heq⟩ | ⟨id, c, hnext, hc, heq, -⟩ |
        ⟨u, hu, hnext, hconflicts, hnone, hkinds, heq⟩
    · rw [heq, ih h hnext, prefixesFrom]
      by_cases hn : (p.push step).names = names
      · simp [← hn, hkind]
      · simp [hn]
    · have hkind := (clash?_eq_some_iff.mp hc).2.1
      rw [heq, ih (h.record c) hnext, prefixesFrom, kindOf?_record]
      by_cases hn : (p.push step).names = names
      · simp [← hn, hkind]
      · simp [hn]
    · rw [heq, ih hu hnext, prefixesFrom, hkinds]
      by_cases hn : (p.push step).names = names
      · simp [← hn, hnone _ List.prefix_rfl]
      · simp [hn, Ne.symm hn]

/-- Under `reject` the first conflict ends a registration, which is else as under `firstWins`. -/
theorem registerSteps_reject_eq {t : JoinTree} (h : t.WellFormed) {current : NodeId}
    {p : AssociationPath} (hid : t.idOf? p.names = some current) (steps : List Step) :
    registerSteps .reject t current p.names steps =
      match (p.prefixesFrom steps).findSome? (clash? t.kindOf?) with
      | none => registerSteps .firstWins t current p.names steps
      | some c => (t, .error c) := by
  induction steps generalizing t current p with
  | nil => rfl
  | cons step rest ih =>
    rw [prefixesFrom, List.findSome?_cons]
    rcases h.registerSteps_cons hid step rest with
      ⟨id, hnext, hkind, heq⟩ | ⟨id, c, hnext, hc, -, heq⟩ |
        ⟨u, hu, hnext, hconflicts, hnone, hkinds, heq⟩
    · have hc : (p.push step).clash? t.kindOf? = none := clash?_push_eq_none hkind
      rw [heq, heq, ih h hnext, hc]
    · rw [heq, hc]
    · have hc : (p.push step).clash? t.kindOf? = none :=
        clash?_of_kinds_eq_none (hnone _ List.prefix_rfl)
      have hrest : ∀ q ∈ (p.push step).prefixesFrom rest, q.clash? t.kindOf? = none := by
        intro q hq
        exact clash?_of_kinds_eq_none (hnone _ (length_lt_of_mem_prefixesFrom hq).2)
      have hrest' : ∀ q ∈ (p.push step).prefixesFrom rest, q.clash? u.kindOf? = none := by
        intro q hq
        rw [clash?_congr_of_mem hkinds hq, hrest q hq]
      rw [heq, heq, ih hu hnext, hc, List.findSome?_eq_none_iff.mpr hrest,
        List.findSome?_eq_none_iff.mpr hrest']

namespace WellFormed

variable {t : JoinTree} (h : t.WellFormed) (p : AssociationPath)

include h

theorem exists_register_firstWins : ∃ id, (t.register .firstWins p).2 = .ok id :=
  exists_registerSteps_firstWins h (p := .root) h.idOf?_nil p.steps

theorem conflicts_register_firstWins :
    (t.register .firstWins p).1.conflicts = t.conflicts ++ p.clashes t.kindOf? := by
  rw [clashes, prefixes_eq_prefixesFrom]
  exact conflicts_registerSteps_firstWins h (p := .root) h.idOf?_nil p.steps

theorem register_reject_eq :
    t.register .reject p =
      match (p.clashes t.kindOf?).head? with
      | none => t.register .firstWins p
      | some c => (t, .error c) := by
  rw [clashes, List.head?_filterMap, prefixes_eq_prefixesFrom]
  exact registerSteps_reject_eq h (p := .root) h.idOf?_nil p.steps

/-- Under `reject` a registration fails with its first conflict, and then the tree is unchanged. -/
theorem register_reject_eq_error {u : JoinTree} {c : JoinConflict} :
    t.register .reject p = (u, .error c) ↔
      u = t ∧ (p.clashes t.kindOf?).head? = some c := by
  rw [h.register_reject_eq p]
  cases (p.clashes t.kindOf?).head? with
  | none =>
    obtain ⟨id, hid⟩ := h.exists_register_firstWins p
    simp only [reduceCtorEq, and_false, iff_false]
    intro heq
    rw [heq] at hid
    cases hid
  | some first =>
    simp only [Prod.mk.injEq, Except.error.injEq, Option.some.injEq]
    exact and_congr_left' eq_comm

end WellFormed

theorem findSome?_range_eq_some_iff {α : Type} {f : Nat → Option α} {bound : Nat} {a : α} :
    (List.range bound).findSome? f = some a ↔
      ∃ k < bound, f k = some a ∧ ∀ j < k, f j = none := by
  induction bound with
  | zero => simp
  | succ bound ih =>
    rw [List.range_succ, List.findSome?_append, Option.or_eq_some_iff, ih]
    constructor
    · rintro (⟨k, hk, hfk, hbelow⟩ | ⟨hnone, hlast⟩)
      · exact ⟨k, Nat.lt_succ_of_lt hk, hfk, hbelow⟩
      · refine ⟨bound, Nat.lt_succ_self _, by simpa using hlast, ?_⟩
        intro j hj
        exact List.findSome?_eq_none_iff.mp hnone j (List.mem_range.mpr hj)
    · rintro ⟨k, hk, hfk, hbelow⟩
      rcases Nat.lt_succ_iff_lt_or_eq.mp hk with hlt | rfl
      · exact .inl ⟨k, hlt, hfk, hbelow⟩
      · refine .inr ⟨?_, by simpa using hfk⟩
        exact List.findSome?_eq_none_iff.mpr fun j hj => hbelow j (List.mem_range.mp hj)

/-- After any calls, a rejected registration leaves the tree as it was. Its error is the conflict of
the first prefix whose registered kind is not the one asked for: the dotted names of that prefix,
the registered kind and the requested one. A path without such a prefix is not rejected. -/
theorem register_reject_eq_error_iff (calls : List (ConflictPolicy × AssociationPath))
    (p : AssociationPath) (u : JoinTree) (c : JoinConflict) :
    (after calls).register .reject p = (u, .error c) ↔
      u = after calls ∧ ∃ k < p.length,
        c.path = dotted (p.take (k + 1)).names ∧
        ((after calls).find? (p.take (k + 1))).bind JoinNode.kind? = some c.registered ∧
        (p.take (k + 1)).last?.map Step.kind = some c.requested ∧
        c.registered ≠ c.requested ∧
        ∀ j < k, ∀ kind, ((after calls).find? (p.take (j + 1))).bind JoinNode.kind? = some kind →
          (p.take (j + 1)).last?.map Step.kind = some kind := by
  rw [(wellFormed_after calls).register_reject_eq_error p, clashes, List.head?_filterMap, prefixes,
    List.findSome?_map, findSome?_range_eq_some_iff]
  constructor
  · rintro ⟨hu, k, hk, hclash, hbefore⟩
    obtain ⟨hpath, hregistered, hrequested, hne⟩ := clash?_eq_some_iff.mp hclash
    refine ⟨hu, k, hk, hpath, hregistered, hrequested, hne, ?_⟩
    intro j hj kind hkind
    obtain ⟨requested, hlast⟩ := exists_lastKind?_take (Nat.lt_trans hj hk)
    have heq : kind = requested := (clash?_eq_none_iff hlast).mp (hbefore j hj) kind hkind
    exact heq ▸ hlast
  · rintro ⟨hu, k, hk, hpath, hregistered, hrequested, hne, hbefore⟩
    refine ⟨hu, k, hk, clash?_eq_some_iff.mpr ⟨hpath, hregistered, hrequested, hne⟩, ?_⟩
    intro j hj
    obtain ⟨requested, hlast⟩ := exists_lastKind?_take (Nat.lt_trans hj hk)
    refine (clash?_eq_none_iff hlast).mpr fun kind hkind => ?_
    exact Option.some.inj ((hbefore j hj kind hkind).symm.trans hlast)

end JoinTree
end QueryCriteria
