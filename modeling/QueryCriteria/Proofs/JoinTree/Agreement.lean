import QueryCriteria.Proofs.JoinTree.Sequences

/-!
# Paths that agree on join kinds

The effective path of a node has the names of its chain, but the kinds of those paths that came
first. If no two paths ask for different kinds at one chain of names, nobody has to give way: there
are no conflicts, and the effective paths are the prefixes of the paths themselves. So they do not
depend on the order in which the paths were registered.
-/
namespace QueryCriteria

namespace AssociationPath

theorem prefixes_push (p : AssociationPath) (step : Step) :
    (p.push step).prefixes = p.prefixes ++ [p.push step] := by
  unfold prefixes
  rw [length_push, List.range_succ, List.map_append, List.map_singleton]
  congr 1
  · apply List.map_congr_left
    intro k hk
    rw [List.mem_range, length] at hk
    simp only [take, push, mk.injEq]
    exact List.take_append_of_le_length hk
  · rw [take, List.take_of_length_le (by simp [push, length])]

theorem mem_prefixes_push {p q : AssociationPath} {step : Step} :
    q ∈ (p.push step).prefixes ↔ q ∈ p.prefixes ∨ q = p.push step := by
  rw [prefixes_push, List.mem_append, List.mem_singleton]

theorem eq_root_or_push (p : AssociationPath) : p = .root ∨ ∃ init last, p = push init last := by
  rcases List.eq_nil_or_concat' p.steps with hnil | ⟨steps, last, hsteps⟩
  · exact .inl (congrArg mk hnil)
  · exact .inr ⟨⟨steps⟩, last, congrArg mk hsteps⟩

theorem mem_prefixes_trans {p q r : AssociationPath} (hq : q ∈ p.prefixes) (hr : r ∈ q.prefixes) :
    r ∈ p.prefixes := by
  obtain ⟨j, hj, rfl⟩ := mem_prefixes.mp hq
  obtain ⟨k, hk, rfl⟩ := mem_prefixes.mp hr
  simp only [length, take, List.length_take] at hj hk
  refine mem_prefixes.mpr ⟨k, by rw [length]; omega, ?_⟩
  simp only [take, List.take_take, mk.injEq]
  congr 1
  omega

end AssociationPath

namespace JoinTree

open AssociationPath

/-- The tree joins every step of a path as the path asks. -/
def JoinsAsAsked (t : JoinTree) (p : AssociationPath) : Prop :=
  ∀ q ∈ p.prefixes, t.kindOf? q.names = q.lastKind?

theorem JoinsAsAsked.of_mem_prefixes {t : JoinTree} {p q : AssociationPath} (h : t.JoinsAsAsked p)
    (hq : q ∈ p.prefixes) : t.JoinsAsAsked q := by
  intro r hr
  exact h r (mem_prefixes_trans hq hr)

namespace WellFormed

variable {t : JoinTree} (h : t.WellFormed) {id : NodeId} {node : JoinNode}
  (hnode : t.node? id = some node)

include h hnode

theorem kindOf?_names : t.kindOf? node.path.names = node.path.lastKind? := by
  rw [kindOf?, h.index.mpr ⟨node, hnode, rfl⟩, Option.bind_some, hnode, Option.bind_some]
  rfl

/-- A path that is joined as it asks is the effective path of the node with its names. -/
theorem path_eq_of_joinsAsAsked {p : AssociationPath} (hp : t.JoinsAsAsked p)
    (hnames : node.path.names = p.names) : node.path = p := by
  -- The parent is older, and the path without its last step is joined as it asks as well.
  induction id using Nat.strongRecOn generalizing node p with
  | ind id ih =>
    have hkind := h.kindOf?_names hnode
    rcases h.root_or_child hnode with ⟨-, heq⟩ | ⟨-, parent, above, step, hlt, habove, heq⟩
    · have hpath : node.path = .root := by rw [heq]; rfl
      rcases p.eq_root_or_push with rfl | ⟨init, last, rfl⟩
      · exact hpath
      · simp [hpath, names_push] at hnames
    · have hpath : node.path = above.path.push step := by rw [heq]
      rcases p.eq_root_or_push with rfl | ⟨init, last, rfl⟩
      · simp [hpath, names_push] at hnames
      · have hasked := hp _ (mem_prefixes_push.mpr (.inr rfl))
        rw [← hnames, hkind, hpath, lastKind?_push, lastKind?_push, Option.some.injEq] at hasked
        rw [hpath, names_push, names_push] at hnames
        obtain ⟨hinit, hlast⟩ := List.append_inj' hnames rfl
        have habovePath : above.path = init := by
          apply ih parent hlt habove _ hinit
          intro q hq
          exact hp q (mem_prefixes_push.mpr (.inl hq))
        have hstep : step = last := by
          cases step
          cases last
          simp only [List.cons.injEq, and_true] at hlast hasked
          simp only [Step.mk.injEq]
          exact ⟨hlast, hasked⟩
        rw [hpath, habovePath, hstep]

end WellFormed

/-- No two of the paths ask for different kinds at one chain of names. -/
def Agree (paths : List AssociationPath) : Prop :=
  ∀ p ∈ paths, ∀ p' ∈ paths, ∀ q ∈ p.prefixes, ∀ q' ∈ p'.prefixes,
    q.names = q'.names → q.lastKind? = q'.lastKind?

instance (paths : List AssociationPath) : Decidable (Agree paths) :=
  inferInstanceAs (Decidable (∀ p ∈ paths, ∀ p' ∈ paths, ∀ q ∈ p.prefixes, ∀ q' ∈ p'.prefixes,
    q.names = q'.names → q.lastKind? = q'.lastKind?))

namespace Agree

variable {paths : List AssociationPath} (h : Agree paths)

include h

theorem of_perm {others : List AssociationPath} (hperm : paths.Perm others) : Agree others := by
  intro p hp p' hp'
  exact h p (hperm.mem_iff.mpr hp) p' (hperm.mem_iff.mpr hp')

theorem winner_eq {p q : AssociationPath} (hp : p ∈ paths) (hq : q ∈ p.prefixes) :
    winner paths q.names = q.lastKind? := by
  obtain ⟨kind, hkind⟩ := exists_winner hp hq
  obtain ⟨p', hp', q', hq', hnames, hlast⟩ := exists_of_winner_eq_some hkind
  rw [hkind, ← hlast]
  exact h p' hp' p hp q' hq' q hq hnames

theorem conflicts_eq_nil : (afterPaths .firstWins paths).conflicts = [] := by
  rw [conflicts_afterPaths, List.flatMap_eq_nil_iff]
  intro p hp
  apply List.filterMap_eq_nil_iff.mpr
  intro q hq
  obtain ⟨kind, hkind⟩ := exists_lastKind?_of_mem_prefixes hq
  rw [clash?_eq_none_iff hkind]
  intro winning hwinning
  rw [h.winner_eq hp hq, hkind] at hwinning
  exact (Option.some.inj hwinning).symm

theorem joinsAsAsked {p : AssociationPath} (hp : p ∈ paths) :
    (afterPaths .firstWins paths).JoinsAsAsked p := by
  intro q hq
  rw [kindOf?_afterPaths_firstWins, h.winner_eq hp hq]

theorem exists_node?_of_mem_prefixes {p q : AssociationPath} (hp : p ∈ paths)
    (hq : q ∈ p.prefixes) :
    ∃ id node, (afterPaths .firstWins paths).node? id = some node ∧ node.path = q := by
  have hwell := wellFormed_afterPaths .firstWins paths
  obtain ⟨kind, hkind⟩ := exists_lastKind?_of_mem_prefixes hq
  have hjoined := h.joinsAsAsked hp q hq
  cases hid : (afterPaths .firstWins paths).idOf? q.names with
  | none =>
    rw [kindOf?_of_idOf?_eq_none hid, hkind] at hjoined
    cases hjoined
  | some id =>
    obtain ⟨node, hnode, hnames⟩ := hwell.index.mp hid
    have hpath : node.path = q :=
      hwell.path_eq_of_joinsAsAsked hnode ((h.joinsAsAsked hp).of_mem_prefixes hq) hnames
    exact ⟨id, node, hnode, hpath⟩

/-- The effective paths are the root and the prefixes of the paths. -/
theorem mem_paths_iff {q : AssociationPath} :
    q ∈ (afterPaths .firstWins paths).nodes.map (·.path) ↔
      q = .root ∨ ∃ p ∈ paths, q ∈ p.prefixes := by
  have hwell := wellFormed_afterPaths .firstWins paths
  rw [List.mem_map]
  constructor
  · rintro ⟨node, hmem, rfl⟩
    obtain ⟨id, hnode⟩ := List.mem_iff_getElem?.mp hmem
    have hkind := hwell.kindOf?_names hnode
    rw [kindOf?_afterPaths_firstWins] at hkind
    rcases node.path.eq_root_or_push with hroot | ⟨init, last, hpush⟩
    · exact .inl hroot
    · rw [hpush, lastKind?_push] at hkind
      obtain ⟨p, hp, q, hq, hnames, -⟩ := exists_of_winner_eq_some hkind
      have hpath : node.path = q :=
        hwell.path_eq_of_joinsAsAsked hnode ((h.joinsAsAsked hp).of_mem_prefixes hq)
          (hpush ▸ hnames.symm)
      exact .inr ⟨p, hp, hpath ▸ hq⟩
  · rintro (rfl | ⟨p, hp, hq⟩)
    · obtain ⟨children, hroot⟩ := hwell.root
      exact ⟨_, List.mem_of_getElem? hroot, rfl⟩
    · obtain ⟨id, node, hnode, hpath⟩ := h.exists_node?_of_mem_prefixes hp hq
      exact ⟨node, List.mem_of_getElem? hnode, hpath⟩

/-- The effective paths do not depend on the order of the paths. -/
theorem paths_perm {others : List AssociationPath} (hperm : paths.Perm others) :
    ((afterPaths .firstWins paths).nodes.map (·.path)).Perm
      ((afterPaths .firstWins others).nodes.map (·.path)) := by
  rw [List.perm_ext_iff_of_nodup (wellFormed_afterPaths _ _).nodup_paths
    (wellFormed_afterPaths _ _).nodup_paths]
  intro q
  rw [h.mem_paths_iff, (h.of_perm hperm).mem_paths_iff]
  simp only [hperm.mem_iff]

end Agree
end JoinTree
end QueryCriteria
