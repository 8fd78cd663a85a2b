import Mathlib.Data.Set.Card
import QueryCriteria.Proofs.JoinTree.Sequences

/-!
# The chains that a tree joins

A tree joins a chain of association names once, however many paths go through it. The chains of a
tree are the names of its nodes without the root. A registration that succeeds adds the chains of
its prefixes and nothing else, a registration that fails adds none. So the chains after any calls
are the prefixes of the paths registered with success, and their number is the number of joins.
-/
namespace QueryCriteria

namespace AssociationPath

/-- The chains of names that lead along a path, one for each of its steps. -/
def chains (p : AssociationPath) : List (List String) := p.prefixes.map names

theorem names_take (p : AssociationPath) (count : Nat) :
    (p.take count).names = p.names.take count := by
  simp [names, take, List.map_take]

theorem mem_chains {p : AssociationPath} {chain : List String} :
    chain ∈ p.chains ↔ chain ≠ [] ∧ chain <+: p.names := by
  have hlength : p.names.length = p.length := length_names p
  constructor
  · intro hchain
    obtain ⟨q, hq, rfl⟩ := List.mem_map.mp hchain
    obtain ⟨k, hk, rfl⟩ := mem_prefixes.mp hq
    rw [names_take]
    refine ⟨?_, List.take_prefix _ _⟩
    intro hnil
    have hzero := congrArg List.length hnil
    rw [List.length_take, List.length_nil] at hzero
    omega
  · rintro ⟨hne, hprefix⟩
    have hpos : 0 < chain.length := List.length_pos_of_ne_nil hne
    have hle : chain.length ≤ p.names.length := hprefix.length_le
    refine List.mem_map.mpr ⟨p.take (chain.length - 1 + 1), ?_, ?_⟩
    · exact mem_prefixes.mpr ⟨chain.length - 1, by omega, rfl⟩
    · rw [names_take, Nat.sub_add_cancel hpos]
      exact (List.prefix_iff_eq_take.mp hprefix).symm

theorem nodup_chains (p : AssociationPath) : p.chains.Nodup := by
  unfold chains prefixes
  rw [List.map_map]
  refine List.Nodup.map_on ?_ List.nodup_range
  intro j hj k hk heq
  have hlength := congrArg List.length heq
  simp only [Function.comp, length_names, length, take, List.length_take] at hlength
  rw [List.mem_range, length] at hj hk
  omega

theorem isSome_requested? {p : AssociationPath} {chain : List String} :
    (p.requested? chain).isSome ↔ chain ∈ p.chains := by
  constructor
  · intro hsome
    obtain ⟨kind, hkind⟩ := Option.isSome_iff_exists.mp hsome
    obtain ⟨q, hq, -⟩ := Option.bind_eq_some_iff.mp hkind
    have hnames : q.names = chain := by simpa using List.find?_some hq
    exact List.mem_map.mpr ⟨q, List.mem_of_find?_eq_some hq, hnames⟩
  · intro hchain
    obtain ⟨q, hq, rfl⟩ := List.mem_map.mp hchain
    obtain ⟨kind, hkind⟩ := exists_lastKind?_of_mem_prefixes hq
    rw [requested?_of_mem_prefixes hq, hkind]
    rfl

end AssociationPath

namespace JoinTree

open AssociationPath

/-- The chains of names that a tree joins, in the order of their creation. -/
def chains (t : JoinTree) : List (List String) := t.joins.map (·.path.names)

namespace WellFormed

variable {t : JoinTree} (h : t.WellFormed)

include h

theorem size_eq : t.size = t.chains.length + 1 := by
  obtain ⟨children, hroot⟩ := h.root
  have hpos : 0 < t.nodes.length := lt_size_of_node? hroot
  rw [chains, List.length_map, joins, List.length_drop, size]
  omega

theorem nodup_chains : t.chains.Nodup := by
  unfold chains joins
  rw [List.map_drop]
  exact h.nodup_names.sublist (List.drop_sublist _ _)

/-- The tree joins the chains that its index knows, the empty one aside. -/
theorem mem_chains {chain : List String} :
    chain ∈ t.chains ↔ chain ≠ [] ∧ (t.idOf? chain).isSome := by
  unfold chains joins
  constructor
  · intro hchain
    obtain ⟨node, hmem, hnames⟩ := List.mem_map.mp hchain
    obtain ⟨i, hi⟩ := List.mem_iff_getElem?.mp hmem
    rw [List.getElem?_drop] at hi
    have hid : t.idOf? chain = some (1 + i) := h.index.mpr ⟨node, hi, hnames⟩
    refine ⟨?_, by rw [hid]; rfl⟩
    rintro rfl
    rw [h.idOf?_nil, Option.some.injEq] at hid
    have hzero : 0 = 1 + i := hid
    omega
  · rintro ⟨hne, hsome⟩
    obtain ⟨id, hid⟩ := Option.isSome_iff_exists.mp hsome
    obtain ⟨node, hnode, hnames⟩ := h.index.mp hid
    rcases h.root_or_child hnode with ⟨-, heq⟩ | ⟨hid0, -⟩
    · rw [heq] at hnames
      exact absurd hnames.symm hne
    · refine List.mem_map.mpr ⟨node, List.mem_iff_getElem?.mpr ⟨id - 1, ?_⟩, hnames⟩
      rw [List.getElem?_drop, Nat.add_sub_cancel' (Nat.one_le_iff_ne_zero.mpr hid0)]
      exact hnode

theorem isSome_kindOf? {chain : List String} : (t.kindOf? chain).isSome ↔ chain ∈ t.chains := by
  rw [h.mem_chains]
  cases hid : t.idOf? chain with
  | none => simp [kindOf?_of_idOf?_eq_none hid]
  | some id =>
    rcases List.eq_nil_or_concat' chain with rfl | ⟨shorter, name, rfl⟩
    · obtain ⟨children, hroot⟩ := h.root
      simp [kindOf?, h.idOf?_nil, hroot, JoinNode.kind?, JoinNode.root, AssociationPath.root, last?]
    · simp [h.kindOf?_of_idOf? hid]

theorem register_firstWins_of_ok {policy : ConflictPolicy} {p : AssociationPath} {u : JoinTree}
    {id : NodeId} (hu : t.register policy p = (u, .ok id)) :
    t.register .firstWins p = (u, .ok id) := by
  cases policy with
  | firstWins => exact hu
  | reject =>
    rw [h.register_reject_eq p] at hu
    cases hc : (p.clashes t.kindOf?).head? with
    | none => simpa [hc] using hu
    | some c => simp [hc] at hu

/-- A registration that fails leaves the tree as it was. -/
theorem eq_of_register_error {policy : ConflictPolicy} {p : AssociationPath} {u : JoinTree}
    {c : JoinConflict} (hu : t.register policy p = (u, .error c)) : u = t := by
  cases policy with
  | firstWins =>
    obtain ⟨id, hid⟩ := h.exists_register_firstWins p
    rw [hu] at hid
    cases hid
  | reject => exact ((h.register_reject_eq_error p).mp hu).1

/-- A registration that succeeds adds the chains of its path. -/
theorem mem_chains_register {policy : ConflictPolicy} {p : AssociationPath} {u : JoinTree}
    {id : NodeId} (hu : t.register policy p = (u, .ok id)) {chain : List String} :
    chain ∈ u.chains ↔ chain ∈ t.chains ∨ chain ∈ p.chains := by
  have hwell := h.register .firstWins p
  have hkinds := kindOf?_register_firstWins h p chain
  rw [h.register_firstWins_of_ok hu] at hwell hkinds
  rw [← hwell.isSome_kindOf?, ← h.isSome_kindOf?, ← isSome_requested?, hkinds, Option.isSome_or,
    Bool.or_eq_true]

/-- The new nodes are as many as the chains of the path that were not joined before. -/
theorem size_register {policy : ConflictPolicy} {p : AssociationPath} {u : JoinTree}
    {id : NodeId} (hu : t.register policy p = (u, .ok id)) :
    u.size = t.size + p.chains.countP fun chain => (t.idOf? chain).isNone := by
  have hwell : u.WellFormed := by
    have hafter := h.register policy p
    rwa [hu] at hafter
  have hnew : (p.chains.filter fun chain => (t.idOf? chain).isNone).Nodup :=
    (AssociationPath.nodup_chains p).filter _
  have hdisjoint : ∀ chain ∈ t.chains,
      ∀ other ∈ p.chains.filter fun chain => (t.idOf? chain).isNone, chain ≠ other := by
    intro chain hchain other hother heq
    have hknown := (h.mem_chains.mp hchain).2
    have hunknown := (List.mem_filter.mp hother).2
    rw [← heq, Option.isNone_iff_eq_none] at hunknown
    simp [hunknown] at hknown
  -- The tree has a node for each of its chains, so it is enough to compare the chains as sets.
  have hperm : u.chains.Perm (t.chains ++ p.chains.filter fun chain => (t.idOf? chain).isNone) := by
    refine (List.perm_ext_iff_of_nodup hwell.nodup_chains
      (List.nodup_append.mpr ⟨h.nodup_chains, hnew, hdisjoint⟩)).mpr ?_
    intro chain
    rw [h.mem_chains_register hu, List.mem_append, List.mem_filter]
    constructor
    · rintro (hold | hpath)
      · exact .inl hold
      · cases hid : t.idOf? chain with
        | none => exact .inr ⟨hpath, rfl⟩
        | some id =>
          have hne := (AssociationPath.mem_chains.mp hpath).1
          exact .inl (h.mem_chains.mpr ⟨hne, by rw [hid]; rfl⟩)
    · rintro (hold | ⟨hpath, -⟩)
      · exact .inl hold
      · exact .inr hpath
  have hlength := hperm.length_eq
  rw [List.length_append, ← List.countP_eq_length_filter] at hlength
  rw [hwell.size_eq, h.size_eq, hlength]
  omega

/-- Looking up a path gives the node with its names, whatever kinds it has. -/
theorem find?_eq_some_iff {p : AssociationPath} {node : JoinNode} :
    t.find? p = some node ↔ ∃ id, t.node? id = some node ∧ node.path.names = p.names := by
  unfold find?
  rw [Option.bind_eq_some_iff]
  constructor
  · rintro ⟨id, hid, hnode⟩
    obtain ⟨other, hother, hnames⟩ := h.index.mp hid
    rw [hnode, Option.some.injEq] at hother
    exact ⟨id, hnode, hother ▸ hnames⟩
  · rintro ⟨id, hnode, hnames⟩
    exact ⟨id, h.index.mpr ⟨node, hnode, hnames⟩, hnode⟩

theorem isSome_find? {p : AssociationPath} : (t.find? p).isSome = (t.idOf? p.names).isSome := by
  unfold find?
  cases hid : t.idOf? p.names with
  | none => rfl
  | some id =>
    obtain ⟨node, hnode, -⟩ := h.index.mp hid
    rw [Option.bind_some, hnode]
    rfl

theorem nodes_registerSteps_known {names : List String} {current id : NodeId} {steps : List Step}
    (hid : t.idOf? (names ++ steps.map Step.name) = some id) :
    (registerSteps .firstWins t current names steps).1.nodes = t.nodes := by
  induction steps generalizing t current names with
  | nil => rfl
  | cons step rest ih =>
    rw [List.map_cons, List.append_cons] at hid
    cases hnext : t.idOf? (names ++ [step.name]) with
    | none =>
      rw [h.idOf?_eq_none_of_prefix hnext (List.prefix_append _ _)] at hid
      cases hid
    | some next =>
      by_cases hk : t.kindAt next = step.kind
      · rw [registerSteps_known _ hnext hk]
        exact ih h hid
      · rw [registerSteps_firstWins hnext hk]
        exact ih (h.record _) hid

/-- A path whose names are joined already adds no node, and leads to the node with its names. -/
theorem register_known {p : AssociationPath} {id : NodeId} (hid : t.idOf? p.names = some id) :
    ∃ u, t.register .firstWins p = (u, .ok id) ∧ u.nodes = t.nodes := by
  have hknown : t.idOf? ([] ++ p.steps.map Step.name) = some id := hid
  have hnodes : (t.register .firstWins p).1.nodes = t.nodes := h.nodes_registerSteps_known hknown
  have hwell := h.register .firstWins p
  have hext := h.extends_register .firstWins p
  obtain ⟨id', hid'⟩ := h.exists_register_firstWins p
  cases hu : t.register .firstWins p with
  | mk u result =>
    rw [hu] at hnodes hwell hext hid'
    subst hid'
    have hsame := (hext.idOf? h hwell hid).symm.trans (h.idOf?_register hu)
    rw [Option.some.injEq] at hsame
    exact ⟨u, by rw [hsame], hnodes⟩

end WellFormed

/-- A path is registered with success by one of the calls, in the tree that those before it have
made. -/
def Registered (calls : List (ConflictPolicy × AssociationPath)) (p : AssociationPath) : Prop :=
  ∃ before policy rest id, calls = before ++ (policy, p) :: rest ∧
    ((after before).register policy p).2 = .ok id

section Registered

variable {calls : List (ConflictPolicy × AssociationPath)} {p : AssociationPath}

theorem not_registered_nil : ¬ Registered [] p := by
  rintro ⟨before, policy, rest, id, hcalls, -⟩
  simp at hcalls

theorem registered_concat {call : ConflictPolicy × AssociationPath} :
    Registered (calls ++ [call]) p ↔
      Registered calls p ∨
        p = call.2 ∧ ∃ id, ((after calls).register call.1 call.2).2 = .ok id := by
  constructor
  · rintro ⟨before, policy, rest, id, hcalls, hid⟩
    rcases List.eq_nil_or_concat' rest with rfl | ⟨rest, last, rfl⟩
    · obtain ⟨rfl, hlast⟩ := List.append_inj' hcalls rfl
      simp only [List.cons.injEq, and_true] at hlast
      subst hlast
      exact .inr ⟨rfl, id, hid⟩
    · rw [← List.cons_append, ← List.append_assoc] at hcalls
      obtain ⟨rfl, -⟩ := List.append_inj' hcalls rfl
      exact .inl ⟨before, policy, rest, id, rfl, hid⟩
  · rintro (⟨before, policy, rest, id, rfl, hid⟩ | ⟨rfl, id, hid⟩)
    · exact ⟨before, policy, rest ++ [call], id, by simp, hid⟩
    · exact ⟨calls, call.1, [], id, rfl, hid⟩

/-- The first of any calls succeeds, since an empty tree has no conflicts. -/
theorem exists_registered (h : calls ≠ []) : ∃ p, Registered calls p := by
  obtain ⟨⟨policy, p⟩, rest, rfl⟩ := List.exists_cons_of_ne_nil h
  obtain ⟨id, hid⟩ := wellFormed_empty.exists_register_firstWins p
  refine ⟨p, [], policy, rest, id, rfl, ?_⟩
  cases policy with
  | firstWins => exact hid
  | reject =>
    have hnone : p.clashes empty.kindOf? = [] :=
      List.filterMap_eq_nil_iff.mpr fun q _ => clash?_of_kinds_eq_none (kindOf?_empty q.names)
    rw [after_nil, wellFormed_empty.register_reject_eq, hnone]
    exact hid

/-- After any calls the tree joins the chains of the paths that were registered with success. -/
theorem mem_chains_after {chain : List String} :
    chain ∈ (after calls).chains ↔ ∃ p, Registered calls p ∧ chain ∈ p.chains := by
  induction calls using List.reverseRecOn with
  | nil =>
    constructor
    · intro hchain
      cases hchain
    · rintro ⟨p, hp, -⟩
      exact absurd hp not_registered_nil
  | append_singleton calls call ih =>
    have hwell := wellFormed_after calls
    rw [after_concat]
    cases hu : (after calls).register call.1 call.2 with
    | mk u result =>
      simp only [registered_concat, hu]
      cases result with
      | ok id =>
        rw [hwell.mem_chains_register hu, ih]
        constructor
        · rintro (⟨p, hp, hchain⟩ | hchain)
          · exact ⟨p, .inl hp, hchain⟩
          · exact ⟨call.2, .inr ⟨rfl, id, rfl⟩, hchain⟩
        · rintro ⟨p, hp | ⟨rfl, -⟩, hchain⟩
          · exact .inl ⟨p, hp, hchain⟩
          · exact .inr hchain
      | error c =>
        rw [hwell.eq_of_register_error hu, ih]
        simp

end Registered

theorem registered_firstWins_iff {paths : List AssociationPath} {p : AssociationPath} :
    Registered (paths.map (ConflictPolicy.firstWins, ·)) p ↔ p ∈ paths := by
  induction paths using List.reverseRecOn with
  | nil => simp [not_registered_nil]
  | append_singleton paths last ih =>
    have hwell := wellFormed_after (paths.map (ConflictPolicy.firstWins, ·))
    have hid := hwell.exists_register_firstWins last
    rw [List.map_append, List.map_singleton, registered_concat, ih]
    simp [hid]

theorem mem_chains_afterPaths {paths : List AssociationPath} {chain : List String} :
    chain ∈ (afterPaths .firstWins paths).chains ↔ ∃ p ∈ paths, chain ∈ p.chains := by
  unfold afterPaths
  rw [mem_chains_after]
  simp only [registered_firstWins_iff]

section Runs

variable (calls : List (ConflictPolicy × AssociationPath))

theorem isSome_find?_after (q : AssociationPath) :
    ((after calls).find? q).isSome ↔
      q.names = [] ∨ ∃ p, Registered calls p ∧ q.names <+: p.names := by
  have hwell := wellFormed_after calls
  rw [hwell.isSome_find?]
  by_cases hq : q.names = []
  · simp [hq, hwell.idOf?_nil]
  · have hchain : q.names ∈ (after calls).chains ↔
        q.names ≠ [] ∧ ((after calls).idOf? q.names).isSome := hwell.mem_chains
    rw [mem_chains_after] at hchain
    simp only [AssociationPath.mem_chains, ne_eq, hq, not_false_eq_true, true_and] at hchain
    simp [← hchain, hq]

theorem isSome_find?_after_of_ne_nil (hcalls : calls ≠ []) (q : AssociationPath) :
    ((after calls).find? q).isSome ↔ ∃ p, Registered calls p ∧ q.names <+: p.names := by
  rw [isSome_find?_after]
  constructor
  · rintro (hq | hp)
    · obtain ⟨p, hp⟩ := exists_registered hcalls
      exact ⟨p, hp, hq ▸ List.nil_prefix⟩
    · exact hp
  · exact .inr

theorem size_after :
    (after calls).size =
      1 + {chain | chain ≠ [] ∧ ∃ p, Registered calls p ∧ chain <+: p.names}.ncard := by
  have hwell := wellFormed_after calls
  have hset : {chain | chain ≠ [] ∧ ∃ p, Registered calls p ∧ chain <+: p.names} =
      ((after calls).chains.toFinset : Set (List String)) := by
    ext chain
    rw [List.coe_toFinset, Set.mem_ofPred_eq, Set.mem_ofPred_eq, mem_chains_after]
    simp only [AssociationPath.mem_chains]
    constructor
    · rintro ⟨hne, p, hp, hprefix⟩
      exact ⟨p, hp, hne, hprefix⟩
    · rintro ⟨p, hp, hne, hprefix⟩
      exact ⟨hne, p, hp, hprefix⟩
  rw [hset, Set.ncard_coe_finset, List.toFinset_card_of_nodup hwell.nodup_chains, hwell.size_eq,
    Nat.add_comm]

end Runs

/-- The number of nodes does not depend on the order of the paths, nor on how often each occurs. -/
theorem size_afterPaths_eq {paths others : List AssociationPath}
    (h : ∀ p, p ∈ paths ↔ p ∈ others) :
    (afterPaths .firstWins paths).size = (afterPaths .firstWins others).size := by
  unfold afterPaths
  rw [size_after, size_after]
  simp only [registered_firstWins_iff, h]

/-- Each chain of names is joined once. A registration that succeeds adds a node for each unknown
prefix and leads to the node with the names of its path. After any calls a path is found exactly if
its names are a prefix of a path registered with success, or none. -/
theorem register_joins_each_chain_once :
    (∀ calls policy p u id, (after calls).register policy p = (u, .ok id) →
      (∃ node, u.node? id = some node ∧ node.path.names = p.names) ∧
      (∀ other node, (after calls).node? other = some node →
        ∃ more, u.node? other = some { node with children := node.children ++ more }) ∧
      u.size = (after calls).size +
        p.prefixes.countP (fun q => ((after calls).find? q).isNone) ∧
      ∀ q, q.names = p.names → ∃ v, u.register .firstWins q = (v, .ok id) ∧ v.nodes = u.nodes) ∧
    (∀ calls,
      (∀ q, ((after calls).find? q).isSome ↔
        q.names = [] ∨ ∃ p, Registered calls p ∧ q.names <+: p.names) ∧
      (calls ≠ [] → ∀ q, ((after calls).find? q).isSome ↔
        ∃ p, Registered calls p ∧ q.names <+: p.names) ∧
      (∀ q node, (after calls).find? q = some node →
        node.path.names = q.names ∧ (after calls).node? node.id = some node ∧
        ∀ id other, (after calls).node? id = some other → other.path.names = q.names →
          other = node) ∧
      (after calls).size =
        1 + {chain | chain ≠ [] ∧ ∃ p, Registered calls p ∧ chain <+: p.names}.ncard) ∧
    ∀ paths others : List AssociationPath, paths.Perm others →
      (afterPaths .firstWins paths).size = (afterPaths .firstWins others).size := by
  refine ⟨?_, ?_, ?_⟩
  · intro calls policy p u id hu
    have hwell := wellFormed_after calls
    have huWell : u.WellFormed := by
      have hafter := hwell.register policy p
      rwa [hu] at hafter
    have hext : Extends (after calls) u := by
      have hafter := hwell.extends_register policy p
      rwa [hu] at hafter
    have hid : u.idOf? p.names = some id := hwell.idOf?_register hu
    refine ⟨huWell.index.mp hid, hext, ?_, ?_⟩
    · rw [hwell.size_register hu, AssociationPath.chains, List.countP_map]
      congr 2
      funext q
      rw [Function.comp_apply, ← Option.not_isSome, ← Option.not_isSome, hwell.isSome_find?]
    · intro q hq
      exact huWell.register_known (hq ▸ hid)
  · intro calls
    have hwell := wellFormed_after calls
    refine ⟨isSome_find?_after calls, isSome_find?_after_of_ne_nil calls, ?_, size_after calls⟩
    intro q node hnode
    obtain ⟨id, hid, hnames⟩ := hwell.find?_eq_some_iff.mp hnode
    refine ⟨hnames, by rwa [hwell.node_id hid], ?_⟩
    intro id' other hother hothers
    have hsame := hwell.id_eq_of_names_eq hother hid (hothers.trans hnames.symm)
    rw [hsame, hid, Option.some.injEq] at hother
    exact hother.symm
  · intro paths others hperm
    exact size_afterPaths_eq fun p => hperm.mem_iff

/-- Before the first call the root is found, although it has the names of no registered path. -/
theorem find?_root_without_calls :
    ((after []).find? .root).isSome ∧
      ¬ ∃ p, Registered [] p ∧ AssociationPath.root.names <+: p.names := by
  refine ⟨rfl, ?_⟩
  rintro ⟨p, hp, -⟩
  exact not_registered_nil hp

end JoinTree
end QueryCriteria
