import Mathlib.Data.List.Nodup
import QueryCriteria.Proofs.TableAlias

/-!
# Well-formed join trees

A join tree says several things twice: a node stores its number and its parent, the parent lists its
children, and the index repeats the names that the paths of the nodes have. Registering a path
updates each of these on its own. `WellFormed` states how they agree. Both ways in which a
registration changes a tree keep it, a recorded conflict and a new child, so that it holds after any
calls, those included that a conflict ends halfway.
-/
namespace QueryCriteria
namespace JoinTree

def parent? (t : JoinTree) (id : NodeId) : Option NodeId := (t.node? id).bind JoinNode.parent

/-- Every node of the first tree is in the second, where at most its list of children is longer. -/
def Extends (t u : JoinTree) : Prop :=
  ∀ id node, t.node? id = some node →
    ∃ more, u.node? id = some { node with children := node.children ++ more }

theorem Extends.refl (t : JoinTree) : Extends t t := by
  intro id node hnode
  exact ⟨[], by simpa using hnode⟩

theorem Extends.trans {t u v : JoinTree} (htu : Extends t u) (huv : Extends u v) :
    Extends t v := by
  intro id node hnode
  obtain ⟨more, hmore⟩ := htu id node hnode
  obtain ⟨again, hagain⟩ := huv id _ hmore
  exact ⟨more ++ again, by simpa using hagain⟩

theorem extends_record (t : JoinTree) (c : JoinConflict) : Extends t (t.record c) :=
  Extends.refl t

section AddChild

variable {t : JoinTree} {parent : NodeId} (step : Step) (names : List String)

theorem extends_addChild : Extends t (t.addChild parent step names) := by
  intro id node hnode
  rw [node?_addChild_of_lt _ _ (lt_size_of_node? hnode), hnode]
  exact ⟨_, rfl⟩

theorem node?_addChild_cases (hp : parent < t.size) {id : NodeId} {node : JoinNode}
    (hnode : (t.addChild parent step names).node? id = some node) :
    (id = t.size ∧ node = ⟨t.size, some parent, (t.pathAt parent).push step,
        some (aliasOf step.name t.size), []⟩) ∨
      ∃ old, t.node? id = some old ∧
        node = { old with children := old.children ++ if id = parent then [t.size] else [] } := by
  have hid := lt_size_of_node? hnode
  rw [size_addChild] at hid
  rcases Nat.lt_succ_iff_lt_or_eq.mp hid with hlt | heq
  · right
    obtain ⟨old, hold⟩ := exists_node?_of_lt hlt
    rw [node?_addChild_of_lt _ _ hlt, hold] at hnode
    exact ⟨old, hold, (Option.some.inj hnode).symm⟩
  · left
    subst heq
    rw [node?_addChild_size _ _ hp] at hnode
    exact ⟨rfl, (Option.some.inj hnode).symm⟩

theorem parent?_addChild_of_lt {id : NodeId} (hid : id < t.size) :
    (t.addChild parent step names).parent? id = t.parent? id := by
  obtain ⟨node, hnode⟩ := exists_node?_of_lt hid
  simp [parent?, node?_addChild_of_lt _ _ hid, hnode]

theorem parent?_addChild_size (hp : parent < t.size) :
    (t.addChild parent step names).parent? t.size = some parent := by
  simp [parent?, node?_addChild_size _ _ hp]

theorem filter_parent?_addChild (hp : parent < t.size) (id : NodeId) :
    ((List.range (t.addChild parent step names).size).filter fun other =>
        (t.addChild parent step names).parent? other = some id) =
      ((List.range t.size).filter fun other => t.parent? other = some id) ++
        if id = parent then [t.size] else [] := by
  have hold : ∀ other ∈ List.range t.size,
      decide ((t.addChild parent step names).parent? other = some id) =
        decide (t.parent? other = some id) := by
    intro other hother
    rw [parent?_addChild_of_lt _ _ (List.mem_range.mp hother)]
  rw [size_addChild, List.range_succ, List.filter_append, List.filter_congr hold]
  congr 1
  by_cases hid : id = parent
  · simp [parent?_addChild_size _ _ hp, hid]
  · simp [parent?_addChild_size _ _ hp, hid, Ne.symm hid]

end AddChild

/-- The nodes, their parents, their children and the index tell the same story. -/
structure WellFormed (t : JoinTree) : Prop where
  root : ∃ children, t.node? 0 = some { JoinNode.root with children := children }
  child : ∀ {id node}, t.node? id = some node → id ≠ 0 →
    ∃ parent above step, parent < id ∧ t.node? parent = some above ∧
      node = ⟨id, some parent, above.path.push step, some (aliasOf step.name id), node.children⟩
  children : ∀ {id node}, t.node? id = some node →
    node.children = (List.range t.size).filter fun other => t.parent? other = some id
  index : ∀ {names id}, t.idOf? names = some id ↔
    ∃ node, t.node? id = some node ∧ node.path.names = names

theorem wellFormed_empty : WellFormed empty where
  root := ⟨[], rfl⟩
  child := by
    intro id node hnode hid
    exact absurd (node?_empty_eq_some_iff.mp hnode).1 hid
  children := by
    intro id node hnode
    obtain ⟨rfl, rfl⟩ := node?_empty_eq_some_iff.mp hnode
    simp [parent?, node?_empty, JoinNode.root, List.range_succ]
  index := by
    intro names id
    rw [idOf?_empty_eq_some_iff]
    constructor
    · rintro ⟨rfl, rfl⟩
      exact ⟨.root, rfl, rfl⟩
    · rintro ⟨node, hnode, hnames⟩
      obtain ⟨rfl, rfl⟩ := node?_empty_eq_some_iff.mp hnode
      exact ⟨hnames.symm, rfl⟩

namespace WellFormed

variable {t : JoinTree} (h : t.WellFormed)

include h

theorem record (c : JoinConflict) : (t.record c).WellFormed where
  root := h.root
  child := h.child
  children := h.children
  index := h.index

theorem idOf?_nil : t.idOf? [] = some 0 := by
  obtain ⟨children, hroot⟩ := h.root
  exact h.index.mpr ⟨_, hroot, rfl⟩

theorem lt_size_of_idOf? {names : List String} {id : NodeId} (hid : t.idOf? names = some id) :
    id < t.size := by
  obtain ⟨node, hnode, -⟩ := h.index.mp hid
  exact lt_size_of_node? hnode

theorem names_pathAt {names : List String} {id : NodeId} (hid : t.idOf? names = some id) :
    (t.pathAt id).names = names := by
  obtain ⟨node, hnode, hnames⟩ := h.index.mp hid
  simpa [pathAt, hnode] using hnames

/-- A node is the root or a child of an older node. -/
theorem root_or_child {id : NodeId} {node : JoinNode} (hnode : t.node? id = some node) :
    (id = 0 ∧ node = { JoinNode.root with children := node.children }) ∨
      (id ≠ 0 ∧ ∃ parent above step, parent < id ∧ t.node? parent = some above ∧
        node =
          ⟨id, some parent, above.path.push step, some (aliasOf step.name id), node.children⟩) := by
  by_cases hid : id = 0
  · obtain ⟨children, hroot⟩ := h.root
    rw [hid, hroot, Option.some.injEq] at hnode
    exact .inl ⟨hid, by rw [← hnode]⟩
  · exact .inr ⟨hid, h.child hnode hid⟩

/-- A node other than the root has a parent in the tree, a join kind and an alias. -/
theorem child_of_mem_joins {node : JoinNode} (hnode : node ∈ t.joins) :
    ∃ parent above kind tableAlias, node.parent = some parent ∧ t.node? parent = some above ∧
      node.kind? = some kind ∧ node.tableAlias = some tableAlias := by
  obtain ⟨i, hi⟩ := List.mem_iff_getElem?.mp hnode
  rw [joins, List.getElem?_drop, Nat.add_comm] at hi
  obtain ⟨parent, above, step, -, habove, heq⟩ := h.child hi (Nat.succ_ne_zero i)
  rw [heq]
  exact ⟨parent, above, step.kind, _, rfl, habove, by simp [JoinNode.kind?], rfl⟩

theorem parent_lt {id parent : NodeId} (hp : t.parent? id = some parent) : parent < id := by
  obtain ⟨node, hnode, hparent⟩ := Option.bind_eq_some_iff.mp hp
  rcases h.root_or_child hnode with ⟨-, heq⟩ | ⟨-, parent', above, step, hlt, -, heq⟩
  · rw [heq] at hparent
    cases hparent
  · rw [heq, Option.some.injEq] at hparent
    exact hparent ▸ hlt

theorem node_id {id : NodeId} {node : JoinNode} (hnode : t.node? id = some node) :
    node.id = id := by
  rcases h.root_or_child hnode with ⟨rfl, heq⟩ | ⟨-, parent, above, step, -, -, heq⟩
  · rw [heq]
    rfl
  · rw [heq]

theorem eq_none_iff {id : NodeId} {node : JoinNode} (hnode : t.node? id = some node) :
    (node.parent = none ↔ id = 0) ∧ (node.tableAlias = none ↔ id = 0) ∧
      (node.association? = none ↔ id = 0) := by
  rcases h.root_or_child hnode with ⟨rfl, heq⟩ | ⟨hid, parent, above, step, -, -, heq⟩
  · rw [heq]
    simp [JoinNode.root, JoinNode.association?, AssociationPath.root, AssociationPath.last?]
  · rw [heq]
    simp [hid, JoinNode.association?]

theorem pairwise_lt_children {id : NodeId} {node : JoinNode} (hnode : t.node? id = some node) :
    node.children.Pairwise (· < ·) := by
  rw [h.children hnode]
  exact List.pairwise_lt_range.filter _

theorem mem_children_iff {id : NodeId} {node : JoinNode} (hnode : t.node? id = some node)
    (child : NodeId) :
    child ∈ node.children ↔ ∃ other, t.node? child = some other ∧ other.parent = some id := by
  rw [h.children hnode, List.mem_filter, decide_eq_true_iff, parent?, Option.bind_eq_some_iff]
  constructor
  · rintro ⟨-, hother⟩
    exact hother
  · rintro ⟨other, hchild, hparent⟩
    exact ⟨List.mem_range.mpr (lt_size_of_node? hchild), other, hchild, hparent⟩

theorem id_eq_of_names_eq {id id' : NodeId} {node node' : JoinNode} (hnode : t.node? id = some node)
    (hnode' : t.node? id' = some node') (hnames : node.path.names = node'.path.names) :
    id = id' := by
  have hid := h.index.mpr ⟨node, hnode, hnames⟩
  have hid' := h.index.mpr ⟨node', hnode', rfl⟩
  exact Option.some.inj (hid.symm.trans hid')

theorem nodup_names : (t.nodes.map (·.path.names)).Nodup := by
  rw [List.nodup_iff_injective_get]
  intro i j heq
  have hi : i.val < t.nodes.length := by simpa using i.isLt
  have hj : j.val < t.nodes.length := by simpa using j.isLt
  have hnames : t.nodes[i.val].path.names = t.nodes[j.val].path.names := by simpa using heq
  exact Fin.ext (h.id_eq_of_names_eq (List.getElem?_eq_getElem hi) (List.getElem?_eq_getElem hj)
    hnames)

theorem nodup_paths : (t.nodes.map (·.path)).Nodup := by
  apply List.Nodup.of_map AssociationPath.names
  rw [List.map_map]
  exact h.nodup_names

/-- With a chain of names the tree joins each shorter one. -/
theorem exists_of_prefix {id : NodeId} {node : JoinNode} (hnode : t.node? id = some node)
    {names : List String} (hnames : names <+: node.path.names) :
    ∃ id' other, t.node? id' = some other ∧ other.path.names = names := by
  induction id using Nat.strongRecOn generalizing node with
  | ind id ih =>
    rcases h.root_or_child hnode with ⟨rfl, heq⟩ | ⟨-, parent, above, step, hlt, habove, heq⟩
    · have hroot : node.path.names = [] := by rw [heq]; rfl
      rw [hroot, List.prefix_nil] at hnames
      exact ⟨0, node, hnode, hroot.trans hnames.symm⟩
    · have hpath : node.path.names = above.path.names ++ [step.name] := by
        rw [heq, AssociationPath.names_push]
      rw [hpath, List.prefix_concat_iff] at hnames
      rcases hnames with hwhole | hshorter
      · exact ⟨id, node, hnode, hpath.trans hwhole.symm⟩
      · exact ih parent hlt habove hshorter

theorem idOf?_eq_none_of_prefix {names longer : List String} (hnone : t.idOf? names = none)
    (hshorter : names <+: longer) : t.idOf? longer = none := by
  cases hid : t.idOf? longer with
  | none => rfl
  | some id =>
    obtain ⟨node, hnode, hnames⟩ := h.index.mp hid
    obtain ⟨id', other, hother, hothers⟩ := h.exists_of_prefix hnode (hnames ▸ hshorter)
    have hsome := h.index.mpr ⟨other, hother, hothers⟩
    rw [hnone] at hsome
    cases hsome

theorem exists_tableAlias_eq {id : NodeId} {node : JoinNode} {a : String}
    (hnode : t.node? id = some node) (ha : node.tableAlias = some a) :
    ∃ name, a = aliasOf name id := by
  rcases h.root_or_child hnode with ⟨-, heq⟩ | ⟨-, parent, above, step, -, -, heq⟩
  · rw [heq] at ha
    cases ha
  · rw [heq, Option.some.injEq] at ha
    exact ⟨step.name, ha.symm⟩

/-- No two nodes have the same alias, even up to the case of ASCII letters. -/
theorem id_eq_of_toLower_tableAlias_eq {id id' : NodeId} {node node' : JoinNode} {a a' : String}
    (hnode : t.node? id = some node) (hnode' : t.node? id' = some node')
    (ha : node.tableAlias = some a) (ha' : node'.tableAlias = some a')
    (heq : a.toLower = a'.toLower) : id = id' := by
  obtain ⟨name, rfl⟩ := h.exists_tableAlias_eq hnode ha
  obtain ⟨name', rfl⟩ := h.exists_tableAlias_eq hnode' ha'
  exact id_eq_of_toLower_aliasOf_eq heq

/-- A child at a chain of names that is new, below the node of the chain without its last name. -/
theorem addChild {parent : NodeId} {names : List String} {step : Step}
    (hp : t.idOf? names = some parent) (hnew : t.idOf? (names ++ [step.name]) = none) :
    (t.addChild parent step (names ++ [step.name])).WellFormed where
  root := by
    obtain ⟨children, hroot⟩ := h.root
    obtain ⟨more, hmore⟩ := extends_addChild step (names ++ [step.name]) _ _ hroot
    exact ⟨_, hmore⟩
  child := by
    intro id node hnode hid
    have hlt := h.lt_size_of_idOf? hp
    rcases node?_addChild_cases _ _ hlt hnode with ⟨rfl, rfl⟩ | ⟨old, hold, rfl⟩
    · obtain ⟨above, habove⟩ := exists_node?_of_lt hlt
      obtain ⟨more, hmore⟩ := extends_addChild step (names ++ [step.name]) _ _ habove
      exact ⟨parent, _, step, hlt, hmore, by simp [pathAt, habove]⟩
    · obtain ⟨parent', above, step', hlt', habove, heq⟩ := h.child hold hid
      obtain ⟨more, hmore⟩ := extends_addChild step (names ++ [step.name]) _ _ habove
      exact ⟨parent', _, step', hlt', hmore, by rw [heq]⟩
  children := by
    intro id node hnode
    have hlt := h.lt_size_of_idOf? hp
    rw [filter_parent?_addChild _ _ hlt]
    rcases node?_addChild_cases _ _ hlt hnode with ⟨rfl, rfl⟩ | ⟨old, hold, rfl⟩
    · -- No older node has the new one as its parent, since a parent is older than its children.
      have hnone :
          ((List.range t.size).filter fun other => t.parent? other = some t.size) = [] := by
        rw [List.filter_eq_nil_iff]
        intro other hother hparent
        exact absurd (h.parent_lt (of_decide_eq_true hparent))
          (Nat.lt_asymm (List.mem_range.mp hother))
      simp [hnone, Nat.ne_of_gt hlt]
    · rw [h.children hold]
  index := by
    intro others id
    have hlt := h.lt_size_of_idOf? hp
    rw [idOf?_addChild]
    constructor
    · intro hid
      split at hid
      · rename_i hothers
        cases hid
        refine ⟨_, node?_addChild_size _ _ hlt, ?_⟩
        simp [AssociationPath.names_push, h.names_pathAt hp, hothers]
      · obtain ⟨node, hnode, hnames⟩ := h.index.mp hid
        obtain ⟨more, hmore⟩ := extends_addChild step (names ++ [step.name]) _ _ hnode
        exact ⟨_, hmore, hnames⟩
    · rintro ⟨node, hnode, hnames⟩
      rcases node?_addChild_cases _ _ hlt hnode with ⟨rfl, rfl⟩ | ⟨old, hold, rfl⟩
      · simp [AssociationPath.names_push, h.names_pathAt hp] at hnames
        simp [hnames]
      · have hid : t.idOf? others = some id := h.index.mpr ⟨old, hold, hnames⟩
        rw [if_neg, hid]
        rintro rfl
        simp [hnew] at hid

end WellFormed
end JoinTree
end QueryCriteria
