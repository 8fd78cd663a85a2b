import QueryCriteria.Proofs.JoinTree.WellFormed

/-!
# What registrations keep

A registration walks down its path and changes the tree in two ways only, by a recorded conflict or
by a new child of the node it stands on. What both keep is kept by a registration, also by one that
a conflict ends, and so by any sequence of calls. The main statement describes every tree that such
calls lead to: nodes, parents, children, index and aliases.
-/
namespace QueryCriteria
namespace JoinTree

open Text

/-- The induction over a registration. The node it stands on always has the names passed so far. -/
theorem registerSteps_induction {P : JoinTree → Prop} (policy : ConflictPolicy)
    (record : ∀ t c, P t → P (t.record c))
    (addChild : ∀ t parent names (step : Step), t.idOf? names = some parent →
      t.idOf? (names ++ [step.name]) = none → P t →
      P (t.addChild parent step (names ++ [step.name])))
    (steps : List Step) {t : JoinTree} {current : NodeId} {names : List String}
    (hid : t.idOf? names = some current) (ht : P t) :
    P (registerSteps policy t current names steps).1 := by
  induction steps generalizing t current names with
  | nil => exact ht
  | cons step rest ih =>
    cases hnext : t.idOf? (names ++ [step.name]) with
    | none =>
      rw [registerSteps_new policy hnext]
      exact ih (by simp [idOf?_addChild]) (addChild t current names step hid hnext ht)
    | some id =>
      by_cases hk : t.kindAt id = step.kind
      · rw [registerSteps_known policy hnext hk]
        exact ih hnext ht
      · cases policy with
        | firstWins =>
          rw [registerSteps_firstWins hnext hk]
          exact ih hnext (record t _ ht)
        | reject =>
          rw [registerSteps_reject hnext hk]
          exact ht

theorem idOf?_registerSteps {policy : ConflictPolicy} {steps : List Step} {t u : JoinTree}
    {current id : NodeId} {names : List String} (hid : t.idOf? names = some current)
    (h : registerSteps policy t current names steps = (u, .ok id)) :
    u.idOf? (names ++ steps.map Step.name) = some id := by
  induction steps generalizing t current names with
  | nil =>
    cases h
    simpa using hid
  | cons step rest ih =>
    rw [List.map_cons, List.append_cons]
    cases hnext : t.idOf? (names ++ [step.name]) with
    | none =>
      rw [registerSteps_new policy hnext] at h
      exact ih (by simp [idOf?_addChild]) h
    | some next =>
      by_cases hk : t.kindAt next = step.kind
      · rw [registerSteps_known policy hnext hk] at h
        exact ih hnext h
      · cases policy with
        | firstWins =>
          rw [registerSteps_firstWins hnext hk] at h
          refine ih ?_ h
          exact hnext
        | reject =>
          rw [registerSteps_reject hnext hk] at h
          cases h

theorem WellFormed.extends_register {t : JoinTree} (h : t.WellFormed) (policy : ConflictPolicy)
    (p : AssociationPath) : Extends t (t.register policy p).1 := by
  apply registerSteps_induction policy _ _ p.steps h.idOf?_nil (Extends.refl t)
  · intro u c hu
    exact hu.trans (extends_record u c)
  · intro u parent names step _ _ hu
    exact hu.trans (extends_addChild step _)

protected theorem WellFormed.register {t : JoinTree} (h : t.WellFormed) (policy : ConflictPolicy)
    (p : AssociationPath) : (t.register policy p).1.WellFormed := by
  apply registerSteps_induction policy _ _ p.steps h.idOf?_nil h
  · intro u c hu
    exact hu.record c
  · intro u parent names step hp hnew hu
    exact hu.addChild hp hnew

theorem WellFormed.idOf?_register {t u : JoinTree} (h : t.WellFormed) {policy : ConflictPolicy}
    {p : AssociationPath} {id : NodeId} (hu : t.register policy p = (u, .ok id)) :
    u.idOf? p.names = some id :=
  idOf?_registerSteps h.idOf?_nil hu

theorem Extends.idOf? {t u : JoinTree} (htu : Extends t u) (ht : t.WellFormed)
    (hu : u.WellFormed) {names : List String} {id : NodeId} (h : t.idOf? names = some id) :
    u.idOf? names = some id := by
  obtain ⟨node, hnode, hnames⟩ := ht.index.mp h
  obtain ⟨more, hmore⟩ := htu id node hnode
  exact hu.index.mpr ⟨_, hmore, hnames⟩

/-- The tree after calls, each a policy and a path, from the empty tree on. A call that fails
leaves the tree as it has made it. -/
def after (calls : List (ConflictPolicy × AssociationPath)) : JoinTree :=
  calls.foldl (fun t call => (t.register call.1 call.2).1) empty

@[simp] theorem after_nil : after [] = empty := rfl

@[simp] theorem after_concat (calls : List (ConflictPolicy × AssociationPath))
    (call : ConflictPolicy × AssociationPath) :
    after (calls ++ [call]) = ((after calls).register call.1 call.2).1 := by
  simp [after]

theorem wellFormed_after (calls : List (ConflictPolicy × AssociationPath)) :
    (after calls).WellFormed :=
  List.foldlRecOn calls _ wellFormed_empty fun _ ht call _ => ht.register call.1 call.2

/-- After any calls, failed ones included, the representations agree: every node but the root
continues the path of its parent, an older node, by the step that it is named after, the index pairs
the nodes with their chains of names, and the aliases differ, capital letters or not. -/
theorem after_representations_agree (calls : List (ConflictPolicy × AssociationPath)) :
    let t := after calls
    (∃ root, t.node? 0 = some root) ∧
    (∀ id node, t.node? id = some node →
      node.id = id ∧
      (node.parent = none ↔ id = 0) ∧
      (node.tableAlias = none ↔ id = 0) ∧
      (node.association? = none ↔ id = 0) ∧
      (id ≠ 0 → ∃ parent above step,
        node.parent = some parent ∧ parent < id ∧ t.node? parent = some above ∧
        node.path.steps = above.path.steps ++ [step] ∧
        node.depth = above.depth + 1 ∧
        node.tableAlias = some (step.name ++ "_" ++ decimal id)) ∧
      node.children.Pairwise (· < ·) ∧
      (∀ child, child ∈ node.children ↔
        ∃ other, t.node? child = some other ∧ other.parent = some id) ∧
      (∀ names, names <+: node.path.names →
        ∃ id' other, t.node? id' = some other ∧ other.path.names = names)) ∧
    (∀ names id, t.idOf? names = some id ↔
      ∃ node, t.node? id = some node ∧ node.path.names = names) ∧
    (∀ id id' node node', t.node? id = some node → t.node? id' = some node' →
      node.path.names = node'.path.names → id = id') ∧
    (∀ id id' node node' a a', t.node? id = some node → t.node? id' = some node' → id ≠ id' →
      node.tableAlias = some a → node'.tableAlias = some a' →
      a ≠ a' ∧ a.toLower ≠ a'.toLower) := by
  intro t
  have h : t.WellFormed := wellFormed_after calls
  refine ⟨?_, ?_, fun names id => h.index, ?_, ?_⟩
  · obtain ⟨children, hroot⟩ := h.root
    exact ⟨_, hroot⟩
  · intro id node hnode
    obtain ⟨hparent, halias, hassociation⟩ := h.eq_none_iff hnode
    refine ⟨h.node_id hnode, hparent, halias, hassociation, ?_, h.pairwise_lt_children hnode,
      h.mem_children_iff hnode, fun names => h.exists_of_prefix hnode⟩
    intro hid
    obtain ⟨parent, above, step, hlt, habove, heq⟩ := h.child hnode hid
    refine ⟨parent, above, step, ?_, hlt, habove, ?_, ?_, ?_⟩
    · rw [heq]
    · rw [heq]
      rfl
    · rw [heq]
      simp [JoinNode.depth]
    · rw [heq]
      rfl
  · intro id id' node node' hnode hnode' hnames
    exact h.id_eq_of_names_eq hnode hnode' hnames
  · intro id id' node node' a a' hnode hnode' hne ha ha'
    have hlower : a.toLower ≠ a'.toLower := fun heq =>
      hne (h.id_eq_of_toLower_tableAlias_eq hnode hnode' ha ha' heq)
    exact ⟨fun heq => hlower (congrArg String.toLower heq), hlower⟩

end JoinTree
end QueryCriteria
