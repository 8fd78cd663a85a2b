import QueryCriteria.AssociationPath

/-!
# Join trees

Many criteria contribute association paths on their own. The join tree merges the paths: each chain
of association names is joined once, however many criteria go through it. Its nodes are numbered in
the order of their creation, the root being number zero, and an index leads from the names of a path
to its node.

A path may ask for a join kind that differs from the one its association was first registered with.
Under the policy `firstWins` the first kind stays and the conflict is recorded, under `reject` the
registration fails at that step.
-/
namespace QueryCriteria

open Text

/-- What happens when a path asks for another join kind than the registered one. -/
inductive ConflictPolicy where
  | firstWins
  | reject
  deriving DecidableEq

namespace ConflictPolicy

def all : List ConflictPolicy := [.firstWins, .reject]

def name : ConflictPolicy → String
  | .firstWins => "first_wins"
  | .reject => "reject"

def ofName? (name : String) : Option ConflictPolicy := all.find? (·.name == name)

@[simp] theorem ofName?_name (policy : ConflictPolicy) : ofName? policy.name = some policy := by
  cases policy <;> decide

end ConflictPolicy

/-- A path that asked for another join kind than the registered one. -/
structure JoinConflict where
  path : String
  registered : JoinKind
  requested : JoinKind
  deriving DecidableEq

def JoinConflict.display (c : JoinConflict) : String :=
  "association `" ++ c.path ++ "` requested " ++ c.requested.name ++
    " join but is already joined as " ++ c.registered.name

/-- The error that a conflict becomes when it is rejected. -/
def JoinConflict.toError (c : JoinConflict) : CriteriaError :=
  .joinKindConflict c.path c.registered c.requested

abbrev NodeId := Nat

/-- One join of a plan; the root stands for the queried entity. The path holds the names of the
node's chain and the join kinds in force. -/
structure JoinNode where
  id : NodeId
  parent : Option NodeId
  path : AssociationPath
  tableAlias : Option String
  children : List NodeId
  deriving DecidableEq

namespace JoinNode

/-- The node of the queried entity. -/
def root : JoinNode := ⟨0, none, .root, none, []⟩

/-- The association that the node joins; the root joins none. -/
def association? (n : JoinNode) : Option String := n.path.last?.map Step.name

/-- The join kind in force at the node; the root has none. -/
def kind? (n : JoinNode) : Option JoinKind := n.path.last?.map Step.kind

def isRoot (n : JoinNode) : Bool := n.parent.isNone

/-- The number of steps from the root. -/
def depth (n : JoinNode) : Nat := n.path.length

end JoinNode

/-- The alias of the node that joins an association. -/
def aliasOf (name : String) (id : NodeId) : String := name ++ "_" ++ decimal id

/-- The joins of a plan, in the order of their creation, with the index of their names. -/
structure JoinTree where
  nodes : List JoinNode
  index : List (List String × NodeId)
  conflicts : List JoinConflict
  deriving DecidableEq

namespace JoinTree

def empty : JoinTree := ⟨[.root], [([], 0)], []⟩

/-- The number of nodes, the root among them. -/
def size (t : JoinTree) : Nat := t.nodes.length

def node? (t : JoinTree) (id : NodeId) : Option JoinNode := t.nodes[id]?

/-- The number of the node with a list of names. -/
def idOf? (t : JoinTree) (names : List String) : Option NodeId := t.index.lookup names

/-- The node with the names of a path, whatever kinds the path has. -/
def find? (t : JoinTree) (p : AssociationPath) : Option JoinNode :=
  (t.idOf? p.names).bind t.node?

/-- The nodes other than the root. -/
def joins (t : JoinTree) : List JoinNode := t.nodes.drop 1

def hasNoJoins (t : JoinTree) : Bool := t.size == 1

/-- The join kind in force at a node. -/
def kindAt (t : JoinTree) (id : NodeId) : JoinKind :=
  ((t.node? id).bind JoinNode.kind?).getD .standard

def pathAt (t : JoinTree) (id : NodeId) : AssociationPath :=
  ((t.node? id).map JoinNode.path).getD .root

/-- The tree with a new child of a node, numbered by the size of the tree. -/
def addChild (t : JoinTree) (parent : NodeId) (step : Step) (names : List String) : JoinTree :=
  let id := t.size
  let child : JoinNode :=
    ⟨id, some parent, (t.pathAt parent).push step, some (aliasOf step.name id), []⟩
  { t with
    nodes := (t.nodes ++ [child]).modify parent fun n => { n with children := n.children ++ [id] }
    index := (names, id) :: t.index }

def record (t : JoinTree) (c : JoinConflict) : JoinTree :=
  { t with conflicts := t.conflicts ++ [c] }

/-- Registers the steps that lead on from a node whose names are given. The tree is returned also
when a conflict ends the registration. -/
def registerSteps (policy : ConflictPolicy) :
    JoinTree → NodeId → List String → List Step → JoinTree × Except JoinConflict NodeId
  | t, current, _, [] => (t, .ok current)
  | t, current, names, step :: rest =>
    let names := names ++ [step.name]
    match t.idOf? names with
    | some id =>
      let registered := t.kindAt id
      if registered = step.kind then registerSteps policy t id names rest
      else
        let conflict : JoinConflict := ⟨dotted names, registered, step.kind⟩
        match policy with
        | .firstWins => registerSteps policy (t.record conflict) id names rest
        | .reject => (t, .error conflict)
    | none => registerSteps policy (t.addChild current step names) t.size names rest

/-- Registers a path, and gives the number of the node that its properties live on. -/
def register (t : JoinTree) (policy : ConflictPolicy) (p : AssociationPath) :
    JoinTree × Except JoinConflict NodeId :=
  registerSteps policy t 0 [] p.steps

@[simp] theorem size_empty : empty.size = 1 := rfl

theorem node?_empty (id : NodeId) : empty.node? id = if id = 0 then some .root else none := by
  cases id <;> simp [node?, empty]

theorem idOf?_empty (names : List String) :
    empty.idOf? names = if names = [] then some 0 else none := by
  cases names <;> simp [idOf?, empty, List.lookup_cons]

theorem node?_empty_eq_some_iff {id : NodeId} {n : JoinNode} :
    empty.node? id = some n ↔ id = 0 ∧ n = .root := by
  rw [node?_empty]
  by_cases h : id = 0
  · simp [h, eq_comm]
  · simp [h]

theorem idOf?_empty_eq_some_iff {names : List String} {id : NodeId} :
    empty.idOf? names = some id ↔ names = [] ∧ id = 0 := by
  rw [idOf?_empty]
  by_cases h : names = []
  · simp [h, eq_comm]
  · simp [h]

theorem lt_size_of_node? {t : JoinTree} {id : NodeId} {n : JoinNode} (h : t.node? id = some n) :
    id < t.size :=
  (List.getElem?_eq_some_iff.mp h).1

theorem exists_node?_of_lt {t : JoinTree} {id : NodeId} (h : id < t.size) :
    ∃ n, t.node? id = some n :=
  ⟨t.nodes[id], List.getElem?_eq_getElem h⟩

@[simp] theorem conflicts_record (t : JoinTree) (c : JoinConflict) :
    (t.record c).conflicts = t.conflicts ++ [c] := rfl

section AddChild

variable {t : JoinTree} {parent : NodeId} (step : Step) (names : List String)

@[simp] theorem size_addChild : (t.addChild parent step names).size = t.size + 1 := by
  simp [addChild, size]

@[simp] theorem conflicts_addChild : (t.addChild parent step names).conflicts = t.conflicts := rfl

theorem idOf?_addChild (others : List String) :
    (t.addChild parent step names).idOf? others =
      if others = names then some t.size else t.idOf? others := by
  by_cases h : others = names
  · simp [idOf?, addChild, h]
  · have hb : (others == names) = false := by simp [h]
    simp [idOf?, addChild, List.lookup_cons, hb, h]

/-- The new node has no children, unless it was asked to be its own parent. -/
theorem node?_addChild_size (h : parent < t.size) :
    (t.addChild parent step names).node? t.size =
      some ⟨t.size, some parent, (t.pathAt parent).push step, some (aliasOf step.name t.size),
        []⟩ := by
  unfold node? addChild
  rw [List.getElem?_modify_ne _ _ (Nat.ne_of_lt h)]
  exact List.getElem?_concat_length

/-- A node that was there keeps all but its children. -/
theorem node?_addChild_of_lt {id : NodeId} (h : id < t.size) :
    (t.addChild parent step names).node? id =
      (t.node? id).map fun n =>
        { n with children := n.children ++ if id = parent then [t.size] else [] } := by
  have happ (added : JoinNode) : (t.nodes ++ [added])[id]? = t.nodes[id]? :=
    List.getElem?_append_left h
  unfold node? addChild
  by_cases hp : id = parent
  · subst hp
    simp [happ]
  · rw [List.getElem?_modify_ne _ _ (Ne.symm hp), happ]
    simp [hp]

end AddChild

section Steps

variable {t : JoinTree} {current id : NodeId} {names : List String} {step : Step}
  {rest : List Step}

@[simp] theorem registerSteps_nil (policy : ConflictPolicy) :
    registerSteps policy t current names [] = (t, .ok current) := rfl

theorem registerSteps_known (policy : ConflictPolicy)
    (h : t.idOf? (names ++ [step.name]) = some id) (hk : t.kindAt id = step.kind) :
    registerSteps policy t current names (step :: rest) =
      registerSteps policy t id (names ++ [step.name]) rest := by
  simp [registerSteps, h, hk]

/-- Under `firstWins` a step that asks for another kind leads on, and the conflict is recorded. -/
theorem registerSteps_firstWins (h : t.idOf? (names ++ [step.name]) = some id)
    (hk : t.kindAt id ≠ step.kind) :
    registerSteps .firstWins t current names (step :: rest) =
      registerSteps .firstWins
        (t.record ⟨dotted (names ++ [step.name]), t.kindAt id, step.kind⟩)
        id (names ++ [step.name]) rest := by
  simp [registerSteps, h, hk]

/-- Under `reject` a step that asks for another kind ends the registration. -/
theorem registerSteps_reject (h : t.idOf? (names ++ [step.name]) = some id)
    (hk : t.kindAt id ≠ step.kind) :
    registerSteps .reject t current names (step :: rest) =
      (t, .error ⟨dotted (names ++ [step.name]), t.kindAt id, step.kind⟩) := by
  simp [registerSteps, h, hk]

theorem registerSteps_new (policy : ConflictPolicy) (h : t.idOf? (names ++ [step.name]) = none) :
    registerSteps policy t current names (step :: rest) =
      registerSteps policy (t.addChild current step (names ++ [step.name])) t.size
        (names ++ [step.name]) rest := by
  simp [registerSteps, h]

end Steps

end JoinTree
end QueryCriteria
