import QueryCriteria.Proofs.CompiledPlan
import QueryCriteria.Proofs.Sql.Application

/-!
# The effect of a plan on a statement

A plan is applied completely or refused, and here both are described: what the statement becomes,
and which error stands for which fault. The paging bounds count before the joins, and of several
faults the first is reported. A plan that was compiled joins one table for each chain of names along
the paths of its criteria, so a relation map must have these chains, and no others.
-/
namespace QueryCriteria.Sql

open Text

/-- The name that columns of a node are qualified with: the alias of the node, or the table of the
queried entity if it has none or is not in the tree. -/
inductive Resolver.IsQualifier (r : Resolver) (found : Option JoinNode) : String → Prop
  | tableAlias {name : String} (h : found.bind JoinNode.tableAlias = some name) :
    IsQualifier r found name
  | rootTable (h : found.bind JoinNode.tableAlias = none) : IsQualifier r found r.rootTable

theorem Resolver.isQualifier_iff {r : Resolver} {found : Option JoinNode} {name : String} :
    r.IsQualifier found name ↔ name = r.qualifier (found.getD .root) := by
  have hqualifier :
      r.qualifier (found.getD .root) = (found.bind JoinNode.tableAlias).getD r.rootTable := by
    cases found <;> rfl
  rw [hqualifier]
  constructor
  · intro h
    cases h with
    | tableAlias h => rw [h, Option.getD_some]
    | rootTable h => rw [h, Option.getD_none]
  · rintro rfl
    cases h : found.bind JoinNode.tableAlias with
    | some name => exact .tableAlias h
    | none => exact .rootTable h

/-- The resolver knows the join of a node when it is told what qualifies the parent of the node. -/
def Resolver.Resolves (r : Resolver) (tree : JoinTree) (node : JoinNode)
    (resolved : ResolvedJoin) : Prop :=
  ∃ above, r.IsQualifier (node.parent.bind tree.node?) above ∧
    r.resolve node above = some resolved

theorem Resolver.resolves_iff {r : Resolver} {tree : JoinTree} {node : JoinNode}
    {resolved : ResolvedJoin} :
    r.Resolves tree node resolved ↔
      r.resolve node (r.qualifier ((node.parent.bind tree.node?).getD .root)) = some resolved := by
  simp [Resolves, isQualifier_iff]

/-- A paging bound that is absent or a number of rows. -/
def IsRowCount (bound : Option Int32) : Prop := ∀ n, bound = some n → 0 ≤ n.toInt

section RowCount

variable {field : String} {bound : Option Int32}

theorem rowCount_eq_ok_iff {count : Option Nat} :
    rowCount field bound = .ok count ↔ IsRowCount bound ∧ count = bound.map (·.toInt.toNat) := by
  cases bound with
  | none => simp [rowCount, IsRowCount, eq_comm]
  | some n =>
    unfold rowCount
    by_cases hn : n.toInt < 0
    · have hcount : ¬ IsRowCount (some n) := by
        intro h
        have hle := h n rfl
        omega
      simp [hn, hcount]
    · have hcount : IsRowCount (some n) := by
        intro k hk
        cases hk
        omega
      simp [hn, hcount, eq_comm]

theorem rowCount_eq_error_iff {e : SelectError} :
    rowCount field bound = .error e ↔
      ∃ n, bound = some n ∧ n.toInt < 0 ∧ e = .invalidPaging field n := by
  cases bound with
  | none => simp [rowCount]
  | some n =>
    unfold rowCount
    by_cases hn : n.toInt < 0
    · simp [hn, eq_comm]
    · simp [hn]

end RowCount

namespace Select

variable {tree : JoinTree} {r : Resolver} {s u : Select} {plan : Plan Predicate}

/-- The join that a node becomes: of its kind and under its alias, to the table and on the condition
that the resolver gives. -/
structure JoinsNode (tree : JoinTree) (r : Resolver) (node : JoinNode) (join : Join) : Prop where
  kind : join.kind = node.kind?.getD .standard
  tableAlias : r.IsQualifier (some node) join.tableAlias
  resolved : r.Resolves tree node ⟨join.table, join.on⟩

/-- The key that an ordering of a plan becomes: its property, qualified by the node that has it, in
its direction. -/
structure SortsBy (tree : JoinTree) (r : Resolver) (o : PlanSort) (key : SortKey) : Prop where
  qualifier : ∃ name, key.column.qualifier = some name ∧ r.IsQualifier (tree.node? o.node) name
  property : key.column.name = o.property
  ascending : key.ascending = o.ascending

theorem joinOf_eq_ok_iff {node : JoinNode} {join : Join} :
    joinOf tree r node = .ok join ↔ JoinsNode tree r node join := by
  constructor
  · intro h
    unfold joinOf at h
    cases hresolved : r.resolve node (r.qualifier ((node.parent.bind tree.node?).getD .root)) with
    | none =>
      simp only [hresolved] at h
      cases h
    | some resolved =>
      simp only [hresolved] at h
      cases h
      exact ⟨rfl, Resolver.isQualifier_iff.mpr rfl, Resolver.resolves_iff.mpr hresolved⟩
  · intro h
    have hresolved := Resolver.resolves_iff.mp h.resolved
    have halias : join.tableAlias = r.qualifier node := Resolver.isQualifier_iff.mp h.tableAlias
    simp [joinOf, hresolved, ← h.kind, ← halias]

theorem joinOf_eq_error_iff {node : JoinNode} {e : SelectError} :
    joinOf tree r node = .error e ↔
      (∀ resolved, ¬ r.Resolves tree node resolved) ∧ e = .unresolvedJoin node.path.display := by
  simp only [Resolver.resolves_iff]
  cases hresolved : r.resolve node (r.qualifier ((node.parent.bind tree.node?).getD .root)) with
  | none => simp [joinOf, hresolved, eq_comm]
  | some resolved => simp [joinOf, hresolved]

theorem sortKeyOf_eq_iff {o : PlanSort} {key : SortKey} :
    sortKeyOf tree r o = key ↔ SortsBy tree r o key := by
  obtain ⟨⟨qualifier, name⟩, ascending⟩ := key
  constructor
  · intro h
    cases h
    exact ⟨⟨_, rfl, Resolver.isQualifier_iff.mpr rfl⟩, rfl, rfl⟩
  · rintro ⟨⟨name, rfl, hname⟩, rfl, rfl⟩
    rw [Resolver.isQualifier_iff] at hname
    rw [sortKeyOf, hname]

theorem forall₂_sortsBy_iff {orderings : List PlanSort} {keys : List SortKey} :
    List.Forall₂ (SortsBy tree r) orderings keys ↔ keys = orderings.map (sortKeyOf tree r) := by
  rw [eq_comm, ← List.forall₂_eq_eq_eq, List.forall₂_map_left_iff]
  simp only [sortKeyOf_eq_iff]

theorem exists_joins_iff {nodes : List JoinNode} :
    (∃ joins, List.Forall₂ (JoinsNode tree r) nodes joins) ↔
      ∀ node ∈ nodes, ∃ resolved, r.Resolves tree node resolved := by
  rw [exists_forall₂_iff]
  refine forall₂_congr fun node _ => ?_
  constructor
  · intro h
    obtain ⟨join, hjoin⟩ := h
    exact ⟨_, hjoin.resolved⟩
  · intro h
    obtain ⟨resolved, hresolved⟩ := h
    exact ⟨⟨_, resolved.table, _, resolved.on⟩, rfl, Resolver.isQualifier_iff.mpr rfl, hresolved⟩

theorem addJoins_eq_error_iff {nodes : List JoinNode} {e : SelectError} :
    addJoins tree r s nodes = (u, .error e) ↔
      ∃ before node rest joins, nodes = before ++ node :: rest ∧
        List.Forall₂ (JoinsNode tree r) before joins ∧ joinOf tree r node = .error e ∧
        u = { s with joins := s.joins ++ joins } := by
  induction nodes generalizing s with
  | nil => simp [addJoins]
  | cons first others ih =>
    rw [addJoins]
    cases hfirst : joinOf tree r first with
    | error e' =>
      constructor
      · intro h
        cases h
        exact ⟨[], first, others, [], rfl, .nil, hfirst, by simp⟩
      · rintro ⟨before, node, rest, joins, hnodes, hjoins, hnode, rfl⟩
        -- No node stands before the first, since the first is not joined.
        cases hjoins with
        | nil =>
          cases hnodes
          rw [hfirst, Except.error.injEq] at hnode
          simp [hnode]
        | cons hjoin _ =>
          obtain ⟨rfl, -⟩ := List.cons.inj hnodes
          rw [← joinOf_eq_ok_iff, hfirst] at hjoin
          cases hjoin
    | ok join =>
      simp only [ih]
      constructor
      · rintro ⟨before, node, rest, joins, rfl, hjoins, hnode, rfl⟩
        exact ⟨first :: before, node, rest, join :: joins, rfl,
          .cons (joinOf_eq_ok_iff.mp hfirst) hjoins, hnode, by simp⟩
      · rintro ⟨before, node, rest, joins, hnodes, hjoins, hnode, rfl⟩
        cases hjoins with
        | nil =>
          cases hnodes
          rw [hfirst] at hnode
          cases hnode
        | @cons _ join' before joins hjoin hjoins =>
          obtain ⟨rfl, hothers⟩ := List.cons.inj hnodes
          rw [← joinOf_eq_ok_iff, hfirst, Except.ok.injEq] at hjoin
          exact ⟨before, node, rest, joins, hothers, hjoins, hnode, by simp [hjoin]⟩

/-- What a statement becomes when a plan is applied to it. It gets one join for each node but the
root and one sort key for each ordering, in their order, and the predicates of the plan behind its
own. A paging bound of the plan takes the place of its own. -/
structure Extended (s : Select) (plan : Plan Predicate) (r : Resolver) (u : Select) : Prop where
  firstResult : IsRowCount plan.firstResult
  maxResults : IsRowCount plan.maxResults
  effect : ∃ joins keys, List.Forall₂ (JoinsNode plan.tree r) plan.tree.joins joins ∧
    List.Forall₂ (SortsBy plan.tree r) plan.orderings keys ∧
    u = { s with
      joins := s.joins ++ joins
      conditions := s.conditions ++ plan.predicates
      sortKeys := s.sortKeys ++ keys
      offset := (plan.firstResult.map (·.toInt.toNat)).or s.offset
      limit := (plan.maxResults.map (·.toInt.toNat)).or s.limit }

/-- How the application of a plan fails, with what the statement is then. -/
inductive Refused (s : Select) (plan : Plan Predicate) (r : Resolver) : Select → SelectError → Prop
  | firstResult {n : Int32} (h : plan.firstResult = some n) (hn : n.toInt < 0) :
    Refused s plan r s (.invalidPaging "firstResult" n)
  | maxResults {n : Int32} (hfirst : IsRowCount plan.firstResult) (h : plan.maxResults = some n)
    (hn : n.toInt < 0) : Refused s plan r s (.invalidPaging "maxResults" n)
  | unresolved {before rest : List JoinNode} {node : JoinNode} {joins : List Join}
    (hfirst : IsRowCount plan.firstResult) (hmax : IsRowCount plan.maxResults)
    (hnodes : plan.tree.joins = before ++ node :: rest)
    (hbefore : List.Forall₂ (JoinsNode plan.tree r) before joins)
    (hnode : ∀ resolved, ¬ r.Resolves plan.tree node resolved) :
    Refused s plan r { s with joins := s.joins ++ joins } (.unresolvedJoin node.path.display)

theorem apply_eq_ok_iff_extended : s.apply plan r = (u, .ok ()) ↔ Extended s plan r u := by
  rw [apply_eq_ok_iff]
  simp only [rowCount_eq_ok_iff, joinOf_eq_ok_iff]
  constructor
  · rintro ⟨offset, limit, joins, ⟨hfirst, rfl⟩, ⟨hmax, rfl⟩, hjoins, rfl⟩
    exact ⟨hfirst, hmax, joins, _, hjoins, forall₂_sortsBy_iff.mpr rfl, rfl⟩
  · rintro ⟨hfirst, hmax, joins, keys, hjoins, hkeys, rfl⟩
    rw [forall₂_sortsBy_iff] at hkeys
    subst hkeys
    exact ⟨_, _, joins, ⟨hfirst, rfl⟩, ⟨hmax, rfl⟩, hjoins, rfl⟩

theorem apply_eq_error_iff {e : SelectError} :
    s.apply plan r = (u, .error e) ↔ Refused s plan r u e := by
  unfold apply
  constructor
  · intro h
    -- The refusals exclude each other, in the order in which the steps are taken.
    cases hoffset : rowCount "firstResult" plan.firstResult with
    | error e' =>
      rw [hoffset] at h
      cases h
      obtain ⟨n, hn, hneg, rfl⟩ := rowCount_eq_error_iff.mp hoffset
      exact .firstResult hn hneg
    | ok offset =>
      have hfirst := (rowCount_eq_ok_iff.mp hoffset).1
      cases hlimit : rowCount "maxResults" plan.maxResults with
      | error e' =>
        rw [hoffset, hlimit] at h
        cases h
        obtain ⟨n, hn, hneg, rfl⟩ := rowCount_eq_error_iff.mp hlimit
        exact .maxResults hfirst hn hneg
      | ok limit =>
        have hmax := (rowCount_eq_ok_iff.mp hlimit).1
        rw [hoffset, hlimit] at h
        cases hjoins : addJoins plan.tree r s plan.tree.joins with
        | mk v result =>
          simp only [hjoins] at h
          cases result with
          | ok done => cases h
          | error e' =>
            cases h
            obtain ⟨before, node, rest, joins, hnodes, hbefore, hnode, rfl⟩ :=
              addJoins_eq_error_iff.mp hjoins
            obtain ⟨hnone, rfl⟩ := joinOf_eq_error_iff.mp hnode
            exact .unresolved hfirst hmax hnodes hbefore hnone
  · intro h
    cases h with
    | firstResult hn hneg =>
      rw [rowCount_eq_error_iff.mpr ⟨_, hn, hneg, rfl⟩]
    | maxResults hfirst hn hneg =>
      rw [rowCount_eq_ok_iff.mpr ⟨hfirst, rfl⟩, rowCount_eq_error_iff.mpr ⟨_, hn, hneg, rfl⟩]
    | unresolved hfirst hmax hnodes hbefore hnone =>
      have hnode := joinOf_eq_error_iff.mpr ⟨hnone, rfl⟩
      have hjoins := (addJoins_eq_error_iff (s := s)).mpr
        ⟨_, _, _, _, hnodes, hbefore, hnode, rfl⟩
      rw [rowCount_eq_ok_iff.mpr ⟨hfirst, rfl⟩, rowCount_eq_ok_iff.mpr ⟨hmax, rfl⟩, hjoins]

end Select

namespace RelationMap

variable {tree : JoinTree} {m : RelationMap}

/-- A relation map knows the join of a node if it has the dotted names of the node's path. -/
theorem exists_resolved_iff {node : JoinNode} {tableAlias : String}
    (h : node.tableAlias = some tableAlias) :
    (∃ resolved, m.resolver.Resolves tree node resolved) ↔
      ∃ relation, m.relations.lookup (dotted node.path.names) = some relation := by
  simp only [Resolver.resolves_iff]
  change (∃ resolved, m.resolve node _ = some resolved) ↔ _
  unfold resolve AssociationPath.key
  rw [h]
  cases m.relations.lookup (dotted node.path.names) <;> simp

theorem resolves_joins_iff (h : tree.WellFormed) :
    (∀ node ∈ tree.joins, ∃ resolved, m.resolver.Resolves tree node resolved) ↔
      ∀ chain ∈ tree.chains, ∃ relation, m.relations.lookup (dotted chain) = some relation := by
  rw [JoinTree.chains, List.forall_mem_map]
  refine forall₂_congr fun node hnode => ?_
  obtain ⟨-, -, -, tableAlias, -, -, -, halias⟩ := h.child_of_mem_joins hnode
  exact exists_resolved_iff halias

end RelationMap

end QueryCriteria.Sql
