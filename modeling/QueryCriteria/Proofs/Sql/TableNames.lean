import QueryCriteria.Proofs.Sql.Effect
import QueryCriteria.Proofs.Sql.Scope
import QueryCriteria.Proofs.Text.LowerCase
import QueryCriteria.Proofs.Text.Numeral

/-!
# The names of the tables in a statement

A database finds the table of a qualified column by its name among those of the statement: the table
it selects from and the aliases of its joins, where capital ASCII letters count as small ones. A
plan gives its joins aliases that all differ. Nothing keeps them apart from the name of the table
that the statement selects from, which decides alone whether every qualifier denotes one table.
-/
namespace QueryCriteria

open Text

namespace Sql

namespace Select

/-- The names under which a statement reads its tables. -/
def tableNames (u : Select) : List String := u.table :: u.joins.map (·.tableAlias)

/-- A qualifier denotes one table: exactly one of the names is the same. -/
def Denotes (u : Select) (qualifier : String) : Prop :=
  (u.tableNames.map String.toLower).count qualifier.toLower = 1

end Select

/-- The name of a table is none of the aliases of a tree. -/
def IsApart (tree : JoinTree) (table : String) : Prop :=
  ∀ node ∈ tree.joins, ∀ name, node.association? = some name →
    (aliasOf name node.id).toLower ≠ table.toLower

/-- A column is qualified as the columns of a node are. -/
def QualifiedByNode (tree : JoinTree) (r : Resolver) (c : Column) : Prop :=
  ∃ node ∈ tree.nodes, c.qualifier = some (r.qualifier node)

section Tree

variable {tree : JoinTree} {r : Resolver}

theorem nodes_eq_cons (h : tree.WellFormed) :
    ∃ root, tree.nodes = root :: tree.joins ∧ root.tableAlias = none := by
  obtain ⟨children, hroot⟩ := h.root
  unfold JoinTree.joins
  cases hnodes : tree.nodes with
  | nil =>
    rw [JoinTree.node?, hnodes] at hroot
    cases hroot
  | cons root rest =>
    rw [JoinTree.node?, hnodes] at hroot
    cases hroot
    exact ⟨_, rfl, rfl⟩

theorem node?_id_of_mem (h : tree.WellFormed) {node : JoinNode} (hnode : node ∈ tree.nodes) :
    tree.node? node.id = some node := by
  obtain ⟨id, hid⟩ := List.mem_iff_getElem?.mp hnode
  rw [h.node_id hid]
  exact hid

theorem tableAlias_of_mem_joins (h : tree.WellFormed) {node : JoinNode}
    (hnode : node ∈ tree.joins) :
    ∃ name, node.association? = some name ∧ node.tableAlias = some (aliasOf name node.id) := by
  obtain ⟨i, hi⟩ := List.mem_iff_getElem?.mp hnode
  rw [JoinTree.joins, List.getElem?_drop, Nat.add_comm] at hi
  obtain ⟨parent, above, step, -, -, heq⟩ := h.child hi (Nat.succ_ne_zero i)
  rw [heq]
  exact ⟨step.name, by simp [JoinNode.association?], rfl⟩

theorem nodup_qualifiers (h : tree.WellFormed) :
    (tree.joins.map fun node => (r.qualifier node).toLower).Nodup := by
  have hsub : tree.joins ⊆ tree.nodes := List.drop_subset 1 tree.nodes
  have hnodup : tree.joins.Nodup :=
    (List.Nodup.of_map _ h.nodup_paths).sublist (List.drop_sublist 1 _)
  apply hnodup.map_on
  intro node hnode other hother heq
  have hself := node?_id_of_mem h (hsub hnode)
  have hself' := node?_id_of_mem h (hsub hother)
  obtain ⟨name, -, halias⟩ := tableAlias_of_mem_joins h hnode
  obtain ⟨name', -, halias'⟩ := tableAlias_of_mem_joins h hother
  rw [Resolver.qualifier, Resolver.qualifier, halias, halias'] at heq
  have hid := h.id_eq_of_toLower_tableAlias_eq hself hself' halias halias' heq
  rw [hid, hself'] at hself
  exact (Option.some.inj hself).symm

theorem notMem_qualifiers_iff (h : tree.WellFormed) :
    r.rootTable.toLower ∉ tree.joins.map (fun node => (r.qualifier node).toLower) ↔
      IsApart tree r.rootTable := by
  rw [List.mem_map, not_exists]
  refine forall_congr' fun node => ?_
  rw [not_and]
  refine forall_congr' fun hnode => ?_
  obtain ⟨name, hname, halias⟩ := tableAlias_of_mem_joins h hnode
  simp [Resolver.qualifier, hname, halias]

theorem nodup_nodes_qualifiers_iff (h : tree.WellFormed) :
    (tree.nodes.map fun node => (r.qualifier node).toLower).Nodup ↔ IsApart tree r.rootTable := by
  obtain ⟨root, hnodes, halias⟩ := nodes_eq_cons h
  have hroot : r.qualifier root = r.rootTable := by rw [Resolver.qualifier, halias]; rfl
  rw [hnodes, List.map_cons, List.nodup_cons, hroot, notMem_qualifiers_iff h]
  exact and_iff_left (nodup_qualifiers h)

/-- Every alias ends in a digit. -/
theorem isApart_of_getLast? (tree : JoinTree) {table : String}
    (hlast : ∀ c, table.toList.getLast? = some c → c.isDigit = false) : IsApart tree table := by
  intro node hnode name hname heq
  have hlist := congrArg String.toList heq
  rw [toList_toLower_aliasOf, toList_toLower] at hlist
  obtain ⟨digit, hdigit⟩ : ∃ digit, (Nat.toDigits 10 node.id).getLast? = some digit :=
    Option.isSome_iff_exists.mp (by simp [Nat.toDigits_ne_nil])
  have hends := congrArg List.getLast? hlist
  simp only [List.getLast?_append, List.getLast?_cons, hdigit, Option.getD_some, Option.some_or,
    List.getLast?_map] at hends
  obtain ⟨c, hc, rfl⟩ := Option.map_eq_some_iff.mp hends.symm
  have hisDigit := isDigit_of_toLower
    (List.all_eq_true.mp (all_isDigit_toDigits node.id) _ (List.mem_of_getLast? hdigit))
  rw [hlast c hc] at hisDigit
  cases hisDigit

end Tree

section Statements

variable {tree : JoinTree} {r : Resolver} {plan : Plan Predicate} {s u : Select}

theorem joinOf_of_apply (hjoins : s.joins = []) (happly : s.apply plan r = (u, .ok ())) :
    List.Forall₂ (fun node join => Select.joinOf plan.tree r node = .ok join) plan.tree.joins
      u.joins := by
  obtain ⟨offset, limit, joins, -, -, hnodes, rfl⟩ := Select.apply_eq_ok_iff.mp happly
  simpa [Select.addClauses, hjoins] using hnodes

theorem aliases_of_apply (hjoins : s.joins = []) (happly : s.apply plan r = (u, .ok ())) :
    u.joins.map (·.tableAlias) = plan.tree.joins.map r.qualifier := by
  rw [← List.forall₂_eq_eq_eq, List.forall₂_map_left_iff, List.forall₂_map_right_iff]
  apply List.Forall₂.flip
  exact (joinOf_of_apply hjoins happly).imp fun node join hjoin =>
    Resolver.isQualifier_iff.mp (Select.joinOf_eq_ok_iff.mp hjoin).tableAlias

/-- The names of the tables are the qualifiers of the nodes. -/
theorem tableNames_of_apply (h : plan.tree.WellFormed) (htable : s.table = r.rootTable)
    (hjoins : s.joins = []) (happly : s.apply plan r = (u, .ok ())) :
    u.tableNames = plan.tree.nodes.map r.qualifier := by
  obtain ⟨root, hnodes, halias⟩ := nodes_eq_cons h
  have hroot : r.qualifier root = u.table := by
    obtain ⟨-, -, joins, keys, -, -, rfl⟩ := Select.apply_eq_ok_iff_extended.mp happly
    rw [Resolver.qualifier, halias]
    exact htable.symm
  rw [hnodes, List.map_cons, hroot, ← aliases_of_apply hjoins happly]
  rfl

theorem denotes_qualifiers_iff (h : plan.tree.WellFormed)
    (hnames : u.tableNames = plan.tree.nodes.map r.qualifier) :
    (∀ node ∈ plan.tree.nodes, u.Denotes (r.qualifier node)) ↔ IsApart plan.tree r.rootTable := by
  rw [← nodup_nodes_qualifiers_iff h, List.nodup_iff_count_eq_one, List.forall_mem_map]
  unfold Select.Denotes
  rw [hnames, List.map_map]
  rfl

end Statements

section Columns

variable {tree : JoinTree} {r : Resolver} {m : RelationMap}

theorem exists_qualifier_getD (h : tree.WellFormed) {found : Option JoinNode}
    (hfound : ∀ node, found = some node → node ∈ tree.nodes) :
    ∃ node ∈ tree.nodes, r.qualifier (found.getD .root) = r.qualifier node := by
  cases found with
  | none =>
    obtain ⟨root, hnodes, halias⟩ := nodes_eq_cons h
    refine ⟨root, by simp [hnodes], ?_⟩
    rw [Resolver.qualifier, Resolver.qualifier, halias]
    rfl
  | some node => exact ⟨node, hfound node rfl, rfl⟩

theorem qualifiedByNode_sortKeyOf (h : tree.WellFormed) (o : PlanSort) :
    QualifiedByNode tree r (Select.sortKeyOf tree r o).column := by
  obtain ⟨node, hnode, hqualifier⟩ := @exists_qualifier_getD tree r h (tree.node? o.node)
    fun node hnode => List.mem_of_getElem? hnode
  exact ⟨node, hnode, congrArg some hqualifier⟩

theorem qualifiedByNode_on (h : tree.WellFormed) {node : JoinNode} (hnode : node ∈ tree.nodes)
    {join : Join} (hjoin : Select.joinOf tree m.resolver node = .ok join) {c : Column}
    (hc : c ∈ join.on.columns) : QualifiedByNode tree m.resolver c := by
  obtain ⟨halias, parentColumn, column, hon⟩ := joinOf_resolver_eq_ok hjoin
  rw [hon, Predicate.columns, List.mem_cons, List.mem_singleton] at hc
  rcases hc with rfl | rfl
  · obtain ⟨above, habove, hqualifier⟩ := @exists_qualifier_getD tree m.resolver h
      (node.parent.bind tree.node?) (by
        intro above habove
        obtain ⟨parent, -, hparent⟩ := Option.bind_eq_some_iff.mp habove
        exact List.mem_of_getElem? hparent)
    exact ⟨above, habove, congrArg some hqualifier⟩
  · refine ⟨node, hnode, ?_⟩
    rw [Resolver.qualifier, halias]
    rfl

/-- A column of an operator is qualified as a node is. One of the queried entity may also stand
without a qualifier. -/
theorem qualifiedByNode_of_contribution (h : tree.WellFormed) {f : FilterObject} {id : String}
    {filter : FilterCriterion Predicate} {operator : OperatorProvider}
    (hprovider : filter.provider = operator.provider)
    (hroot : operator.rootQualifier = none ∨ operator.rootQualifier = some r.rootTable)
    {q : Predicate} (hq : filter.contribution tree f id = .ok (some q)) {c : Column}
    (hc : c ∈ q.columns) : c.qualifier = none ∨ QualifiedByNode tree r c := by
  obtain ⟨values, -, hpredicate⟩ := FilterCriterion.contribution_eq_ok_iff.mp hq
  rw [hprovider] at hpredicate
  rw [operator.columns_predicate hpredicate, List.mem_singleton] at hc
  obtain ⟨node, hnode, hqualifier⟩ := @exists_qualifier_getD tree r h
    (tree.nodes.find? (·.path.names = filter.target.association.names))
    fun node hnode => List.mem_of_find?_eq_some hnode
  change r.qualifier (tree.nodeFor filter.target.association) = r.qualifier node at hqualifier
  have hcolumn : c.qualifier =
      (tree.nodeFor filter.target.association).tableAlias.or operator.rootQualifier := by
    rw [hc]
    rfl
  unfold Resolver.qualifier at hqualifier
  cases halias : (tree.nodeFor filter.target.association).tableAlias with
  | none =>
    rw [halias, Option.none_or] at hcolumn
    rw [halias, Option.getD_none] at hqualifier
    rcases hroot with hnone | hsome
    · exact .inl (hcolumn.trans hnone)
    · exact .inr ⟨node, hnode, by rw [hcolumn, hsome, hqualifier]; rfl⟩
  | some tableAlias =>
    rw [halias, Option.some_or] at hcolumn
    rw [halias, Option.getD_some] at hqualifier
    exact .inr ⟨node, hnode, by rw [hcolumn, hqualifier]; rfl⟩

end Columns

/-- The tables of a statement to which a plan is applied are named as the nodes of the plan are
qualified. The aliases differ, capital letters or not, and a qualifier denotes one table exactly if
the name of the table that the statement selects from is apart from the aliases. -/
theorem names_tell_tables_apart_iff {t : TransferObject Predicate} {options : Options}
    {f : FilterObject} {plan : Plan Predicate} {r : Resolver} {s u : Select}
    (hplan : t.compile options f = .ok plan) (htable : s.table = r.rootTable)
    (hjoins : s.joins = []) (happly : s.apply plan r = (u, .ok ())) :
    u.tableNames = plan.tree.nodes.map r.qualifier ∧
    (u.joins.map fun join => join.tableAlias.toLower).Nodup ∧
    ((u.tableNames.map String.toLower).Nodup ↔ IsApart plan.tree r.rootTable) ∧
    ((∀ node ∈ plan.tree.nodes, u.Denotes (r.qualifier node)) ↔
      IsApart plan.tree r.rootTable) ∧
    ((∀ c, r.rootTable.toList.getLast? = some c → c.isDigit = false) →
      IsApart plan.tree r.rootTable) ∧
    (∀ o ∈ plan.orderings, QualifiedByNode plan.tree r (Select.sortKeyOf plan.tree r o).column) ∧
    (∀ m : RelationMap, r = m.resolver → ∀ join ∈ u.joins, ∀ c ∈ join.on.columns,
      QualifiedByNode plan.tree r c) ∧
    ((∀ entry ∈ t.filters, ∃ operator : OperatorProvider,
        entry.2.provider = operator.provider ∧
        (operator.rootQualifier = none ∨ operator.rootQualifier = some r.rootTable)) →
      ∀ q ∈ plan.predicates, ∀ c ∈ q.columns,
        c.qualifier = none ∨ QualifiedByNode plan.tree r c) := by
  have hwell := TransferObject.wellFormed_of_compile hplan
  have hnames := tableNames_of_apply hwell htable hjoins happly
  have hlower : u.tableNames.map String.toLower =
      plan.tree.nodes.map fun node => (r.qualifier node).toLower := by
    rw [hnames, List.map_map]
    rfl
  refine ⟨hnames, ?_, ?_, denotes_qualifiers_iff hwell hnames, ?_, ?_, ?_, ?_⟩
  · have haliases : (u.joins.map fun join => join.tableAlias.toLower) =
        plan.tree.joins.map fun node => (r.qualifier node).toLower := by
      have hmap := congrArg (List.map String.toLower) (aliases_of_apply hjoins happly)
      rwa [List.map_map, List.map_map] at hmap
    rw [haliases]
    exact nodup_qualifiers hwell
  · rw [hlower, nodup_nodes_qualifiers_iff hwell]
  · intro hlast
    exact isApart_of_getLast? plan.tree hlast
  · intro o _
    exact qualifiedByNode_sortKeyOf hwell o
  · rintro m rfl join hjoin c hc
    obtain ⟨node, hnode, hok⟩ :=
      exists_of_forall₂_of_mem_right (joinOf_of_apply hjoins happly) hjoin
    exact qualifiedByNode_on hwell (List.mem_of_mem_drop hnode) hok hc
  · intro hfilters q hq c hc
    rw [TransferObject.predicates_of_compile hplan, List.mem_filterMap] at hq
    obtain ⟨entry, hentry, hcontribution⟩ := hq
    obtain ⟨operator, hprovider, hroot⟩ := hfilters entry hentry
    exact qualifiedByNode_of_contribution hwell hprovider hroot
      (FilterCriterion.predicate?_eq_some_iff.mp hcontribution) hc

theorem isSegment_depot : IsSegment "depot" := by decide

theorem isSegment_label : IsSegment "label" := by decide

def sortedByDepot : TransferObject Predicate :=
  ⟨none, none, [("where", ⟨"where", [],
    some ⟨⟨⟨[⟨"depot", .inner, isSegment_depot⟩]⟩, "label", isSegment_label⟩, true⟩⟩)]⟩

def depotRelations (table : String) : RelationMap :=
  (RelationMap.ofTable table).insert "depot" ⟨"depot", "depot_id", "id"⟩

theorem names_tell_goods_from_depots :
    ∃ plan u, sortedByDepot.compile .standard .none = .ok plan ∧
      (Select.ofTable "goods" ["id"]).apply plan (depotRelations "goods").resolver = (u, .ok ()) ∧
      (u.tableNames.map String.toLower).Nodup := by
  obtain ⟨plan, u, hplan, happly⟩ := Select.exists_apply_of_runs (.ofTable "goods" ["id"])
    sortedByDepot .standard .none (depotRelations "goods").resolver (by decide)
  obtain ⟨-, -, hnodup, -, happart, -⟩ := names_tell_tables_apart_iff hplan rfl rfl happly
  refine ⟨plan, u, hplan, happly, hnodup.mpr (happart ?_)⟩
  have hlast : "goods".toList.getLast? = some 's' := by decide
  intro c hc
  cases hlast.symm.trans hc
  rfl

/-- A table may have the name that an alias has, and then the statement reads two tables under one
name. -/
theorem alias_may_be_table :
    (sortedByDepot.compile .standard .none).toOption.map (fun plan =>
      let applied :=
        (Select.ofTable "depot_1" ["id"]).apply plan (depotRelations "depot_1").resolver
      (applied.1.tableNames, applied.2)) = some (["depot_1", "depot_1"], .ok ()) := by
  decide

end Sql
end QueryCriteria
