import QueryCriteria.Proofs.Compilation
import QueryCriteria.Proofs.Sql.Application
import QueryCriteria.Proofs.Sql.Operator

/-!
# Scopes of statements

A qualified column must belong to a table that the statement reads: the table it selects from, or
the alias of one of its joins. Here the joins that a plan adds are paired with the chains of names
that they join. The condition of a join compares its own alias with its parent, which is joined
before it. A column of a predicate or of a sort key belongs to the join of its criterion.
-/
namespace QueryCriteria.Sql

/-- A qualifier of the columns at the end of a chain of names: the table of the statement for the
empty chain, and else the alias of a join of the chain. -/
def Qualifies (table : String) (joined : List (List String × Join)) (chain : List String)
    (qualifier : String) : Prop :=
  (chain = [] ∧ qualifier = table) ∨ ∃ join, (chain, join) ∈ joined ∧ qualifier = join.tableAlias

/-- A column in the scope of the end of a chain of names. A column of the table of the statement
may also stand without a qualifier. -/
def InScope (table : String) (joined : List (List String × Join)) (chain : List String)
    (c : Column) : Prop :=
  (chain = [] ∧ c.qualifier = none) ∨
    ∃ qualifier, c.qualifier = some qualifier ∧ Qualifies table joined chain qualifier

/-- The joins that a resolver gives for nodes of a tree, each with the chain of its node. -/
def Pairs (tree : JoinTree) (r : Resolver) (nodes : List JoinNode)
    (joined : List (List String × Join)) : Prop :=
  List.Forall₂ (fun node entry => node.path.names = entry.1 ∧
    node.tableAlias = some entry.2.tableAlias ∧ Select.joinOf tree r node = .ok entry.2)
    nodes joined

theorem Pairs.exists_of_mem {tree : JoinTree} {r : Resolver} {nodes : List JoinNode}
    {joined : List (List String × Join)} (h : Pairs tree r nodes joined) {node : JoinNode}
    (hnode : node ∈ nodes) :
    ∃ join, (node.path.names, join) ∈ joined ∧ node.tableAlias = some join.tableAlias := by
  induction h with
  | nil => cases hnode
  | cons hfirst hrest ih =>
    rcases List.mem_cons.mp hnode with rfl | hlater
    · obtain ⟨hnames, halias, -⟩ := hfirst
      exact ⟨_, List.mem_cons.mpr (.inl (by rw [hnames])), halias⟩
    · obtain ⟨join, hjoin, halias⟩ := ih hlater
      exact ⟨join, List.mem_cons_of_mem _ hjoin, halias⟩

theorem joinOf_resolver_eq_ok {tree : JoinTree} {m : RelationMap} {node : JoinNode} {join : Join}
    (h : Select.joinOf tree m.resolver node = .ok join) :
    node.tableAlias = some join.tableAlias ∧
    ∃ parentColumn column, join.on = .equalColumns
      ⟨some (m.resolver.qualifier ((node.parent.bind tree.node?).getD .root)), parentColumn⟩
      ⟨some join.tableAlias, column⟩ := by
  unfold Select.joinOf at h
  simp only [RelationMap.resolver, RelationMap.resolve] at h
  cases halias : node.tableAlias with
  | none => simp [halias] at h
  | some tableAlias =>
    cases hrelation : m.relations.lookup node.path.key with
    | none => simp [halias, hrelation] at h
    | some relation =>
      simp only [halias, hrelation] at h
      cases h
      have hqualifier : Resolver.qualifier ⟨m.rootTable, m.resolve⟩ node = tableAlias := by
        simp [Resolver.qualifier, halias]
      exact ⟨congrArg some hqualifier.symm, relation.parentColumn, relation.column, by
        simp [hqualifier, RelationMap.resolver]⟩

theorem exists_pairs {tree : JoinTree} {m : RelationMap} {nodes : List JoinNode}
    {joins : List Join}
    (h : List.Forall₂ (fun node join => Select.joinOf tree m.resolver node = .ok join)
      nodes joins) :
    ∃ joined, joined.map Prod.snd = joins ∧ Pairs tree m.resolver nodes joined := by
  induction h with
  | nil => exact ⟨[], rfl, .nil⟩
  | @cons node join nodes joins hfirst hrest ih =>
    obtain ⟨joined, hsnd, hpairs⟩ := ih
    refine ⟨(node.path.names, join) :: joined, ?_, ?_⟩
    · rw [List.map_cons, hsnd]
    · exact .cons ⟨rfl, (joinOf_resolver_eq_ok hfirst).1, hfirst⟩ hpairs

section Nodes

variable {t : JoinTree} {m : RelationMap} {joined : List (List String × Join)}

/-- A node is the root, or it is joined among the first joins, as many as its number. -/
theorem tableAlias_cases (h : t.WellFormed) (hpairs : Pairs t m.resolver t.joins joined)
    {id : NodeId} {node : JoinNode} (hnode : t.node? id = some node) :
    (node.path.names = [] ∧ node.tableAlias = none) ∨
      ∃ join, (node.path.names, join) ∈ joined.take id ∧
        node.tableAlias = some join.tableAlias := by
  rcases h.root_or_child hnode with ⟨-, heq⟩ | ⟨hid, -⟩
  · left
    rw [heq]
    exact ⟨rfl, rfl⟩
  · right
    have hpos : 1 ≤ id := Nat.one_le_iff_ne_zero.mpr hid
    have hjoin : t.joins[id - 1]? = some node := by
      rw [JoinTree.joins, List.getElem?_drop, Nat.add_sub_cancel' hpos]
      exact hnode
    have hmem : node ∈ t.joins.take id := by
      refine List.mem_iff_getElem?.mpr ⟨id - 1, ?_⟩
      rw [List.getElem?_take_of_lt (Nat.sub_lt hpos Nat.one_pos)]
      exact hjoin
    have htake : Pairs t m.resolver (t.joins.take id) (joined.take id) :=
      List.forall₂_take id hpairs
    exact htake.exists_of_mem hmem

theorem qualifies_qualifier (h : t.WellFormed) (hpairs : Pairs t m.resolver t.joins joined)
    {id : NodeId} {node : JoinNode} (hnode : t.node? id = some node) :
    Qualifies m.rootTable (joined.take id) node.path.names (m.resolver.qualifier node) := by
  unfold Resolver.qualifier
  rcases tableAlias_cases h hpairs hnode with ⟨hnames, halias⟩ | ⟨join, hjoin, halias⟩
  · exact .inl ⟨hnames, by rw [halias]; rfl⟩
  · exact .inr ⟨join, hjoin, by rw [halias]; rfl⟩

theorem Qualifies.mono {table : String} {fewer : List (List String × Join)} {chain : List String}
    {qualifier : String} (h : Qualifies table fewer chain qualifier) (hsub : fewer ⊆ joined) :
    Qualifies table joined chain qualifier := by
  rcases h with hroot | ⟨join, hjoin, heq⟩
  · exact .inl hroot
  · exact .inr ⟨join, hsub hjoin, heq⟩

/-- The condition of a join compares the join with its parent, the root or a join before it. -/
theorem on_qualifies (h : t.WellFormed) (hpairs : Pairs t m.resolver t.joins joined)
    {before rest : List (List String × Join)} {chain : List String} {join : Join}
    (hjoined : joined = before ++ (chain, join) :: rest) :
    ∃ qualifier parentColumn column,
      join.on = .equalColumns ⟨some qualifier, parentColumn⟩ ⟨some join.tableAlias, column⟩ ∧
      Qualifies m.rootTable before chain.dropLast qualifier := by
  have hdrop := List.forall₂_drop before.length hpairs
  rw [hjoined, List.drop_left, List.forall₂_cons_right_iff] at hdrop
  obtain ⟨node, nodes, ⟨hnames, -, hjoin⟩, -, hnodes⟩ := hdrop
  simp only at hnames hjoin
  have hnode : t.node? (before.length + 1) = some node := by
    have hhead := congrArg List.head? hnodes
    rw [List.head?_drop, JoinTree.joins, List.getElem?_drop, Nat.add_comm] at hhead
    exact hhead
  obtain ⟨parent, above, step, hlt, habove, heq⟩ := h.child hnode (Nat.succ_ne_zero _)
  obtain ⟨-, parentColumn, column, hon⟩ := joinOf_resolver_eq_ok hjoin
  have hparent : (node.parent.bind t.node?).getD .root = above := by
    rw [heq]
    simp [habove]
  have hchain : chain.dropLast = above.path.names := by
    rw [← hnames, heq, AssociationPath.names_push, List.dropLast_concat]
  have htake : joined.take parent ⊆ before := by
    rw [hjoined, List.take_append_of_le_length (Nat.le_of_lt_succ hlt)]
    exact List.take_subset _ _
  rw [hparent] at hon
  refine ⟨_, parentColumn, column, hon, ?_⟩
  rw [hchain]
  exact (qualifies_qualifier h hpairs habove).mono htake

end Nodes

section Plans

variable {tree : JoinTree} {m : RelationMap} {joined : List (List String × Join)}
  {p : AssociationPath} {id : NodeId}

theorem inScope_column (h : tree.WellFormed) (hpairs : Pairs tree m.resolver tree.joins joined)
    (hid : tree.idOf? p.names = some id) {operator : OperatorProvider}
    (hroot : operator.rootQualifier = none ∨ operator.rootQualifier = some m.rootTable)
    (property : String) :
    InScope m.rootTable joined p.names (operator.column (tree.nodeFor p) property) := by
  have hnode := h.node?_of_idOf? hid
  have hnames := h.names_nodeFor hid
  unfold OperatorProvider.column
  rcases tableAlias_cases h hpairs hnode with ⟨hnil, halias⟩ | ⟨join, hjoin, halias⟩
  · rw [hnames] at hnil
    rw [halias, Option.none_or]
    rcases hroot with hnone | hsome
    · exact .inl ⟨hnil, hnone⟩
    · exact .inr ⟨m.rootTable, hsome, .inl ⟨hnil, rfl⟩⟩
  · rw [hnames] at hjoin
    rw [halias, Option.some_or]
    exact .inr ⟨join.tableAlias, rfl, .inr ⟨join, List.mem_of_mem_take hjoin, rfl⟩⟩

/-- What a filter with an operator contributes is about one column, its property in its scope. -/
theorem columns_of_contribution (h : tree.WellFormed)
    (hpairs : Pairs tree m.resolver tree.joins joined) {f : FilterObject} {key : String}
    {c : FilterCriterion Predicate} (hid : tree.idOf? c.target.association.names = some id)
    {operator : OperatorProvider} (hc : c.provider = operator.provider)
    (hroot : operator.rootQualifier = none ∨ operator.rootQualifier = some m.rootTable)
    {q : Predicate} (hq : c.contribution tree f key = .ok (some q)) :
    ∃ column, q.columns = [column] ∧ column.name = c.target.property ∧
      InScope m.rootTable joined c.target.association.names column := by
  obtain ⟨values, -, hprovider⟩ := FilterCriterion.contribution_eq_ok_iff.mp hq
  rw [hc] at hprovider
  exact ⟨_, operator.columns_predicate hprovider, rfl, inScope_column h hpairs hid hroot _⟩

theorem qualifies_sortKeyOf (h : tree.WellFormed)
    (hpairs : Pairs tree m.resolver tree.joins joined) {c : SortCriterion}
    (hid : tree.idOf? c.target.association.names = some id) :
    let key := Select.sortKeyOf tree m.resolver (c.ordering tree)
    key.column.name = c.target.property ∧ key.ascending = c.ascending ∧
      ∃ qualifier, key.column.qualifier = some qualifier ∧
        Qualifies m.rootTable joined c.target.association.names qualifier := by
  have hnode := h.node?_of_idOf? hid
  have hself := h.node_id hnode
  have hqualifies := qualifies_qualifier h hpairs hnode
  rw [h.names_nodeFor hid] at hqualifies
  refine ⟨rfl, rfl, _, rfl, ?_⟩
  rw [SortCriterion.ordering, hself, hnode, Option.getD_some]
  exact hqualifies.mono (List.take_subset _ _)

end Plans

/-- A statement `u`, made from `s` by a plan, is well scoped: the condition of each join compares a
column of its own alias to one of its parent, which stands before it, and what a filter contributes,
and each sort key, is a column in the scope of its path. -/
structure WellScoped (t : TransferObject Predicate) (f : FilterObject) (plan : Plan Predicate)
    (m : RelationMap) (s u : Select) (joined : List (List String × Join)) : Prop where
  table : u.table = m.rootTable
  joins : u.joins = s.joins ++ joined.map Prod.snd
  pairs : Pairs plan.tree m.resolver plan.tree.joins joined
  on : ∀ before chain join rest, joined = before ++ (chain, join) :: rest →
    ∃ qualifier parentColumn column,
      join.on = .equalColumns ⟨some qualifier, parentColumn⟩ ⟨some join.tableAlias, column⟩ ∧
      Qualifies m.rootTable before chain.dropLast qualifier
  conditions : ∃ contributed, u.conditions = s.conditions ++ contributed.reduceOption ∧
    List.Forall₂ (fun entry predicate =>
      entry.2.contribution plan.tree f entry.1 = .ok predicate ∧
      ∀ q, predicate = some q → ∃ column, q.columns = [column] ∧
        column.name = entry.2.target.property ∧
        InScope m.rootTable joined entry.2.target.association.names column)
      t.filters contributed
  sortKeys : ∃ keys, u.sortKeys = s.sortKeys ++ keys ∧
    List.Forall₂ (fun c key => key.column.name = c.target.property ∧ key.ascending = c.ascending ∧
      ∃ qualifier, key.column.qualifier = some qualifier ∧
        Qualifies m.rootTable joined c.target.association.names qualifier)
      t.sorts keys

/-- Statements to which compiled plans are applied are well scoped, whatever the operators and the
kinds of their columns are. -/
theorem apply_compiled_well_scoped {t : TransferObject Predicate} {options : Options}
    {f : FilterObject} {plan : Plan Predicate} {m : RelationMap} {s u : Select}
    (hfilters : ∀ entry ∈ t.filters, ∃ operator : OperatorProvider,
      entry.2.provider = operator.provider ∧
      (operator.rootQualifier = none ∨ operator.rootQualifier = some m.rootTable))
    (hplan : t.compile options f = .ok plan) (htable : s.table = m.rootTable)
    (happly : s.apply plan m.resolver = (u, .ok ())) :
    ∃ joined, WellScoped t f plan m s u joined := by
  obtain ⟨htree, ⟨contributed, hpredicates, hcontributed⟩, horderings, -, -⟩ :=
    TransferObject.compile_eq_ok hplan
  obtain ⟨hwell, -, hids⟩ := JoinTree.registerPaths_eq_ok JoinTree.wellFormed_empty htree
  obtain ⟨offset, limit, joins, -, -, hjoins, hu⟩ := Select.apply_eq_ok_iff.mp happly
  obtain ⟨joined, hsnd, hpairs⟩ := exists_pairs hjoins
  subst hu
  refine ⟨joined, htable, by rw [hsnd]; rfl, hpairs, ?_, ⟨contributed, ?_, ?_⟩, ⟨_, rfl, ?_⟩⟩
  · intro before chain join rest hjoined
    exact on_qualifies hwell hpairs hjoined
  · rw [← hpredicates]
    rfl
  · have hmem : List.Forall₂ (fun entry predicate => entry ∈ t.filters ∧
        entry.2.contribution plan.tree f entry.1 = .ok predicate) t.filters contributed :=
      (List.forall₂_and_left _ _).mpr ⟨fun entry hentry => hentry, hcontributed⟩
    refine hmem.imp fun entry predicate h => ⟨h.2, ?_⟩
    rintro q rfl
    obtain ⟨operator, hprovider, hroot⟩ := hfilters entry h.1
    obtain ⟨id, hid⟩ := hids _ (TransferObject.filter_mem_paths h.1)
    exact columns_of_contribution hwell hpairs hid hprovider hroot h.2
  · rw [horderings, List.map_map, List.forall₂_map_right_iff, List.forall₂_same]
    intro c hc
    obtain ⟨id, hid⟩ := hids _ (TransferObject.sort_mem_paths hc)
    exact qualifies_sortKeyOf hwell hpairs hid

/-- A search with a filter on the queried entity, one behind two joins and a sort between them. -/
def personSearch : TransferObject Predicate :=
  let department : Step := ⟨"department", .inner, by decide⟩
  let manager : Step := ⟨"manager", .leftOuter, by decide⟩
  let name (steps : List Step) : PropertyPath := ⟨⟨steps⟩, "name", by decide⟩
  ⟨none, some 10, [("who", ⟨"who",
    [.ofValue (name []) (.string "Ada") (OperatorProvider.provider ⟨.compare .eq, .string, none⟩),
      .ofValue (name [department, manager]) (.string "5%")
        (OperatorProvider.provider ⟨.like, .string, some "person"⟩)],
    some ⟨name [department], true⟩⟩)]⟩

def personRelations : RelationMap :=
  (RelationMap.ofTable "person").insert "department" ⟨"department", "department_id", "id"⟩
    |>.insert "department.manager" ⟨"person", "manager_id", "id"⟩

theorem apply_personSearch_well_scoped :
    ∃ plan u joined, personSearch.compile .standard .none = .ok plan ∧
      (Select.ofTable "person" ["id"]).apply plan personRelations.resolver = (u, .ok ()) ∧
      WellScoped personSearch .none plan personRelations (Select.ofTable "person" ["id"]) u
        joined := by
  obtain ⟨plan, u, hplan, happly⟩ := Select.exists_apply_of_runs (.ofTable "person" ["id"])
    personSearch .standard .none personRelations.resolver (by decide)
  have hfilters : ∀ entry ∈ personSearch.filters, ∃ operator : OperatorProvider,
      entry.2.provider = operator.provider ∧ (operator.rootQualifier = none ∨
        operator.rootQualifier = some personRelations.rootTable) := by
    intro entry hentry
    simp only [personSearch, TransferObject.filters, List.flatMap_cons, List.flatMap_nil,
      List.map_cons, List.map_nil, List.append_nil, List.mem_cons, List.not_mem_nil,
      or_false] at hentry
    rcases hentry with rfl | rfl
    · exact ⟨⟨.compare .eq, .string, none⟩, rfl, .inl rfl⟩
    · exact ⟨⟨.like, .string, some "person"⟩, rfl, .inr rfl⟩
  obtain ⟨joined, hscoped⟩ := apply_compiled_well_scoped hfilters hplan rfl happly
  exact ⟨plan, u, joined, hplan, happly, hscoped⟩

end QueryCriteria.Sql
