import Mathlib.Data.List.ReduceOption
import QueryCriteria.Plan
import QueryCriteria.Proofs.Except
import QueryCriteria.Proofs.JoinTree.Chains
import QueryCriteria.Proofs.Limits

/-!
# Compilation by stages

The compiler keeps the filters and the sort keys with the numbers of their nodes while the tree
still grows, and turns to values and providers afterwards. Here the plan is given by stages that
know nothing of each other but their results: the counts and their bounds, the tree of all paths,
the predicates of the filters at the nodes with their names, and the sort keys. The two agree
because a number, once given, belongs to the same chain of names in every later tree.
-/
namespace QueryCriteria

variable {P : Type}

namespace JoinTree

/-- The tree with paths registered in turn, unless one of them is rejected. -/
def registerPaths (policy : ConflictPolicy) (t : JoinTree) (paths : List AssociationPath) :
    Except CriteriaError JoinTree :=
  paths.foldlM (fun t p =>
    match t.register policy p with
    | (u, .ok _) => .ok u
    | (_, .error conflict) => .error conflict.toError) t

/-- The node whose association names are the ones of a path. -/
def nodeFor (t : JoinTree) (p : AssociationPath) : JoinNode :=
  (t.nodes.find? (·.path.names = p.names)).getD .root

end JoinTree

/-- What a filter contributes in a tree: the values are those of its paths, null where there is
none, and then its own. -/
def FilterCriterion.contribution (tree : JoinTree) (f : FilterObject) (id : String)
    (c : FilterCriterion P) : Except CriteriaError (Option P) := do
  let found ← (c.valuePaths.getD []).mapM f
  let values := found.map (·.getD .null) ++ c.directValues.getD []
  (c.provider (tree.nodeFor c.target.association) c.target.property values).mapError
    (.provider id c.target.display)

/-- What filters contribute in a tree, up to the first that fails. -/
def Plan.contributions (tree : JoinTree) (f : FilterObject)
    (filters : List (String × FilterCriterion P)) : Except CriteriaError (List (Option P)) :=
  filters.mapM fun (id, c) => c.contribution tree f id

/-- The sort key of a sort in a tree. -/
def SortCriterion.ordering (tree : JoinTree) (c : SortCriterion) : PlanSort :=
  ⟨(tree.nodeFor c.target.association).id, c.target.property, c.ascending⟩

/-- The plan of a transfer object by stages. -/
def TransferObject.planByStages (t : TransferObject P) (options : Options) (f : FilterObject) :
    Except CriteriaError (Plan P) :=
  match options.limits.firstExceeded? t with
  | some measure => .error measure.toError
  | none => do
    let tree ← JoinTree.empty.registerPaths options.conflictPolicy t.paths
    let contributions ← Plan.contributions tree f t.filters
    return ⟨tree, contributions.reduceOption, t.sorts.map (·.ordering tree), t.firstResult,
      t.maxResults⟩

namespace JoinTree

section RegisterPaths

variable {policy : ConflictPolicy} {t u : JoinTree} {p : AssociationPath}
  {rest : List AssociationPath}

@[simp] theorem registerPaths_nil : t.registerPaths policy [] = .ok t := rfl

theorem registerPaths_cons_ok {id : NodeId} (h : t.register policy p = (u, .ok id)) :
    t.registerPaths policy (p :: rest) = u.registerPaths policy rest := by
  simp [registerPaths, h, bind, Except.bind]

theorem registerPaths_cons_error {c : JoinConflict} (h : t.register policy p = (u, .error c)) :
    t.registerPaths policy (p :: rest) = .error c.toError := by
  simp [registerPaths, h, bind, Except.bind]

/-- What the tree of paths that are not rejected has: all that was there before, and each path. -/
theorem registerPaths_eq_ok {paths : List AssociationPath} (h : t.WellFormed)
    (hu : t.registerPaths policy paths = .ok u) :
    u.WellFormed ∧ Extends t u ∧ ∀ p ∈ paths, ∃ id, u.idOf? p.names = some id := by
  induction paths generalizing t with
  | nil =>
    cases hu
    exact ⟨h, Extends.refl _, by simp⟩
  | cons p rest ih =>
    have hv := h.register policy p
    have htv := h.extends_register policy p
    cases hreg : t.register policy p with
    | mk v result =>
      rw [hreg] at hv htv
      cases result with
      | error c =>
        rw [registerPaths_cons_error hreg] at hu
        cases hu
      | ok id =>
        rw [registerPaths_cons_ok hreg] at hu
        obtain ⟨huWell, hvu, hids⟩ := ih hv hu
        have hid := hvu.idOf? hv huWell (h.idOf?_register hreg)
        exact ⟨huWell, htv.trans hvu, List.forall_mem_cons.mpr ⟨⟨id, hid⟩, hids⟩⟩

theorem exists_conflict_of_registerPaths {paths : List AssociationPath} {e : CriteriaError}
    (h : t.registerPaths policy paths = .error e) :
    ∃ c : JoinConflict, e = c.toError := by
  induction paths generalizing t with
  | nil => cases h
  | cons p rest ih =>
    cases hreg : t.register policy p with
    | mk u result =>
      cases result with
      | ok id =>
        rw [registerPaths_cons_ok hreg] at h
        exact ih h
      | error c =>
        rw [registerPaths_cons_error hreg] at h
        cases h
        exact ⟨c, rfl⟩

/-- Paths that are not rejected lead to the same tree under either policy. -/
theorem registerPaths_firstWins_of_ok {paths : List AssociationPath} (h : t.WellFormed)
    (hu : t.registerPaths policy paths = .ok u) : t.registerPaths .firstWins paths = .ok u := by
  induction paths generalizing t with
  | nil => exact hu
  | cons p rest ih =>
    have hv := h.register policy p
    cases hreg : t.register policy p with
    | mk v result =>
      rw [hreg] at hv
      cases result with
      | error c =>
        rw [registerPaths_cons_error hreg] at hu
        cases hu
      | ok id =>
        rw [registerPaths_cons_ok hreg] at hu
        rw [registerPaths_cons_ok (h.register_firstWins_of_ok hreg)]
        exact ih hv hu

end RegisterPaths

/-- The node for the names of a path is the one that the index leads to. -/
theorem WellFormed.node?_of_idOf? {t : JoinTree} (h : t.WellFormed) {p : AssociationPath}
    {id : NodeId} (hid : t.idOf? p.names = some id) : t.node? id = some (t.nodeFor p) := by
  obtain ⟨node, hnode, hnames⟩ := h.index.mp hid
  cases hfound : t.nodes.find? (·.path.names = p.names) with
  | none =>
    have hne := List.find?_eq_none.mp hfound node (List.mem_of_getElem? hnode)
    simp [hnames] at hne
  | some other =>
    obtain ⟨i, hi⟩ := List.mem_iff_getElem?.mp (List.mem_of_find?_eq_some hfound)
    have hnames' : other.path.names = p.names := by simpa using List.find?_some hfound
    have heq : i = id := h.id_eq_of_names_eq hi hnode (hnames'.trans hnames.symm)
    rw [nodeFor, hfound, Option.getD_some, ← heq]
    exact hi

theorem WellFormed.names_nodeFor {t : JoinTree} (h : t.WellFormed) {p : AssociationPath}
    {id : NodeId} (hid : t.idOf? p.names = some id) : (t.nodeFor p).path.names = p.names := by
  obtain ⟨node, hnode, hnames⟩ := h.index.mp hid
  rw [h.node?_of_idOf? hid, Option.some.injEq] at hnode
  rw [hnode, hnames]

theorem WellFormed.pathAt_nodeFor {t : JoinTree} (h : t.WellFormed) {p : AssociationPath}
    {id : NodeId} (hid : t.idOf? p.names = some id) :
    t.pathAt (t.nodeFor p).id = (t.nodeFor p).path := by
  have hnode := h.node?_of_idOf? hid
  rw [pathAt, h.node_id hnode, hnode]
  rfl

end JoinTree

theorem FilterObject.resolveAll_eq (f : FilterObject) (paths : List String) :
    f.resolveAll paths = (paths.mapM f).map (List.map (·.getD .null)) := by
  induction paths with
  | nil => rfl
  | cons path rest ih =>
    rw [FilterObject.resolveAll, ih, List.mapM_cons]
    cases f path with
    | error e => rfl
    | ok found =>
      cases rest.mapM f with
      | error e => rfl
      | ok others => rfl

theorem FilterCriterion.contribution_eq_bind (tree : JoinTree) (f : FilterObject) (id : String)
    (c : FilterCriterion P) :
    c.contribution tree f id = f.valuesOf c >>= fun values =>
      (c.provider (tree.nodeFor c.target.association) c.target.property values).mapError
        (.provider id c.target.display) := by
  unfold contribution FilterObject.valuesOf
  rw [FilterObject.resolveAll_eq]
  cases (c.valuePaths.getD []).mapM f <;> rfl

theorem FilterCriterion.contribution_eq_ok_iff {tree : JoinTree} {f : FilterObject} {id : String}
    {c : FilterCriterion P} {predicate : Option P} :
    c.contribution tree f id = .ok predicate ↔ ∃ values, f.valuesOf c = .ok values ∧
      c.provider (tree.nodeFor c.target.association) c.target.property values = .ok predicate := by
  unfold contribution FilterObject.valuesOf
  rw [FilterObject.resolveAll_eq]
  simp only [bind_eq_ok_iff, map_eq_ok_iff, pure_eq_ok_iff, mapError_eq_ok_iff]
  constructor
  · rintro ⟨found, hfound, hprovider⟩
    exact ⟨_, ⟨_, ⟨found, hfound, rfl⟩, rfl⟩, hprovider⟩
  · rintro ⟨_, ⟨_, ⟨found, hfound, rfl⟩, rfl⟩, hprovider⟩
    exact ⟨found, hfound, hprovider⟩

theorem FilterCriterion.error_of_contribution {tree : JoinTree} {f : FilterObject} {id : String}
    {c : FilterCriterion P} {e : CriteriaError} (h : c.contribution tree f id = .error e) :
    (∃ path, f path = .error e) ∨ ∃ source, e = .provider id c.target.display source := by
  unfold contribution at h
  rcases bind_eq_error_iff.mp h with hvalues | ⟨found, -, hprovider⟩
  · obtain ⟨path, -, hpath⟩ := exists_of_mapM_eq_error hvalues
    exact .inl ⟨path, hpath⟩
  · obtain ⟨source, -, rfl⟩ := mapError_eq_error_iff.mp hprovider
    exact .inr ⟨source, rfl⟩

namespace Plan

open JoinTree

/-- The filters among criteria, at the nodes that a tree has for them. -/
def pendingFilters (tree : JoinTree) (criteria : List (String × Criterion P)) :
    List (PendingFilter P) :=
  (criteria.filterMap fun (id, c) => c.filter?.map (id, ·)).map fun (id, c) =>
    ⟨id, c, (tree.idOf? c.target.association.names).getD 0⟩

/-- The sort keys of the sorts among criteria, at the nodes that a tree has for them. -/
def sortKeys (tree : JoinTree) (criteria : List (String × Criterion P)) : List PlanSort :=
  (criteria.filterMap (·.2.sort?)).map fun c =>
    ⟨(tree.idOf? c.target.association.names).getD 0, c.target.property, c.ascending⟩

theorem tree_push (r : Registered P) (tree : JoinTree) (node : NodeId) (id : String)
    (c : Criterion P) : (r.push tree node id c).tree = tree := by
  cases c <;> rfl

/-- The numbers that are kept while the tree grows are those of the finished tree. -/
theorem registerAll_eq (policy : ConflictPolicy) {r : Registered P} (h : r.tree.WellFormed)
    (criteria : List (String × Criterion P)) :
    registerAll policy r criteria =
      (r.tree.registerPaths policy (criteria.map (·.2.target.association))).map fun tree =>
        ⟨tree, r.filters ++ pendingFilters tree criteria,
          r.orderings ++ sortKeys tree criteria⟩ := by
  induction criteria generalizing r with
  | nil => simp [registerAll, pendingFilters, sortKeys, Except.map]
  | cons criterion rest ih =>
    obtain ⟨id, c⟩ := criterion
    cases hreg : r.tree.register policy c.target.association with
    | mk tree result =>
      cases result with
      | error conflict =>
        rw [List.map_cons, registerPaths_cons_error hreg, registerAll, hreg]
        rfl
      | ok node =>
        have htree : tree.WellFormed := by
          have := h.register policy c.target.association
          rwa [hreg] at this
        rw [List.map_cons, registerPaths_cons_ok hreg, registerAll, hreg]
        change registerAll policy (r.push tree node id c) rest = _
        rw [ih (by rwa [tree_push]), tree_push]
        cases hlast : tree.registerPaths policy (rest.map (·.2.target.association)) with
        | error e => rfl
        | ok last =>
          obtain ⟨hlastWell, hext, -⟩ := registerPaths_eq_ok htree hlast
          -- A criterion keeps the node it was given when the later ones are registered.
          have hid := hext.idOf? htree hlastWell (h.idOf?_register hreg)
          cases c with
          | filter c | sort c =>
            change last.idOf? c.target.association.names = some node at hid
            simp [Except.map, Registered.push, pendingFilters, sortKeys, Criterion.filter?,
              Criterion.sort?, hid]

/-- A filter that is kept with its node contributes what it does at the node with its names. -/
theorem predicateOf_eq {tree : JoinTree} (h : tree.WellFormed) (f : FilterObject) {id : String}
    {c : FilterCriterion P} {node : NodeId}
    (hnode : tree.idOf? c.target.association.names = some node) :
    predicateOf tree f ⟨id, c, node⟩ = c.contribution tree f id := by
  unfold predicateOf FilterCriterion.contribution FilterObject.valuesOf
  rw [FilterObject.resolveAll_eq]
  cases (c.valuePaths.getD []).mapM f with
  | error e => rfl
  | ok found =>
    simp only [Except.map, bind, Except.bind, pure, Except.pure, h.node?_of_idOf? hnode,
      Option.getD_some]
    cases c.provider (tree.nodeFor c.target.association) c.target.property
        (found.map (·.getD .null) ++ c.directValues.getD []) with
    | error source => rfl
    | ok predicate => rfl

theorem contributions_cons (tree : JoinTree) (f : FilterObject) (id : String)
    (c : FilterCriterion P) (rest : List (String × FilterCriterion P)) :
    contributions tree f ((id, c) :: rest) = do
      let first ← c.contribution tree f id
      let others ← contributions tree f rest
      return first :: others :=
  List.mapM_cons

theorem predicatesOf_eq {tree : JoinTree} (h : tree.WellFormed) (f : FilterObject)
    {filters : List (String × FilterCriterion P)}
    (hids : ∀ entry ∈ filters, ∃ node, tree.idOf? entry.2.target.association.names = some node) :
    predicatesOf tree f (filters.map fun (id, c) =>
        ⟨id, c, (tree.idOf? c.target.association.names).getD 0⟩) =
      (contributions tree f filters).map List.reduceOption := by
  induction filters with
  | nil => rfl
  | cons entry rest ih =>
    obtain ⟨id, c⟩ := entry
    obtain ⟨⟨node, hnode⟩, hrest⟩ := List.forall_mem_cons.mp hids
    rw [List.map_cons, predicatesOf, ih hrest, contributions_cons]
    simp only [hnode, Option.getD_some, predicateOf_eq h f hnode]
    cases c.contribution tree f id with
    | error e => rfl
    | ok predicate =>
      cases contributions tree f rest with
      | error e => rfl
      | ok others => cases predicate <;> simp [Except.map, bind, Except.bind, pure, Except.pure]

end Plan

namespace TransferObject

open JoinTree

/-- The nodes that the stages look up by name are those that the compiler kept. -/
theorem compile_eq_planByStages (t : TransferObject P) (options : Options) (f : FilterObject) :
    t.compile options f = t.planByStages options f := by
  unfold compile planByStages
  rw [Limits.checkTransferObject_eq]
  cases options.limits.firstExceeded? t with
  | some measure => rfl
  | none =>
    rw [Plan.registerAll_eq _ wellFormed_empty, ← t.paths_eq_map_criteria]
    cases hreg : JoinTree.empty.registerPaths options.conflictPolicy t.paths with
    | error e => rfl
    | ok tree =>
      obtain ⟨htree, -, hids⟩ := registerPaths_eq_ok wellFormed_empty hreg
      have hfilters : ∀ entry ∈ t.filters,
          ∃ node, tree.idOf? entry.2.target.association.names = some node :=
        fun entry hentry => hids _ (filter_mem_paths hentry)
      have hsorts : Plan.sortKeys tree t.criteria = t.sorts.map (·.ordering tree) := by
        rw [Plan.sortKeys, filterMap_sort?_criteria]
        apply List.map_congr_left
        intro c hc
        obtain ⟨node, hnode⟩ := hids _ (sort_mem_paths hc)
        have hid := htree.node_id (htree.node?_of_idOf? hnode)
        rw [SortCriterion.ordering, hid, hnode, Option.getD_some]
      simp only [Except.map, bind, Except.bind, List.nil_append, hsorts]
      rw [Plan.pendingFilters, filterMap_filter?_criteria, Plan.predicatesOf_eq htree f hfilters]
      cases Plan.contributions tree f t.filters with
      | error e => rfl
      | ok contributions => rfl

/-- What a plan consists of: the tree of all paths, what the filters contribute in it, the sort keys
and the paging bounds. -/
theorem compile_eq_ok {t : TransferObject P} {options : Options} {f : FilterObject} {plan : Plan P}
    (h : t.compile options f = .ok plan) :
    JoinTree.empty.registerPaths options.conflictPolicy t.paths = .ok plan.tree ∧
    (∃ contributed, plan.predicates = contributed.reduceOption ∧
      List.Forall₂ (fun entry predicate =>
        entry.2.contribution plan.tree f entry.1 = .ok predicate) t.filters contributed) ∧
    plan.orderings = t.sorts.map (·.ordering plan.tree) ∧
    plan.firstResult = t.firstResult ∧ plan.maxResults = t.maxResults := by
  rw [compile_eq_planByStages, planByStages] at h
  cases hlimits : options.limits.firstExceeded? t with
  | some measure =>
    rw [hlimits] at h
    cases h
  | none =>
    simp only [hlimits, bind_eq_ok_iff, pure_eq_ok_iff] at h
    obtain ⟨tree, htree, contributed, hcontributed, rfl⟩ := h
    exact ⟨htree, ⟨contributed, rfl, mapM_eq_ok_iff.mp hcontributed⟩, rfl, rfl, rfl⟩

/-- Whatever the filter object and the providers do, a transfer object compiles to the plan that the
stages give: the limits are checked, then the paths are joined, then the filters contribute. The
node of a filter or a sort key is the only one with the names of its path. -/
theorem compile_by_stages (t : TransferObject P) (options : Options) (f : FilterObject) :
    t.compile options f = t.planByStages options f ∧
    ∀ tree, JoinTree.empty.registerPaths options.conflictPolicy t.paths = .ok tree →
      ∀ p ∈ t.paths,
        (tree.nodeFor p).path.names = p.names ∧
        tree.node? (tree.nodeFor p).id = some (tree.nodeFor p) ∧
        ∀ id node, tree.node? id = some node → node.path.names = p.names →
          id = (tree.nodeFor p).id := by
  refine ⟨t.compile_eq_planByStages options f, ?_⟩
  intro tree htree p hp
  obtain ⟨hwell, -, hids⟩ := registerPaths_eq_ok wellFormed_empty htree
  obtain ⟨id, hid⟩ := hids p hp
  have hnode := hwell.node?_of_idOf? hid
  have hnames := hwell.names_nodeFor hid
  have hself := hwell.node_id hnode
  refine ⟨hnames, hself.symm ▸ hnode, ?_⟩
  intro id' node hnode' hnames'
  rw [hself]
  exact hwell.id_eq_of_names_eq hnode' hnode (hnames'.trans hnames.symm)

end TransferObject
end QueryCriteria
