import QueryCriteria.Proofs.Compilation

/-!
# The parts of a compiled plan

The tree of a plan is the tree after the paths of the criteria, all of them registered. Where they
all are, the policy makes no difference, so the sequence of the paths determines the tree. It joins
the chains of these paths, and further paths leave the nodes where they are. The predicates and the
sort keys are what the entries contribute in this tree, one entry after the other.
-/
namespace QueryCriteria

namespace JoinTree

variable {policy : ConflictPolicy} {paths : List AssociationPath} {tree : JoinTree}

theorem registerPaths_append (policy : ConflictPolicy) (t : JoinTree)
    (paths rest : List AssociationPath) :
    t.registerPaths policy (paths ++ rest) =
      t.registerPaths policy paths >>= fun u => u.registerPaths policy rest :=
  List.foldlM_append

theorem registerPaths_concat_ok {t u : JoinTree} {p : AssociationPath} {id : NodeId}
    (hu : JoinTree.empty.registerPaths policy paths = .ok t)
    (hp : t.register policy p = (u, .ok id)) :
    JoinTree.empty.registerPaths policy (paths ++ [p]) = .ok u := by
  rw [registerPaths_append, hu]
  exact registerPaths_cons_ok hp

theorem register_afterPaths_firstWins (paths : List AssociationPath) (p : AssociationPath) :
    ∃ id, (afterPaths .firstWins paths).register .firstWins p =
      (afterPaths .firstWins (paths ++ [p]), .ok id) := by
  obtain ⟨id, hid⟩ := (wellFormed_afterPaths .firstWins paths).exists_register_firstWins p
  exact ⟨id, by rw [afterPaths_concat, ← hid]⟩

theorem registerPaths_firstWins (paths : List AssociationPath) :
    JoinTree.empty.registerPaths .firstWins paths = .ok (afterPaths .firstWins paths) := by
  induction paths using List.reverseRecOn with
  | nil => rfl
  | append_singleton paths p ih =>
    obtain ⟨id, hregister⟩ := register_afterPaths_firstWins paths p
    exact registerPaths_concat_ok ih hregister

/-- As long as `firstWins` records no conflict, `reject` registers all paths too. -/
theorem registerPaths_of_conflicts_eq_nil (policy : ConflictPolicy)
    (h : (afterPaths .firstWins paths).conflicts = []) :
    JoinTree.empty.registerPaths policy paths = .ok (afterPaths .firstWins paths) := by
  cases policy with
  | firstWins => exact registerPaths_firstWins paths
  | reject =>
    induction paths using List.reverseRecOn with
    | nil => rfl
    | append_singleton paths p ih =>
      rw [conflicts_afterPaths_concat, List.append_eq_nil_iff] at h
      obtain ⟨hbefore, hclashes⟩ := h
      obtain ⟨id, hregister⟩ := register_afterPaths_firstWins paths p
      apply registerPaths_concat_ok (ih hbefore)
      rw [(wellFormed_afterPaths _ _).register_reject_eq, kindOf?_afterPaths_firstWins, hclashes]
      exact hregister

theorem eq_afterPaths (h : JoinTree.empty.registerPaths policy paths = .ok tree) :
    tree = afterPaths .firstWins paths := by
  have hwins := registerPaths_firstWins_of_ok wellFormed_empty h
  rw [registerPaths_firstWins, Except.ok.injEq] at hwins
  exact hwins.symm

theorem exists_idOf?_afterPaths {p : AssociationPath} (hp : p ∈ paths) :
    ∃ id, (afterPaths .firstWins paths).idOf? p.names = some id := by
  obtain ⟨-, -, hids⟩ := registerPaths_eq_ok wellFormed_empty (registerPaths_firstWins paths)
  exact hids p hp

end JoinTree

variable {P : Type}

namespace FilterCriterion

def predicate? (tree : JoinTree) (f : FilterObject) (id : String) (c : FilterCriterion P) :
    Option P :=
  match c.contribution tree f id with
  | .ok predicate => predicate
  | .error _ => none

theorem predicate?_eq_some_iff {tree : JoinTree} {f : FilterObject} {id : String}
    {c : FilterCriterion P} {q : P} :
    c.predicate? tree f id = some q ↔ c.contribution tree f id = .ok (some q) := by
  unfold predicate?
  cases c.contribution tree f id <;> simp

theorem contribution_congr {tree other : JoinTree} {f : FilterObject} {id : String}
    {c : FilterCriterion P}
    (h : ∀ values, c.provider (tree.nodeFor c.target.association) c.target.property values =
      c.provider (other.nodeFor c.target.association) c.target.property values) :
    c.contribution tree f id = c.contribution other f id := by
  simp only [contribution, h]

end FilterCriterion

def Entry.predicatesIn (tree : JoinTree) (f : FilterObject) (e : Entry P) : List P :=
  e.filters.filterMap (·.predicate? tree f e.propertyId)

theorem reduceOption_of_forall₂ {tree : JoinTree} {f : FilterObject}
    {filters : List (String × FilterCriterion P)} {contributed : List (Option P)}
    (h : List.Forall₂ (fun entry predicate => entry.2.contribution tree f entry.1 = .ok predicate)
      filters contributed) :
    contributed.reduceOption = filters.filterMap fun entry => entry.2.predicate? tree f entry.1 := by
  induction h with
  | nil => rfl
  | cons first rest ih =>
    rename_i entry predicate filters contributed
    have hpredicate : entry.2.predicate? tree f entry.1 = predicate := by
      rw [FilterCriterion.predicate?, first]
    rw [List.filterMap_cons, hpredicate, ← ih]
    cases predicate <;> rfl

namespace TransferObject

open JoinTree

variable {t : TransferObject P} {options : Options} {f : FilterObject} {plan : Plan P}

theorem tree_of_compile (h : t.compile options f = .ok plan) :
    plan.tree = afterPaths .firstWins t.paths :=
  eq_afterPaths (compile_eq_ok h).1

theorem wellFormed_of_compile (h : t.compile options f = .ok plan) : plan.tree.WellFormed := by
  rw [tree_of_compile h]
  exact wellFormed_afterPaths _ _

/-- A plan joins the chains of the paths of its criteria. -/
theorem mem_chains_of_compile (h : t.compile options f = .ok plan) {chain : List String} :
    chain ∈ plan.tree.chains ↔ ∃ p ∈ t.paths, chain ∈ p.chains := by
  rw [tree_of_compile h, mem_chains_afterPaths]

theorem forall_chains_of_compile (h : t.compile options f = .ok plan) (holds : List String → Prop) :
    (∀ chain ∈ plan.tree.chains, holds chain) ↔
      ∀ entry ∈ t.criteria, ∀ q ∈ entry.2.target.association.prefixes, holds q.names := by
  simp only [mem_chains_of_compile h, paths_eq_map_criteria, List.mem_map, AssociationPath.chains]
  constructor
  · intro hall entry hentry q hq
    exact hall q.names ⟨_, ⟨entry, hentry, rfl⟩, q, hq, rfl⟩
  · rintro hall chain ⟨-, ⟨entry, hentry, rfl⟩, q, hq, rfl⟩
    exact hall entry hentry q hq

theorem predicates_of_compile (h : t.compile options f = .ok plan) :
    plan.predicates = t.filters.filterMap fun entry => entry.2.predicate? plan.tree f entry.1 := by
  obtain ⟨-, ⟨contributed, hpredicates, hcontributed⟩, -⟩ := compile_eq_ok h
  rw [hpredicates, reduceOption_of_forall₂ hcontributed]

/-- The predicates of a plan are those of the entries, one entry after the other. -/
theorem predicates_eq_flatMap (h : t.compile options f = .ok plan) :
    plan.predicates = t.entries.flatMap fun entry => entry.2.predicatesIn plan.tree f := by
  rw [predicates_of_compile h, filters, List.filterMap_flatMap]
  simp only [List.filterMap_map, Entry.predicatesIn, Function.comp_def]

/-- A transfer object compiles if no limit is exceeded, no path is rejected and no filter fails. -/
theorem exists_compile_iff :
    (∃ plan, t.compile options f = .ok plan) ↔
      options.limits.firstExceeded? t = none ∧
        ∃ tree, JoinTree.empty.registerPaths options.conflictPolicy t.paths = .ok tree ∧
          ∀ entry ∈ t.filters, ∃ predicate, entry.2.contribution tree f entry.1 = .ok predicate := by
  rw [compile_eq_planByStages, planByStages]
  cases options.limits.firstExceeded? t with
  | some measure => simp
  | none =>
    simp only [bind_eq_ok_iff, pure_eq_ok_iff, true_and, Plan.contributions]
    constructor
    · rintro ⟨plan, tree, htree, contributed, hcontributed, -⟩
      exact ⟨tree, htree, exists_mapM_eq_ok_iff.mp ⟨contributed, hcontributed⟩⟩
    · rintro ⟨tree, htree, hfilters⟩
      obtain ⟨contributed, hcontributed⟩ := exists_mapM_eq_ok_iff.mpr hfilters
      exact ⟨_, tree, htree, contributed, hcontributed, rfl⟩

end TransferObject
end QueryCriteria
