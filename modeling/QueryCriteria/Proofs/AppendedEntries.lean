import Mathlib.Data.List.Infix
import QueryCriteria.Proofs.CompiledPlan
import QueryCriteria.Sql.Operator

/-!
# Entries at the end

Entries that are added at the end are compiled after all others. By then the nodes of the others are
in the tree, where nothing but their lists of children can change. Providers run only when the tree
is complete, so they find nodes with more children. One that does not look at the children answers
as it did without the new entries.
-/
namespace QueryCriteria

open JoinTree

variable {P : Type}

/-- The provider does not look at the children of its node. A provider that reads the number, the
alias and the effective path alone does not. -/
def Provider.IgnoresChildren (provider : Provider P) : Prop :=
  ∀ (node : JoinNode) children property values,
    provider { node with children := children } property values = provider node property values

theorem Sql.OperatorProvider.ignoresChildren (p : Sql.OperatorProvider) :
    p.provider.IgnoresChildren := by
  intro node children property values
  rfl

/-- All of a node but the list of its children. -/
def JoinNode.place (node : JoinNode) :
    NodeId × Option String × Option NodeId × AssociationPath :=
  (node.id, node.tableAlias, node.parent, node.path)

namespace JoinTree.Extends

variable {t u : JoinTree} (h : Extends t u)

include h

theorem places_isPrefix : t.nodes.map JoinNode.place <+: u.nodes.map JoinNode.place := by
  rw [List.prefix_iff_getElem?]
  intro id hid
  rw [List.length_map] at hid
  obtain ⟨more, hmore⟩ := h id t.nodes[id] (List.getElem?_eq_getElem hid)
  rw [node?] at hmore
  rw [List.getElem?_map, hmore, List.getElem_map]
  rfl

theorem nodeFor_eq (ht : t.WellFormed) (hu : u.WellFormed) {p : AssociationPath} {id : NodeId}
    (hid : t.idOf? p.names = some id) :
    ∃ children, u.nodeFor p = { t.nodeFor p with children := children } := by
  obtain ⟨more, hmore⟩ := h id _ (ht.node?_of_idOf? hid)
  rw [hu.node?_of_idOf? (h.idOf? ht hu hid), Option.some.injEq] at hmore
  exact ⟨_, hmore⟩

end JoinTree.Extends

namespace TransferObject

variable {t u : TransferObject P} {options options' : Options} {f : FilterObject}
  {plan plan' : Plan P}

theorem paths_isPrefix (hentries : t.entries <+: u.entries) : t.paths <+: u.paths :=
  hentries.flatMap _

section Extended

variable (hentries : t.entries <+: u.entries) (hplan : t.compile options f = .ok plan)
  (hplan' : u.compile options' f = .ok plan')

include hentries hplan hplan'

theorem extends_of_compile : Extends plan.tree plan'.tree := by
  obtain ⟨rest, hrest⟩ := paths_isPrefix hentries
  rw [tree_of_compile hplan, tree_of_compile hplan', ← hrest]
  exact extends_afterPaths t.paths rest

theorem conflicts_isPrefix : plan.tree.conflicts <+: plan'.tree.conflicts := by
  obtain ⟨rest, hrest⟩ := paths_isPrefix hentries
  rw [tree_of_compile hplan, tree_of_compile hplan', ← hrest]
  exact conflicts_afterPaths_prefix t.paths rest

/-- The node of a criterion is the same in the larger plan, but for its children. -/
theorem exists_nodeFor_eq {p : AssociationPath} (hp : p ∈ t.paths) :
    ∃ children, plan'.tree.nodeFor p = { plan.tree.nodeFor p with children := children } := by
  have hextends := extends_of_compile hentries hplan hplan'
  obtain ⟨id, hid⟩ := exists_idOf?_afterPaths hp
  rw [← tree_of_compile hplan] at hid
  exact hextends.nodeFor_eq (wellFormed_of_compile hplan) (wellFormed_of_compile hplan') hid

theorem predicates_isPrefix (hproviders : ∀ entry ∈ t.filters, entry.2.provider.IgnoresChildren) :
    plan.predicates <+: plan'.predicates := by
  -- The tree of the larger plan makes no difference to the filters of the smaller one.
  have hsame : ∀ entry ∈ t.filters,
      entry.2.predicate? plan.tree f entry.1 = entry.2.predicate? plan'.tree f entry.1 := by
    intro entry hentry
    obtain ⟨children, hnode⟩ := exists_nodeFor_eq hentries hplan hplan' (filter_mem_paths hentry)
    have hcontribution : entry.2.contribution plan.tree f entry.1 =
        entry.2.contribution plan'.tree f entry.1 := by
      apply FilterCriterion.contribution_congr
      intro values
      rw [hnode]
      exact (hproviders entry hentry _ children _ values).symm
    rw [FilterCriterion.predicate?, FilterCriterion.predicate?, hcontribution]
  rw [predicates_of_compile hplan, predicates_of_compile hplan', List.filterMap_congr hsame]
  exact List.IsPrefix.filterMap _ (hentries.flatMap _)

theorem orderings_isPrefix : plan.orderings <+: plan'.orderings := by
  obtain ⟨-, -, horderings, -⟩ := compile_eq_ok hplan
  obtain ⟨-, -, horderings', -⟩ := compile_eq_ok hplan'
  have hsame : ∀ c ∈ t.sorts, c.ordering plan.tree = c.ordering plan'.tree := by
    intro c hc
    obtain ⟨children, hnode⟩ := exists_nodeFor_eq hentries hplan hplan' (sort_mem_paths hc)
    rw [SortCriterion.ordering, SortCriterion.ordering, hnode]
  rw [horderings, horderings', List.map_congr_left hsame]
  exact List.IsPrefix.map _ (hentries.flatMap _)

end Extended

/-- What was compiled stays as it is when entries are added at the end, whatever paths they have,
whatever kinds they ask for and under whichever options: the nodes of the smaller plan, its
predicates, its sort keys and its conflicts are the first of the larger plan. -/
theorem compile_appended (hentries : t.entries <+: u.entries)
    (hproviders : ∀ entry ∈ t.filters, entry.2.provider.IgnoresChildren)
    (hplan : t.compile options f = .ok plan) (hplan' : u.compile options' f = .ok plan') :
    plan.tree.nodes.map JoinNode.place <+: plan'.tree.nodes.map JoinNode.place ∧
      plan.predicates <+: plan'.predicates ∧
      plan.orderings <+: plan'.orderings ∧
      plan.tree.conflicts <+: plan'.tree.conflicts :=
  ⟨(extends_of_compile hentries hplan hplan').places_isPrefix,
    predicates_isPrefix hentries hplan hplan' hproviders,
    orderings_isPrefix hentries hplan hplan', conflicts_isPrefix hentries hplan hplan'⟩

section Example

open Sql

/-- The entry of a search by the street of an office, which is joined as the entry asks. -/
def officeEntry (kind : JoinKind) : String × Entry Predicate :=
  let office : Step := ⟨"office", kind, by decide⟩
  let operator : OperatorProvider := ⟨.compare .eq, .string, none⟩
  (kind.name, ⟨kind.name, [.ofValue ⟨⟨[office]⟩, "street", by decide⟩ (.string "High Street")
    operator.provider], none⟩)

/-- The second entry asks for another kind, so that its conflict is recorded. -/
theorem compile_appended_offices :
    ∃ plan plan',
      (TransferObject.mk none none [officeEntry .leftOuter]).compile .standard .none = .ok plan ∧
      (TransferObject.mk none none [officeEntry .leftOuter, officeEntry .inner]).compile
        .standard .none = .ok plan' ∧
      plan.tree.nodes.map JoinNode.place <+: plan'.tree.nodes.map JoinNode.place ∧
      plan.predicates <+: plan'.predicates ∧
      plan.orderings <+: plan'.orderings ∧
      plan.tree.conflicts <+: plan'.tree.conflicts := by
  obtain ⟨plan, hplan⟩ : ∃ plan, (TransferObject.mk none none
      [officeEntry .leftOuter]).compile .standard .none = .ok plan := ⟨_, rfl⟩
  obtain ⟨plan', hplan'⟩ : ∃ plan, (TransferObject.mk none none
      [officeEntry .leftOuter, officeEntry .inner]).compile .standard .none = .ok plan :=
    ⟨_, rfl⟩
  have hproviders : ∀ entry ∈ (TransferObject.mk none none [officeEntry .leftOuter]).filters,
      entry.2.provider.IgnoresChildren := by
    intro entry hentry
    simp only [filters, officeEntry, List.flatMap_cons, List.flatMap_nil, List.map_cons,
      List.map_nil, List.append_nil, List.mem_cons, List.not_mem_nil, or_false] at hentry
    subst hentry
    exact OperatorProvider.ignoresChildren ⟨.compare .eq, .string, none⟩
  exact ⟨plan, plan', hplan, hplan',
    compile_appended ⟨[officeEntry .inner], rfl⟩ hproviders hplan hplan'⟩

end Example

end TransferObject
end QueryCriteria
