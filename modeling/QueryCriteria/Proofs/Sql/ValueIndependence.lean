import QueryCriteria.Proofs.Compilation
import QueryCriteria.Proofs.Sql.Application
import QueryCriteria.Proofs.Sql.Operator

/-!
# Filter values and prepared text

Two transfer objects are compiled and applied to one statement. If they differ in the values of
their filters only, and the same values are blank, then the two statements have the same outline.
So a value reaches the database as a bound value or not at all, and never as text of the statement.
-/
namespace QueryCriteria.Sql

open Json

/-- Lists of values that are blank at the same positions. -/
def SameBlanks (vs ws : List Value) : Prop :=
  List.Forall₂ (fun v w => isBlankValue v = isBlankValue w) vs ws

instance (vs ws : List Value) : Decidable (SameBlanks vs ws) :=
  inferInstanceAs (Decidable (List.Forall₂ _ vs ws))

/-- Two filters with the same operator on the same property. Their own values may differ, and so may
the filter objects `f` and `g` that they take values from, but the operator sees blanks at the same
positions. -/
structure AlikeFilters (f g : FilterObject) (c d : FilterCriterion Predicate) : Prop where
  target : c.target = d.target
  valuePaths : c.valuePaths = d.valuePaths
  operator : ∃ p : OperatorProvider, c.provider = p.provider ∧ d.provider = p.provider ∧
    ∀ vs ws, f.valuesOf c = .ok vs → g.valuesOf d = .ok ws →
      SameBlanks (p.operator.operands vs) (p.operator.operands ws)

structure AlikeEntries (f g : FilterObject) (e e' : Entry Predicate) : Prop where
  propertyId : e.propertyId = e'.propertyId
  filters : List.Forall₂ (AlikeFilters f g) e.filters e'.filters
  sort : e.sort = e'.sort

/-- Two transfer objects that differ in values only: those of their filters and of the paging bounds
that are present. -/
structure Alike (f g : FilterObject) (t u : TransferObject Predicate) : Prop where
  firstResult : t.firstResult.isSome = u.firstResult.isSome
  maxResults : t.maxResults.isSome = u.maxResults.isSome
  entries : List.Forall₂ (fun entry entry' => entry.1 = entry'.1 ∧
    AlikeEntries f g entry.2 entry'.2) t.entries u.entries

namespace Alike

variable {f g : FilterObject} {t u : TransferObject Predicate}

theorem paths (h : Alike f g t u) : t.paths = u.paths := by
  have hpaths : List.Forall₂ Eq t.paths u.paths := by
    refine List.rel_flatMap h.entries ?_
    rintro ⟨key, e⟩ ⟨key', e'⟩ ⟨-, hentry⟩
    have hfilters : List.Forall₂ Eq (e.filters.map (·.target.association))
        (e'.filters.map (·.target.association)) :=
      List.rel_map (fun c d hcd => congrArg PropertyPath.association hcd.target) hentry.filters
    have hsort : e.sort = e'.sort := hentry.sort
    rw [List.forall₂_eq_eq_eq] at hfilters ⊢
    simp only [hfilters, hsort]
  rwa [List.forall₂_eq_eq_eq] at hpaths

theorem sorts (h : Alike f g t u) : t.sorts = u.sorts := by
  have hsorts : List.Forall₂ Eq t.sorts u.sorts := by
    refine List.rel_flatMap h.entries ?_
    rintro ⟨key, e⟩ ⟨key', e'⟩ ⟨-, hentry⟩
    rw [List.forall₂_eq_eq_eq]
    exact congrArg Option.toList hentry.sort
  rwa [List.forall₂_eq_eq_eq] at hsorts

theorem filters (h : Alike f g t u) :
    List.Forall₂ (fun entry entry' => AlikeFilters f g entry.2 entry'.2) t.filters u.filters := by
  refine List.rel_flatMap h.entries ?_
  rintro ⟨key, e⟩ ⟨key', e'⟩ ⟨-, hentry⟩
  rw [List.forall₂_map_left_iff, List.forall₂_map_right_iff]
  exact hentry.filters

end Alike

theorem blanks_eq_of_sameBlanks {operator : Operator} {vs ws : List Value}
    (h : SameBlanks (operator.operands vs) (operator.operands ws)) :
    operator.blanks vs = operator.blanks ws := by
  unfold Operator.blanks
  rw [← List.forall₂_eq_eq_eq, List.forall₂_map_left_iff, List.forall₂_map_right_iff]
  exact h

section Contributions

variable {f g : FilterObject} {tree : JoinTree}

/-- In one tree, filters that differ in values only contribute predicates of the same outline. -/
theorem AlikeFilters.outline_contribution {c d : FilterCriterion Predicate}
    (h : AlikeFilters f g c d) {id id' : String} {p q : Option Predicate}
    (hp : c.contribution tree f id = .ok p) (hq : d.contribution tree g id' = .ok q) :
    p.map Predicate.outline = q.map Predicate.outline := by
  obtain ⟨operator, hc, hd, hblanks⟩ := h.operator
  obtain ⟨vs, hvs, hp⟩ := FilterCriterion.contribution_eq_ok_iff.mp hp
  obtain ⟨ws, hws, hq⟩ := FilterCriterion.contribution_eq_ok_iff.mp hq
  rw [hc] at hp
  rw [hd, ← h.target] at hq
  rw [operator.outline_predicate hp, operator.outline_predicate hq,
    blanks_eq_of_sameBlanks (hblanks vs ws hvs hws)]

theorem outlines_eq {filters filters' : List (String × FilterCriterion Predicate)}
    {ps qs : List (Option Predicate)}
    (h : List.Forall₂ (fun entry entry' => AlikeFilters f g entry.2 entry'.2) filters filters')
    (hps : List.Forall₂ (fun entry predicate => entry.2.contribution tree f entry.1 = .ok predicate)
      filters ps)
    (hqs : List.Forall₂ (fun entry predicate => entry.2.contribution tree g entry.1 = .ok predicate)
      filters' qs) :
    ps.reduceOption.map Predicate.outline = qs.reduceOption.map Predicate.outline := by
  have hmaps : ps.map (Option.map Predicate.outline) = qs.map (Option.map Predicate.outline) := by
    induction h generalizing ps qs with
    | nil =>
      cases hps
      cases hqs
      rfl
    | cons hfirst hrest ih =>
      obtain ⟨p, ps', hp, hps', rfl⟩ := List.forall₂_cons_left_iff.mp hps
      obtain ⟨q, qs', hq, hqs', rfl⟩ := List.forall₂_cons_left_iff.mp hqs
      rw [List.map_cons, List.map_cons, hfirst.outline_contribution hp hq, ih hps' hqs']
  rw [← List.reduceOption_map, ← List.reduceOption_map, hmaps]

end Contributions

theorem isSome_of_rowCount {field : String} {bound : Option Int32} {rows : Option Nat}
    (h : rowCount field bound = .ok rows) : rows.isSome = bound.isSome := by
  cases bound with
  | none =>
    cases h
    rfl
  | some n =>
    rw [rowCount] at h
    split at h
    · cases h
    · cases h
      rfl

theorem map_or_eq {a b : Option Nat} (h : a.isSome = b.isSome) (c : Option Nat) :
    (a.or c).map (fun _ => 0) = (b.or c).map fun _ => 0 := by
  cases a <;> cases b <;> first | rfl | cases h

theorem Select.outline_addClauses (s : Select) {plan plan' : Plan Predicate} {r : Resolver}
    {offset offset' limit limit' : Option Nat} (htree : plan.tree = plan'.tree)
    (hpredicates : plan.predicates.map Predicate.outline = plan'.predicates.map Predicate.outline)
    (horderings : plan.orderings = plan'.orderings) (hoffset : offset.isSome = offset'.isSome)
    (hlimit : limit.isSome = limit'.isSome) :
    (s.addClauses plan r offset limit).outline = (s.addClauses plan' r offset' limit').outline := by
  unfold addClauses outline
  simp only [List.map_append, htree, hpredicates, horderings, map_or_eq hoffset, map_or_eq hlimit]

/-- Two transfer objects that differ in values only lead to the same prepared text and to equally
many bound values, whatever the options of the two compilations are. -/
theorem prepared_independent_of_values {t u : TransferObject Predicate} {options options' : Options}
    {f g : FilterObject} {plan plan' : Plan Predicate} {r : Resolver} {s v w : Select}
    (halike : Alike f g t u) (hplan : t.compile options f = .ok plan)
    (hplan' : u.compile options' g = .ok plan') (hv : s.apply plan r = (v, .ok ()))
    (hw : s.apply plan' r = (w, .ok ())) :
    preparedText v.fragments = preparedText w.fragments ∧
      (boundValues v.fragments).length = (boundValues w.fragments).length := by
  obtain ⟨htree, ⟨ps, hps, hcontributed⟩, horderings, hfirst, hmax⟩ :=
    TransferObject.compile_eq_ok hplan
  obtain ⟨htree', ⟨qs, hqs, hcontributed'⟩, horderings', hfirst', hmax'⟩ :=
    TransferObject.compile_eq_ok hplan'
  -- The two conflict policies may differ, but no path was rejected.
  have hsame : plan.tree = plan'.tree := by
    have hwins := JoinTree.registerPaths_firstWins_of_ok JoinTree.wellFormed_empty htree
    have hwins' := JoinTree.registerPaths_firstWins_of_ok JoinTree.wellFormed_empty htree'
    rw [halike.paths, hwins', Except.ok.injEq] at hwins
    exact hwins.symm
  rw [← hsame] at hcontributed' horderings'
  have hpredicates : plan.predicates.map Predicate.outline =
      plan'.predicates.map Predicate.outline := by
    rw [hps, hqs]
    exact outlines_eq halike.filters hcontributed hcontributed'
  have hsorts : plan.orderings = plan'.orderings := by
    rw [horderings, horderings', halike.sorts]
  obtain ⟨offset, limit, joins, hoffset, hlimit, hjoins, rfl⟩ := Select.apply_eq_ok_iff.mp hv
  obtain ⟨offset', limit', joins', hoffset', hlimit', hjoins', rfl⟩ :=
    Select.apply_eq_ok_iff.mp hw
  have hjoined : joins = joins' := by
    rw [← hsame] at hjoins'
    refine List.right_unique_forall₂' ?_ hjoins hjoins'
    intro node join join' hjoin hjoin'
    rw [hjoin, Except.ok.injEq] at hjoin'
    exact hjoin'
  rw [← hjoined]
  apply Select.prepared_eq_of_outline_eq
  apply Select.outline_addClauses _ hsame hpredicates hsorts
  · rw [isSome_of_rowCount hoffset, isSome_of_rowCount hoffset', hfirst, hfirst',
      halike.firstResult]
  · rw [isSome_of_rowCount hlimit, isSome_of_rowCount hlimit', hmax, hmax', halike.maxResults]

theorem isSegment_department : IsSegment "department" := by decide

theorem isSegment_name : IsSegment "name" := by decide

/-- A search by name and day of birth in the department of some cities, which a form names. -/
def peopleSearch (name : String) (since : Value) (max : Int32) : TransferObject Predicate :=
  let department : Step := ⟨"department", .inner, isSegment_department⟩
  ⟨none, some max, [("who", ⟨"who",
    [.ofValue ⟨.root, "name", isSegment_name⟩ (.string name)
        (OperatorProvider.provider ⟨.like, .string, none⟩),
      ⟨⟨.root, "born", by decide⟩, none, some [since, .null],
        OperatorProvider.provider ⟨.between, .date, none⟩⟩,
      .ofPath ⟨⟨[department]⟩, "city", by decide⟩ "cities"
        (OperatorProvider.provider ⟨.member false, .string, none⟩)],
    some ⟨⟨.root, "name", isSegment_name⟩, true⟩⟩)]⟩

def cityForm (city : String) : FilterObject :=
  .ofValue (.object [("cities", .array [.string city, .string " "])])

def peopleRelations : RelationMap :=
  (RelationMap.ofTable "person").insert "department" ⟨"department", "department_id", "id"⟩

theorem prepared_peopleSearch :
    ∃ plan plan' v w,
      (peopleSearch "Ada" (.string "1815-12-10") 10).compile .standard (cityForm "Rome") =
        .ok plan ∧
      (peopleSearch "%' OR 1=1 --" (.string "2000-01-01") 500).compile .standard
        (cityForm "x') OR ('1'='1") = .ok plan' ∧
      (Select.ofTable "person" ["id"]).apply plan peopleRelations.resolver = (v, .ok ()) ∧
      (Select.ofTable "person" ["id"]).apply plan' peopleRelations.resolver = (w, .ok ()) ∧
      preparedText v.fragments = preparedText w.fragments ∧
      (boundValues v.fragments).length = (boundValues w.fragments).length := by
  have halike : Alike (cityForm "Rome") (cityForm "x') OR ('1'='1")
      (peopleSearch "Ada" (.string "1815-12-10") 10)
      (peopleSearch "%' OR 1=1 --" (.string "2000-01-01") 500) := by
    refine ⟨rfl, rfl, .cons ⟨rfl, rfl, .cons ?name (.cons ?born (.cons ?city .nil)), rfl⟩ .nil⟩
    case name => exact ⟨rfl, rfl, ⟨.like, .string, none⟩, rfl, rfl, by rintro _ _ ⟨⟩ ⟨⟩; decide⟩
    case born => exact ⟨rfl, rfl, ⟨.between, .date, none⟩, rfl, rfl, by rintro _ _ ⟨⟩ ⟨⟩; decide⟩
    case city =>
      exact ⟨rfl, rfl, ⟨.member false, .string, none⟩, rfl, rfl, by rintro _ _ ⟨⟩ ⟨⟩; decide⟩
  obtain ⟨plan, v, hplan, hv⟩ := Select.exists_apply_of_runs (.ofTable "person" ["id"])
    (peopleSearch "Ada" (.string "1815-12-10") 10) .standard (cityForm "Rome")
    peopleRelations.resolver (by decide)
  obtain ⟨plan', w, hplan', hw⟩ := Select.exists_apply_of_runs (.ofTable "person" ["id"])
    (peopleSearch "%' OR 1=1 --" (.string "2000-01-01") 500) .standard (cityForm "x') OR ('1'='1")
    peopleRelations.resolver (by decide)
  exact ⟨plan, plan', v, w, hplan, hplan', hv, hw,
    prepared_independent_of_values halike hplan hplan' hv hw⟩

end QueryCriteria.Sql
