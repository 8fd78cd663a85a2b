import Mathlib.Data.List.Forall2
import QueryCriteria.Sql.Application

/-!
# What applying a plan does

Applying a plan succeeds exactly if both paging bounds are numbers of rows and every join is
resolved. Then the statement has one more join for each node, in the order of the nodes, and the
clauses of the plan behind its own.
-/
namespace QueryCriteria.Sql.Select

variable {tree : JoinTree} {r : Resolver} {s u : Select} {plan : Plan Predicate}

theorem addJoins_eq_ok_iff {nodes : List JoinNode} :
    addJoins tree r s nodes = (u, .ok ()) ↔
      ∃ joins, List.Forall₂ (fun node join => joinOf tree r node = .ok join) nodes joins ∧
        u = { s with joins := s.joins ++ joins } := by
  induction nodes generalizing s with
  | nil =>
    simp only [addJoins, List.forall₂_nil_left_iff, exists_eq_left, List.append_nil, Prod.mk.injEq,
      and_true]
    exact eq_comm
  | cons node rest ih =>
    rw [addJoins]
    cases hjoin : joinOf tree r node with
    | error e =>
      constructor
      · intro h
        cases h
      · rintro ⟨joins, hjoins, -⟩
        obtain ⟨join, others, hfirst, -, -⟩ := List.forall₂_cons_left_iff.mp hjoins
        rw [hjoin] at hfirst
        cases hfirst
    | ok join =>
      simp only [ih]
      constructor
      · rintro ⟨others, hothers, rfl⟩
        exact ⟨join :: others, .cons hjoin hothers, by simp⟩
      · rintro ⟨joins, hjoins, rfl⟩
        obtain ⟨first, others, hfirst, hothers, rfl⟩ := List.forall₂_cons_left_iff.mp hjoins
        rw [hjoin, Except.ok.injEq] at hfirst
        exact ⟨others, hothers, by simp [hfirst]⟩

theorem apply_eq_ok_iff :
    s.apply plan r = (u, .ok ()) ↔
      ∃ offset limit joins, rowCount "firstResult" plan.firstResult = .ok offset ∧
        rowCount "maxResults" plan.maxResults = .ok limit ∧
        List.Forall₂ (fun node join => joinOf plan.tree r node = .ok join) plan.tree.joins joins ∧
        u = { s with joins := s.joins ++ joins }.addClauses plan r offset limit := by
  unfold apply
  cases hoffset : rowCount "firstResult" plan.firstResult with
  | error e => simp
  | ok offset =>
    cases hlimit : rowCount "maxResults" plan.maxResults with
    | error e => simp
    | ok limit =>
      cases hjoins : addJoins plan.tree r s plan.tree.joins with
      | mk v result =>
        cases result with
        | error e =>
          have hnone : ∀ joins, ¬ List.Forall₂ (fun node join => joinOf plan.tree r node = .ok join)
              plan.tree.joins joins := by
            intro joins h
            have hok := (addJoins_eq_ok_iff (s := s)).mpr ⟨joins, h, rfl⟩
            rw [hjoins] at hok
            cases hok
          simp [hnone]
        | ok done =>
          obtain ⟨joins, hall, rfl⟩ := addJoins_eq_ok_iff.mp hjoins
          constructor
          · intro h
            cases h
            exact ⟨offset, limit, joins, rfl, rfl, hall, rfl⟩
          · rintro ⟨offset', limit', joins', ho, hl, hall', rfl⟩
            cases ho
            cases hl
            have hok := (addJoins_eq_ok_iff (s := s)).mpr ⟨joins', hall', rfl⟩
            rw [hjoins, Prod.mk.injEq] at hok
            rw [← hok.1]

/-- Evaluating both steps shows that a transfer object compiles and that its plan is applied. -/
theorem exists_apply_of_runs (s : Select) (t : TransferObject Predicate) (options : Options)
    (f : FilterObject) (r : Resolver)
    (h : (t.compile options f).toOption.map (fun plan => (s.apply plan r).2) = some (.ok ())) :
    ∃ plan u, t.compile options f = .ok plan ∧ s.apply plan r = (u, .ok ()) := by
  cases hcompiled : t.compile options f with
  | error e =>
    rw [hcompiled] at h
    cases h
  | ok plan =>
    rw [hcompiled] at h
    have hok : (s.apply plan r).2 = .ok () := Option.some.inj h
    exact ⟨plan, (s.apply plan r).1, rfl, by rw [← hok]⟩

end QueryCriteria.Sql.Select
