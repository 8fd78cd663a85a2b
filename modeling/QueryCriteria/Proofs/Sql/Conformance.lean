import QueryCriteria.Proofs.Sql.ClauseForms
import QueryCriteria.Proofs.Sql.Effect
import QueryCriteria.Sql.Operator

/-!
# Statements conform to the grammar

The text of a statement is read as its tokens, and every name is one of them. A plan that is applied
to a statement without bounds gives a statement that conforms to the grammar, with one exception.
The two bounds of a plan are independent of each other, and a statement that skips rows without a
bound on their number does not conform.
-/
namespace QueryCriteria.Sql.Select

def clauseFragments (s : Select) : List Fragment :=
  .fixed "SELECT " :: separatedBy ", " (s.columns.map Column.fragments) ++
    [.fixed " FROM ", .identifier s.table] ++ s.joins.flatMap Join.fragments ++
    s.whereFragments ++ s.orderFragments

variable (s : Select)

theorem fragments_eq :
    s.fragments = s.clauseFragments ++ boundFragments " LIMIT " s.limit ++
      boundFragments " OFFSET " s.offset := rfl

/-! ## Reading -/

theorem continues_joins (joins : List Join) : Continues (joins.flatMap Join.fragments) := by
  cases joins with
  | nil => exact .nil
  | cons j rest => exact .fixed (by decide)

theorem reads_joins (joins : List Join) : Reads (joins.flatMap Join.fragments) := by
  induction joins with
  | nil => exact reads_nil
  | cons j rest ih => exact j.reads.append ih (continues_joins rest)

theorem continues_whereFragments : Continues s.whereFragments := by
  unfold whereFragments
  cases s.conditions with
  | nil => exact .nil
  | cons p rest => exact .fixed (by decide)

theorem reads_whereFragments : Reads s.whereFragments := by
  unfold whereFragments
  cases s.conditions with
  | nil => exact reads_nil
  | cons p rest => exact (reads_conditionFragments (p :: rest)).fixed_cons (by decide)

theorem continues_orderFragments : Continues s.orderFragments := by
  unfold orderFragments
  cases s.sortKeys with
  | nil => exact .nil
  | cons k rest => exact .fixed (by decide)

theorem reads_orderFragments : Reads s.orderFragments := by
  have hkeys : Reads (separatedBy ", " (s.sortKeys.map SortKey.fragments)) := by
    refine reads_commaSeparated ?_
    rw [List.forall_mem_map]
    exact fun k _ => k.reads
  unfold orderFragments
  cases hempty : s.sortKeys.isEmpty with
  | true => exact reads_nil
  | false => exact hkeys.fixed_cons (by decide)

theorem reads_clauseFragments : Reads s.clauseFragments := by
  have hcolumns : Reads (separatedBy ", " (s.columns.map Column.fragments)) := by
    refine reads_commaSeparated ?_
    rw [List.forall_mem_map]
    exact fun c _ => c.reads
  have hselect : Reads (.fixed "SELECT " :: separatedBy ", " (s.columns.map Column.fragments)) :=
    hcolumns.fixed_cons (by decide)
  have hfrom : Reads [.fixed " FROM ", .identifier s.table] :=
    (reads_identifier s.table).fixed_cons (by decide)
  have htable := hselect.append hfrom (.fixed (by decide))
  have hjoined := htable.append (reads_joins s.joins) (continues_joins s.joins)
  have hwhere := hjoined.append s.reads_whereFragments s.continues_whereFragments
  exact hwhere.append s.reads_orderFragments s.continues_orderFragments

section Bounds

variable {word : String} (bound : Option Nat)

theorem reads_boundFragments (hword : EndsComplete word) : Reads (boundFragments word bound) := by
  cases bound with
  | none => exact reads_nil
  | some n => exact (reads_nil.value_cons _).fixed_cons hword

theorem continues_boundFragments (hword : BeginsDelimited word) :
    Continues (boundFragments word bound) := by
  cases bound with
  | none => exact .nil
  | some n => exact .fixed hword

end Bounds

theorem reads_fragments : Reads s.fragments := by
  have hlimit : Reads (boundFragments " LIMIT " s.limit) := reads_boundFragments _ (by decide)
  have hoffset : Reads (boundFragments " OFFSET " s.offset) := reads_boundFragments _ (by decide)
  have hlimited := s.reads_clauseFragments.append hlimit
    (continues_boundFragments _ (by decide))
  exact hlimited.append hoffset (continues_boundFragments _ (by decide))

/-! ## Tokens -/

theorem tokensOf_flatMap {α : Type} (f : α → List Fragment) (xs : List α) :
    tokensOf (xs.flatMap f) = (xs.map fun x => tokensOf (f x)).flatten := by
  induction xs with
  | nil => rfl
  | cons x rest ih => simp [ih]

theorem tokensOf_whereFragments :
    tokensOf s.whereFragments =
      if s.conditions.isEmpty then []
      else .word "WHERE" :: tokensOf (conditionFragments s.conditions) := by
  have hwhere : (Fragment.fixed " WHERE ").tokens = [.word "WHERE"] := by decide
  unfold whereFragments
  cases s.conditions.isEmpty <;> simp [hwhere]

theorem tokensOf_orderFragments :
    tokensOf s.orderFragments =
      if s.sortKeys.isEmpty then []
      else .word "ORDER" :: .word "BY" ::
        commaSeparated (s.sortKeys.map fun k => tokensOf k.fragments) := by
  have horder : (Fragment.fixed " ORDER BY ").tokens = [.word "ORDER", .word "BY"] := by decide
  unfold orderFragments
  cases s.sortKeys.isEmpty <;> simp [horder, tokensOf_separatedBy_comma, Function.comp_def]

theorem tokensOf_clauseFragments :
    tokensOf s.clauseFragments =
      .word "SELECT" :: commaSeparated (s.columns.map fun c => tokensOf c.fragments) ++
        .word "FROM" :: [.identifier s.table] ++
        (s.joins.map fun j => tokensOf j.fragments).flatten ++
        tokensOf s.whereFragments ++ tokensOf s.orderFragments := by
  have hselect : (Fragment.fixed "SELECT ").tokens = [.word "SELECT"] := by decide
  have hfrom : (Fragment.fixed " FROM ").tokens = [.word "FROM"] := by decide
  simp [clauseFragments, hselect, hfrom, tokensOf_separatedBy_comma, tokensOf_flatMap,
    Function.comp_def]

/-- The tokens of the bounds on the rows, of which each may be set or not. -/
def boundTokens (hasLimit hasOffset : Bool) : List Token :=
  (if hasLimit then [.word "LIMIT", .parameter] else []) ++
    if hasOffset then [.word "OFFSET", .parameter] else []

theorem tokensOf_fragments :
    tokensOf s.fragments =
      tokensOf s.clauseFragments ++ boundTokens s.limit.isSome s.offset.isSome := by
  have hlimit : (Fragment.fixed " LIMIT ").tokens = [.word "LIMIT"] := by decide
  have hoffset : (Fragment.fixed " OFFSET ").tokens = [.word "OFFSET"] := by decide
  rw [fragments_eq, tokensOf_append, tokensOf_append, List.append_assoc]
  cases s.limit <;> cases s.offset <;> simp [boundFragments, boundTokens, hlimit, hoffset]

/-! ## Form -/

theorem isUnpagedSelect (hne : s.columns ≠ []) :
    IsUnpagedSelect (tokensOf s.clauseFragments) := by
  rw [tokensOf_clauseFragments]
  refine .clauses ?columns ?expressions (.name s.table) ?joins ?condition ?order
  case columns => simpa using hne
  case expressions =>
    rw [List.forall_mem_map]
    exact fun c _ => c.isExpression
  case joins =>
    rw [List.forall_mem_map]
    exact fun j _ => j.isJoin
  case condition =>
    rw [tokensOf_whereFragments]
    split
    · exact .absent
    · next hne => exact .condition (isExpression_conditionFragments _ (by simpa using hne))
  case order =>
    have hterms : ∀ ts ∈ s.sortKeys.map fun k => tokensOf k.fragments, IsSortTerm ts := by
      rw [List.forall_mem_map]
      exact fun k _ => k.isSortTerm
    rw [tokensOf_orderFragments]
    split
    · exact .absent
    · next hne => exact .terms (by simpa using hne) hterms

theorem isSelect_iff :
    IsSelect (tokensOf s.fragments) ↔ s.columns ≠ [] ∧ (s.offset.isSome → s.limit.isSome) := by
  rw [tokensOf_fragments]
  constructor
  · intro h
    -- Without columns the word of the next clause would follow at once.
    have hne : s.columns ≠ [] := by
      intro hnil
      obtain ⟨t, rest, htokens, ht⟩ := h.exists_cons
      rw [tokensOf_clauseFragments, hnil] at htokens
      have hfrom : t = .word "FROM" := (List.cons.inj (List.cons.inj htokens).2).1.symm
      rw [hfrom] at ht
      revert ht
      decide
    refine ⟨hne, fun hoffset => ?_⟩
    have hlimit := h.limit_mem_of_offset_mem (by simp [boundTokens, hoffset])
    have hclauses := (s.isUnpagedSelect hne).not_mem_of_bound (.inl rfl)
    simpa [boundTokens, hoffset, hclauses] using hlimit
  · rintro ⟨hne, hbounds⟩
    refine .paged (s.isUnpagedSelect hne) ?_
    cases hlimit : s.limit with
    | none =>
      have hoffset : s.offset.isSome = false := by simpa [hlimit] using hbounds
      rw [hoffset]
      exact .absent
    | some n =>
      cases s.offset with
      | none => exact .limit .parameter
      | some m => exact .limitOffset .parameter .parameter

/-! ## Names -/

/-- The names in a statement, in the order of its text. -/
def names : List String :=
  s.columns.flatMap Column.names ++ s.table :: s.joins.flatMap Join.names ++
    s.conditions.flatMap Predicate.names ++ s.sortKeys.flatMap (·.column.names)

theorem namesOf_fragments : namesOf (tokensOf s.fragments) = s.names := by
  have hwhere : namesOf (tokensOf s.whereFragments) = s.conditions.flatMap Predicate.names := by
    rw [tokensOf_whereFragments]
    cases s.conditions with
    | nil => rfl
    | cons p rest => simp [namesOf_conditionFragments]
  have horder : namesOf (tokensOf s.orderFragments) = s.sortKeys.flatMap (·.column.names) := by
    rw [tokensOf_orderFragments]
    cases s.sortKeys with
    | nil => rfl
    | cons k rest =>
      simp [namesOf_commaSeparated, List.flatMap_map, SortKey.namesOf_fragments]
  have hjoins : namesOf (s.joins.map fun j => tokensOf j.fragments).flatten =
      s.joins.flatMap Join.names := by
    induction s.joins with
    | nil => rfl
    | cons j rest ih => simp [ih, j.namesOf_fragments]
  have hcolumns : namesOf (commaSeparated (s.columns.map fun c => tokensOf c.fragments)) =
      s.columns.flatMap Column.names := by
    simp [namesOf_commaSeparated, List.flatMap_map, Column.namesOf_fragments]
  have hbounds : namesOf (boundTokens s.limit.isSome s.offset.isSome) = [] := by
    cases s.limit <;> cases s.offset <;> rfl
  rw [tokensOf_fragments, tokensOf_clauseFragments]
  simp [hwhere, horder, hjoins, hcolumns, hbounds, names]

variable {s} {u : Select} {plan : Plan Predicate} {r : Resolver}

/-- A page of the invoices of a customer, by a column with quotation marks in its name. -/
def invoiceSearch : TransferObject Predicate :=
  let customer : Step := ⟨"customer", .leftOuter, by decide⟩
  ⟨some 20, some 10, [("code", ⟨"code",
    [.ofValue ⟨⟨[customer]⟩, "code", by decide⟩ (.string "K7")
      (OperatorProvider.provider ⟨.startsWith, .string, none⟩)],
    some ⟨⟨.root, "net \"total\"", by decide⟩, false⟩⟩)]⟩

def invoiceRelations : RelationMap :=
  (RelationMap.ofTable "invoice").insert "customer" ⟨"customer\" --", "customer_id", "id"⟩

end QueryCriteria.Sql.Select
