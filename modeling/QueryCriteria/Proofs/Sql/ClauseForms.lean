import QueryCriteria.Proofs.Sql.Grammar
import QueryCriteria.Proofs.Sql.Outline

/-!
# The forms of clauses

Each part of a statement is read token by token, has the form that the grammar asks of it, and has
every name as one token, whatever stands in the name.
-/
namespace QueryCriteria.Sql

/-! ## Lists of fragments -/

@[simp] theorem tokens_opening : (Fragment.fixed "(").tokens = [.sign "("] := by decide

@[simp] theorem tokens_closing : (Fragment.fixed ")").tokens = [.sign ")"] := by decide

@[simp] theorem tokens_and : (Fragment.fixed " AND ").tokens = [.word "AND"] := by decide

theorem tokensOf_separatedBy_comma (parts : List (List Fragment)) :
    tokensOf (separatedBy ", " parts) = commaSeparated (parts.map tokensOf) := by
  have hcomma : (Fragment.fixed ", ").tokens = [.sign ","] := by decide
  induction parts with
  | nil => rfl
  | cons part rest ih =>
    cases rest with
    | nil => rfl
    | cons next rest =>
      rw [separatedBy]
      · rw [tokensOf_append, tokensOf_cons, hcomma, ih]
        rfl
      · simp

theorem namesOf_commaSeparated (parts : List (List Token)) :
    namesOf (commaSeparated parts) = parts.flatMap namesOf := by
  induction parts with
  | nil => rfl
  | cons part rest ih =>
    cases rest with
    | nil => simp [commaSeparated]
    | cons next rest =>
      rw [commaSeparated]
      · simp [ih]
      · simp

theorem reads_commaSeparated {parts : List (List Fragment)} (h : ∀ part ∈ parts, Reads part) :
    Reads (separatedBy ", " parts) :=
  reads_separatedBy (by decide) h

/-! ## Columns and predicates -/

namespace Column

def names (c : Column) : List String := c.qualifier.toList ++ [c.name]

variable (c : Column)

theorem reads : Reads c.fragments := by
  unfold fragments
  cases c.qualifier with
  | none => exact reads_identifier c.name
  | some qualifier =>
    have hdot : Separates "." := by decide
    have hread := (reads_identifier qualifier).separated hdot (reads_identifier c.name)
    exact hread

theorem tokensOf_fragments :
    tokensOf c.fragments =
      match c.qualifier with
      | some qualifier => [.identifier qualifier, .sign ".", .identifier c.name]
      | none => [.identifier c.name] := by
  have hdot : (Fragment.fixed ".").tokens = [.sign "."] := by decide
  unfold fragments
  cases c.qualifier with
  | none => rfl
  | some qualifier => simp [hdot]

theorem isExpression : IsExpression (tokensOf c.fragments) := by
  rw [tokensOf_fragments]
  cases c.qualifier with
  | none => exact .column c.name
  | some qualifier => exact .qualified qualifier c.name

@[simp] theorem namesOf_fragments : namesOf (tokensOf c.fragments) = c.names := by
  rw [tokensOf_fragments]
  unfold names
  cases c.qualifier <;> rfl

end Column

namespace Predicate

def names (p : Predicate) : List String := p.columns.flatMap Column.names

theorem reads_valueList (values : List ColumnValue) : Reads (valueList values) := by
  have hvalues : Reads (separatedBy ", " (values.map fun v => [.value v])) := by
    refine reads_commaSeparated ?_
    rw [List.forall_mem_map]
    exact fun v _ => reads_nil.value_cons v
  exact hvalues.enclosed (by decide)

theorem separates_and : Separates " AND " := by decide

theorem reads (p : Predicate) : Reads p.fragments := by
  cases p with
  | compare c comparison v =>
    have hsign : Separates (" " ++ comparison.symbol ++ " ") := by
      cases comparison <;> decide
    exact c.reads.separated hsign (reads_nil.value_cons v)
  | between c low high =>
    have hbetween : Separates " BETWEEN " := by decide
    have hbounds := (reads_nil.value_cons low).separated separates_and (reads_nil.value_cons high)
    exact c.reads.separated hbetween hbounds
  | member c isNegated values =>
    have hin : Separates (if isNegated then " NOT IN " else " IN ") := by
      cases isNegated <;> decide
    have hread := c.reads.separated hin (reads_valueList values)
    simpa [fragments] using hread
  | like c isLowered pattern =>
    have hlike : Separates " LIKE " := by decide
    have hescape : Reads [.fixed " ESCAPE '\\'"] := reads_singleton (by decide)
    have hoperand : Reads (if isLowered then .fixed "LOWER(" :: c.fragments ++ [.fixed ")"]
        else c.fragments) := by
      cases isLowered with
      | false => exact c.reads
      | true => exact c.reads.enclosed (by decide)
    exact hoperand.separated hlike (hescape.value_cons _)
  | null c isNegated =>
    have hnull : Reads [.fixed (if isNegated then " IS NOT NULL" else " IS NULL")] := by
      cases isNegated <;> exact reads_singleton (by decide)
    have hbegins : BeginsDelimited (if isNegated then " IS NOT NULL" else " IS NULL") := by
      cases isNegated <;> decide
    exact c.reads.append hnull (.fixed hbegins)
  | equalColumns left right =>
    have hequal : Separates " = " := by decide
    simpa [fragments] using left.reads.separated hequal right.reads

theorem tokensOf_valueList (values : List ColumnValue) :
    tokensOf (valueList values) =
      .sign "(" :: commaSeparated (values.map fun _ => [.parameter]) ++ [.sign ")"] := by
  simp [valueList, tokensOf_separatedBy_comma, Function.comp_def]

theorem tokensOf_fragments (p : Predicate) :
    tokensOf p.fragments =
      match p with
      | .compare c comparison _ =>
        tokensOf c.fragments ++ [.sign comparison.symbol, .parameter]
      | .between c _ _ =>
        tokensOf c.fragments ++ [.word "BETWEEN", .parameter, .word "AND", .parameter]
      | .member c isNegated values =>
        tokensOf c.fragments ++ negation isNegated ++ .word "IN" :: .sign "(" ::
          commaSeparated (values.map fun _ => [.parameter]) ++ [.sign ")"]
      | .like c isLowered _ =>
        (if isLowered then .word "LOWER" :: .sign "(" :: tokensOf c.fragments ++ [.sign ")"]
          else tokensOf c.fragments) ++
            [.word "LIKE", .parameter, .word "ESCAPE", .literal "\\"]
      | .null c isNegated =>
        tokensOf c.fragments ++ .word "IS" :: negation isNegated ++ [.word "NULL"]
      | .equalColumns left right =>
        tokensOf left.fragments ++ .sign "=" :: tokensOf right.fragments := by
  -- The fixed texts are cut into tokens by evaluation, what stands between them by lemmas.
  cases p with
  | compare c comparison v =>
    have hsign : (Fragment.fixed (" " ++ comparison.symbol ++ " ")).tokens =
        [.sign comparison.symbol] := by
      cases comparison <;> decide
    simp [fragments, hsign]
  | between c low high =>
    have hbetween : (Fragment.fixed " BETWEEN ").tokens = [.word "BETWEEN"] := by decide
    simp [fragments, hbetween]
  | member c isNegated values =>
    have hin : (Fragment.fixed (if isNegated then " NOT IN " else " IN ")).tokens =
        negation isNegated ++ [.word "IN"] := by
      cases isNegated <;> decide
    simp [fragments, hin, tokensOf_valueList]
  | like c isLowered pattern =>
    have hlower : (Fragment.fixed "LOWER(").tokens = [.word "LOWER", .sign "("] := by decide
    have hlike : (Fragment.fixed " LIKE ").tokens = [.word "LIKE"] := by decide
    have hescape : (Fragment.fixed " ESCAPE '\\'").tokens = [.word "ESCAPE", .literal "\\"] := by
      decide
    cases isLowered <;> simp [fragments, hlower, hlike, hescape]
  | null c isNegated =>
    have hnull : (Fragment.fixed (if isNegated then " IS NOT NULL" else " IS NULL")).tokens =
        .word "IS" :: negation isNegated ++ [.word "NULL"] := by
      cases isNegated <;> decide
    simp [fragments, hnull]
  | equalColumns left right =>
    have hequal : (Fragment.fixed " = ").tokens = [.sign "="] := by decide
    simp [fragments, hequal]

theorem isExpression (p : Predicate) : IsExpression (tokensOf p.fragments) := by
  rw [tokensOf_fragments]
  cases p with
  | compare c comparison v =>
    exact .compare (by cases comparison <;> decide) c.isExpression .parameter
  | between c low high =>
    have hbetween := IsExpression.between false c.isExpression .parameter .parameter
    simpa [negation] using hbetween
  | member c isNegated values =>
    refine .member isNegated c.isExpression ?_
    rw [List.forall_mem_map]
    exact fun v _ => .parameter
  | like c isLowered pattern =>
    have hoperand : IsExpression (if isLowered then
        .word "LOWER" :: .sign "(" :: tokensOf c.fragments ++ [.sign ")"]
          else tokensOf c.fragments) := by
      cases isLowered with
      | false => exact c.isExpression
      | true =>
        have hlower : "LOWER" ∉ keywords := by decide
        exact .call hlower (List.forall_mem_singleton.mpr c.isExpression)
    have hlike := IsExpression.likeEscape false hoperand .parameter (.literal "\\")
    simpa [negation] using hlike
  | null c isNegated => exact .is isNegated c.isExpression .null
  | equalColumns left right =>
    exact .compare (by decide) left.isExpression right.isExpression

theorem namesOf_fragments (p : Predicate) : namesOf (tokensOf p.fragments) = p.names := by
  rw [tokensOf_fragments]
  cases p with
  | compare c comparison v => simp [names, columns]
  | between c low high => simp [names, columns]
  | member c isNegated values => simp [names, columns, namesOf_commaSeparated]
  | like c isLowered pattern => cases isLowered <;> simp [names, columns]
  | null c isNegated => simp [names, columns]
  | equalColumns left right => simp [names, columns]

theorem reads_conjunct (p : Predicate) : Reads p.conjunct := by
  unfold conjunct
  cases p.containsAnd with
  | false => exact p.reads
  | true => exact p.reads.enclosed (by decide)

theorem tokensOf_conjunct (p : Predicate) :
    tokensOf p.conjunct =
      if p.containsAnd then .sign "(" :: tokensOf p.fragments ++ [.sign ")"]
      else tokensOf p.fragments := by
  unfold conjunct
  cases p.containsAnd <;> simp

theorem isExpression_conjunct (p : Predicate) : IsExpression (tokensOf p.conjunct) := by
  rw [tokensOf_conjunct]
  cases p.containsAnd with
  | false => exact p.isExpression
  | true => exact .enclosed p.isExpression

theorem namesOf_conjunct (p : Predicate) : namesOf (tokensOf p.conjunct) = p.names := by
  rw [tokensOf_conjunct, ← namesOf_fragments]
  cases p.containsAnd <;> simp

end Predicate

/-! ## Clauses -/

theorem tokensOf_separatedBy_and (part next : List Fragment) (rest : List (List Fragment)) :
    tokensOf (separatedBy " AND " (part :: next :: rest)) =
      tokensOf part ++ .word "AND" :: tokensOf (separatedBy " AND " (next :: rest)) := by
  rw [separatedBy]
  · simp
  · simp

/-- Predicates that are joined by the word between them form one expression. -/
theorem isExpression_conjunction (p : Predicate) (rest : List Predicate) :
    IsExpression (tokensOf (separatedBy " AND " ((p :: rest).map Predicate.conjunct))) := by
  induction rest generalizing p with
  | nil => exact p.isExpression_conjunct
  | cons q rest ih =>
    rw [List.map_cons, List.map_cons, tokensOf_separatedBy_and]
    exact .and p.isExpression_conjunct (ih q)

theorem namesOf_conjunction (ps : List Predicate) :
    namesOf (tokensOf (separatedBy " AND " (ps.map Predicate.conjunct))) =
      ps.flatMap Predicate.names := by
  induction ps with
  | nil => rfl
  | cons p rest ih =>
    cases rest with
    | nil => simpa [separatedBy] using p.namesOf_conjunct
    | cons q rest =>
      rw [List.map_cons, List.map_cons, tokensOf_separatedBy_and, List.flatMap_cons, ← ih,
        ← p.namesOf_conjunct]
      simp

section Condition

variable (ps : List Predicate)

theorem reads_conditionFragments : Reads (conditionFragments ps) := by
  have hconjuncts : Reads (separatedBy " AND " (ps.map Predicate.conjunct)) := by
    refine reads_separatedBy Predicate.separates_and ?_
    rw [List.forall_mem_map]
    exact fun p _ => p.reads_conjunct
  match ps with
  | [] => exact reads_nil
  | [p] => exact p.reads
  | _ :: _ :: _ => exact hconjuncts

theorem isExpression_conditionFragments (hne : ps ≠ []) :
    IsExpression (tokensOf (conditionFragments ps)) := by
  match ps with
  | [] => exact absurd rfl hne
  | [p] => exact p.isExpression
  | p :: q :: rest => exact isExpression_conjunction p (q :: rest)

theorem namesOf_conditionFragments :
    namesOf (tokensOf (conditionFragments ps)) = ps.flatMap Predicate.names := by
  match ps with
  | [] => rfl
  | [p] => simpa [conditionFragments] using p.namesOf_fragments
  | p :: q :: rest => exact namesOf_conjunction (p :: q :: rest)

end Condition

namespace Join

def names (j : Join) : List String := j.table :: j.tableAlias :: j.on.names

def operator : JoinKind → List String
  | .inner => ["INNER", "JOIN"]
  | .leftOuter => ["LEFT", "JOIN"]
  | .rightOuter => ["RIGHT", "JOIN"]
  | .full => ["FULL", "OUTER", "JOIN"]

variable (j : Join)

theorem reads : Reads j.fragments := by
  have hon : Reads (.fixed " ON " :: j.on.fragments) := j.on.reads.fixed_cons (by decide)
  have halias := hon.identifier_cons j.tableAlias (.fixed (by decide))
  have has : Reads (.fixed " AS " :: .identifier j.tableAlias :: .fixed " ON " ::
      j.on.fragments) :=
    halias.fixed_cons (by decide)
  have htable := has.identifier_cons j.table (.fixed (by decide))
  have hwords : EndsComplete (joinWords j.kind) := by cases j.kind <;> decide
  exact (htable.fixed_cons hwords).fixed_cons (by decide)

theorem tokensOf_fragments :
    tokensOf j.fragments =
      (operator j.kind).map .word ++ [.identifier j.table, .word "AS", .identifier j.tableAlias] ++
        .word "ON" :: tokensOf j.on.fragments := by
  have hblank : (Fragment.fixed " ").tokens = [] := by decide
  have hwords : (Fragment.fixed (joinWords j.kind)).tokens = (operator j.kind).map .word := by
    cases j.kind <;> decide
  have has : (Fragment.fixed " AS ").tokens = [.word "AS"] := by decide
  have hon : (Fragment.fixed " ON ").tokens = [.word "ON"] := by decide
  simp [fragments, hblank, hwords, has, hon]

theorem isJoin : IsJoin (tokensOf j.fragments) := by
  rw [tokensOf_fragments]
  exact .on (by cases j.kind <;> decide) (.aliased j.table j.tableAlias) j.on.isExpression

theorem namesOf_fragments : namesOf (tokensOf j.fragments) = j.names := by
  have hwords : namesOf ((operator j.kind).map .word) = [] := by cases j.kind <;> rfl
  rw [tokensOf_fragments]
  simp [hwords, names, j.on.namesOf_fragments]

end Join

namespace SortKey

variable (k : SortKey)

theorem reads : Reads k.fragments := by
  have hdirection : Reads [.fixed (if k.ascending then " ASC" else " DESC")] := by
    cases k.ascending <;> exact reads_singleton (by decide)
  have hbegins : BeginsDelimited (if k.ascending then " ASC" else " DESC") := by
    cases k.ascending <;> decide
  exact k.column.reads.append hdirection (.fixed hbegins)

theorem tokensOf_fragments :
    tokensOf k.fragments =
      tokensOf k.column.fragments ++ [.word (if k.ascending then "ASC" else "DESC")] := by
  have hdirection : (Fragment.fixed (if k.ascending then " ASC" else " DESC")).tokens =
      [.word (if k.ascending then "ASC" else "DESC")] := by
    cases k.ascending <;> decide
  simp [fragments, hdirection]

theorem isSortTerm : IsSortTerm (tokensOf k.fragments) := by
  rw [tokensOf_fragments]
  cases k.ascending with
  | false => exact .desc k.column.isExpression
  | true => exact .asc k.column.isExpression

theorem namesOf_fragments : namesOf (tokensOf k.fragments) = k.column.names := by
  rw [tokensOf_fragments]
  simp [k.column.namesOf_fragments]

end SortKey
end QueryCriteria.Sql
