import QueryCriteria.Proofs.Sql.Tokens

/-!
# The grammar of select statements

The rules follow SQLite's grammar, as far as statements of this library need it. A statement may end
with a bound on its rows, and only behind that bound may it say how many rows are skipped. The words
that begin a clause occur nowhere else, because names are quoted.
-/
namespace QueryCriteria.Sql

def commaSeparated : List (List Token) → List Token
  | [] => []
  | [part] => part
  | part :: rest => part ++ .sign "," :: commaSeparated rest

theorem exists_commaSeparated_cons (part : List Token) (rest : List (List Token)) :
    ∃ more, commaSeparated (part :: rest) = part ++ more := by
  cases rest with
  | nil => exact ⟨[], (List.append_nil part).symm⟩
  | cons next rest => exact ⟨_, rfl⟩

def clauseWords : List String := ["SELECT", "FROM", "WHERE", "ORDER", "LIMIT", "OFFSET"]

/-- The words that cannot name a function. -/
def keywords : List String :=
  clauseWords ++ ["AND", "AS", "ASC", "BETWEEN", "BY", "CROSS", "DESC", "ESCAPE", "FULL", "IN",
    "INNER", "IS", "JOIN", "LEFT", "LIKE", "NOT", "NULL", "ON", "OUTER", "RIGHT"]

def comparisonSigns : List String := ["=", "<>", ">", ">=", "<", "<="]

def negation (isNegated : Bool) : List Token := if isNegated then [.word "NOT"] else []

@[simp] theorem namesOf_negation (isNegated : Bool) : namesOf (negation isNegated) = [] := by
  cases isNegated <;> rfl

/-- Tokens that form an expression. -/
inductive IsExpression : List Token → Prop
  | null : IsExpression [.word "NULL"]
  | literal (text : String) : IsExpression [.literal text]
  | parameter : IsExpression [.parameter]
  | column (name : String) : IsExpression [.identifier name]
  | qualified (table name : String) :
    IsExpression [.identifier table, .sign ".", .identifier name]
  | call {name : String} {arguments : List (List Token)} (hname : name ∉ keywords)
    (harguments : ∀ ts ∈ arguments, IsExpression ts) :
    IsExpression (.word name :: .sign "(" :: commaSeparated arguments ++ [.sign ")"])
  | enclosed {ts : List Token} (h : IsExpression ts) :
    IsExpression (.sign "(" :: ts ++ [.sign ")"])
  | compare {sign : String} {ts us : List Token} (hsign : sign ∈ comparisonSigns)
    (hts : IsExpression ts) (hus : IsExpression us) : IsExpression (ts ++ .sign sign :: us)
  | and {ts us : List Token} (hts : IsExpression ts) (hus : IsExpression us) :
    IsExpression (ts ++ .word "AND" :: us)
  | is {ts us : List Token} (isNegated : Bool) (hts : IsExpression ts) (hus : IsExpression us) :
    IsExpression (ts ++ .word "IS" :: negation isNegated ++ us)
  | between {ts low high : List Token} (isNegated : Bool) (hts : IsExpression ts)
    (hlow : IsExpression low) (hhigh : IsExpression high) :
    IsExpression (ts ++ negation isNegated ++ .word "BETWEEN" :: low ++ .word "AND" :: high)
  | member {ts : List Token} {items : List (List Token)} (isNegated : Bool) (hts : IsExpression ts)
    (hitems : ∀ item ∈ items, IsExpression item) :
    IsExpression (ts ++ negation isNegated ++ .word "IN" :: .sign "(" :: commaSeparated items ++
      [.sign ")"])
  | like {ts pattern : List Token} (isNegated : Bool) (hts : IsExpression ts)
    (hpattern : IsExpression pattern) :
    IsExpression (ts ++ negation isNegated ++ .word "LIKE" :: pattern)
  | likeEscape {ts pattern character : List Token} (isNegated : Bool) (hts : IsExpression ts)
    (hpattern : IsExpression pattern) (hcharacter : IsExpression character) :
    IsExpression (ts ++ negation isNegated ++ .word "LIKE" :: pattern ++
      .word "ESCAPE" :: character)

/-- Tokens that name a table, perhaps with an alias. -/
inductive IsTable : List Token → Prop
  | name (table : String) : IsTable [.identifier table]
  | aliased (table tableAlias : String) :
    IsTable [.identifier table, .word "AS", .identifier tableAlias]

def joinOperators : List (List String) :=
  [["JOIN"], ["CROSS", "JOIN"], ["INNER", "JOIN"], ["LEFT", "JOIN"], ["LEFT", "OUTER", "JOIN"],
    ["RIGHT", "JOIN"], ["RIGHT", "OUTER", "JOIN"], ["FULL", "JOIN"], ["FULL", "OUTER", "JOIN"]]

inductive IsJoin : List Token → Prop
  | on {operator : List String} {table condition : List Token}
    (hoperator : operator ∈ joinOperators) (htable : IsTable table)
    (hcondition : IsExpression condition) :
    IsJoin (operator.map .word ++ table ++ .word "ON" :: condition)

inductive IsSortTerm : List Token → Prop
  | plain {ts : List Token} (h : IsExpression ts) : IsSortTerm ts
  | asc {ts : List Token} (h : IsExpression ts) : IsSortTerm (ts ++ [.word "ASC"])
  | desc {ts : List Token} (h : IsExpression ts) : IsSortTerm (ts ++ [.word "DESC"])

inductive IsWhere : List Token → Prop
  | absent : IsWhere []
  | condition {ts : List Token} (h : IsExpression ts) : IsWhere (.word "WHERE" :: ts)

inductive IsOrder : List Token → Prop
  | absent : IsOrder []
  | terms {terms : List (List Token)} (hne : terms ≠ []) (h : ∀ ts ∈ terms, IsSortTerm ts) :
    IsOrder (.word "ORDER" :: .word "BY" :: commaSeparated terms)

inductive IsPaging : List Token → Prop
  | absent : IsPaging []
  | limit {count : List Token} (hcount : IsExpression count) : IsPaging (.word "LIMIT" :: count)
  | limitOffset {count skipped : List Token} (hcount : IsExpression count)
    (hskipped : IsExpression skipped) :
    IsPaging (.word "LIMIT" :: count ++ .word "OFFSET" :: skipped)

/-- A statement without bounds on its rows. -/
inductive IsUnpagedSelect : List Token → Prop
  | clauses {columns joins : List (List Token)} {table condition order : List Token}
    (hne : columns ≠ []) (hcolumns : ∀ ts ∈ columns, IsExpression ts) (htable : IsTable table)
    (hjoins : ∀ ts ∈ joins, IsJoin ts) (hcondition : IsWhere condition) (horder : IsOrder order) :
    IsUnpagedSelect (.word "SELECT" :: commaSeparated columns ++ .word "FROM" :: table ++
      joins.flatten ++ condition ++ order)

/-- Tokens that form a select statement. -/
inductive IsSelect : List Token → Prop
  | paged {ts paging : List Token} (hts : IsUnpagedSelect ts) (hpaging : IsPaging paging) :
    IsSelect (ts ++ paging)

/-! ## Clauses -/

def Token.isClauseWord : Token → Bool
  | .word text => clauseWords.contains text
  | _ => false

def clausesOf (ts : List Token) : List Token := ts.filter Token.isClauseWord

@[simp] theorem clausesOf_nil : clausesOf [] = [] := rfl

@[simp] theorem clausesOf_cons (t : Token) (ts : List Token) :
    clausesOf (t :: ts) = if t.isClauseWord then t :: clausesOf ts else clausesOf ts :=
  List.filter_cons

@[simp] theorem clausesOf_append (ts us : List Token) :
    clausesOf (ts ++ us) = clausesOf ts ++ clausesOf us :=
  List.filter_append ..

theorem clausesOf_commaSeparated {parts : List (List Token)}
    (h : ∀ part ∈ parts, clausesOf part = []) : clausesOf (commaSeparated parts) = [] := by
  induction parts with
  | nil => rfl
  | cons part rest ih =>
    have hpart := h part List.mem_cons_self
    have hrest := ih fun part hmem => h part (List.mem_cons_of_mem _ hmem)
    cases rest with
    | nil => exact hpart
    | cons next rest =>
      rw [commaSeparated]
      · simp [hpart, hrest, Token.isClauseWord]
      · simp

@[simp] theorem clausesOf_negation (isNegated : Bool) : clausesOf (negation isNegated) = [] := by
  cases isNegated <;> rfl

theorem IsExpression.clausesOf_eq_nil {ts : List Token} (h : IsExpression ts) :
    clausesOf ts = [] := by
  induction h with
  | null => rfl
  | literal text => rfl
  | parameter => rfl
  | column name => rfl
  | qualified table name => rfl
  | @call name arguments hname harguments ih =>
    have hclause : name ∉ clauseWords := by
      simp only [keywords, List.mem_append, not_or] at hname
      exact hname.1
    simp [hclause, clausesOf_commaSeparated ih, Token.isClauseWord]
  | enclosed h ih => simp [ih, Token.isClauseWord]
  | compare hsign hts hus ihts ihus => simp [ihts, ihus, Token.isClauseWord]
  | and hts hus ihts ihus => simp [ihts, ihus, Token.isClauseWord, clauseWords]
  | is isNegated hts hus ihts ihus => simp [ihts, ihus, Token.isClauseWord, clauseWords]
  | between isNegated hts hlow hhigh ihts ihlow ihhigh =>
    simp [ihts, ihlow, ihhigh, Token.isClauseWord, clauseWords]
  | member isNegated hts hitems ihts ihitems =>
    simp [ihts, clausesOf_commaSeparated ihitems, Token.isClauseWord, clauseWords]
  | like isNegated hts hpattern ihts ihpattern =>
    simp [ihts, ihpattern, Token.isClauseWord, clauseWords]
  | likeEscape isNegated hts hpattern hcharacter ihts ihpattern ihcharacter =>
    simp [ihts, ihpattern, ihcharacter, Token.isClauseWord, clauseWords]

theorem IsExpression.ne_nil {ts : List Token} (h : IsExpression ts) : ts ≠ [] := by
  cases h <;> simp

theorem IsJoin.clausesOf_eq_nil {ts : List Token} (h : IsJoin ts) : clausesOf ts = [] := by
  cases h with
  | @on operator table condition hoperator htable hcondition =>
    have hwords : ∀ operator ∈ joinOperators, clausesOf (operator.map .word) = [] := by decide
    have hnames : clausesOf table = [] := by cases htable <;> rfl
    simp [hwords operator hoperator, hnames, hcondition.clausesOf_eq_nil, Token.isClauseWord,
      clauseWords]

theorem IsSortTerm.clausesOf_eq_nil {ts : List Token} (h : IsSortTerm ts) :
    clausesOf ts = [] := by
  cases h with
  | plain h => exact h.clausesOf_eq_nil
  | asc h => simp [h.clausesOf_eq_nil, Token.isClauseWord, clauseWords]
  | desc h => simp [h.clausesOf_eq_nil, Token.isClauseWord, clauseWords]

theorem IsUnpagedSelect.clausesOf_sublist {ts : List Token} (h : IsUnpagedSelect ts) :
    (clausesOf ts).Sublist [.word "SELECT", .word "FROM", .word "WHERE", .word "ORDER"] := by
  cases h with
  | @clauses columns joins table condition order hne hcolumns htable hjoins hcondition horder =>
    have hcolumns' : clausesOf (commaSeparated columns) = [] :=
      clausesOf_commaSeparated fun ts hts => (hcolumns ts hts).clausesOf_eq_nil
    have htable' : clausesOf table = [] := by cases htable <;> rfl
    have hjoins' : clausesOf joins.flatten = [] := by
      unfold clausesOf
      rw [List.filter_flatten, List.flatten_eq_nil_iff, List.forall_mem_map]
      exact fun ts hts => (hjoins ts hts).clausesOf_eq_nil
    -- Only the optional clauses leave a choice.
    have hcondition' : clausesOf condition = [] ∨ clausesOf condition = [.word "WHERE"] := by
      cases hcondition with
      | absent => exact .inl rfl
      | condition h => exact .inr (by simp [h.clausesOf_eq_nil, Token.isClauseWord, clauseWords])
    have horder' : clausesOf order = [] ∨ clausesOf order = [.word "ORDER"] := by
      cases horder with
      | absent => exact .inl rfl
      | terms hne h =>
        have hterms := clausesOf_commaSeparated fun ts hts => (h ts hts).clausesOf_eq_nil
        exact .inr (by simp [hterms, Token.isClauseWord, clauseWords])
    have hall : clausesOf (.word "SELECT" :: commaSeparated columns ++ .word "FROM" :: table ++
        joins.flatten ++ condition ++ order) =
          .word "SELECT" :: .word "FROM" :: (clausesOf condition ++ clausesOf order) := by
      simp [hcolumns', htable', hjoins', Token.isClauseWord, clauseWords]
    rw [hall]
    rcases hcondition' with hwhere | hwhere <;> rcases horder' with hby | hby <;>
      rw [hwhere, hby] <;> decide

theorem mem_clausesOf {word : String} {ts : List Token} (h : word ∈ clauseWords) :
    .word word ∈ clausesOf ts ↔ .word word ∈ ts := by
  simp [clausesOf, Token.isClauseWord, h]

theorem IsUnpagedSelect.not_mem_of_bound {ts : List Token} {word : String}
    (h : IsUnpagedSelect ts) (hword : word = "LIMIT" ∨ word = "OFFSET") : .word word ∉ ts := by
  intro hmem
  have hclause : word ∈ clauseWords := by rcases hword with rfl | rfl <;> decide
  have hlisted := h.clausesOf_sublist.subset ((mem_clausesOf hclause).mpr hmem)
  rcases hword with rfl | rfl <;> revert hlisted <;> decide

/-- A statement does not skip rows unless it bounds their number. -/
theorem IsSelect.limit_mem_of_offset_mem {ts : List Token} (h : IsSelect ts)
    (hoffset : .word "OFFSET" ∈ ts) : .word "LIMIT" ∈ ts := by
  cases h with
  | @paged ts paging hts hpaging =>
    have hpaged : .word "OFFSET" ∈ paging :=
      (List.mem_append.mp hoffset).resolve_left (hts.not_mem_of_bound (.inr rfl))
    cases hpaging with
    | absent => cases hpaged
    | limit hcount => simp
    | limitOffset hcount hskipped => simp

theorem IsExpression.exists_cons {ts : List Token} (h : IsExpression ts) :
    ∃ t rest, ts = t :: rest ∧ t.isClauseWord = false := by
  obtain ⟨t, rest, rfl⟩ := List.exists_cons_of_ne_nil h.ne_nil
  have hclauses := h.clausesOf_eq_nil
  refine ⟨t, rest, rfl, ?_⟩
  unfold clausesOf at hclauses
  simpa using List.filter_eq_nil_iff.mp hclauses t List.mem_cons_self

theorem IsSelect.exists_cons {ts : List Token} (h : IsSelect ts) :
    ∃ t rest, ts = .word "SELECT" :: t :: rest ∧ t.isClauseWord = false := by
  obtain ⟨hts, hpaging⟩ := h
  obtain ⟨hne, hcolumns, htable, hjoins, hcondition, horder⟩ := hts
  obtain ⟨first, others, rfl⟩ := List.exists_cons_of_ne_nil hne
  obtain ⟨t, rest, rfl, ht⟩ := (hcolumns first List.mem_cons_self).exists_cons
  obtain ⟨more, hmore⟩ := exists_commaSeparated_cons (t :: rest) others
  rw [hmore]
  exact ⟨t, _, rfl, ht⟩

end QueryCriteria.Sql
