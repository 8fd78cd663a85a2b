import QueryCriteria.JoinKind
import QueryCriteria.Sql.Predicate

/-!
# Select statements

A statement selects columns from one table and the tables joined to it. Each join gives its table an
alias and says which rows belong together. The conditions of a statement must all hold. Bounds on
its rows are bound values too.
-/
namespace QueryCriteria.Sql

structure Join where
  kind : JoinKind
  table : String
  tableAlias : String
  on : Predicate
  deriving DecidableEq

structure SortKey where
  column : Column
  ascending : Bool
  deriving DecidableEq

/-- A select statement. -/
structure Select where
  columns : List Column
  table : String
  joins : List Join
  conditions : List Predicate
  sortKeys : List SortKey
  limit : Option Nat
  offset : Option Nat
  deriving DecidableEq

def joinWords : JoinKind → String
  | .inner => "INNER JOIN "
  | .leftOuter => "LEFT JOIN "
  | .rightOuter => "RIGHT JOIN "
  | .full => "FULL OUTER JOIN "

def Join.fragments (j : Join) : List Fragment :=
  [.fixed " ", .fixed (joinWords j.kind), .identifier j.table, .fixed " AS ",
    .identifier j.tableAlias, .fixed " ON "] ++ j.on.fragments

def SortKey.fragments (k : SortKey) : List Fragment :=
  k.column.fragments ++ [.fixed (if k.ascending then " ASC" else " DESC")]

namespace Select

/-- The statement that selects columns of a table, without conditions. -/
def ofTable (table : String) (names : List String) : Select :=
  ⟨names.map (⟨some table, ·⟩), table, [], [], [], none, none⟩

def whereFragments (s : Select) : List Fragment :=
  if s.conditions.isEmpty then [] else .fixed " WHERE " :: conditionFragments s.conditions

def orderFragments (s : Select) : List Fragment :=
  if s.sortKeys.isEmpty then []
  else .fixed " ORDER BY " :: separatedBy ", " (s.sortKeys.map SortKey.fragments)

def boundFragments (word : String) : Option Nat → List Fragment
  | some n => [.fixed word, .value (.unsigned n)]
  | none => []

def fragments (s : Select) : List Fragment :=
  .fixed "SELECT " :: separatedBy ", " (s.columns.map Column.fragments) ++
    [.fixed " FROM ", .identifier s.table] ++ s.joins.flatMap Join.fragments ++
    s.whereFragments ++ s.orderFragments ++ boundFragments " LIMIT " s.limit ++
    boundFragments " OFFSET " s.offset

end Select
end QueryCriteria.Sql
