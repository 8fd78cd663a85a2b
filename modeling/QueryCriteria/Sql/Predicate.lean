import QueryCriteria.Sql.Fragment

/-!
# Predicates on columns

A predicate compares one column with bound values, or two columns with each other. A condition is a
list of predicates all of which must hold.
-/
namespace QueryCriteria.Sql

/-- A column, with the table or alias that it belongs to if that is given. -/
structure Column where
  qualifier : Option String
  name : String
  deriving DecidableEq

def Column.fragments (c : Column) : List Fragment :=
  match c.qualifier with
  | some qualifier => [.identifier qualifier, .fixed ".", .identifier c.name]
  | none => [.identifier c.name]

inductive Comparison where
  | eq
  | ne
  | gt
  | ge
  | lt
  | le
  deriving DecidableEq

def Comparison.symbol : Comparison → String
  | .eq => "="
  | .ne => "<>"
  | .gt => ">"
  | .ge => ">="
  | .lt => "<"
  | .le => "<="

inductive Predicate where
  | compare (column : Column) (comparison : Comparison) (v : ColumnValue)
  | between (column : Column) (low high : ColumnValue)
  /-- Membership in a list of values, or its negation. -/
  | member (column : Column) (isNegated : Bool) (values : List ColumnValue)
  /-- A match with a pattern, of the lower-cased column if the flag is set. -/
  | like (column : Column) (isLowered : Bool) (pattern : String)
  /-- The absence of a value, or its negation. -/
  | null (column : Column) (isNegated : Bool)
  | equalColumns (left right : Column)
  deriving DecidableEq

namespace Predicate

def valueList (values : List ColumnValue) : List Fragment :=
  .fixed "(" :: separatedBy ", " (values.map fun v => [.value v]) ++ [.fixed ")"]

def fragments : Predicate → List Fragment
  | .compare c comparison v =>
    c.fragments ++ [.fixed (" " ++ comparison.symbol ++ " "), .value v]
  | .between c low high =>
    c.fragments ++ [.fixed " BETWEEN ", .value low, .fixed " AND ", .value high]
  | .member c isNegated values =>
    c.fragments ++ [.fixed (if isNegated then " NOT IN " else " IN ")] ++ valueList values
  | .like c isLowered pattern =>
    (if isLowered then .fixed "LOWER(" :: c.fragments ++ [.fixed ")"] else c.fragments) ++
      [.fixed " LIKE ", .value (.string pattern), .fixed " ESCAPE '\\'"]
  | .null c isNegated =>
    c.fragments ++ [.fixed (if isNegated then " IS NOT NULL" else " IS NULL")]
  | .equalColumns left right => left.fragments ++ [.fixed " = "] ++ right.fragments

/-- Whether a predicate contains the word that also joins the predicates of a condition. -/
def containsAnd : Predicate → Bool
  | .between .. => true
  | _ => false

/-- The fragments of a predicate that stands beside others. -/
def conjunct (p : Predicate) : List Fragment :=
  if p.containsAnd then .fixed "(" :: p.fragments ++ [.fixed ")"] else p.fragments

end Predicate

/-- The fragments of a condition. A predicate that stands alone needs no parentheses. -/
def conditionFragments : List Predicate → List Fragment
  | [p] => p.fragments
  | ps => separatedBy " AND " (ps.map Predicate.conjunct)

end QueryCriteria.Sql
