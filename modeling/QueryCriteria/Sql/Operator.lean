import QueryCriteria.Provider
import QueryCriteria.Sql.LikePattern
import QueryCriteria.Sql.Predicate
import QueryCriteria.Text.Blank
import QueryCriteria.Text.LowerCase

/-!
# Operators

An operator provider applies one operator to columns of one kind. Values that a form leaves blank,
null or a text of blanks, contribute no predicate: a comparison with a blank value is dropped, a
range with one blank end has only the other, and blank values are left out of a list.
-/
namespace QueryCriteria.Sql

open Json Text

/-- An operator on a column and values. -/
inductive Operator where
  | compare (comparison : Comparison)
  /-- The column contains a text. -/
  | like
  /-- The column contains a text in any letter case. -/
  | ilike
  | startsWith
  | endsWith
  | between
  | member (isNegated : Bool)
  | null (isNegated : Bool)
  deriving DecidableEq

namespace Operator

def all : List Operator :=
  [.compare .eq, .compare .ne, .compare .gt, .compare .ge, .compare .lt, .compare .le, .like,
    .ilike, .startsWith, .endsWith, .between, .member false, .member true, .null false, .null true]

def name : Operator → String
  | .compare .eq => "eq"
  | .compare .ne => "ne"
  | .compare .gt => "gt"
  | .compare .ge => "ge"
  | .compare .lt => "lt"
  | .compare .le => "le"
  | .like => "like"
  | .ilike => "ilike"
  | .startsWith => "starts_with"
  | .endsWith => "ends_with"
  | .between => "between"
  | .member false => "in"
  | .member true => "not_in"
  | .null false => "is_null"
  | .null true => "is_not_null"

def ofName? (name : String) : Option Operator := all.find? (·.name == name)

/-- Whether the operator searches for a text, which needs a textual column. -/
def isPattern : Operator → Bool
  | .like | .ilike | .startsWith | .endsWith => true
  | _ => false

end Operator

/-- Whether a value was left blank. -/
def isBlankValue : Value → Bool
  | .null => true
  | .string s => isAllBlank s
  | _ => false

def checkCount (expected : Nat) (vs : List Value) : Except ProviderError Unit :=
  if vs.length = expected then .ok () else .error (.valueCount expected vs.length)

/-- The value of a column at a position, if it is not blank. -/
def coerceFilled (kind : ColumnKind) (position : Nat) (v : Value) :
    Except ProviderError (Option ColumnValue) :=
  if isBlankValue v then .ok none else (kind.coerce position v).map some

def comparePredicate (kind : ColumnKind) (c : Column) (comparison : Comparison) :
    List Value → Except ProviderError (Option Predicate)
  | [v] => do
    let value ← coerceFilled kind 0 v
    return value.map (.compare c comparison)
  | vs => .error (.valueCount 1 vs.length)

/-- The range between two values; without one of its ends it is a comparison with the other. -/
def betweenPredicate (kind : ColumnKind) (c : Column) :
    List Value → Except ProviderError (Option Predicate)
  | [low, high] => do
    match ← coerceFilled kind 0 low, ← coerceFilled kind 1 high with
    | some low, some high => return some (.between c low high)
    | some low, none => return some (.compare c .ge low)
    | none, some high => return some (.compare c .le high)
    | none, none => return none
  | vs => .error (.valueCount 2 vs.length)

/-- The values of a list that are not blank; the first value stands at a position. -/
def coerceAll (kind : ColumnKind) (position : Nat) :
    List Value → Except ProviderError (List ColumnValue)
  | [] => .ok []
  | v :: rest => do
    let value ← coerceFilled kind position v
    let others ← coerceAll kind (position + 1) rest
    return value.toList ++ others

/-- The items of a list of values, which may be given as one array. -/
def listItems : List Value → List Value
  | [.array items] => items
  | vs => vs

def memberPredicate (kind : ColumnKind) (c : Column) (isNegated : Bool) (vs : List Value) :
    Except ProviderError (Option Predicate) := do
  let values ← coerceAll kind 0 (listItems vs)
  return if values.isEmpty then none else some (.member c isNegated values)

def searchPredicate (operator : Operator) (c : Column) (s : String) : Predicate :=
  match operator with
  | .ilike => .like c true (likeContains (lowerCase s))
  | .startsWith => .like c false (likeStarts s)
  | .endsWith => .like c false (likeEnds s)
  | _ => .like c false (likeContains s)

def patternPredicate (operator : Operator) (kind : ColumnKind) (c : Column) (vs : List Value) :
    Except ProviderError (Option Predicate) :=
  if !kind.isTextual then
    .error (.other
      ("operator " ++ operator.name ++ " requires a String column, not " ++ kind.name))
  else match vs with
    | [.null] => .ok none
    | [.string s] => .ok (if isAllBlank s then none else some (searchPredicate operator c s))
    | [v] => .error (.typeMismatch 0 kind.name v.text)
    | vs => .error (.valueCount 1 vs.length)

/-- An operator on columns of a kind. A qualifier is put before columns of the queried entity. -/
structure OperatorProvider where
  operator : Operator
  kind : ColumnKind
  rootQualifier : Option String
  deriving DecidableEq

namespace OperatorProvider

def column (p : OperatorProvider) (node : JoinNode) (property : String) : Column :=
  ⟨node.tableAlias.or p.rootQualifier, property⟩

def predicate (p : OperatorProvider) (c : Column) (vs : List Value) :
    Except ProviderError (Option Predicate) :=
  match p.operator with
  | .compare comparison => comparePredicate p.kind c comparison vs
  | .between => betweenPredicate p.kind c vs
  | .member isNegated => memberPredicate p.kind c isNegated vs
  | .null isNegated => do
    checkCount 0 vs
    return some (.null c isNegated)
  | operator => patternPredicate operator p.kind c vs

def provider (p : OperatorProvider) : Provider Predicate := fun node property vs =>
  p.predicate (p.column node property) vs

end OperatorProvider

/-- The operators that suit a kind. -/
def operatorsOf (kind : ColumnKind) : List Operator :=
  Operator.all.filter fun operator => kind.isTextual || !operator.isPattern

def standardRegistry (kind : ColumnKind) : Registry Predicate :=
  (operatorsOf kind).foldl
    (fun r operator => r.insert operator.name (OperatorProvider.provider ⟨operator, kind, none⟩))
    .empty

end QueryCriteria.Sql
