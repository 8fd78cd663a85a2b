import QueryCriteria.Json.Printer
import QueryCriteria.Provider
import QueryCriteria.Text.Blank

/-!
# Readable providers

Providers for hosts that have no database: their predicates are JSON values, most of them texts, to
be shown or logged. A column is written by the alias of its join and its name, and values are
written as JSON.
-/
namespace QueryCriteria

open Json Text

/-- A provider of readable predicates. -/
inductive ReadableProvider where
  /-- Shows all that a provider is given. -/
  | echo
  | eq
  | ge
  | like
  | between
  /-- Declines all values. -/
  | never
  /-- Fails on all values. -/
  | fail
  deriving DecidableEq

namespace ReadableProvider

def all : List ReadableProvider := [.echo, .eq, .ge, .like, .between, .never, .fail]

def name : ReadableProvider → String
  | .echo => "echo"
  | .eq => "eq"
  | .ge => "ge"
  | .like => "like"
  | .between => "between"
  | .never => "never"
  | .fail => "fail"

def ofName? (name : String) : Option ReadableProvider := all.find? (·.name == name)

/-- The column of a property at a node. -/
def column (node : JoinNode) (property : String) : String :=
  match node.tableAlias with
  | some tableAlias => tableAlias ++ "." ++ property
  | none => property

def comparison (column operator : String) : List Value → Except ProviderError (Option Value)
  | [v] => .ok (if v.isNull then none else some (.string (column ++ operator ++ v.text)))
  | vs => .error (.valueCount 1 vs.length)

def search (column : String) : List Value → Except ProviderError (Option Value)
  | [.null] => .ok none
  | [.string s] =>
    .ok (if isAllBlank s then none else some (.string (column ++ " LIKE '%" ++ s ++ "%'")))
  | [v] => .error (.typeMismatch 0 "string" v.text)
  | vs => .error (.valueCount 1 vs.length)

def range (column : String) : List Value → Except ProviderError (Option Value)
  | [.null, .null] => .ok none
  | [low, high] =>
    .ok (some (.string (column ++ " BETWEEN " ++ low.text ++ " AND " ++ high.text)))
  | vs => .error (.valueCount 2 vs.length)

def provider : ReadableProvider → Provider Value
  | .echo => fun node property vs =>
    .ok (some (.object
      [("node", .number (.integer node.id)), ("column", .string (column node property)),
        ("values", .array vs)]))
  | .eq => fun node property => comparison (column node property) " = "
  | .ge => fun node property => comparison (column node property) " >= "
  | .like => fun node property => search (column node property)
  | .between => fun node property => range (column node property)
  | .never => fun _ _ _ => .ok none
  | .fail => fun _ property vs =>
    .error (.other ("fail " ++ property ++ " with " ++ decimal vs.length ++ " value(s)"))

def registry (providers : List ReadableProvider) : Registry Value :=
  providers.foldl (fun r p => r.insert p.name p.provider) .empty

end ReadableProvider
end QueryCriteria
