import QueryCriteria.Plan
import QueryCriteria.Sql.Relation
import QueryCriteria.Sql.Select

/-!
# Applying plans

A plan is applied to a select statement from the table of its resolver: its joins are appended in
the order of their creation, then its predicates and sort keys, and its paging bounds replace those
of the statement. The paging bounds are checked before the statement is touched. A join that cannot
be resolved leaves the joins before it in the statement.
-/
namespace QueryCriteria.Sql

open Text

/-- Why a plan could not be applied. -/
inductive SelectError where
  | invalidPaging (field : String) (value : Int32)
  | unresolvedJoin (path : String)
  deriving DecidableEq

def SelectError.message : SelectError → String
  | invalidPaging field value =>
    "invalid paging: " ++ field ++ " must not be negative, got " ++ signedDecimal value.toInt
  | unresolvedJoin path => "no relation registered for association '" ++ path ++ "'"

def rowCount (field : String) : Option Int32 → Except SelectError (Option Nat)
  | none => .ok none
  | some n =>
    if n.toInt < 0 then .error (.invalidPaging field n) else .ok (some n.toInt.toNat)

namespace Select

def joinOf (tree : JoinTree) (r : Resolver) (node : JoinNode) : Except SelectError Join :=
  let parent := (node.parent.bind tree.node?).getD .root
  match r.resolve node (r.qualifier parent) with
  | some resolved =>
    .ok ⟨node.kind?.getD .standard, resolved.table, r.qualifier node, resolved.on⟩
  | none => .error (.unresolvedJoin node.path.display)

/-- Appends the joins of nodes in turn. -/
def addJoins (tree : JoinTree) (r : Resolver) :
    Select → List JoinNode → Select × Except SelectError Unit
  | s, [] => (s, .ok ())
  | s, node :: rest =>
    match joinOf tree r node with
    | .ok join => addJoins tree r { s with joins := s.joins ++ [join] } rest
    | .error e => (s, .error e)

def sortKeyOf (tree : JoinTree) (r : Resolver) (o : PlanSort) : SortKey :=
  ⟨⟨some (r.qualifier ((tree.node? o.node).getD .root)), o.property⟩, o.ascending⟩

/-- The statement with the predicates, the sort keys and the paging bounds of a plan. -/
def addClauses (s : Select) (plan : Plan Predicate) (r : Resolver) (offset limit : Option Nat) :
    Select :=
  { s with
    conditions := s.conditions ++ plan.predicates
    sortKeys := s.sortKeys ++ plan.orderings.map (sortKeyOf plan.tree r)
    offset := offset.or s.offset
    limit := limit.or s.limit }

/-- Applies a plan. The statement is returned also when that fails. -/
def apply (s : Select) (plan : Plan Predicate) (r : Resolver) :
    Select × Except SelectError Unit :=
  match rowCount "firstResult" plan.firstResult, rowCount "maxResults" plan.maxResults with
  | .error e, _ => (s, .error e)
  | _, .error e => (s, .error e)
  | .ok offset, .ok limit =>
    match addJoins plan.tree r s plan.tree.joins with
    | (s, .ok ()) => (s.addClauses plan r offset limit, .ok ())
    | (s, .error e) => (s, .error e)

end Select
end QueryCriteria.Sql
