import QueryCriteria.FilterObject
import QueryCriteria.Limits

/-!
# Plans

Compiling a transfer object gives a plan: the join tree of all its paths, the predicates of its
filters, its sort keys and the paging bounds. The limits are checked first. Then the path of every
criterion is registered, before any value is resolved and any provider runs. Predicates and sort
keys follow the order of the criteria. Any error ends the compilation without a plan.
-/
namespace QueryCriteria

/-- A sort key of a plan. -/
structure PlanSort where
  node : NodeId
  property : String
  ascending : Bool
  deriving DecidableEq

/-- The compiled form of a transfer object. All predicates must hold. -/
structure Plan (P : Type) where
  tree : JoinTree
  predicates : List P
  orderings : List PlanSort
  firstResult : Option Int32
  maxResults : Option Int32

namespace Plan

variable {P : Type}

/-- Whether the plan asks for every row, in any order. -/
def isUnconstrained (p : Plan P) : Bool :=
  p.tree.hasNoJoins && p.predicates.isEmpty && p.orderings.isEmpty && p.firstResult.isNone &&
    p.maxResults.isNone

/-- A filter whose path is registered, with its property id and its node. -/
structure PendingFilter (P : Type) where
  propertyId : String
  filter : FilterCriterion P
  node : NodeId

/-- The criteria whose paths are registered. -/
structure Registered (P : Type) where
  tree : JoinTree
  filters : List (PendingFilter P)
  orderings : List PlanSort

def Registered.push (r : Registered P) (tree : JoinTree) (node : NodeId) (id : String) :
    Criterion P → Registered P
  | .filter c => { r with tree := tree, filters := r.filters ++ [⟨id, c, node⟩] }
  | .sort c =>
    { r with tree := tree, orderings := r.orderings ++ [⟨node, c.target.property, c.ascending⟩] }

/-- Registers the paths of the criteria in turn. -/
def registerAll (policy : ConflictPolicy) :
    Registered P → List (String × Criterion P) → Except CriteriaError (Registered P)
  | r, [] => .ok r
  | r, (id, c) :: rest =>
    match r.tree.register policy c.target.association with
    | (tree, .ok node) => registerAll policy (r.push tree node id c) rest
    | (_, .error conflict) => .error conflict.toError

/-- The predicate of one filter, at its node of the finished tree. -/
def predicateOf (tree : JoinTree) (f : FilterObject) (c : PendingFilter P) :
    Except CriteriaError (Option P) := do
  let values ← f.valuesOf c.filter
  let node := (tree.node? c.node).getD .root
  match c.filter.provider node c.filter.target.property values with
  | .ok predicate => .ok predicate
  | .error source => .error (.provider c.propertyId c.filter.target.display source)

/-- The predicates of the filters in turn, without those that contribute none. -/
def predicatesOf (tree : JoinTree) (f : FilterObject) :
    List (PendingFilter P) → Except CriteriaError (List P)
  | [] => .ok []
  | c :: rest => do
    let predicate ← predicateOf tree f c
    let others ← predicatesOf tree f rest
    return predicate.toList ++ others

end Plan

variable {P : Type}

/-- The plan of a transfer object, with values from a filter object. -/
def TransferObject.compile (t : TransferObject P) (options : Options) (f : FilterObject) :
    Except CriteriaError (Plan P) := do
  options.limits.checkTransferObject t
  let registered ← Plan.registerAll options.conflictPolicy ⟨.empty, [], []⟩ t.criteria
  let predicates ← Plan.predicatesOf registered.tree f registered.filters
  return ⟨registered.tree, predicates, registered.orderings, t.firstResult, t.maxResults⟩

end QueryCriteria
