import QueryCriteria.JoinTree
import QueryCriteria.Sql.Predicate

/-!
# Resolving joins

A plan knows associations by name only. A resolver knows the schema: the table of the queried entity
and, for each join of a plan, the joined table and the rows that belong together. A relation map
lists them by the dotted names of the path; of two relations for one path the last one counts.
-/
namespace QueryCriteria.Sql

/-- What a resolver knows about a join. -/
structure ResolvedJoin where
  table : String
  on : Predicate
  deriving DecidableEq

/-- The schema behind the associations of a plan. A join is resolved from its node and the table or
alias of the node's parent. -/
structure Resolver where
  rootTable : String
  resolve : JoinNode → String → Option ResolvedJoin

/-- The qualifier of the columns of a node. -/
def Resolver.qualifier (r : Resolver) (node : JoinNode) : String :=
  node.tableAlias.getD r.rootTable

/-- A joined table, and the columns of the parent and of the table that must agree. -/
structure Relation where
  table : String
  parentColumn : String
  column : String
  deriving DecidableEq

/-- The relations of a schema by the dotted names of their paths. -/
structure RelationMap where
  rootTable : String
  relations : List (String × Relation)
  deriving DecidableEq

namespace RelationMap

def ofTable (rootTable : String) : RelationMap := ⟨rootTable, []⟩

def insert (m : RelationMap) (path : String) (relation : Relation) : RelationMap :=
  { m with relations := Keyed.insert path relation m.relations }

def resolve (m : RelationMap) (node : JoinNode) (parentQualifier : String) :
    Option ResolvedJoin := do
  let tableAlias ← node.tableAlias
  let relation ← m.relations.lookup node.path.key
  return ⟨relation.table,
    .equalColumns ⟨some parentQualifier, relation.parentColumn⟩ ⟨some tableAlias, relation.column⟩⟩

def resolver (m : RelationMap) : Resolver := ⟨m.rootTable, m.resolve⟩

end RelationMap
end QueryCriteria.Sql
