import QueryCriteria.Json.Printer
import QueryCriteria.PropertyPath
import QueryCriteria.Provider

/-!
# Filter and sort criteria

A filter takes its values from paths into a filter object, from values of its own, or from both, and
leaves the predicate to its provider. A sort names a property and a direction.
-/
namespace QueryCriteria

open Json

/-- A filter on one property. -/
structure FilterCriterion (P : Type) where
  target : PropertyPath
  valuePaths : Option (List String)
  directValues : Option (List Value)
  provider : Provider P

/-- A sort on one property. -/
structure SortCriterion where
  target : PropertyPath
  ascending : Bool
  deriving DecidableEq

inductive Criterion (P : Type) where
  | filter (c : FilterCriterion P)
  | sort (c : SortCriterion)

variable {P : Type}

namespace FilterCriterion

/-- A filter without values, whose predicate depends on the property alone. -/
def withoutValues (target : PropertyPath) (provider : Provider P) : FilterCriterion P :=
  ⟨target, none, none, provider⟩

def ofValue (target : PropertyPath) (value : Value) (provider : Provider P) :
    FilterCriterion P :=
  ⟨target, none, some [value], provider⟩

def ofPath (target : PropertyPath) (path : String) (provider : Provider P) :
    FilterCriterion P :=
  ⟨target, some [path], none, provider⟩

/-- A filter on one value, which is the path to it if `isPath` is set and must then be a text. -/
def ofValueOrPath (target : PropertyPath) (value : Value) (isPath : Bool)
    (provider : Provider P) : Except CriteriaError (FilterCriterion P) :=
  if !isPath then .ok (ofValue target value provider)
  else match value with
    | .string path => .ok (ofPath target path provider)
    | _ => .error (.invalidCriterion target.display
        ("filter object path must be a string, got " ++ value.text))

end FilterCriterion

def Criterion.target : Criterion P → PropertyPath
  | .filter c => c.target
  | .sort c => c.target

end QueryCriteria
