import QueryCriteria.Criterion
import QueryCriteria.Text.Dotted

/-!
# Filter objects

A filter may take values from an object that the caller fills in, such as a search form. A dotted
path leads into the object by member names and array indexes. A path whose first name is not a
member of the object is unknown; below that, a missing step or a null means that there is no value.
-/
namespace QueryCriteria

open Json Text

/-- A source of values by path: a value, its absence, or an error. -/
abbrev FilterObject : Type := String → Except CriteriaError (Option Value)

namespace FilterObject

def none : FilterObject := fun path => .error (.unknownFilterObjectPath path)

/-- An index is a number of the machine's address size. -/
def indexBound : Nat := UInt64.size

/-- The part of a value that a path segment names. -/
def child? (v : Value) (segment : String) : Option Value :=
  match v with
  | .object _ => v.member? segment
  | .array _ => (readBounded? indexBound segment.toList).bind v.item?
  | _ => Option.none

def descend : Value → List String → Option Value
  | v, [] => some v
  | v, segment :: rest => (child? v segment).bind (descend · rest)

def ofValue (v : Value) : FilterObject := fun path =>
  match segments path with
  | [] => .error (.unknownFilterObjectPath path)
  | key :: rest =>
    if key = "" then .error (.unknownFilterObjectPath path)
    else match v.member? key with
      | Option.none => .error (.unknownFilterObjectPath path)
      | some start => .ok ((descend start rest).filter (!·.isNull))

/-- The member key that a value is written as: texts stand for themselves, and numbers and truth
values for their texts. -/
def keyOf? : Value → Option String
  | .string s => some s
  | .number n => some n.text
  | .bool b => some (if b then "true" else "false")
  | _ => Option.none

/-- The members of an object with those of a map added. -/
def insertPairs (members : List (String × Value)) :
    List (Value × Value) → Except CriteriaError (List (String × Value))
  | [] => .ok members
  | (key, v) :: rest =>
    match keyOf? key with
    | some name => insertPairs (Keyed.insert name v members) rest
    | Option.none => .error (.configuration "key must be a string")

/-- The object of a map, whose keys need not be texts. Of two equal keys the last has its value. -/
def ofMap (pairs : List (Value × Value)) : Except CriteriaError Value :=
  (insertPairs [] pairs).map .object

/-- The value of each path in turn, null where there is none. -/
def resolveAll (f : FilterObject) : List String → Except CriteriaError (List Value)
  | [] => .ok []
  | path :: rest => do
    let value ← f path
    let values ← resolveAll f rest
    return value.getD .null :: values

/-- The values of a filter: those of its paths and then its own. -/
def valuesOf {P : Type} (f : FilterObject) (c : FilterCriterion P) :
    Except CriteriaError (List Value) := do
  let resolved ← f.resolveAll (c.valuePaths.getD [])
  return resolved ++ c.directValues.getD []

end FilterObject
end QueryCriteria
