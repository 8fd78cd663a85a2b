import QueryCriteria.Criterion
import QueryCriteria.Text.Quoted

/-!
# Diagnostic texts

Logs show criteria and registries as nested records: a name, then the fields between braces, the
items of a list between brackets, and texts quoted. A filter ends in two dots, since its provider is
not shown.
-/
namespace QueryCriteria

open Json Text

namespace Diagnostic

/-- The texts with a comma and a space between any two. -/
def separated : List String → String
  | [] => ""
  | [t] => t
  | t :: rest => t ++ ", " ++ separated rest

def list (items : List String) : String := "[" ++ separated items ++ "]"

def wrapped (name content : String) : String := name ++ "(" ++ content ++ ")"

def field (name content : String) : String := name ++ ": " ++ content

def record (name : String) (fields : List String) : String :=
  name ++ " \x7b " ++ separated fields ++ " \x7d"

def optional : Option String → String
  | some t => wrapped "Some" t
  | none => "None"

mutual

/-- The text of a value, with the name of its JSON type. -/
def value : Value → String
  | .null => "Null"
  | .bool b => wrapped "Bool" (if b then "true" else "false")
  | .number n => wrapped "Number" n.text
  | .string s => wrapped "String" (quoted s)
  | .array items => "Array [" ++ separated (values items) ++ "]"
  | .object entries => "Object \x7b" ++ separated (members entries) ++ "\x7d"

def values : List Value → List String
  | [] => []
  | v :: rest => value v :: values rest

def members : List (String × Value) → List String
  | [] => []
  | (key, v) :: rest => field (quoted key) (value v) :: members rest

end

def joinKind : JoinKind → String
  | .inner => "Inner"
  | .leftOuter => "LeftOuter"
  | .rightOuter => "RightOuter"
  | .full => "Full"

def step (s : Step) : String :=
  record "AssociationPathElement"
    [field "name" (quoted s.name), field "join_kind" (joinKind s.kind)]

def propertyPath (p : PropertyPath) : String :=
  record "PropertyPath"
    [field "association_path" (wrapped "AssociationPath" (list (p.association.steps.map step))),
      field "target_property_name" (quoted p.property)]

def sort (c : SortCriterion) : String :=
  record "SortCriterion"
    [field "target" (propertyPath c.target),
      field "ascending" (if c.ascending then "true" else "false")]

variable {P : Type}

def filter (c : FilterCriterion P) : String :=
  record "FilterCriterion"
    [field "target" (propertyPath c.target),
      field "filter_object_value_paths" (optional (c.valuePaths.map (list <| ·.map quoted))),
      field "direct_values" (optional (c.directValues.map (list <| ·.map value))),
      ".."]

end Diagnostic

variable {P : Type}

def Criterion.diagnostic : Criterion P → String
  | .filter c => Diagnostic.wrapped "Filter" (Diagnostic.filter c)
  | .sort c => Diagnostic.wrapped "Sort" (Diagnostic.sort c)

/-- The diagnostic text of a registry: its names in ascending order. -/
def Registry.diagnostic (r : Registry P) : String :=
  Diagnostic.record "ProviderRegistry"
    [Diagnostic.field "providers" (Diagnostic.list (r.names.map quoted))]

end QueryCriteria
