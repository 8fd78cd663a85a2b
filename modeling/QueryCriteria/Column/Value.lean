import QueryCriteria.Binary64.Extended
import QueryCriteria.Column.DateTime
import QueryCriteria.Column.FixedPoint
import QueryCriteria.Column.Kind
import QueryCriteria.Column.Uuid
import QueryCriteria.Error
import QueryCriteria.Json.Printer
import QueryCriteria.Text.Quoted

/-!
# Column values

Filter values arrive as JSON, often from forms in which everything is a text. A value is converted
to the kind of its column before it is compared with it; every kind but the textual one also accepts
the text of a value, with blanks around it. What cannot be converted is an error that says where it
stood and what it was.
-/
namespace QueryCriteria

open Json Text

/-- A value of some column, or a bound on the number of rows. -/
inductive ColumnValue where
  | string (s : String)
  | integer (n : Int)
  | unsigned (n : Nat)
  | double (x : Extended)
  | bool (b : Bool)
  | uuid (u : Uuid)
  | dateTime (d : DateTime)
  | date (d : Date)
  | time (t : Time)
  | decimal (x : FixedPoint)
  deriving DecidableEq

namespace ColumnKind

def isInt64 (n : Int) : Bool := Int64.minValue.toInt ≤ n && n ≤ Int64.maxValue.toInt

def readBool? (s : String) : Option Bool :=
  if s = "true" then some true else if s = "false" then some false else none

/-- The value that a text without outer blanks writes in a column. -/
def ofText? (kind : ColumnKind) (s : String) : Option ColumnValue :=
  match kind with
  | .string => some (.string s)
  | .integer => ((readInt? s.toList).filter isInt64).map .integer
  | .double => (Extended.read? s).map .double
  | .bool => (readBool? s).map .bool
  | .uuid => (Uuid.read? s).map .uuid
  | .dateTime => (DateTime.read? s).map .dateTime
  | .date => (Date.read? s).map .date
  | .time => (Time.read? s).map .time
  | .decimal => (FixedPoint.read? s).map .decimal

/-- Whether a column accepts JSON numbers. -/
def isNumeric : ColumnKind → Bool
  | .integer | .double | .decimal => true
  | _ => false

def ofNumber? (kind : ColumnKind) (n : Number) : Option ColumnValue :=
  match kind, n with
  | .integer, .integer i => if isInt64 i then some (.integer i) else none
  | .double, .integer i => (Binary64.ofInt i).map fun x => .double (.finite x)
  | .double, .float x => some (.double (.finite x))
  | .decimal, n => (FixedPoint.readNumber? n.text).map .decimal
  | _, _ => none

def mismatch (kind : ColumnKind) (position : Nat) (got : String) : ProviderError :=
  .typeMismatch position kind.name got

/-- The value of a column that a JSON value means. -/
def coerce (kind : ColumnKind) (position : Nat) (v : Value) : Except ProviderError ColumnValue :=
  match v with
  | .string s =>
    if kind = .string then .ok (.string s)
    else match kind.ofText? (trim s) with
      | some value => .ok value
      | none => .error (kind.mismatch position ("string " ++ quoted s))
  | .number n =>
    if kind.isNumeric then
      match kind.ofNumber? n with
      | some value => .ok value
      | none => .error (kind.mismatch position n.text)
    else .error (kind.mismatch position v.typeName)
  | .bool b =>
    if kind = .bool then .ok (.bool b) else .error (kind.mismatch position v.typeName)
  | _ => .error (kind.mismatch position v.typeName)

end ColumnKind
end QueryCriteria
