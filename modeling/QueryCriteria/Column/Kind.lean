/-!
# Column kinds

The logical type of a column decides which values can be compared with it.
-/
namespace QueryCriteria

/-- The logical type of a column. -/
inductive ColumnKind where
  | string
  | integer
  | double
  | bool
  | uuid
  | dateTime
  | date
  | time
  | decimal
  deriving DecidableEq

namespace ColumnKind

def all : List ColumnKind :=
  [.string, .integer, .double, .bool, .uuid, .dateTime, .date, .time, .decimal]

def name : ColumnKind → String
  | .string => "String"
  | .integer => "I64"
  | .double => "F64"
  | .bool => "Bool"
  | .uuid => "Uuid"
  | .dateTime => "DateTimeUtc"
  | .date => "Date"
  | .time => "Time"
  | .decimal => "Decimal"

def ofName? (name : String) : Option ColumnKind := all.find? (·.name == name)

/-- Whether texts can be searched for in the column. -/
def isTextual (kind : ColumnKind) : Bool := kind = .string

end ColumnKind
end QueryCriteria
