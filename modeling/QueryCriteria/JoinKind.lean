/-!
# Join kinds

How an association is joined: which rows without a partner on the other side are kept.
-/
namespace QueryCriteria

/-- The join strategy of one association step. -/
inductive JoinKind where
  | inner
  | leftOuter
  | rightOuter
  | full
  deriving DecidableEq

namespace JoinKind

/-- The kind of a step that names none. -/
def standard : JoinKind := .inner

def all : List JoinKind := [.inner, .leftOuter, .rightOuter, .full]

def name : JoinKind → String
  | .inner => "inner"
  | .leftOuter => "left_outer"
  | .rightOuter => "right_outer"
  | .full => "full"

def ofName? (name : String) : Option JoinKind := all.find? (·.name == name)

@[simp] theorem ofName?_name (kind : JoinKind) : ofName? kind.name = some kind := by
  cases kind <;> decide

end JoinKind
end QueryCriteria
