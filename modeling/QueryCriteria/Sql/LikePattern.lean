/-!
# Search patterns

In a pattern a percent sign stands for any characters and an underscore for one. A searched text is
escaped, so that its own characters only match themselves.
-/
namespace QueryCriteria.Sql

/-- The character that makes the next one literal. -/
def likeEscape : Char := '\\'

def isLikeSpecial (c : Char) : Bool := c = '%' || c = '_' || c = likeEscape

def likeEscaped (s : String) : List Char :=
  s.toList.flatMap fun c => if isLikeSpecial c then [likeEscape, c] else [c]

def likeContains (s : String) : String := String.ofList ('%' :: likeEscaped s ++ ['%'])

def likeStarts (s : String) : String := String.ofList (likeEscaped s ++ ['%'])

def likeEnds (s : String) : String := String.ofList ('%' :: likeEscaped s)

end QueryCriteria.Sql
