import QueryCriteria.Text.CodePoints

/-!
# Blank characters and trimming

Blank means the property `White_Space` of the Unicode standard. Trimming removes blanks from both
ends of a text and never from its middle. The zero-width space and the byte order mark are not
blank.
-/
namespace QueryCriteria.Text

/-- The characters with the property `White_Space`. -/
def blanks : CodePoints where
  changes := [
    9, 14, 32, 33, 133, 134, 160, 161, 5760, 5761, 8192, 8203, 8232, 8234, 8239, 8240, 8287, 8288,
    12288, 12289]

def isBlank (c : Char) : Bool := blanks.contains c

def trimLeft (cs : List Char) : List Char := cs.dropWhile isBlank

def trimRight (cs : List Char) : List Char := (cs.reverse.dropWhile isBlank).reverse

def trim (s : String) : String := String.ofList (trimRight (trimLeft s.toList))

def isAllBlank (s : String) : Bool := s.toList.all isBlank

def hasOuterBlank (s : String) : Bool :=
  s.toList.head?.any isBlank || s.toList.getLast?.any isBlank

end QueryCriteria.Text
