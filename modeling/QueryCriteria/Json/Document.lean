import QueryCriteria.Json.Value

/-!
# JSON documents

A document is what stands in a JSON text: an object lists its members in the order of the text, and
a key may be repeated. A value is the document of itself, and a document means the value in which a
repeated key keeps its first place and takes its last value.

A text that stops making sense still has a document, up to the point where it does. The point is
marked, so that a reader of the document meets it in the order of the text, after whatever is wrong
with the part before it.
-/
namespace QueryCriteria.Json

/-- Why a part of a text has no document. -/
inductive Defect where
  /-- The text breaks off or stops being JSON here. -/
  | broken
  /-- The text goes on behind a part that can be passed over but not read: a number out of range,
  half a surrogate pair, or containers nested too deeply. -/
  | unreadable
  deriving DecidableEq

/-- A JSON document. A container ends in a defect unless all of it was read: it breaks off, or a key
behind its members cannot be read. -/
inductive Document where
  | null
  | bool (b : Bool)
  | number (n : Number)
  | string (s : String)
  | array (items : List Document) (ending : Option Defect)
  | object (members : List (String × Document)) (ending : Option Defect)
  | defect (d : Defect)

namespace Document

/-- An array without a defect at its end. -/
abbrev list (items : List Document) : Document := .array items none

/-- An object without a defect at its end. -/
abbrev record (members : List (String × Document)) : Document := .object members none

abbrev int (n : Int) : Document := .number (.integer n)

mutual

def ofValue : Value → Document
  | .null => .null
  | .bool b => .bool b
  | .number n => .number n
  | .string s => .string s
  | .array items => .list (ofItems items)
  | .object members => .record (ofMembers members)

def ofItems : List Value → List Document
  | [] => []
  | v :: rest => ofValue v :: ofItems rest

def ofMembers : List (String × Value) → List (String × Document)
  | [] => []
  | (key, v) :: rest => (key, ofValue v) :: ofMembers rest

end

mutual

/-- The value that a document means, unless some part of it is a defect. -/
def toValue? : Document → Option Value
  | .null => some .null
  | .bool b => some (.bool b)
  | .number n => some (.number n)
  | .string s => some (.string s)
  | .array items ending => if ending.isNone then (toItems? items).map .array else none
  | .object members ending =>
    if ending.isNone then (toMembers? [] members).map .object else none
  | .defect _ => none

def toItems? : List Document → Option (List Value)
  | [] => some []
  | d :: rest => do
    let v ← toValue? d
    let vs ← toItems? rest
    return v :: vs

/-- The values of the members of an object, after the members already read. -/
def toMembers? (read : List (String × Value)) :
    List (String × Document) → Option (List (String × Value))
  | [] => some read
  | (key, d) :: rest => do
    let v ← toValue? d
    toMembers? (Keyed.insert key v read) rest

end

mutual

/-- Whether the document can be passed over without reading it. -/
def isSkippable : Document → Bool
  | .array items ending => ending != some .broken && areItemsSkippable items
  | .object members ending => ending != some .broken && areMembersSkippable members
  | .defect d => d != .broken
  | _ => true

def areItemsSkippable : List Document → Bool
  | [] => true
  | d :: rest => isSkippable d && areItemsSkippable rest

def areMembersSkippable : List (String × Document) → Bool
  | [] => true
  | (_, d) :: rest => isSkippable d && areMembersSkippable rest

end

end Document
end QueryCriteria.Json
