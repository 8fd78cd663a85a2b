import QueryCriteria.Json.Decoding

/-!
# Record formats

A record is written as an object with a member for each of its fields. One description of the fields
serves for writing and for reading.

Reading follows the order of the document: a repeated field is noticed at its second key, and a
field that is missing when the object ends. A member that is no field is refused by some records and
passed over by others. A record can also be written as the array of its fields in their order; the
fields at the end may be left out if they are not required.
-/
namespace QueryCriteria.Json

/-- One field of a record: how it is read into the record, and how it is written unless it is left
out. -/
structure RecordField (α : Type) where
  name : String
  isRequired : Bool
  read : Decoder (α → α)
  write : α → Option Document

/-- The description of a record. `initial` is the record before any field is read. -/
structure RecordFormat (α : Type) where
  title : String
  fields : List (RecordField α)
  initial : α
  refusesOthers : Bool

def countedElements (noun : String) (count : Nat) : String :=
  Text.decimal count ++ " " ++ noun ++ (if count = 1 then "" else "s")

namespace RecordField

variable {α β : Type}

/-- A field that must be present. -/
def required (name : String) (decode : Decoder β) (encode : β → Document) (get : α → β)
    (set : β → α → α) : RecordField α where
  name := name
  isRequired := true
  read o d := (decode o d).map set
  write a := some (encode (get a))

/-- A field that is left out when there is no value for it. -/
def optional (name : String) (decode : Decoder β) (encode : β → Document) (get : α → Option β)
    (set : Option β → α → α) : RecordField α where
  name := name
  isRequired := false
  read o d := (Decode.optional decode o d).map set
  write a := (get a).map encode

/-- A field that keeps its initial value when it is missing. It is written unless `isOmitted`
holds. -/
def defaulted (name : String) (decode : Decoder β) (encode : β → Document) (get : α → β)
    (set : β → α → α) (isOmitted : β → Bool) : RecordField α where
  name := name
  isRequired := false
  read o d := (decode o d).map set
  write a := if isOmitted (get a) then none else some (encode (get a))

def members (fields : List (RecordField α)) (a : α) : List (String × Document) :=
  fields.filterMap fun field => (field.write a).map (field.name, ·)

def find? (fields : List (RecordField α)) (name : String) : Option (RecordField α) :=
  fields.find? (·.name == name)

def names (fields : List (RecordField α)) : List String := fields.map RecordField.name

/-- Refuses a record in which a required field was not seen. -/
def checkMissing (fields : List (RecordField α)) (seen : List String) : Except DecodeError Unit :=
  match fields.find? fun field => field.isRequired && !seen.contains field.name with
  | some field => .error (.missingField field.name)
  | none => .ok ()

end RecordField

namespace RecordFormat

variable {α : Type}

/-- What a message says when it expected the record. -/
def expectation (f : RecordFormat α) : String := "struct " ++ f.title

/-- A record being read: the fields seen so far, and the record with their values. -/
structure Progress (α : Type) where
  seen : List String
  record : α

def readMember (f : RecordFormat α) (o : Origin) (p : Progress α) (key : String) (d : Document) :
    Except DecodeError (Progress α) :=
  match RecordField.find? f.fields key with
  | some field =>
    if p.seen.contains key then .error (.duplicateField key)
    else (field.read o d).map fun set => ⟨key :: p.seen, set p.record⟩
  | none =>
    if f.refusesOthers then .error (.unknownField key (RecordField.names f.fields))
    else if d.isSkippable then .ok p
    else .error .malformed

def readMembers (f : RecordFormat α) (o : Origin) :
    Progress α → List (String × Document) → Except DecodeError (Progress α)
  | p, [] => .ok p
  | p, (key, d) :: rest => do
    let p ← f.readMember o p key d
    readMembers f o p rest

def ofMembers (f : RecordFormat α) (o : Origin) (ms : List (String × Document))
    (ending : Option Defect) : Except DecodeError α := do
  let p ← f.readMembers o ⟨[], f.initial⟩ ms
  if ending.isSome then .error .malformed
  RecordField.checkMissing f.fields p.seen
  return p.record

/-- The error for an array of `length` items, which is more than there are fields. Settings do not
mind. -/
def checkExcess (f : RecordFormat α) (o : Origin) (length : Nat) : Except DecodeError Unit :=
  if length ≤ f.fields.length then .ok ()
  else match o with
    | .value => .error (.invalidLength length "fewer elements in array")
    | .text => .error .malformed
    | .buffer =>
      .error (.invalidLength length (countedElements "element" f.fields.length ++ " in sequence"))
    | .settings => .ok ()

/-- Reads the items of an array into fields in turn, where `index` fields have been read. -/
def readItems (f : RecordFormat α) (o : Origin) (ending : Option Defect) :
    List (RecordField α) → Nat → α → List Document → Except DecodeError α
  | [], _, a, _ => .ok a
  | field :: fields, index, a, d :: rest => do
    let set ← field.read o d
    readItems f o ending fields (index + 1) (set a) rest
  | field :: fields, index, a, [] =>
    if ending.isSome then .error .malformed
    else if field.isRequired then
      .error (.invalidLength index
        (f.expectation ++ " with " ++ countedElements "element" f.fields.length))
    else readItems f o ending fields (index + 1) a []

def ofItems (f : RecordFormat α) (o : Origin) (ds : List Document) (ending : Option Defect) :
    Except DecodeError α := do
  let a ← f.readItems o ending f.fields 0 f.initial ds
  f.checkExcess o ds.length
  if ending.isNone then return a else .error .malformed

def decode (f : RecordFormat α) : Decoder α
  | o, .object ms ending => f.ofMembers o ms ending
  | o, .array ds ending => f.ofItems o ds ending
  | _, d => unexpected f.expectation d

def encode (f : RecordFormat α) (a : α) : Document := .record (RecordField.members f.fields a)

end RecordFormat
end QueryCriteria.Json
