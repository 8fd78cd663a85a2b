import QueryCriteria.Json.Record

/-!
# Flattened records

A flattened record shares its object with an inner record: some members are fields of its own, some
are fields of the inner record, and the others are kept as they are, in the order of their first
occurrence. It is written as an object only.

The fields of its own are read as they come. The other members are set aside, and read into the
inner record when the object has ended and no field of its own is missing.
-/
namespace QueryCriteria.Json

/-- The description of a flattened record. The fields of the inner record are given as fields of the
whole. -/
structure FlattenedFormat (α : Type) where
  title : String
  ownFields : List (RecordField α)
  innerFields : List (RecordField α)
  initial : α
  others : α → List (String × Value)
  setOthers : List (String × Value) → α → α

/-- The field of a record that is a field of one of its parts. -/
def RecordField.within {α β : Type} (get : α → β) (modify : (β → β) → α → α)
    (field : RecordField β) : RecordField α where
  name := field.name
  isRequired := field.isRequired
  read o d := (field.read o d).map modify
  write a := field.write (get a)

namespace FlattenedFormat

variable {α : Type}

/-- The fields of its own, as a record that sets nothing aside. -/
def own (f : FlattenedFormat α) : RecordFormat α := ⟨f.title, f.ownFields, f.initial, false⟩

def inner (f : FlattenedFormat α) : RecordFormat α := ⟨f.title, f.innerFields, f.initial, false⟩

/-- A record being read, and the members that were set aside. -/
structure Progress (α : Type) where
  own : RecordFormat.Progress α
  aside : List (String × Document)

/-- Reads the members of an object in turn, and sets those aside that are no fields of its own. -/
def readMembers (f : FlattenedFormat α) (o : Origin) :
    Progress α → List (String × Document) → Except DecodeError (Progress α)
  | p, [] => .ok p
  | p, (key, d) :: rest =>
    if (RecordField.find? f.ownFields key).isSome then do
      let own ← f.own.readMember o p.own key d
      readMembers f o { p with own := own } rest
    else if d.toValue?.isNone then .error .malformed
    else readMembers f o { p with aside := p.aside ++ [(key, d)] } rest

/-- The values of the members that are no fields; a repeated key takes its last value. -/
def othersOf (f : FlattenedFormat α) (aside : List (String × Document)) : List (String × Value) :=
  let unknown := aside.filter fun m => (RecordField.find? f.innerFields m.1).isNone
  (Document.toMembers? [] unknown).getD []

def ofMembers (f : FlattenedFormat α) (o : Origin) (ms : List (String × Document))
    (ending : Option Defect) : Except DecodeError α := do
  let p ← f.readMembers o ⟨⟨[], f.initial⟩, []⟩ ms
  if ending.isSome then .error .malformed
  RecordField.checkMissing f.ownFields p.own.seen
  let q ← f.inner.readMembers .buffer ⟨[], p.own.record⟩ p.aside
  RecordField.checkMissing f.innerFields q.seen
  return f.setOthers (f.othersOf p.aside) q.record

def decode (f : FlattenedFormat α) : Decoder α
  | o, .object ms ending => f.ofMembers o ms ending
  | _, d => unexpected f.own.expectation d

/-- Writes a record: the inner fields, its own fields, and the other members. -/
def encode (f : FlattenedFormat α) (a : α) : Document :=
  .record (RecordField.members f.innerFields a ++ RecordField.members f.ownFields a ++
    Document.ofMembers (f.others a))

end FlattenedFormat
end QueryCriteria.Json
