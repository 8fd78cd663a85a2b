import QueryCriteria.Documents.Criterion

/-!
# Transfer objects in documents

The entries of a document keep their order, which becomes the order of compilation. A property id
that is repeated stays repeated until the transfer object is taken from the document, and is then
refused before anything else is looked at.
-/
namespace QueryCriteria

open Json

/-- A transfer object as a document gives it. -/
structure RawTransferObject where
  firstResult : Option Int32
  maxResults : Option Int32
  criteria : List (String × RawEntry)
  deriving DecidableEq

namespace RawTransferObject

def empty : RawTransferObject := ⟨none, none, []⟩

def decodeEntries : Decoder (List (String × RawEntry)) :=
  Decode.entries "a map of propertyId to filter and sort criteria" RawEntry.format.decode

def encodeEntries (entries : List (String × RawEntry)) : Document :=
  .record (entries.map fun (id, e) => (id, RawEntry.format.encode e))

def format : RecordFormat RawTransferObject where
  title := "CriteriaTransferObjectDto"
  fields := [
    .optional "firstResult" Decode.int32 (fun n => .int n.toInt) firstResult
      fun n t => { t with firstResult := n },
    .optional "maxResults" Decode.int32 (fun n => .int n.toInt) maxResults
      fun n t => { t with maxResults := n },
    .defaulted "criteria" decodeEntries encodeEntries criteria (fun c t => { t with criteria := c })
      fun _ => false]
  initial := empty
  refusesOthers := true

def propertyIds (t : RawTransferObject) : List String := Keyed.keys t.criteria

/-- The first entry of an id. -/
def find? (t : RawTransferObject) (id : String) : Option RawEntry := t.criteria.lookup id

def push (t : RawTransferObject) (id : String) (e : RawEntry) : RawTransferObject :=
  { t with criteria := t.criteria ++ [(id, e)] }

variable {P : Type}

def resolveEntries (r : Registry P) :
    List (String × RawEntry) → Except CriteriaError (List (String × Entry P))
  | [] => .ok []
  | (id, e) :: rest => do
    let first ← e.resolve r id
    let others ← resolveEntries r rest
    return (id, first) :: others

/-- The transfer object that a document gives, with the providers of a registry. -/
def resolve (t : RawTransferObject) (r : Registry P) :
    Except CriteriaError (TransferObject P) :=
  match Keyed.firstRepeated? [] t.propertyIds with
  | some id => .error (.duplicatePropertyId id)
  | none => do
    let entries ← resolveEntries r t.criteria
    return ⟨t.firstResult, t.maxResults, entries⟩

end RawTransferObject
end QueryCriteria
