import QueryCriteria.TransferObject
import QueryCriteria.Documents.Target

/-!
# Criteria in documents

A document cannot hold a provider, so a filter names one, and the registry of the host says what the
name stands for. A member that is no field of a criterion makes it unusable, although the document
can be decoded.
-/
namespace QueryCriteria

open Json

/-- A filter as a document gives it. -/
structure RawFilter where
  target : RawTarget
  valuePaths : Option (List String)
  directValues : Option (List Value)
  provider : String
  others : List (String × Value)
  deriving DecidableEq

/-- A sort as a document gives it. -/
structure RawSort where
  target : RawTarget
  ascending : Bool
  others : List (String × Value)
  deriving DecidableEq

/-- The criteria of one property id as a document gives them. -/
structure RawEntry where
  filters : List RawFilter
  sort : Option RawSort
  deriving DecidableEq

variable {P : Type}

namespace RawFilter

def format : FlattenedFormat RawFilter where
  title := "FilterCriterionDto"
  ownFields := [
    .optional "filterObjectValuePaths" (Decode.list Decode.string)
      (fun paths => .list (paths.map .string)) valuePaths fun p f => { f with valuePaths := p },
    .optional "directValues" (Decode.list Decode.value)
      (fun values => .list (values.map .ofValue)) directValues
      fun v f => { f with directValues := v },
    .required "provider" Decode.string .string provider fun p f => { f with provider := p }]
  innerFields := RawTarget.fields.map
    (.within target fun change f => { f with target := change f.target })
  initial := ⟨.empty, none, none, "", []⟩
  others := others
  setOthers o f := { f with others := o }

/-- The filter of a property id that a document gives. -/
def resolve (r : Registry P) (id : String) (f : RawFilter) :
    Except CriteriaError (FilterCriterion P) := do
  RawTarget.checkOthers id f.others
  match r.find? f.provider with
  | none => .error (.unknownProvider f.provider)
  | some provider =>
    let target ← f.target.toPropertyPath id
    return ⟨target, f.valuePaths, f.directValues, provider⟩

end RawFilter

namespace RawSort

/-- The record of a sort. A sort that names no direction is ascending. -/
def format : FlattenedFormat RawSort where
  title := "SortCriterionDto"
  ownFields := [
    .defaulted "ascending" Decode.bool .bool ascending (fun b s => { s with ascending := b })
      fun _ => false]
  innerFields := RawTarget.fields.map
    (.within target fun change s => { s with target := change s.target })
  initial := ⟨.empty, true, []⟩
  others := others
  setOthers o s := { s with others := o }

def ofCriterion (c : SortCriterion) : RawSort := ⟨.ofPropertyPath c.target, c.ascending, []⟩

def resolve (id : String) (s : RawSort) : Except CriteriaError SortCriterion := do
  RawTarget.checkOthers id s.others
  let target ← s.target.toPropertyPath id
  return ⟨target, s.ascending⟩

end RawSort

namespace RawEntry

def empty : RawEntry := ⟨[], none⟩

def format : RecordFormat RawEntry where
  title := "FilterAndSortCriteriaDto"
  fields := [
    .defaulted "filterCriteria" (Decode.list RawFilter.format.decode)
      (fun fs => .list (fs.map RawFilter.format.encode)) filters
      (fun fs e => { e with filters := fs }) List.isEmpty,
    .optional "sortCriterion" RawSort.format.decode RawSort.format.encode sort
      fun s e => { e with sort := s }]
  initial := empty
  refusesOthers := true

def resolveFilters (r : Registry P) (id : String) :
    List RawFilter → Except CriteriaError (List (FilterCriterion P))
  | [] => .ok []
  | f :: rest => do
    let first ← f.resolve r id
    let others ← resolveFilters r id rest
    return first :: others

def resolve (r : Registry P) (id : String) (e : RawEntry) :
    Except CriteriaError (Entry P) := do
  let filters ← resolveFilters r id e.filters
  match e.sort with
  | none => return ⟨id, filters, none⟩
  | some s =>
    let sort ← s.resolve id
    return ⟨id, filters, some sort⟩

end RawEntry
end QueryCriteria
