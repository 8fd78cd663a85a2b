import QueryCriteria.Criterion

/-!
# Transfer objects

A client collects its criteria under property ids. Each id has any number of filters and at most one
sort. The ids keep the order in which they were first used, which is the order in which criteria are
compiled. Paging bounds may be absent.

An operation that can fail returns the transfer object together with its answer.
-/
namespace QueryCriteria

/-- The filters and the sort of one property id. -/
structure Entry (P : Type) where
  propertyId : String
  filters : List (FilterCriterion P)
  sort : Option SortCriterion

namespace Entry

variable {P : Type}

def empty (id : String) : Entry P := ⟨id, [], none⟩

def addFilter (e : Entry P) (c : FilterCriterion P) : Entry P :=
  { e with filters := e.filters ++ [c] }

/-- The entry with a sort, unless it has one. -/
def setSort (e : Entry P) (c : SortCriterion) : Except CriteriaError (Entry P) :=
  if e.sort.isSome then .error (.sortAlreadyAssigned e.propertyId)
  else .ok { e with sort := some c }

/-- The filters in the order of their declaration and then the sort. -/
def criteria (e : Entry P) : List (Criterion P) :=
  e.filters.map .filter ++ e.sort.toList.map .sort

def isEmpty (e : Entry P) : Bool := e.filters.isEmpty && e.sort.isNone

end Entry

/-- Criteria by property id, and the paging bounds. -/
structure TransferObject (P : Type) where
  firstResult : Option Int32
  maxResults : Option Int32
  entries : List (String × Entry P)

namespace TransferObject

variable {P : Type}

def empty : TransferObject P := ⟨none, none, []⟩

def withPaging (t : TransferObject P) (first max : Option Int32) : TransferObject P :=
  { t with firstResult := first, maxResults := max }

def setFirstResult (t : TransferObject P) (first : Option Int32) : TransferObject P :=
  { t with firstResult := first }

def setMaxResults (t : TransferObject P) (max : Option Int32) : TransferObject P :=
  { t with maxResults := max }

def propertyIds (t : TransferObject P) : List String := Keyed.keys t.entries

def size (t : TransferObject P) : Nat := t.entries.length

def find? (t : TransferObject P) (id : String) : Option (Entry P) := t.entries.lookup id

/-- Adds an entry at the end, unless its id is present. -/
def add (t : TransferObject P) (e : Entry P) : TransferObject P × Except CriteriaError Unit :=
  if (t.find? e.propertyId).isSome then (t, .error (.duplicatePropertyId e.propertyId))
  else ({ t with entries := t.entries ++ [(e.propertyId, e)] }, .ok ())

/-- The transfer object with an entry for an id, added at the end if there was none. -/
def ensure (t : TransferObject P) (id : String) : TransferObject P :=
  if (t.find? id).isSome then t
  else { t with entries := t.entries ++ [(id, .empty id)] }

def addFilter (t : TransferObject P) (id : String) (c : FilterCriterion P) : TransferObject P :=
  let t := t.ensure id
  { t with entries := Keyed.update id (·.addFilter c) t.entries }

def setSort (t : TransferObject P) (id : String) (c : SortCriterion) :
    TransferObject P × Except CriteriaError Unit :=
  let t := t.ensure id
  match ((t.find? id).getD (.empty id)).setSort c with
  | .ok e => ({ t with entries := Keyed.update id (fun _ => e) t.entries }, .ok ())
  | .error err => (t, .error err)

/-- The criteria of all entries with their property ids, in the order of compilation. -/
def criteria (t : TransferObject P) : List (String × Criterion P) :=
  t.entries.flatMap fun (_, e) => e.criteria.map (e.propertyId, ·)

end TransferObject
end QueryCriteria
