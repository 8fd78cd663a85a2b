import QueryCriteria.Error

/-!
# Problem documents

A failed request is answered with a problem: its type, a title, an HTTP status, and details of this
occurrence. A catalog entry holds all of a problem but its detail, and each error belongs to one
entry. Client input gives status 422; only a faulty configuration of the host gives 500, and then
the detail says nothing about it.
-/
namespace QueryCriteria

/-- An HTTP status code has three digits. -/
structure Status where
  code : Nat
  isValid : 100 ≤ code ∧ code < 1000
  deriving DecidableEq

namespace Status

def ofCode? (code : Nat) : Option Status :=
  if h : 100 ≤ code ∧ code < 1000 then some ⟨code, h⟩ else none

/-- The status of a failure inside the host. -/
def internalServerError : Status := ⟨500, by decide⟩

def isClientError (s : Status) : Bool := 400 ≤ s.code && s.code < 500

@[simp] theorem ofCode?_code (s : Status) : ofCode? s.code = some s := by
  simp [ofCode?, s.isValid]

end Status

/-- One offending field of a request. -/
structure Violation where
  field : String
  message : String
  code : Option String
  deriving DecidableEq

/-- A problem document. Empty texts of `reference` and `code` mean that there is none. -/
structure Problem where
  typeUrl : String
  title : String
  status : Status
  detail : String
  reference : String
  code : String
  traceId : Option String
  errors : Option (List Violation)
  deriving DecidableEq

namespace Problem

/-- The problem that has no more than a status, a title and a detail. -/
def ofStatus (status : Status) (title detail : String) : Problem :=
  ⟨"about:blank", title, status, detail, "", "", none, none⟩

def withType (p : Problem) (typeUrl : String) : Problem := { p with typeUrl := typeUrl }

def withCode (p : Problem) (code : String) : Problem := { p with code := code }

def withReference (p : Problem) (reference : String) : Problem := { p with reference := reference }

def withTraceId (p : Problem) (traceId : Option String) : Problem := { p with traceId := traceId }

def withViolation (p : Problem) (v : Violation) : Problem :=
  { p with errors := some (p.errors.getD [] ++ [v]) }

def isClientError (p : Problem) : Bool := p.status.isClientError

end Problem

/-- All of a problem but its detail. The status is one only if it has three digits. -/
structure CatalogEntry where
  status : Nat
  title : String
  code : String
  typeUrl : String
  deriving DecidableEq

namespace CatalogEntry

/-- The problem of an entry with a detail. A number that is no status gives status 500. -/
def problem (e : CatalogEntry) (detail : String) : Problem :=
  ((Problem.ofStatus ((Status.ofCode? e.status).getD .internalServerError) e.title detail).withCode
    e.code).withType e.typeUrl

/-- The entry of criteria that are described wrongly. -/
def invalidCriteria : CatalogEntry where
  status := 422
  title := "Invalid Criteria"
  code := "gts.hx.core.errors.err.v1~hx.criteria.invalid_criteria.v1"
  typeUrl :=
    "https://errors.example.com/gts.hx.core.errors.err.v1~hx.criteria.invalid_criteria.v1"

/-- The entry of values that a provider refuses. -/
def invalidFilterValue : CatalogEntry where
  status := 422
  title := "Invalid Filter Value"
  code := "gts.hx.core.errors.err.v1~hx.criteria.invalid_filter_value.v1"
  typeUrl :=
    "https://errors.example.com/gts.hx.core.errors.err.v1~hx.criteria.invalid_filter_value.v1"

/-- The entry of a faulty configuration of the host. -/
def internal : CatalogEntry where
  status := 500
  title := "Internal Error"
  code := "gts.hx.core.errors.err.v1~hx.criteria.internal.v1"
  typeUrl := "https://errors.example.com/gts.hx.core.errors.err.v1~hx.criteria.internal.v1"

end CatalogEntry

namespace CriteriaError

def catalogEntry : CriteriaError → CatalogEntry
  | provider .. => .invalidFilterValue
  | configuration _ => .internal
  | _ => .invalidCriteria

/-- The detail of the problem of an error; that of a faulty configuration is kept from clients. -/
def detail : CriteriaError → String
  | configuration _ => "An internal error occurred while preparing the query criteria"
  | e => e.message

/-- The violation that an error about one property id reports. -/
def violation? : CriteriaError → Option Violation
  | provider id _ source => some ⟨id, source.message, none⟩
  | invalidCriterion id reason => some ⟨id, reason, none⟩
  | e@(duplicatePropertyId id) | e@(sortAlreadyAssigned id) => some ⟨id, e.message, none⟩
  | _ => none

def problem (e : CriteriaError) : Problem :=
  let p := e.catalogEntry.problem e.detail
  match e.violation? with
  | some v => p.withViolation v
  | none => p

end CriteriaError
end QueryCriteria
