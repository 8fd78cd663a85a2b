import QueryCriteria.JoinKind
import QueryCriteria.Text.Numeral

/-!
# Errors

Everything that can be wrong with criteria. A provider fails on the values it was given; every other
error lies in the description of the criteria, or in the configuration of the host. Each error has
one wording.
-/
namespace QueryCriteria

open Text

/-- Why a provider could not build a predicate. -/
inductive ProviderError where
  | valueCount (expected got : Nat)
  | typeMismatch (position : Nat) (expected got : String)
  | other (message : String)
  deriving DecidableEq

def ProviderError.message : ProviderError → String
  | .valueCount expected got =>
    "expected " ++ decimal expected ++ " value(s), got " ++ decimal got
  | .typeMismatch position expected got =>
    "value at position " ++ decimal position ++ " is not a valid " ++ expected ++ ": " ++ got
  | .other message => message

/-- Why criteria could not be built, read or compiled. -/
inductive CriteriaError where
  | invalidAssociationPath (reason : String)
  | invalidPropertyPath (path reason : String)
  | duplicatePropertyId (id : String)
  | sortAlreadyAssigned (id : String)
  | joinKindConflict (path : String) (registered requested : JoinKind)
  | unknownFilterObjectPath (path : String)
  | unknownProvider (name : String)
  | invalidCriterion (id reason : String)
  | limitExceeded (what : String) (max got : Nat)
  | provider (id property : String) (source : ProviderError)
  | configuration (reason : String)
  deriving DecidableEq

namespace CriteriaError

def message : CriteriaError → String
  | invalidAssociationPath reason => "invalid association path: " ++ reason
  | invalidPropertyPath path reason => "invalid property path `" ++ path ++ "`: " ++ reason
  | duplicatePropertyId id => "duplicate propertyId: " ++ id
  | sortAlreadyAssigned id => "sort criterion already assigned for propertyId: " ++ id
  | joinKindConflict path registered requested =>
    "conflicting join kinds for association `" ++ path ++ "`: registered " ++ registered.name ++
      ", requested " ++ requested.name
  | unknownFilterObjectPath path => "unknown filter object path: " ++ path
  | unknownProvider name => "unknown filter criterion provider: " ++ name
  | invalidCriterion id reason => "invalid criterion for propertyId " ++ id ++ ": " ++ reason
  | limitExceeded what max got =>
    "criteria limit exceeded: " ++ what ++ " (max " ++ decimal max ++ ", got " ++ decimal got ++ ")"
  | provider id property source =>
    "provider failed for `" ++ property ++ "` (propertyId " ++ id ++ "): " ++ source.message
  | configuration reason => "invalid criteria configuration: " ++ reason

/-- Whether the description of the criteria is at fault, and not the values a provider was given. -/
def isConfigurationError : CriteriaError → Bool
  | provider .. => false
  | _ => true

end CriteriaError
end QueryCriteria
