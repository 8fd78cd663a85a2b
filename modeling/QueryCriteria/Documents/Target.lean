import QueryCriteria.Json.Flattened
import QueryCriteria.PropertyPath
import QueryCriteria.Documents.Path

/-!
# Targets in documents

A criterion addresses its property in one of two ways. The normalized form has an association path
and the name of the property. The flat form is one dotted text with one join kind for all its steps.
A document that mixes the two, or has neither, is refused when the address is taken from it.
-/
namespace QueryCriteria

open Json

/-- The address of a property as a document gives it. -/
structure RawTarget where
  associationPath : Option AssociationPath
  propertyName : Option String
  propertyPath : Option String
  joinKind : Option JoinKind
  deriving DecidableEq

namespace RawTarget

def empty : RawTarget := ⟨none, none, none, none⟩

/-- The normalized form of an address. -/
def ofPropertyPath (p : PropertyPath) : RawTarget :=
  ⟨some p.association, some p.property, none, none⟩

def fields : List (RecordField RawTarget) := [
  .optional "associationPath" AssociationPath.decode AssociationPath.encode associationPath
    fun p t => { t with associationPath := p },
  .optional "targetPropertyName" Decode.string .string propertyName
    fun s t => { t with propertyName := s },
  .optional "propertyPath" Decode.string .string propertyPath
    fun s t => { t with propertyPath := s },
  .optional "joinKind" JoinKind.decode JoinKind.encode joinKind
    fun k t => { t with joinKind := k }]

/-- The record of a target that stands alone. -/
def format : RecordFormat RawTarget := ⟨"PropertyTargetDto", fields, empty, false⟩

/-- The address that the target of a criterion of a property id gives. -/
def toPropertyPath (t : RawTarget) (id : String) : Except CriteriaError PropertyPath :=
  match t.propertyName, t.propertyPath with
  | some name, none =>
    if t.joinKind.isSome then
      .error (.invalidCriterion id "`joinKind` only applies to `propertyPath`")
    else PropertyPath.ofName (t.associationPath.getD .root) name
  | none, some path =>
    if t.associationPath.isSome then
      .error (.invalidCriterion id "`associationPath` cannot be combined with `propertyPath`")
    else PropertyPath.parse path (t.joinKind.getD .standard)
  | some _, some _ =>
    .error (.invalidCriterion id "both `targetPropertyName` and `propertyPath` are set")
  | none, none =>
    .error (.invalidCriterion id "one of `targetPropertyName` or `propertyPath` is required")

/-- Refuses a criterion that has a member of an unknown name. -/
def checkOthers (id : String) (others : List (String × Value)) : Except CriteriaError Unit :=
  match (Keyed.keys others).find? fun key => (RecordField.find? fields key).isNone with
  | some key => .error (.invalidCriterion id ("unknown field " ++ ticked key))
  | none => .ok ()

end RawTarget
end QueryCriteria
