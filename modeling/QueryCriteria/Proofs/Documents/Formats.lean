import QueryCriteria.Documents.TransferObject
import QueryCriteria.Proofs.Documents.Target
import QueryCriteria.Proofs.Json.Flattened

/-!
# The records of a transfer object

Each record of a transfer object has fields of different names. A part of it stands under the name of
one field, and no other field changes it. The fields of the target of a criterion stand among those
of the criterion itself, in filters and sorts alike.
-/
namespace QueryCriteria

open Json RecordField

namespace RawStep

def fieldNames : List String := ["name", "joinKind"]

theorem names_fields : RecordField.names format.fields = fieldNames := rfl

end RawStep

namespace RawTarget

theorem names_fields : RecordField.names fields = fieldNames := rfl

theorem isPart_associationPath :
    IsPart fields "associationPath" (Decode.optional AssociationPath.decode) associationPath :=
  .cons_sets (fun _ _ => rfl) (fun _ _ => rfl) rfl <|
    .cons_keeps (fun _ _ => rfl) (fun _ _ => rfl) (by decide) <|
    .cons_keeps (fun _ _ => rfl) (fun _ _ => rfl) (by decide) <|
    .cons_keeps (fun _ _ => rfl) (fun _ _ => rfl) (by decide) .nil

end RawTarget

/-- A criterion: a flattened record whose inner fields are those of a target. -/
structure HasTarget {α : Type} (f : FlattenedFormat α) (target : α → RawTarget)
    (modify : (RawTarget → RawTarget) → α → α) (put : RawTarget → α → α) : Prop where
  isLens : IsLens target modify put
  innerFields : f.innerFields = RawTarget.fields.map (.within target modify)
  nodup_names : f.names.Nodup
  others_setOthers : ∀ others a, f.others (f.setOthers others a) = others
  target_setOthers : ∀ others a, target (f.setOthers others a) = target a

theorem HasTarget.names_innerFields {α : Type} {f : FlattenedFormat α} {target : α → RawTarget}
    {modify : (RawTarget → RawTarget) → α → α} {put : RawTarget → α → α}
    (h : HasTarget f target modify put) :
    RecordField.names f.innerFields = RawTarget.fieldNames := by
  rw [h.innerFields, names_within, RawTarget.names_fields]

namespace RawFilter

def fieldNames : List String :=
  ["filterObjectValuePaths", "directValues", "provider"] ++ RawTarget.fieldNames

theorem names_format : format.names = fieldNames := rfl

theorem hasTarget : HasTarget format target
    (fun change f => { f with target := change f.target }) fun t f => { f with target := t } where
  isLens := ⟨fun _ _ => rfl, fun _ _ => rfl, fun _ => rfl, fun _ _ _ => rfl⟩
  innerFields := rfl
  nodup_names := by decide
  others_setOthers _ _ := rfl
  target_setOthers _ _ := rfl

end RawFilter

namespace RawSort

def fieldNames : List String := "ascending" :: RawTarget.fieldNames

theorem names_format : format.names = fieldNames := rfl

theorem hasTarget : HasTarget format target
    (fun change s => { s with target := change s.target }) fun t s => { s with target := t } where
  isLens := ⟨fun _ _ => rfl, fun _ _ => rfl, fun _ => rfl, fun _ _ _ => rfl⟩
  innerFields := rfl
  nodup_names := by decide
  others_setOthers _ _ := rfl
  target_setOthers _ _ := rfl

end RawSort

namespace RawEntry

def fieldNames : List String := ["filterCriteria", "sortCriterion"]

theorem names_fields : RecordField.names format.fields = fieldNames := rfl

theorem nodup_names : (RecordField.names format.fields).Nodup := by decide

theorem isPart_filters :
    IsPart format.fields "filterCriteria" (Decode.list RawFilter.format.decode) filters :=
  .cons_sets (fun _ _ => rfl) (fun _ _ => rfl) rfl <|
    .cons_keeps (fun _ _ => rfl) (fun _ _ => rfl) (by decide) .nil

theorem isPart_sort :
    IsPart format.fields "sortCriterion" (Decode.optional RawSort.format.decode) sort :=
  .cons_keeps (fun _ _ => rfl) (fun _ _ => rfl) (by decide) <|
    .cons_sets (fun _ _ => rfl) (fun _ _ => rfl) rfl .nil

end RawEntry

namespace RawTransferObject

def fieldNames : List String := ["firstResult", "maxResults", "criteria"]

theorem names_fields : RecordField.names format.fields = fieldNames := rfl

theorem nodup_names : (RecordField.names format.fields).Nodup := by decide

theorem isPart_criteria : IsPart format.fields "criteria" decodeEntries criteria :=
  .cons_keeps (fun _ _ => rfl) (fun _ _ => rfl) (by decide) <|
    .cons_keeps (fun _ _ => rfl) (fun _ _ => rfl) (by decide) <|
    .cons_sets (fun _ _ => rfl) (fun _ _ => rfl) rfl .nil

end RawTransferObject
end QueryCriteria
