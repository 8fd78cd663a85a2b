import QueryCriteria.Proofs.Documents.KnownFields
import QueryCriteria.Proofs.Json.Acceptance

/-!
# Repeated fields

A text in which a field or a property id is repeated gives no transfer object, so none of two
occurrences is ever preferred, and the two are never merged. The fields of the envelope, of its
entries and of the steps of association paths are noticed at their second key. So are the fields of
filters and sorts, the fields of their targets only after all others. The property ids are no
fields: all of them are read, and those that are repeated are refused when the transfer object is
taken from the document.
-/
namespace QueryCriteria

open Json

variable {o : Origin} {d : Document}

theorem Json.Decode.memberNames_of_entries {α : Type} {expected : String} {decode : Decoder α}
    {as : List (String × α)} (h : Decode.entries expected decode o d = .ok as) :
    d.memberNames = Keyed.keys as := by
  obtain ⟨ms, rfl, hms⟩ := Decode.entries_eq_ok h
  have hkeys : List.Forall₂ Eq (ms.map Prod.fst) (as.map Prod.fst) :=
    List.rel_map (fun _ _ hm => hm.1) hms
  rw [List.forall₂_eq_eq_eq] at hkeys
  exact hkeys

theorem Step.namesOnce_of_decode {s : Step} (h : decode o d = .ok s) :
    d.NamesOnce RawStep.fieldNames := by
  obtain ⟨raw, hraw, -⟩ := bind_eq_ok_iff.mp h
  rw [← RawStep.names_fields]
  exact RecordFormat.namesOnce_of_decode hraw

theorem Json.Document.namesOnce_null (names : List String) : Document.null.NamesOnce names := by
  intro name _
  exact Nat.zero_le 1

namespace RawTransferObject

/-- No field stands twice in an object of a document that has it as a field, and no property id
stands twice among the entries. -/
structure RepeatsNothing (d : Document) : Prop where
  envelope : d.NamesOnce fieldNames
  propertyIds : ∀ entries ∈ d.parts fieldNames "criteria", entries.memberNames.Nodup
  entries : ∀ e ∈ entryDocuments d, e.NamesOnce RawEntry.fieldNames
  filters : ∀ f ∈ filterDocuments d, f.NamesOnce RawFilter.fieldNames
  sorts : ∀ s ∈ sortDocuments d, s.NamesOnce RawSort.fieldNames
  steps : ∀ s ∈ stepDocuments d, s.NamesOnce RawStep.fieldNames

theorem memberNames_eq_propertyIds {t : RawTransferObject} (h : format.decode o d = .ok t)
    {entries : Document} (hentries : entries ∈ d.parts fieldNames "criteria") :
    entries.memberNames = t.propertyIds := by
  rw [← names_fields] at hentries
  have hdecode :=
    RecordFormat.decode_part_of_decode nodup_names isPart_criteria (by decide) h hentries
  exact Decode.memberNames_of_entries hdecode

/-- A document that gives a transfer object repeats nothing, wherever it comes from. -/
theorem repeatsNothing_of_resolve {t : RawTransferObject} {P : Type} {r : Registry P}
    {u : TransferObject P} (hdecode : format.decode o d = .ok t) (hresolve : t.resolve r = .ok u) :
    RepeatsNothing d where
  envelope := by
    rw [← names_fields]
    exact RecordFormat.namesOnce_of_decode hdecode
  propertyIds := by
    intro entries hentries
    rw [memberNames_eq_propertyIds hdecode hentries]
    exact (exists_resolve_eq_ok_iff.mp ⟨u, hresolve⟩).1
  entries := by
    intro e he
    obtain ⟨c, -, hentry⟩ := exists_entry_of_decode hdecode he
    rw [← RawEntry.names_fields]
    exact RecordFormat.namesOnce_of_decode hentry
  filters := by
    intro f hf
    obtain ⟨-, -, raw, -, hfilter⟩ := exists_filter_of_decode hdecode hf
    rw [← RawFilter.names_format]
    exact FlattenedFormat.namesOnce_of_decode hfilter
  sorts := by
    intro s hs
    rcases exists_sort_of_decode hdecode hs with hnull | ⟨-, -, raw, -, hsort⟩
    · rw [hnull]
      exact Document.namesOnce_null _
    · rw [← RawSort.names_format]
      exact FlattenedFormat.namesOnce_of_decode hsort
  steps := by
    intro s hs
    obtain ⟨step, hstep⟩ := exists_step_of_decode hdecode hs
    exact Step.namesOnce_of_decode hstep

/-- No text with a repeated field or a repeated property id gives a transfer object, for any
providers. -/
theorem repetitions_are_refused {text : String} {t : RawTransferObject} {P : Type}
    {r : Registry P} {u : TransferObject P} (hdecode : decodeText format.decode text = .ok t)
    (hresolve : t.resolve r = .ok u) : RepeatsNothing (readText text).document :=
  repeatsNothing_of_resolve (decodeText_eq_ok_iff.mp hdecode).1 hresolve

def sortByDraught : String :=
  "\x7b\"criteria\":\x7b\"a\":\x7b\"sortCriterion\":\x7b\"associationPath\":[\x7b\"name\":" ++
    "\"harbour\"\x7d],\"targetPropertyName\":\"draught\"\x7d\x7d,\"b\":\x7b\x7d\x7d\x7d"

theorem repetitions_are_refused_sortByDraught :
    ∃ t u, decodeText format.decode sortByDraught = .ok t ∧
      t.resolve (Registry.empty : Registry Unit) = .ok u ∧ t.propertyIds = ["a", "b"] ∧
      RepeatsNothing (readText sortByDraught).document := by
  have hdecode : decodeText format.decode sortByDraught = .ok ⟨none, none, [
      ("a", ⟨[], some ⟨⟨some ⟨[⟨"harbour", .inner, by decide⟩]⟩, some "draught", none, none⟩, true,
        []⟩⟩), ("b", .empty)]⟩ := by
    decide +kernel
  exact ⟨_, _, hdecode, rfl, rfl,
    repetitions_are_refused (r := (Registry.empty : Registry Unit)) hdecode rfl⟩

/-- The second occurrence of a field is refused, whether or not it agrees with the first. -/
example : format.decode .text (.record [("criteria", .record [("a", .record [("sortCriterion",
    .record [("targetPropertyName", .string "draught"),
      ("targetPropertyName", .string "draught")])])])]) =
        .error (.duplicateField "targetPropertyName") := rfl

end RawTransferObject
end QueryCriteria
