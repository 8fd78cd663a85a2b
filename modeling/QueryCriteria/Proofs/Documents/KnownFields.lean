import QueryCriteria.Proofs.Documents.Formats
import QueryCriteria.Proofs.Documents.TransferObject
import QueryCriteria.Proofs.Json.Decoding

/-!
# Members of unknown names

No member of an unknown name gets past the envelope of a document, its entries, its filters or its
sorts. The envelope and the entries refuse it when they are decoded. Filters and sorts keep it, and
are refused when the transfer object is taken from the document.

The steps of association paths are the exception. A member that a step does not know is passed over,
so a join kind under a misspelt name is lost, and the step is an inner join.
-/
namespace QueryCriteria

open Json

namespace Json.Document

def memberDocuments : Document → List Document
  | .object members _ => members.map Prod.snd
  | _ => []

def itemDocuments : Document → List Document
  | .array items _ => items
  | _ => []

end Json.Document

variable {o : Origin} {d : Document}

namespace Step

theorem decode_keepMembers {s : Step} (h : decode o d = .ok s) :
    decode o (d.keepMembers RawStep.fieldNames) = .ok s := by
  obtain ⟨raw, hraw, h⟩ := bind_eq_ok_iff.mp h
  rw [← RawStep.names_fields]
  exact bind_eq_ok_iff.mpr ⟨raw, RecordFormat.decode_keepMembers hraw, h⟩

end Step

theorem AssociationPath.exists_step_of_decode {p : Option AssociationPath}
    (h : Decode.optional decode o d = .ok p) {s : Document} (hs : s ∈ d.itemDocuments) :
    ∃ step, Step.decode o s = .ok step := by
  rcases Decode.optional_eq_ok h with ⟨rfl, -⟩ | ⟨path, hpath, -⟩
  · cases hs
  · obtain ⟨steps, hsteps, -⟩ := map_eq_ok_iff.mp hpath
    obtain ⟨ds, rfl, hds⟩ := Decode.list_eq_ok hsteps
    obtain ⟨step, -, hstep⟩ := exists_of_forall₂_of_mem_left hds hs
    exact ⟨step, hstep⟩

def stepsOfCriterion (d : Document) : List Document :=
  (d.parts RawTarget.fieldNames "associationPath").flatMap Document.itemDocuments

namespace HasTarget

variable {α : Type} {f : FlattenedFormat α} {target : α → RawTarget}
  {modify : (RawTarget → RawTarget) → α → α} {put : RawTarget → α → α} {a : α}

theorem mem_names_of_decode (h : HasTarget f target modify put) (hdecode : f.decode o d = .ok a)
    (hknown : RawTarget.Known (f.others a)) : ∀ name ∈ d.memberNames, name ∈ f.names := by
  obtain ⟨ms, rfl, hkeys⟩ := FlattenedFormat.mem_names_of_decode h.others_setOthers hdecode
  intro name hname
  rcases hkeys name hname with hfield | hother
  · exact hfield
  · have hinner := hknown name hother
    rw [← h.names_innerFields] at hinner
    exact List.mem_append_right _ hinner

theorem exists_step_of_decode (h : HasTarget f target modify put) (hdecode : f.decode o d = .ok a)
    {s : Document} (hs : s ∈ stepsOfCriterion d) : ∃ step, Step.decode .buffer s = .ok step := by
  obtain ⟨part, hpart, hs⟩ := List.mem_flatMap.mp hs
  have hassociation := RawTarget.isPart_associationPath.within h.isLens
  have hname : "associationPath" ∈ RecordField.names f.innerFields := by
    rw [h.names_innerFields]
    decide
  rw [← h.innerFields] at hassociation
  have hpath := FlattenedFormat.decode_inner_part_of_decode h.nodup_names hassociation hname
    (fun others b => by rw [h.target_setOthers]) hdecode hpart
  exact AssociationPath.exists_step_of_decode hpath hs

end HasTarget

namespace RawTransferObject

def entryDocuments (d : Document) : List Document :=
  (d.parts fieldNames "criteria").flatMap Document.memberDocuments

def filterDocuments (d : Document) : List Document :=
  (entryDocuments d).flatMap fun e =>
    (e.parts RawEntry.fieldNames "filterCriteria").flatMap Document.itemDocuments

/-- The sorts of a document. One that is null is no sort. -/
def sortDocuments (d : Document) : List Document :=
  (entryDocuments d).flatMap (·.parts RawEntry.fieldNames "sortCriterion")

def stepDocuments (d : Document) : List Document :=
  (filterDocuments d ++ sortDocuments d).flatMap stepsOfCriterion

section Decoded

variable {t : RawTransferObject} (h : format.decode o d = .ok t)
include h

theorem exists_entry_of_decode {e : Document} (he : e ∈ entryDocuments d) :
    ∃ c ∈ t.criteria, RawEntry.format.decode o e = .ok c.2 := by
  obtain ⟨part, hpart, he⟩ := List.mem_flatMap.mp he
  have hdecode := RecordFormat.decode_part_of_decode nodup_names isPart_criteria (by decide) h hpart
  obtain ⟨ms, rfl, hms⟩ := Decode.entries_eq_ok hdecode
  obtain ⟨m, hm, rfl⟩ := List.mem_map.mp he
  obtain ⟨c, hc, -, hentry⟩ := exists_of_forall₂_of_mem_left hms hm
  exact ⟨c, hc, hentry⟩

theorem exists_filter_of_decode {f : Document} (hf : f ∈ filterDocuments d) :
    ∃ c ∈ t.criteria, ∃ raw ∈ c.2.filters, RawFilter.format.decode o f = .ok raw := by
  obtain ⟨e, he, hf⟩ := List.mem_flatMap.mp hf
  obtain ⟨part, hpart, hf⟩ := List.mem_flatMap.mp hf
  obtain ⟨c, hc, hentry⟩ := exists_entry_of_decode h he
  have hdecode := RecordFormat.decode_part_of_decode RawEntry.nodup_names RawEntry.isPart_filters
    (by decide) hentry hpart
  obtain ⟨ds, rfl, hds⟩ := Decode.list_eq_ok hdecode
  obtain ⟨raw, hraw, hfilter⟩ := exists_of_forall₂_of_mem_left hds hf
  exact ⟨c, hc, raw, hraw, hfilter⟩

theorem exists_sort_of_decode {s : Document} (hs : s ∈ sortDocuments d) :
    s = .null ∨ ∃ c ∈ t.criteria, ∃ raw, c.2.sort = some raw ∧
      RawSort.format.decode o s = .ok raw := by
  obtain ⟨e, he, hs⟩ := List.mem_flatMap.mp hs
  obtain ⟨c, hc, hentry⟩ := exists_entry_of_decode h he
  have hdecode := RecordFormat.decode_part_of_decode RawEntry.nodup_names RawEntry.isPart_sort
    (by decide) hentry hs
  rcases Decode.optional_eq_ok hdecode with ⟨hnull, -⟩ | ⟨raw, hraw, hsort⟩
  · exact .inl hnull
  · exact .inr ⟨c, hc, raw, hsort, hraw⟩

theorem exists_step_of_decode {s : Document} (hs : s ∈ stepDocuments d) :
    ∃ step, Step.decode .buffer s = .ok step := by
  obtain ⟨c, hc, hs⟩ := List.mem_flatMap.mp hs
  rcases List.mem_append.mp hc with hc | hc
  · obtain ⟨-, -, raw, -, hraw⟩ := exists_filter_of_decode h hc
    exact RawFilter.hasTarget.exists_step_of_decode hraw hs
  · rcases exists_sort_of_decode h hc with rfl | ⟨-, -, raw, -, hraw⟩
    · cases hs
    · exact RawSort.hasTarget.exists_step_of_decode hraw hs

end Decoded

section Resolved

variable {P : Type} {r : Registry P} {t : RawTransferObject} {u : TransferObject P}
  (h : t.resolve r = .ok u) {c : String × RawEntry} (hc : c ∈ t.criteria)
include h hc

theorem wellFormed_of_resolve : ∀ criterion ∈ c.2.criteria, criterion.WellFormed r := by
  obtain ⟨-, hwell⟩ := exists_resolve_eq_ok_iff.mp ⟨u, h⟩
  intro criterion hcriterion
  refine hwell (c.1, criterion) (List.mem_flatMap.mpr ⟨c, hc, ?_⟩)
  exact List.mem_map_of_mem hcriterion

theorem known_of_mem_filters {f : RawFilter} (hf : f ∈ c.2.filters) : RawTarget.Known f.others := by
  have hmem : .filter f ∈ c.2.criteria := List.mem_append_left _ (List.mem_map_of_mem hf)
  exact (wellFormed_of_resolve h hc _ hmem).known

theorem known_of_sort {s : RawSort} (hs : c.2.sort = some s) : RawTarget.Known s.others := by
  have hmem : .sort s ∈ c.2.criteria := by simp [RawEntry.criteria, hs]
  exact (wellFormed_of_resolve h hc _ hmem).known

end Resolved

/-- The names of the members of a document are known, except in its steps. There the members of
unknown names can be taken out, and the step stays the same. -/
structure KnowsMembers (d : Document) : Prop where
  envelope : ∀ name ∈ d.memberNames, name ∈ fieldNames
  entries : ∀ e ∈ entryDocuments d, ∀ name ∈ e.memberNames, name ∈ RawEntry.fieldNames
  filters : ∀ f ∈ filterDocuments d, ∀ name ∈ f.memberNames, name ∈ RawFilter.fieldNames
  sorts : ∀ s ∈ sortDocuments d, ∀ name ∈ s.memberNames, name ∈ RawSort.fieldNames
  steps : ∀ s ∈ stepDocuments d, ∃ step, Step.decode .buffer s = .ok step ∧
    Step.decode .buffer (s.keepMembers RawStep.fieldNames) = .ok step

/-- A document that gives a transfer object has members of unknown names in its steps only. -/
theorem unknown_members_in_steps_only {t : RawTransferObject} {P : Type} {r : Registry P}
    {u : TransferObject P} (hdecode : format.decode o d = .ok t) (hresolve : t.resolve r = .ok u) :
    KnowsMembers d where
  envelope := by
    rw [← names_fields]
    exact RecordFormat.mem_names_of_decode nodup_names rfl hdecode
  entries := by
    intro e he
    obtain ⟨c, -, hentry⟩ := exists_entry_of_decode hdecode he
    rw [← RawEntry.names_fields]
    exact RecordFormat.mem_names_of_decode RawEntry.nodup_names rfl hentry
  filters := by
    intro f hf
    obtain ⟨c, hc, raw, hraw, hfilter⟩ := exists_filter_of_decode hdecode hf
    rw [← RawFilter.names_format]
    exact RawFilter.hasTarget.mem_names_of_decode hfilter (known_of_mem_filters hresolve hc hraw)
  sorts := by
    intro s hs
    rcases exists_sort_of_decode hdecode hs with rfl | ⟨c, hc, raw, hraw, hsort⟩
    · simp [Document.memberNames]
    · rw [← RawSort.names_format]
      exact RawSort.hasTarget.mem_names_of_decode hsort (known_of_sort hresolve hc hraw)
  steps := by
    intro s hs
    obtain ⟨step, hstep⟩ := exists_step_of_decode hdecode hs
    exact ⟨step, hstep, Step.decode_keepMembers hstep⟩

/-- A document with a sort by the title of an employer, who is to be joined from the left. The join
kind of the step is misspelt. -/
def misspeltJoinKind : Document :=
  .record [("criteria", .record [("a", .record [("sortCriterion", .record [
    ("associationPath", .list [.record [("name", .string "employer"),
      ("joinkind", .string "left_outer")]]),
    ("targetPropertyName", .string "title")])])])]

theorem unknown_members_in_steps_only_misspelt : KnowsMembers misspeltJoinKind :=
  unknown_members_in_steps_only (o := .text) (r := (Registry.empty : Registry Unit)) rfl rfl

/-- A step with an unknown member is accepted, and joins in the standard way. -/
theorem misspelt_joinKind_is_inner :
    ∃ t u, format.decode .text misspeltJoinKind = .ok t ∧
      t.resolve (Registry.empty : Registry Unit) = .ok u ∧
      (∃ s ∈ stepDocuments misspeltJoinKind, ∃ name ∈ s.memberNames, name ∉ RawStep.fieldNames) ∧
      u.entries.map (fun entry => entry.2.sort.map (·.target.association.kinds)) =
        [some [.inner]] := by
  refine ⟨_, _, rfl, rfl, ⟨_, List.mem_cons_self, "joinkind", by decide, by decide⟩, rfl⟩

end RawTransferObject
end QueryCriteria
