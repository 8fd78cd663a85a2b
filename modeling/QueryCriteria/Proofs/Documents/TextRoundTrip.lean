import QueryCriteria.Proofs.Documents.RoundTrip
import QueryCriteria.Proofs.Json.Rereading

/-!
# Transfer objects and their texts

A transfer object is written as a document, and the document as a text. The text is read as a
document with the same members, whose numbers are those that the digits of the text stand for. So it
gives a transfer object that differs in the numbers among its values at most, unless a number is out
of range or the values are nested too deeply.
-/
namespace QueryCriteria

open Json RecordField

variable {o : Origin} {depth : Nat}

namespace Json

/-- What the text of a record is read as is the text of another one, which differs in numbers. -/
structure IsRereadAs {α : Type} (encode : α → Document) (IsRegular : α → Prop)
    (eraseNumbers : α → α) (depth : Nat) (a b : α) : Prop where
  document : (encode a).reread depth = encode b
  isRegular : IsRegular b
  erased : eraseNumbers b = eraseNumbers a

section Lists

variable {α : Type} {encode : α → Document} {IsRegular : α → Prop} {eraseNumbers : α → α}
  {as bs : List α}

theorem rereadItems_map_encode
    (h : List.Forall₂ (IsRereadAs encode IsRegular eraseNumbers depth) as bs) :
    Document.rereadItems depth (as.map encode) = bs.map encode := by
  induction h with
  | nil => rfl
  | cons hfirst _ ih => rw [List.map_cons, Document.rereadItems, hfirst.document, ih, List.map_cons]

theorem map_eraseNumbers_eq
    (h : List.Forall₂ (IsRereadAs encode IsRegular eraseNumbers depth) as bs) :
    bs.map eraseNumbers = as.map eraseNumbers := by
  induction h with
  | nil => rfl
  | cons hfirst _ ih => rw [List.map_cons, hfirst.erased, ih, List.map_cons]

end Lists

namespace RecordField

variable {α : Type} {fields : List (RecordField α)} {a b : α}

theorem rereadMembers_members
    (h : ∀ field ∈ fields, field.write b = (field.write a).map (·.reread depth)) :
    Document.rereadMembers depth (members fields a) = members fields b := by
  rw [Document.rereadMembers_eq_map, members, members, List.map_filterMap]
  refine List.filterMap_congr fun field hfield => ?_
  rw [h field hfield, Option.map_map, Option.map_map]
  rfl

theorem rereadMembers_of_isWritable
    (h : ∀ field ∈ fields, ∀ d, field.write a = some d → IsWritable depth d) :
    Document.rereadMembers depth (members fields a) = members fields a := by
  refine rereadMembers_members fun field hfield => ?_
  cases hwrite : field.write a with
  | none => rfl
  | some d => rw [Option.map_some, (h field hfield d hwrite).reread_eq]

end RecordField

end Json

namespace Json.RecordFormat

variable {α β : Type} {f : RecordFormat α} {a b : α}

theorem reread_encode (hdepth : depth < maxDepth) : (f.encode a).reread depth =
    .record (Document.rereadMembers (depth + 1) (members f.fields a)) := by
  rw [encode, Document.reread, if_pos hdepth]

/-- Where the text of a record can be decoded, so can the text of each of its members. -/
theorem decode_reread_part {name : String} {decode : Decoder β} {get : α → β} {d : Document}
    (hnames : (names f.fields).Nodup) (hpart : IsPart f.fields name decode get)
    (hdepth : depth < maxDepth) (hdecode : f.decode o ((f.encode a).reread depth) = .ok b)
    (hmem : (name, d) ∈ members f.fields a) : decode o (d.reread (depth + 1)) = .ok (get b) := by
  rw [reread_encode hdepth] at hdecode
  refine decode_part_of_decode hnames hpart (mem_names_of_mem_members hmem) hdecode ?_
  rw [Document.mem_parts_iff, Document.membersAs, Document.rereadMembers_eq_map]
  exact List.mem_map.mpr ⟨_, hmem, rfl⟩

end Json.RecordFormat

section Criteria

variable {α : Type} {f : FlattenedFormat α} {target : α → RawTarget}
  {modify : (RawTarget → RawTarget) → α → α} {put : RawTarget → α → α} {a b : α}

theorem Json.FlattenedFormat.reread_encode (hdepth : depth < maxDepth) :
    (f.encode a).reread depth = .record (
      Document.rereadMembers (depth + 1) (members f.innerFields a) ++
      Document.rereadMembers (depth + 1) (members f.ownFields a) ++
      Document.rereadMembers (depth + 1) (Document.ofMembers (f.others a))) := by
  simp [FlattenedFormat.encode, Document.reread, hdepth, Document.rereadMembers_eq_map]

/-- A criterion is read with its target and with the same unknown members, but for numbers. -/
theorem HasTarget.exists_reread (h : HasTarget f target modify put)
    (hforeign : f.IsForeign (f.others a)) (hdepth : depth + 2 < maxDepth)
    (hdecode : f.decode o ((f.encode a).reread depth) = .ok b) :
    ∃ others, (f.encode a).reread depth = .record (members f.innerFields a ++
        Document.rereadMembers (depth + 1) (members f.ownFields a) ++ Document.ofMembers others) ∧
      f.IsForeign others ∧
      Value.eraseMemberNumbers others = Value.eraseMemberNumbers (f.others a) := by
  rw [FlattenedFormat.reread_encode (by omega)] at hdecode ⊢
  have htarget : Document.rereadMembers (depth + 1) (members f.innerFields a) =
      members f.innerFields a := by
    rw [h.innerFields, members_within]
    exact rereadMembers_of_isWritable ((target a).isWritable_of_write (by omega))
  obtain ⟨-, hvalues, -⟩ := FlattenedFormat.ofMembers_eq_ok_iff.mp hdecode
  -- An unknown member is none of the fields, so what it was read as is a value.
  have hothers : ∀ m ∈ Document.rereadMembers (depth + 1) (Document.ofMembers (f.others a)),
      m.2.toValue?.isSome = true := by
    intro m hm
    refine hvalues m (List.mem_filter.mpr ⟨List.mem_append_right _ hm, ?_⟩)
    rw [Document.rereadMembers_eq_map] at hm
    obtain ⟨m', hm', rfl⟩ := List.mem_map.mp hm
    rw [Option.isNone_iff_eq_none, find?_eq_none_iff]
    exact fun hown => FlattenedFormat.notMem_names_of_mem_ofMembers hforeign m' hm'
      (List.mem_append_left _ hown)
  obtain ⟨others, hreread, hdistinct, herase⟩ :=
    Document.exists_rereadMembers_ofMembers hforeign.keysDistinct hothers
  have hkeys : Keyed.keys others = Keyed.keys (f.others a) := by
    rw [← Value.keys_eraseMemberNumbers, herase, Value.keys_eraseMemberNumbers]
  exact ⟨others, by rw [htarget, hreread], hforeign.of_keys hkeys hdistinct, herase⟩

end Criteria

namespace RawSort

def eraseNumbers (s : RawSort) : RawSort :=
  { s with others := Value.eraseMemberNumbers s.others }

theorem exists_isRereadAs {s t : RawSort} (h : s.IsRegular) (hdepth : depth + 2 < maxDepth)
    (hdecode : format.decode o ((format.encode s).reread depth) = .ok t) :
    ∃ s', IsRereadAs format.encode IsRegular eraseNumbers depth s s' := by
  obtain ⟨others, hreread, hforeign, herase⟩ := hasTarget.exists_reread h hdepth hdecode
  refine ⟨{ s with others := others }, hreread, hforeign, ?_⟩
  simp only [eraseNumbers, herase]
  rfl

end RawSort

namespace RawFilter

/-- The filter with zero in place of the numbers among its values and its unknown members. -/
def eraseNumbers (f : RawFilter) : RawFilter :=
  { f with
    directValues := f.directValues.map (·.map Value.eraseNumbers)
    others := Value.eraseMemberNumbers f.others }

theorem isPart_directValues : IsPart format.ownFields "directValues"
    (Decode.optional (Decode.list Decode.value)) directValues :=
  .cons_keeps (fun _ _ => rfl) (fun _ _ => rfl) (by decide) <|
    .cons_sets (fun _ _ => rfl) (fun _ _ => rfl) rfl <|
    .cons_keeps (fun _ _ => rfl) (fun _ _ => rfl) (by decide) .nil

theorem exists_reread_values {values : List Value} (h : ∀ v ∈ values, v.KeysDistinct)
    (hdepth : depth < maxDepth) {x : Option (List Value)}
    (hdecode : Decode.optional (Decode.list Decode.value) o
      ((Document.list (values.map .ofValue)).reread depth) = .ok x) :
    ∃ values' : List Value, (Document.list (values.map .ofValue)).reread depth =
        .list (values'.map .ofValue) ∧ (∀ v ∈ values', v.KeysDistinct) ∧
      values'.map Value.eraseNumbers = values.map Value.eraseNumbers := by
  rw [Document.reread, if_pos hdepth, ← Document.ofItems_eq_map] at hdecode ⊢
  have hitems : ∀ d ∈ Document.rereadItems (depth + 1) (Document.ofItems values),
      d.toValue?.isSome = true := by
    rcases Decode.optional_eq_ok hdecode with ⟨hnull, -⟩ | ⟨values', hvalues, -⟩
    · cases hnull
    · obtain ⟨ds, hds, hdecoded⟩ := Decode.list_eq_ok hvalues
      cases hds
      intro d hd
      obtain ⟨v, -, hv⟩ := exists_of_forall₂_of_mem_left hdecoded hd
      rw [Decode.value_eq_ok_iff.mp hv]
      rfl
  rw [← Value.itemKeysDistinct_iff] at h
  obtain ⟨values', hreread, hdistinct, herase⟩ := Document.exists_rereadItems_ofItems h hitems
  refine ⟨values', by rw [hreread, Document.ofItems_eq_map],
    Value.itemKeysDistinct_iff.mp hdistinct, ?_⟩
  rw [← Value.eraseItemNumbers_eq_map, herase, Value.eraseItemNumbers_eq_map]

theorem exists_reread_directValues {f g : RawFilter} (h : f.IsRegular)
    (hdepth : depth + 1 < maxDepth)
    (hdecode : format.decode o ((format.encode f).reread depth) = .ok g) :
    ∃ values : Option (List Value),
      (f.directValues.map fun vs => (Document.list (vs.map .ofValue)).reread (depth + 1)) =
        (values.map fun vs => .list (vs.map .ofValue)) ∧
      (∀ vs, values = some vs → ∀ v ∈ vs, v.KeysDistinct) ∧
      values.map (·.map Value.eraseNumbers) = f.directValues.map (·.map Value.eraseNumbers) := by
  cases hdirect : f.directValues with
  | none => exact ⟨none, rfl, by simp, rfl⟩
  | some vs =>
    have hmember : ("directValues", (Document.list (vs.map .ofValue)).reread (depth + 1)) ∈
        Document.rereadMembers (depth + 1) (members format.ownFields f) := by
      rw [Document.rereadMembers_eq_map]
      refine List.mem_map.mpr ⟨("directValues", .list (vs.map .ofValue)), ?_, rfl⟩
      simp [format, members, RecordField.optional, required, hdirect]
    rw [FlattenedFormat.reread_encode (by omega)] at hdecode
    obtain ⟨x, hx⟩ := FlattenedFormat.exists_decode_own isPart_directValues (by decide) hdecode
      (List.mem_append_left _ (List.mem_append_right _ hmember))
    obtain ⟨values, hvalues, hdistinct, herase⟩ :=
      exists_reread_values (h.directValues vs hdirect) hdepth hx
    refine ⟨some values, ?_, ?_, ?_⟩
    · rw [Option.map_some, Option.map_some, hvalues]
    · rintro _ ⟨⟩
      exact hdistinct
    · rw [Option.map_some, Option.map_some, herase]

theorem exists_isRereadAs {f g : RawFilter} (h : f.IsRegular) (hdepth : depth + 2 < maxDepth)
    (hdecode : format.decode o ((format.encode f).reread depth) = .ok g) :
    ∃ f', IsRereadAs format.encode IsRegular eraseNumbers depth f f' := by
  obtain ⟨others, hreread, hforeign, herase⟩ := hasTarget.exists_reread h.others hdepth hdecode
  obtain ⟨values, hvalues, hdistinct, herases⟩ :=
    exists_reread_directValues h (by omega) hdecode
  let f' : RawFilter := { f with directValues := values, others := others }
  have hpaths (paths : List String) :
      (Document.list (paths.map .string)).reread (depth + 1) = .list (paths.map .string) := by
    refine (IsWritable.array (by omega) fun d hd => ?_).reread_eq
    obtain ⟨s, -, rfl⟩ := List.mem_map.mp hd
    exact .string s
  have hown : Document.rereadMembers (depth + 1) (members format.ownFields f) =
      members format.ownFields f' := by
    refine rereadMembers_members ?_
    simp only [format, List.forall_mem_cons]
    refine ⟨?_, ?_, rfl, by simp⟩
    · change f.valuePaths.map _ = (f.valuePaths.map _).map _
      cases h : f.valuePaths with
      | none => rfl
      | some paths => exact congrArg some (hpaths paths).symm
    · change values.map _ = (f.directValues.map _).map _
      rw [Option.map_map]
      exact hvalues.symm
  refine ⟨f', ?_, ⟨hdistinct, hforeign⟩, ?_⟩
  · rw [hreread, hown]
    rfl
  · simp only [eraseNumbers, f', herase, herases]
    rfl

end RawFilter

namespace RawEntry

def eraseNumbers (e : RawEntry) : RawEntry :=
  ⟨e.filters.map RawFilter.eraseNumbers, e.sort.map RawSort.eraseNumbers⟩

section Decoded

variable {e g : RawEntry} (h : e.IsRegular) (hdepth : depth + 4 < maxDepth)
  (hdecode : format.decode o ((format.encode e).reread depth) = .ok g)
include h hdepth hdecode

theorem exists_isRereadAs_filters :
    ∃ fs, List.Forall₂ (IsRereadAs RawFilter.format.encode RawFilter.IsRegular
      RawFilter.eraseNumbers (depth + 2)) e.filters fs := by
  cases hempty : e.filters with
  | nil => exact ⟨[], .nil⟩
  | cons f fs =>
    rw [← hempty]
    have hmem : ("filterCriteria", .list (e.filters.map RawFilter.format.encode)) ∈
        members format.fields e := by
      simp [format, members, defaulted, hempty]
    have hdecoded := RecordFormat.decode_reread_part nodup_names isPart_filters (by omega)
      hdecode hmem
    rw [Document.reread, if_pos (by omega), Document.rereadItems_eq_map, List.map_map] at hdecoded
    obtain ⟨ds, hds, hitems⟩ := Decode.list_eq_ok hdecoded
    cases hds
    refine exists_forall₂_iff.mpr fun f hf => ?_
    obtain ⟨f', -, hf'⟩ := exists_of_forall₂_of_mem_left hitems (List.mem_map_of_mem hf)
    exact RawFilter.exists_isRereadAs (h.filters f hf) (by omega) hf'

theorem exists_isRereadAs_sort :
    ∃ sort, Option.Rel (IsRereadAs RawSort.format.encode RawSort.IsRegular
      RawSort.eraseNumbers (depth + 1)) e.sort sort := by
  cases hsome : e.sort with
  | none => exact ⟨none, .none⟩
  | some s =>
    have hmem : ("sortCriterion", RawSort.format.encode s) ∈ members format.fields e := by
      simp [format, members, RecordField.optional, hsome]
    have hdecoded := RecordFormat.decode_reread_part nodup_names isPart_sort (by omega)
      hdecode hmem
    rcases Decode.optional_eq_ok hdecoded with ⟨hnull, -⟩ | ⟨t, ht, -⟩
    · rw [FlattenedFormat.reread_encode (by omega)] at hnull
      cases hnull
    · obtain ⟨s', hs'⟩ := RawSort.exists_isRereadAs (h.sort s hsome) (by omega) ht
      exact ⟨some s', .some hs'⟩

theorem exists_isRereadAs :
    ∃ e', IsRereadAs format.encode IsRegular eraseNumbers depth e e' := by
  obtain ⟨filters', hfilters⟩ := exists_isRereadAs_filters h hdepth hdecode
  obtain ⟨sort', hsort⟩ := exists_isRereadAs_sort h hdepth hdecode
  obtain ⟨filters, sort⟩ := e
  dsimp only at hfilters hsort
  refine ⟨⟨filters', sort'⟩, ?_, ⟨?_, ?_⟩, ?_⟩
  · rw [RecordFormat.reread_encode (by omega), RecordFormat.encode, rereadMembers_members]
    simp only [format, List.forall_mem_cons]
    refine ⟨?_, ?_, by simp⟩
    · have hitems := rereadItems_map_encode hfilters
      cases hfilters with
      | nil => rfl
      | cons hfirst hrest =>
        simp only [defaulted, List.isEmpty_cons, Bool.false_eq_true, if_false, Option.map_some,
          Document.reread, if_pos (show depth + 1 < maxDepth by omega), hitems]
    · cases hsort with
      | none => rfl
      | some hs => simp only [RecordField.optional, Option.map_some, hs.document]
  · intro f hf
    obtain ⟨f', -, hf'⟩ := exists_of_forall₂_of_mem_right hfilters hf
    exact hf'.isRegular
  · rintro s rfl
    cases hsort with
    | some hs => exact hs.isRegular
  · rw [eraseNumbers, eraseNumbers, map_eraseNumbers_eq hfilters]
    cases hsort with
    | none => rfl
    | some hs => rw [Option.map_some, Option.map_some, hs.erased]

end Decoded

end RawEntry

namespace RawTransferObject

/-- The transfer object with zero in place of the numbers in its criteria. -/
def eraseNumbers (t : RawTransferObject) : RawTransferObject :=
  { t with criteria := t.criteria.map fun c => (c.1, c.2.eraseNumbers) }

/-- An entry of a document that is read as another one, under the same property id. -/
def EntryIsRereadAs (c c' : String × RawEntry) : Prop :=
  c.1 = c'.1 ∧ IsRereadAs RawEntry.format.encode RawEntry.IsRegular RawEntry.eraseNumbers 2 c.2 c'.2

theorem rereadMembers_entries {criteria criteria' : List (String × RawEntry)}
    (h : List.Forall₂ EntryIsRereadAs criteria criteria') :
    Document.rereadMembers 2 (criteria.map fun (id, e) => (id, RawEntry.format.encode e)) =
      criteria'.map fun (id, e) => (id, RawEntry.format.encode e) := by
  induction h with
  | nil => rfl
  | @cons c c' _ _ hfirst _ ih =>
    obtain ⟨hid, hentry⟩ := hfirst
    rw [List.map_cons, Document.rereadMembers, ih, hentry.document, hid, List.map_cons]

theorem map_eraseNumbers_entries {criteria criteria' : List (String × RawEntry)}
    (h : List.Forall₂ EntryIsRereadAs criteria criteria') :
    (criteria'.map fun c => (c.1, c.2.eraseNumbers)) =
      criteria.map fun c => (c.1, c.2.eraseNumbers) := by
  induction h with
  | nil => rfl
  | @cons c c' _ _ hfirst _ ih =>
    obtain ⟨hid, hentry⟩ := hfirst
    rw [List.map_cons, ih, hentry.erased, ← hid, List.map_cons]

theorem isWritable_int32 (n : Int32) : IsWritable depth (.int n.toInt) := by
  have hleast := Int32.minValue_le_toInt n
  have hgreatest := Int32.toInt_le n
  have hmin : Int64.minValue.toInt ≤ Int32.minValue.toInt := by decide
  have hmax : Int32.maxValue.toInt < (UInt64.size : Int) := by decide
  exact .int (hmin.trans hleast) (Int.lt_of_le_of_lt hgreatest hmax)

section Decoded

variable {t u : RawTransferObject} (h : t.IsRegular)
  (hdecode : format.decode o ((format.encode t).reread 0) = .ok u)
include h hdecode

theorem exists_isRereadAs_criteria :
    ∃ criteria, List.Forall₂ EntryIsRereadAs t.criteria criteria := by
  have hmem : ("criteria", encodeEntries t.criteria) ∈ members format.fields t := by
    simp [format, members, defaulted]
  have hdecoded := RecordFormat.decode_reread_part nodup_names isPart_criteria (by decide)
    hdecode hmem
  rw [encodeEntries, Document.reread, if_pos (by decide), Document.rereadMembers_eq_map,
    List.map_map] at hdecoded
  obtain ⟨ms, hms, hentries⟩ := Decode.entries_eq_ok hdecoded
  cases hms
  refine exists_forall₂_iff.mpr fun c hc => ?_
  obtain ⟨c', -, -, hc'⟩ := exists_of_forall₂_of_mem_left hentries (List.mem_map_of_mem hc)
  obtain ⟨e, he⟩ := RawEntry.exists_isRereadAs (h c hc) (show 2 + 4 < maxDepth by decide) hc'
  exact ⟨(c.1, e), rfl, he⟩

theorem exists_isRereadAs : ∃ t', IsRereadAs format.encode IsRegular eraseNumbers 0 t t' := by
  obtain ⟨criteria', hcriteria⟩ := exists_isRereadAs_criteria h hdecode
  obtain ⟨first, max, criteria⟩ := t
  dsimp only at hcriteria
  have hentries : (encodeEntries criteria).reread 1 = encodeEntries criteria' := by
    rw [encodeEntries, Document.reread, if_pos (by decide), rereadMembers_entries hcriteria,
      encodeEntries]
  have hbound (bound : Option Int32) : (bound.map fun n => Document.int n.toInt) =
      (bound.map fun n => Document.int n.toInt).map (·.reread 1) := by
    cases bound with
    | none => rfl
    | some n => exact congrArg some (isWritable_int32 n).reread_eq.symm
  refine ⟨⟨first, max, criteria'⟩, ?_, ?_, ?_⟩
  · rw [RecordFormat.reread_encode (by decide), RecordFormat.encode, rereadMembers_members]
    simp only [format, List.forall_mem_cons]
    exact ⟨hbound first, hbound max, congrArg some hentries.symm, by simp⟩
  · intro c hc
    obtain ⟨c', -, -, hc'⟩ := exists_of_forall₂_of_mem_right hcriteria hc
    exact hc'.isRegular
  · rw [eraseNumbers, eraseNumbers, map_eraseNumbers_entries hcriteria]

end Decoded

end RawTransferObject

section Texts

theorem Json.RecordFormat.isSome_toValue?_encode {α : Type} {f : RecordFormat α} {a : α}
    (h : ∀ field ∈ f.fields, ∀ d, field.write a = some d → d.toValue?.isSome = true) :
    (f.encode a).toValue?.isSome = true :=
  Document.isSome_toValue?_record (forall_mem_members h)

theorem HasTarget.isSome_toValue?_encode {α : Type} {f : FlattenedFormat α} {target : α → RawTarget}
    {modify : (RawTarget → RawTarget) → α → α} {put : RawTarget → α → α} {a : α}
    (h : HasTarget f target modify put) (hforeign : f.IsForeign (f.others a))
    (hown : ∀ m ∈ members f.ownFields a, m.2.toValue?.isSome = true) :
    (f.encode a).toValue?.isSome = true := by
  refine Document.isSome_toValue?_record fun m hm => ?_
  rcases List.mem_append.mp hm with hm | hm
  · rcases List.mem_append.mp hm with hm | hm
    · rw [h.innerFields, members_within] at hm
      exact RawTarget.isSome_toValue?_of_mem_members (target a) m hm
    · exact hown m hm
  · exact Document.isSome_toValue?_ofMembers hforeign.keysDistinct m hm

theorem RawSort.IsRegular.isSome_toValue?_encode {s : RawSort} (h : s.IsRegular) :
    (format.encode s).toValue?.isSome = true := by
  refine hasTarget.isSome_toValue?_encode h fun m hm => ?_
  rw [List.mem_singleton.mp hm]
  rfl

theorem RawFilter.IsRegular.isSome_toValue?_encode {f : RawFilter} (h : f.IsRegular) :
    (format.encode f).toValue?.isSome = true := by
  refine hasTarget.isSome_toValue?_encode h.others ?_
  refine forall_mem_members (P := fun d => d.toValue?.isSome = true) ?_
  simp only [format, List.forall_mem_cons]
  refine ⟨fun d hd => ?_, fun d hd => ?_, fun d hd => ?_, by simp⟩
  · obtain ⟨paths, -, rfl⟩ := Option.map_eq_some_iff.mp hd
    refine Document.isSome_toValue?_list fun d hd => ?_
    obtain ⟨s, -, rfl⟩ := List.mem_map.mp hd
    rfl
  · obtain ⟨values, hvalues, rfl⟩ := Option.map_eq_some_iff.mp hd
    refine Document.isSome_toValue?_list fun d hd => ?_
    obtain ⟨v, hv, rfl⟩ := List.mem_map.mp hd
    exact Document.isSome_toValue?_ofValue (h.directValues values hvalues v hv)
  · cases hd
    rfl

theorem RawEntry.IsRegular.isSome_toValue?_encode {e : RawEntry} (h : e.IsRegular) :
    (format.encode e).toValue?.isSome = true := by
  refine RecordFormat.isSome_toValue?_encode ?_
  simp only [format, List.forall_mem_cons]
  refine ⟨fun d hd => ?_, fun d hd => ?_, by simp⟩
  · obtain ⟨-, hsome⟩ := Option.ite_none_left_eq_some.mp hd
    cases hsome
    refine Document.isSome_toValue?_list fun d hd => ?_
    obtain ⟨f, hf, rfl⟩ := List.mem_map.mp hd
    exact (h.filters f hf).isSome_toValue?_encode
  · obtain ⟨s, hs, rfl⟩ := Option.map_eq_some_iff.mp hd
    exact (h.sort s hs).isSome_toValue?_encode

namespace RawTransferObject

theorem IsRegular.isSome_toValue?_encode {t : RawTransferObject} (h : t.IsRegular) :
    (format.encode t).toValue?.isSome = true := by
  refine RecordFormat.isSome_toValue?_encode ?_
  simp only [format, List.forall_mem_cons]
  refine ⟨fun d hd => ?_, fun d hd => ?_, fun d hd => ?_, by simp⟩
  · obtain ⟨n, -, rfl⟩ := Option.map_eq_some_iff.mp hd
    rfl
  · obtain ⟨n, -, rfl⟩ := Option.map_eq_some_iff.mp hd
    rfl
  · obtain rfl : encodeEntries t.criteria = d := Option.some.inj hd
    refine Document.isSome_toValue?_record fun m hm => ?_
    obtain ⟨c, hc, rfl⟩ := List.mem_map.mp hm
    exact (h c hc).isSome_toValue?_encode

theorem decodeText_encode_eq_ok_iff {t u : RawTransferObject} (h : t.IsRegular) :
    decodeText format.decode (format.encode t).text = .ok u ↔
      format.decode .text ((format.encode t).reread 0) = .ok u := by
  rw [decodeText_eq_ok_iff, readText_text h.isSome_toValue?_encode]
  exact and_iff_left rfl

theorem IsRegular.isRereadAs_of_decodeText {t u : RawTransferObject} (h : t.IsRegular)
    (hdecode : decodeText format.decode (format.encode t).text = .ok u) :
    IsRereadAs format.encode IsRegular eraseNumbers 0 t u := by
  rw [decodeText_encode_eq_ok_iff h] at hdecode
  obtain ⟨t', ht'⟩ := exists_isRereadAs h hdecode
  rw [ht'.document, ht'.isRegular.decode_encode] at hdecode
  cases hdecode
  exact ht'

/-- A transfer object is read back from its text exactly if the text of its document is. -/
theorem IsRegular.decodeText_encode_eq_ok_iff_isWritable {t : RawTransferObject}
    (h : t.IsRegular) :
    decodeText format.decode (format.encode t).text = .ok t ↔ IsWritable 0 (format.encode t) := by
  rw [isWritable_iff_reread_eq h.isSome_toValue?_encode]
  constructor
  · intro hdecode
    exact (h.isRereadAs_of_decodeText hdecode).document
  · intro hreread
    rw [decodeText_encode_eq_ok_iff h, hreread]
    exact h.decode_encode

/-- A transfer object is read back from its document. From its text it is read back exactly if the
numbers in it are and it is not nested too deeply. Else its text gives nothing, or a transfer object
with other numbers among its values. -/
theorem survives_round_trip {t : RawTransferObject}
    (h : (∃ o d, format.decode o d = .ok t) ∨ t.IsRegular) (o : Origin) :
    (format.decode o (format.encode t) = .ok t ∧
      (∀ (P : Type) (r : Registry P),
        (format.decode o (format.encode t)).map (resolve · r) = .ok (t.resolve r)) ∧
      (format.decode o (format.encode t)).map format.encode = .ok (format.encode t)) ∧
    (decodeText format.decode (format.encode t).text = .ok t ↔ IsWritable 0 (format.encode t)) ∧
    (∀ i : Int, Int64.minValue.toInt ≤ i → i < UInt64.size → (Number.integer i).IsReadBack) ∧
    ∀ u, decodeText format.decode (format.encode t).text = .ok u →
      u.eraseNumbers = t.eraseNumbers := by
  have hregular : t.IsRegular := by
    rcases h with ⟨o', d, hdecode⟩ | hregular
    · exact isRegular_of_decode hdecode
    · exact hregular
  have hback : format.decode o (format.encode t) = .ok t := hregular.decode_encode
  refine ⟨⟨hback, fun P r => ?_, ?_⟩, hregular.decodeText_encode_eq_ok_iff_isWritable,
    fun i => Number.isReadBack_integer, fun u hu => ?_⟩
  · rw [hback]
    rfl
  · rw [hback]
    rfl
  · exact (hregular.isRereadAs_of_decodeText hu).erased

/-- A document in which a property id is repeated and a filter has an unknown member. -/
def repeatedId : Document :=
  .record [("criteria", .record [
    ("a", .record [("filterCriteria", .list [.record [
      ("provider", .string "eq"),
      ("hint", .record [("k", .int 1), ("l", .null), ("k", .list [.bool true])]),
      ("associationPath", .list [.record [("name", .string "b")]]),
      ("targetPropertyName", .string "c"),
      ("directValues", .list [.null])]])]),
    ("b", .list []),
    ("a", .record [("sortCriterion", .record [("propertyPath", .string "c")])])]),
    ("maxResults", .int 5), ("firstResult", .null)]

def hinted : RawEntry := ⟨[], some ⟨⟨none, some "c", none, none⟩, false, [("hint", .null)]⟩⟩

theorem isRegular_hinted : hinted.IsRegular := by
  refine ⟨by simp [hinted], ?_⟩
  rintro s ⟨⟩
  exact ⟨by decide, by decide, trivial, trivial⟩

/-- A transfer object with a filter for one number. -/
def withNumber (x : Binary64) : RawTransferObject :=
  ⟨none, none, [("a", ⟨[⟨⟨none, some "c", none, none⟩, none, some [.number (.float x)], "eq", []⟩],
    none⟩)]⟩

def half : Binary64 := ⟨false, Nat.pow 2 52, 1021, by decide, by decide, by decide⟩

theorem survives_round_trip_repeatedId :
    (∃ t, format.decode .text repeatedId = .ok t ∧ t.propertyIds = ["a", "b", "a"] ∧
      format.decode .value (format.encode t) = .ok t) ∧
    (∃ t, t = (empty.push "a" hinted).push "a" hinted ∧
      format.decode .text (format.encode t) = .ok t) ∧
    IsWritable 0 (format.encode (withNumber half)) := by
  have hpushed := (isRegular_empty.push isRegular_hinted "a").push isRegular_hinted "a"
  refine ⟨⟨_, rfl, rfl, ?_⟩, ⟨_, rfl, ?_⟩, ?_⟩
  · exact (survives_round_trip (.inl ⟨.text, repeatedId, rfl⟩) .value).1.1
  · exact (survives_round_trip (.inr hpushed) .text).1.1
  · obtain ⟨-, hwritable, -⟩ := survives_round_trip (t := withNumber half)
      (.inl ⟨.value, format.encode (withNumber half), rfl⟩) .text
    exact hwritable.mp (by decide +kernel)

/-- The double of `123456789.123456789`. -/
def precise : Binary64 := ⟨false, 8285044871162741, 1048, by decide, by decide, by decide⟩

/-- The double above it, which the shortest digits of the first one are read as. -/
def abovePrecise : Binary64 := ⟨false, 8285044871162742, 1048, by decide, by decide, by decide⟩

theorem text_changes_number :
    decodeText format.decode ("\x7b\"criteria\":\x7b\"a\":\x7b\"filterCriteria\":[\x7b" ++
      "\"provider\":\"eq\",\"targetPropertyName\":\"c\",\"directValues\":[123456789.123456789]" ++
      "\x7d]\x7d\x7d\x7d") = .ok (withNumber precise) ∧
    decodeText format.decode (format.encode (withNumber precise)).text =
      .ok (withNumber abovePrecise) ∧
    withNumber abovePrecise ≠ withNumber precise := by
  refine ⟨by decide +kernel, by decide +kernel, by decide⟩

end RawTransferObject

end Texts
end QueryCriteria
