import QueryCriteria.Proofs.Documents.Formats
import QueryCriteria.Proofs.Json.Decoding
import QueryCriteria.Proofs.Json.Text

/-!
# Transfer objects that are written and read back

What a document gives is regular: the values in it repeat no key, and a member that was kept because
it is unknown does not have the name of a field. A transfer object that is put together by hand is
regular too, as long as its unknown members keep to this. What is regular is written as a document
that gives it again, repeated property ids and unknown members included.

A document holds numbers and not their digits, so that nothing is lost here. A text holds digits.
-/
namespace QueryCriteria

open Json RecordField

variable {o : Origin} {d : Document} {depth : Nat}

theorem Json.RecordFormat.isWritable_encode {α : Type} {f : RecordFormat α} {a : α}
    (hdepth : depth < maxDepth)
    (h : ∀ field ∈ f.fields, ∀ d, field.write a = some d → IsWritable (depth + 1) d) :
    IsWritable depth (f.encode a) :=
  .object hdepth (forall_mem_members h)

theorem Step.isWritable_encode (s : Step) (h : depth < maxDepth) : IsWritable depth s.encode := by
  refine RecordFormat.isWritable_encode h ?_
  simp only [RawStep.format, List.forall_mem_cons]
  refine ⟨?_, ?_, by simp⟩
  · rintro d ⟨⟩
    exact .string _
  · rintro d ⟨⟩
    exact .string _

theorem AssociationPath.isWritable_encode (p : AssociationPath) (h : depth + 1 < maxDepth) :
    IsWritable depth p.encode := by
  refine .array (by omega) fun d hd => ?_
  obtain ⟨s, -, rfl⟩ := List.mem_map.mp hd
  exact s.isWritable_encode h

namespace RawTarget

theorem restoreAll_fields (t : RawTarget) : RestoreAll o t fields .empty t :=
  .cons (restores_optional (fun _ _ => ⟨by simp [AssociationPath.encode], by simp⟩) fun _ => rfl) <|
    .cons (restores_optional (fun _ _ => ⟨by simp, by simp⟩) fun _ => rfl) <|
    .cons (restores_optional (fun _ _ => ⟨by simp, by simp⟩) fun _ => rfl) <|
    .cons (restores_optional (fun _ _ => ⟨by simp [JoinKind.encode], by simp⟩) fun _ => rfl) .nil

theorem isWritable_of_write (t : RawTarget) (h : depth + 1 < maxDepth) :
    ∀ field ∈ fields, ∀ d, field.write t = some d → IsWritable depth d := by
  simp only [fields, List.forall_mem_cons]
  refine ⟨fun d hd => ?_, fun d hd => ?_, fun d hd => ?_, fun d hd => ?_, by simp⟩
  · obtain ⟨p, -, rfl⟩ := Option.map_eq_some_iff.mp hd
    exact p.isWritable_encode h
  all_goals
    obtain ⟨v, -, rfl⟩ := Option.map_eq_some_iff.mp hd
    exact .string _

theorem isSome_toValue?_of_mem_members (t : RawTarget) :
    ∀ m ∈ RecordField.members fields t, m.2.toValue?.isSome = true :=
  forall_mem_members fun field hfield d hd =>
    (t.isWritable_of_write (show 0 + 1 < maxDepth by decide) field hfield d hd).isSome_toValue?

end RawTarget

/-- A criterion is read back when its own fields restore what they write and leave the target alone.
-/
theorem HasTarget.decode_encode {α : Type} {f : FlattenedFormat α} {target : α → RawTarget}
    {modify : (RawTarget → RawTarget) → α → α} {put : RawTarget → α → α}
    (h : HasTarget f target modify put) {a b : α} (hforeign : f.IsForeign (f.others a))
    (hown : RestoreAll o a f.ownFields f.initial b) (hempty : target b = .empty)
    (hback : f.setOthers (f.others a) (put (target a) b) = a) :
    f.decode o (f.encode a) = .ok a := by
  have hinner : RestoreAll .buffer a f.innerFields b (put (target a) b) := by
    rw [h.innerFields]
    exact (RawTarget.restoreAll_fields (target a)).within h.isLens hempty
  refine FlattenedFormat.decode_encode_of_restoreAll h.nodup_names hforeign hown hinner ?_ hback
  rw [h.innerFields, members_within]
  exact RawTarget.isSome_toValue?_of_mem_members (target a)

namespace RawFilter

/-- A filter of which nothing is lost when it is written. -/
structure IsRegular (f : RawFilter) : Prop where
  directValues : ∀ values, f.directValues = some values → ∀ v ∈ values, v.KeysDistinct
  others : format.IsForeign f.others

theorem isRegular_of_decode {f : RawFilter} (h : format.decode o d = .ok f) : f.IsRegular := by
  refine FlattenedFormat.decode_induction (P := IsRegular) ?initial ?own ?inner ?foreign h
  case initial => exact ⟨by simp [format], .nil⟩
  case own =>
    intro field hfield d set f hset hf
    simp only [format, List.mem_cons, List.not_mem_nil, or_false] at hfield
    rcases hfield with rfl | rfl | rfl <;> obtain ⟨v, hv, rfl⟩ := map_eq_ok_iff.mp hset
    · exact ⟨hf.directValues, hf.others⟩
    · refine ⟨?_, hf.others⟩
      rintro values rfl v hv'
      rcases Decode.optional_eq_ok hv with ⟨-, hnone⟩ | ⟨values', hvalues, hsome⟩
      · cases hnone
      · cases hsome
        obtain ⟨ds, -, hds⟩ := Decode.list_eq_ok hvalues
        obtain ⟨d, -, hd⟩ := exists_of_forall₂_of_mem_right hds hv'
        exact Document.keysDistinct_of_toValue? (Decode.value_eq_ok_iff.mp hd)
    · exact ⟨hf.directValues, hf.others⟩
  case inner =>
    intro field hfield d set f hset hf
    obtain ⟨part, -, rfl⟩ := List.mem_map.mp hfield
    obtain ⟨change, -, rfl⟩ := map_eq_ok_iff.mp hset
    exact ⟨hf.directValues, hf.others⟩
  case foreign =>
    intro others f hothers hf
    exact ⟨hf.directValues, hothers⟩

theorem IsRegular.decode_encode {f : RawFilter} (h : f.IsRegular) :
    format.decode o (format.encode f) = .ok f := by
  have hpaths : ∀ paths, f.valuePaths = some paths →
      Document.list (paths.map .string) ≠ .null ∧
        Decode.list Decode.string o (.list (paths.map .string)) = .ok paths :=
    fun paths _ => ⟨by simp, Decode.list_map fun s _ => Decode.string_encode s⟩
  have hvalues : ∀ values, f.directValues = some values →
      Document.list (values.map .ofValue) ≠ .null ∧
        Decode.list Decode.value o (.list (values.map .ofValue)) = .ok values :=
    fun values hvalues => ⟨by simp, Decode.list_map fun v hv =>
      Decode.value_eq_ok_iff.mpr (Document.toValue?_ofValue (h.directValues values hvalues v hv))⟩
  have hown : RestoreAll o f format.ownFields format.initial
      ⟨.empty, f.valuePaths, f.directValues, f.provider, []⟩ :=
    .cons (restores_optional hpaths fun _ => rfl) <|
      .cons (restores_optional hvalues fun _ => rfl) <|
      .cons (restores_required (Decode.string_encode f.provider)) .nil
  exact hasTarget.decode_encode h.others hown rfl rfl

end RawFilter

namespace RawSort

def IsRegular (s : RawSort) : Prop := format.IsForeign s.others

theorem isRegular_of_decode {s : RawSort} (h : format.decode o d = .ok s) : s.IsRegular := by
  refine FlattenedFormat.decode_induction (P := IsRegular) ?initial ?own ?inner ?foreign h
  case initial => exact .nil
  case own =>
    intro field hfield d set s hset hs
    obtain rfl := List.mem_singleton.mp hfield
    obtain ⟨ascending, -, rfl⟩ := map_eq_ok_iff.mp hset
    exact hs
  case inner =>
    intro field hfield d set s hset hs
    obtain ⟨part, -, rfl⟩ := List.mem_map.mp hfield
    obtain ⟨change, -, rfl⟩ := map_eq_ok_iff.mp hset
    exact hs
  case foreign =>
    intro others s hothers hs
    exact hothers

theorem IsRegular.decode_encode {s : RawSort} (h : s.IsRegular) :
    format.decode o (format.encode s) = .ok s := by
  have hown : RestoreAll o s format.ownFields format.initial ⟨.empty, s.ascending, []⟩ :=
    .cons (restores_defaulted (Decode.bool_encode s.ascending) (by simp)) .nil
  exact hasTarget.decode_encode h hown rfl rfl

end RawSort

namespace RawEntry

structure IsRegular (e : RawEntry) : Prop where
  filters : ∀ f ∈ e.filters, f.IsRegular
  sort : ∀ s, e.sort = some s → s.IsRegular

theorem isRegular_of_decode {e : RawEntry} (h : format.decode o d = .ok e) : e.IsRegular := by
  refine RecordFormat.decode_induction (P := IsRegular) nodup_names ?initial ?step h
  case initial => exact ⟨by simp [format, empty], by simp [format, empty]⟩
  case step =>
    intro field hfield d set e hset he
    simp only [format, List.mem_cons, List.not_mem_nil, or_false] at hfield
    rcases hfield with rfl | rfl <;> obtain ⟨v, hv, rfl⟩ := map_eq_ok_iff.mp hset
    · refine ⟨fun f hf => ?_, he.sort⟩
      obtain ⟨ds, -, hds⟩ := Decode.list_eq_ok hv
      obtain ⟨d, -, hd⟩ := exists_of_forall₂_of_mem_right hds hf
      exact RawFilter.isRegular_of_decode hd
    · refine ⟨he.filters, ?_⟩
      rintro s rfl
      rcases Decode.optional_eq_ok hv with ⟨-, hnone⟩ | ⟨s', hs, hsome⟩
      · cases hnone
      · cases hsome
        exact RawSort.isRegular_of_decode hs

theorem IsRegular.decode_encode {e : RawEntry} (h : e.IsRegular) :
    format.decode o (format.encode e) = .ok e := by
  have hfilters : Decode.list RawFilter.format.decode o
      (.list (e.filters.map RawFilter.format.encode)) = .ok e.filters :=
    Decode.list_map fun f hf => (h.filters f hf).decode_encode
  have hnone : e.filters.isEmpty = true → e.filters = [] := List.isEmpty_iff.mp
  have hsort : ∀ s, e.sort = some s → RawSort.format.encode s ≠ .null ∧
      RawSort.format.decode o (RawSort.format.encode s) = .ok s :=
    fun s hs => ⟨by simp [FlattenedFormat.encode], (h.sort s hs).decode_encode⟩
  refine RecordFormat.decode_encode_of_restoreAll nodup_names ?_
  exact .cons (restores_defaulted hfilters fun hempty => by rw [hnone hempty]; rfl) <|
    .cons (restores_optional hsort fun _ => rfl) .nil

end RawEntry

namespace RawTransferObject

def IsRegular (t : RawTransferObject) : Prop := ∀ c ∈ t.criteria, c.2.IsRegular

theorem isRegular_of_decode {t : RawTransferObject} (h : format.decode o d = .ok t) :
    t.IsRegular := by
  refine RecordFormat.decode_induction (P := IsRegular) nodup_names ?initial ?step h
  case initial => simp [IsRegular, format, empty]
  case step =>
    intro field hfield d set t hset ht
    simp only [format, List.mem_cons, List.not_mem_nil, or_false] at hfield
    rcases hfield with rfl | rfl | rfl <;> obtain ⟨v, hv, rfl⟩ := map_eq_ok_iff.mp hset
    · exact ht
    · exact ht
    · intro c hc
      obtain ⟨ms, -, hms⟩ := Decode.entries_eq_ok hv
      obtain ⟨m, -, -, hm⟩ := exists_of_forall₂_of_mem_right hms hc
      exact RawEntry.isRegular_of_decode hm

theorem IsRegular.decode_encode {t : RawTransferObject} (h : t.IsRegular) :
    format.decode o (format.encode t) = .ok t := by
  have hpaging (get : RawTransferObject → Option Int32) : ∀ n, get t = some n →
      Document.int n.toInt ≠ .null ∧ Decode.int32 o (.int n.toInt) = .ok n :=
    fun n _ => ⟨by simp, Decode.int32_toInt n⟩
  have hcriteria : decodeEntries o (encodeEntries t.criteria) = .ok t.criteria :=
    Decode.entries_map fun c hc => (h c hc).decode_encode
  refine RecordFormat.decode_encode_of_restoreAll nodup_names ?_
  exact .cons (restores_optional (hpaging firstResult) fun _ => rfl) <|
    .cons (restores_optional (hpaging maxResults) fun _ => rfl) <|
    .cons (restores_defaulted hcriteria (by simp)) .nil

theorem isRegular_empty : empty.IsRegular := by simp [IsRegular, empty]

theorem IsRegular.push {t : RawTransferObject} {e : RawEntry} (h : t.IsRegular)
    (he : e.IsRegular) (id : String) : (t.push id e).IsRegular := by
  intro c hc
  rcases List.mem_append.mp hc with hc | hc
  · exact h c hc
  · obtain rfl := List.mem_singleton.mp hc
    exact he

end RawTransferObject
end QueryCriteria
