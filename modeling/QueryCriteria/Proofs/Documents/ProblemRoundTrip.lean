import QueryCriteria.Documents.Problem
import QueryCriteria.Proofs.Documents.SortRoundTrip
import QueryCriteria.Proofs.Json.Acceptance

/-!
# Problems that are written and read back

A problem is written without its empty texts and without what it does not have. It is read back from
the document and from the text of the document, as a missing text is empty, and what is missing
otherwise is absent. A list without violations is no absent list: it is written.

Each field of a problem is given by the only member of its name, or by none if it may be missing. So
an object describes one problem at most, whatever the order of its members is, and other members say
nothing about it. A problem that was read is written in one way, however it was described.
-/
namespace QueryCriteria

open Json RecordField

section Writing

variable {depth : Nat}

theorem Violation.isWritable_encode (v : Violation) (h : depth < maxDepth) :
    IsWritable depth (format.encode v) := by
  refine RecordFormat.isWritable_encode h ?_
  simp only [format, required, RecordField.optional, List.forall_mem_cons, Option.some.injEq,
    Option.map_eq_some_iff, forall_eq', forall_exists_index, and_imp, forall_apply_eq_imp_iff₂]
  exact ⟨.string _, .string _, fun code _ => .string code, by simp⟩

theorem Problem.isWritable_encode (p : Problem) : IsWritable 0 (format.encode p) := by
  have hstatus : IsWritable 1 p.status.encode := by
    have hcode := p.status.isValid
    refine .int (Int.le_trans (b := 0) (by decide) (by omega)) ?_
    have hsize : (1000 : Int) < UInt64.size := by decide
    omega
  have herrors (vs : List Violation) : IsWritable 1 (.list (vs.map Violation.format.encode)) := by
    refine .array (by decide) fun d hd => ?_
    obtain ⟨v, -, rfl⟩ := List.mem_map.mp hd
    exact v.isWritable_encode (by decide)
  refine RecordFormat.isWritable_encode (by decide) ?_
  simp only [format, required, RecordField.optional, defaulted, List.forall_mem_cons,
    Option.some.injEq, Option.map_eq_some_iff, forall_eq', forall_exists_index, and_imp,
    forall_apply_eq_imp_iff₂, Option.ite_none_left_eq_some]
  exact ⟨.string _, .string _, hstatus, .string _, fun _ _ hd => hd ▸ .string _,
    fun _ _ hd => hd ▸ .string _, fun s _ => .string s, fun vs _ => herrors vs, by simp⟩

end Writing

variable {o : Origin} {d : Document} {ms : List (String × Document)}

namespace Violation

def fieldNames : List String := ["field", "message", "code"]

theorem nodup_names : (RecordField.names format.fields).Nodup := by decide

/-- The violation that a document describes by its members. -/
structure IsDescribedBy (o : Origin) (d : Document) (v : Violation) : Prop where
  field : IsGiven Decode.string o none (d.parts fieldNames "field") v.field
  message : IsGiven Decode.string o none (d.parts fieldNames "message") v.message
  code : IsGiven (Decode.optional Decode.string) o (some none) (d.parts fieldNames "code") v.code

theorem IsDescribedBy.unique {v w : Violation} (hv : v.IsDescribedBy o d)
    (hw : w.IsDescribedBy o d) : v = w := by
  cases v
  cases w
  rw [Violation.mk.injEq]
  exact ⟨hv.field.unique hw.field, hv.message.unique hw.message, hv.code.unique hw.code⟩

theorem isPart_fields :
    IsPart format.fields "field" Decode.string field ∧
    IsPart format.fields "message" Decode.string message ∧
    IsPart format.fields "code" (Decode.optional Decode.string) code := by
  simp [isPart_iff, format, required, RecordField.optional, map_eq_ok_iff]

/-- An object is a violation if it describes it and its other members can be passed over. -/
theorem decode_eq_ok_iff {v : Violation} : format.decode o (.record ms) = .ok v ↔
    v.IsDescribedBy o (.record ms) ∧ ∀ m ∈ ms, m.1 ∉ fieldNames → m.2.isSkippable = true := by
  refine RecordFormat.decode_record_eq_ok_iff nodup_names rfl (fun v h => ?_)
    (fun v w => IsDescribedBy.unique) fun v h => ?_
  · obtain ⟨hfield, hmessage, hcode⟩ := isPart_fields
    exact ⟨RecordFormat.isGiven_of_decode nodup_names rfl rfl hfield h,
      RecordFormat.isGiven_of_decode nodup_names rfl rfl hmessage h,
      RecordFormat.isGiven_of_decode nodup_names rfl rfl hcode h⟩
  · simp only [format, List.forall_mem_cons]
    exact ⟨h.field.isReadFrom (fun _ _ => rfl) fun _ => rfl,
      h.message.isReadFrom (fun _ _ => rfl) fun _ => rfl,
      h.code.isReadFrom (fun _ _ => rfl) (by simp [RecordField.optional]), by simp⟩

end Violation

namespace Problem

def fieldNames : List String :=
  ["type", "title", "status", "detail", "instance", "code", "trace_id", "errors"]

theorem nodup_names : (RecordField.names format.fields).Nodup := by decide

structure IsDescribedBy (o : Origin) (d : Document) (p : Problem) : Prop where
  typeUrl : IsGiven Decode.string o none (d.parts fieldNames "type") p.typeUrl
  title : IsGiven Decode.string o none (d.parts fieldNames "title") p.title
  status : IsGiven Status.decode o none (d.parts fieldNames "status") p.status
  detail : IsGiven Decode.string o none (d.parts fieldNames "detail") p.detail
  reference : IsGiven Decode.string o (some "") (d.parts fieldNames "instance") p.reference
  code : IsGiven Decode.string o (some "") (d.parts fieldNames "code") p.code
  traceId : IsGiven (Decode.optional Decode.string) o (some none) (d.parts fieldNames "trace_id")
    p.traceId
  errors : IsGiven (Decode.optional (Decode.list Violation.format.decode)) o (some none)
    (d.parts fieldNames "errors") p.errors

theorem IsDescribedBy.unique {p q : Problem} (hp : p.IsDescribedBy o d) (hq : q.IsDescribedBy o d) :
    p = q := by
  cases p
  cases q
  rw [Problem.mk.injEq]
  exact ⟨hp.typeUrl.unique hq.typeUrl, hp.title.unique hq.title, hp.status.unique hq.status,
    hp.detail.unique hq.detail, hp.reference.unique hq.reference, hp.code.unique hq.code,
    hp.traceId.unique hq.traceId, hp.errors.unique hq.errors⟩

theorem isPart_fields :
    IsPart format.fields "type" Decode.string typeUrl ∧
    IsPart format.fields "title" Decode.string title ∧
    IsPart format.fields "status" Status.decode status ∧
    IsPart format.fields "detail" Decode.string detail ∧
    IsPart format.fields "instance" Decode.string reference ∧
    IsPart format.fields "code" Decode.string code ∧
    IsPart format.fields "trace_id" (Decode.optional Decode.string) traceId ∧
    IsPart format.fields "errors" (Decode.optional (Decode.list Violation.format.decode))
      errors := by
  simp [isPart_iff, format, required, RecordField.optional, defaulted, map_eq_ok_iff]

theorem decode_eq_ok_iff {p : Problem} : format.decode o (.record ms) = .ok p ↔
    p.IsDescribedBy o (.record ms) ∧ ∀ m ∈ ms, m.1 ∉ fieldNames → m.2.isSkippable = true := by
  refine RecordFormat.decode_record_eq_ok_iff nodup_names rfl (fun p h => ?_)
    (fun p q => IsDescribedBy.unique) fun p h => ?_
  · obtain ⟨htype, htitle, hstatus, hdetail, hreference, hcode, htrace, herrors⟩ := isPart_fields
    exact ⟨RecordFormat.isGiven_of_decode nodup_names rfl rfl htype h,
      RecordFormat.isGiven_of_decode nodup_names rfl rfl htitle h,
      RecordFormat.isGiven_of_decode nodup_names rfl rfl hstatus h,
      RecordFormat.isGiven_of_decode nodup_names rfl rfl hdetail h,
      RecordFormat.isGiven_of_decode nodup_names rfl rfl hreference h,
      RecordFormat.isGiven_of_decode nodup_names rfl rfl hcode h,
      RecordFormat.isGiven_of_decode nodup_names rfl rfl htrace h,
      RecordFormat.isGiven_of_decode nodup_names rfl rfl herrors h⟩
  · simp only [format, List.forall_mem_cons]
    exact ⟨h.typeUrl.isReadFrom (fun _ _ => rfl) fun _ => rfl,
      h.title.isReadFrom (fun _ _ => rfl) fun _ => rfl,
      h.status.isReadFrom (fun _ _ => rfl) fun _ => rfl,
      h.detail.isReadFrom (fun _ _ => rfl) fun _ => rfl,
      h.reference.isReadFrom (fun _ _ => rfl) (by simp [defaulted]),
      h.code.isReadFrom (fun _ _ => rfl) (by simp [defaulted]),
      h.traceId.isReadFrom (fun _ _ => rfl) (by simp [RecordField.optional]),
      h.errors.isReadFrom (fun _ _ => rfl) (by simp [RecordField.optional]), by simp⟩

end Problem

/-- A problem is read back from its document and from its text. An object is accepted as a problem,
or as a violation, if its members describe one and the others can be passed over; once it has been
read and written, it does not change any more. -/
theorem problem_survives_round_trip :
    (∀ p, IsReadAs Problem.format.decode (Problem.format.encode p) p) ∧
    (∀ o d p, Problem.format.decode o d = .ok p → ∀ o', ∃ q,
      Problem.format.decode o' (Problem.format.encode p) = .ok q ∧
        Problem.format.encode q = Problem.format.encode p) ∧
    (∀ text p, decodeText Problem.format.decode text = .ok p → ∃ q,
      decodeText Problem.format.decode (Problem.format.encode p).text = .ok q ∧
        (Problem.format.encode q).text = (Problem.format.encode p).text) ∧
    (∀ o ms p, Problem.format.decode o (.record ms) = .ok p ↔
      p.IsDescribedBy o (.record ms) ∧
        ∀ m ∈ ms, m.1 ∉ Problem.fieldNames → m.2.isSkippable = true) ∧
    ∀ o ms v, Violation.format.decode o (.record ms) = .ok v ↔
      v.IsDescribedBy o (.record ms) ∧
        ∀ m ∈ ms, m.1 ∉ Violation.fieldNames → m.2.isSkippable = true := by
  have hread (p : Problem) : IsReadAs Problem.format.decode (Problem.format.encode p) p :=
    isReadAs_of_isWritable p.isWritable_encode fun o => p.decode_encode o
  refine ⟨hread, fun o d p _ o' => ?_, fun text p _ => ?_, fun o ms p => Problem.decode_eq_ok_iff,
    fun o ms v => Violation.decode_eq_ok_iff⟩
  · exact ⟨p, (hread p).document o', rfl⟩
  · exact ⟨p, (hread p).text, rfl⟩

/-- Members of other names, nulls and the order of the members say nothing about the problem. -/
example : Problem.format.decode .text (.record [("detail", .string "no such berth"),
    ("errors", .null), ("hint", .list [.int 3]), ("status", .int 404), ("instance", .string ""),
    ("title", .string "Not Found"), ("trace_id", .null), ("type", .string "about:blank")]) =
      .ok (.ofStatus ⟨404, by decide⟩ "Not Found" "no such berth") := rfl

end QueryCriteria
