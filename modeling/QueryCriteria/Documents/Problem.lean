import QueryCriteria.Json.Record
import QueryCriteria.Problem

/-!
# Problems in documents

A problem is a record whose status is its number. Texts that are empty and lists that are absent are
left out, and members that a problem does not know are passed over.
-/
namespace QueryCriteria

open Json

def Violation.format : RecordFormat Violation where
  title := "ValidationViolation"
  fields := [
    .required "field" Decode.string .string field fun s v => { v with field := s },
    .required "message" Decode.string .string message fun s v => { v with message := s },
    .optional "code" Decode.string .string code fun s v => { v with code := s }]
  initial := ⟨"", "", none⟩
  refusesOthers := false

theorem Violation.decode_encode (o : Origin) (v : Violation) :
    format.decode o (format.encode v) = .ok v := by
  obtain ⟨field, message, code⟩ := v
  cases code <;>
    simp [format, RecordFormat.decode, RecordFormat.encode, RecordField.members,
      RecordFormat.ofMembers, RecordFormat.readMembers, RecordFormat.readMember,
      RecordField.find?, RecordField.required, RecordField.optional, RecordField.checkMissing, bind,
      Except.bind, pure, Except.pure, Except.map, Decode.optional]

namespace Status

def decode : Decoder Status := fun o d => do
  let code ← Decode.integer "u16" 0 65535 o d
  match ofCode? code.toNat with
  | some status => return status
  | none => .error (.refused "invalid status code")

def encode (s : Status) : Document := .int s.code

@[simp] theorem decode_encode (o : Origin) (s : Status) : decode o s.encode = .ok s := by
  have h := s.isValid
  have hr : (s.code : Int) ≤ 65535 := by omega
  simp [decode, encode, Decode.integer, hr, bind, Except.bind, pure, Except.pure]

end Status

def Problem.format : RecordFormat Problem where
  title := "Problem"
  fields := [
    .required "type" Decode.string .string typeUrl fun s p => { p with typeUrl := s },
    .required "title" Decode.string .string title fun s p => { p with title := s },
    .required "status" Status.decode Status.encode status fun s p => { p with status := s },
    .required "detail" Decode.string .string detail fun s p => { p with detail := s },
    .defaulted "instance" Decode.string .string reference (fun s p => { p with reference := s })
      String.isEmpty,
    .defaulted "code" Decode.string .string code (fun s p => { p with code := s }) String.isEmpty,
    .optional "trace_id" Decode.string .string traceId fun s p => { p with traceId := s },
    .optional "errors" (Decode.list Violation.format.decode)
      (fun vs => .list (vs.map Violation.format.encode)) errors fun vs p => { p with errors := vs }]
  initial := .ofStatus .internalServerError "" ""
  refusesOthers := false

theorem Problem.decode_encode (o : Origin) (p : Problem) :
    format.decode o (format.encode p) = .ok p := by
  obtain ⟨typeUrl, title, status, detail, reference, code, traceId, errors⟩ := p
  have hv (vs : List Violation) :
      Decode.list Violation.format.decode o (.list (vs.map Violation.format.encode)) = .ok vs :=
    Decode.list_map fun v _ => Violation.decode_encode o v
  by_cases hr : reference = "" <;> by_cases hc : code = "" <;> cases traceId <;> cases errors <;>
    simp [format, RecordFormat.decode, RecordFormat.encode, RecordField.members,
      RecordFormat.ofMembers, RecordFormat.readMembers, RecordFormat.readMember,
      RecordField.find?, RecordField.required, RecordField.defaulted, RecordField.optional,
      RecordField.checkMissing, bind, Except.bind, pure, Except.pure, Except.map, Decode.optional,
      hr, hc, hv, Problem.ofStatus]

end QueryCriteria
