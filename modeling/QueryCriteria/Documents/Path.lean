import QueryCriteria.Json.Record
import QueryCriteria.JoinTree

/-!
# Association paths in documents

An association path is the list of its steps. A step is a record of its name and its join kind,
which may be missing. Other members of a step are passed over.
-/
namespace QueryCriteria

open Json

namespace JoinKind

def decode : Decoder JoinKind := Decode.oneOf (all.map name) ofName?

def encode (kind : JoinKind) : Document := .string kind.name

@[simp] theorem decode_encode (o : Origin) (kind : JoinKind) :
    decode o kind.encode = .ok kind := by
  simp [decode, encode, Decode.oneOf, Decode.named]

end JoinKind

namespace ConflictPolicy

def decode : Decoder ConflictPolicy := Decode.oneOf (all.map name) ofName?

def encode (policy : ConflictPolicy) : Document := .string policy.name

@[simp] theorem decode_encode (o : Origin) (policy : ConflictPolicy) :
    decode o policy.encode = .ok policy := by
  simp [decode, encode, Decode.oneOf, Decode.named]

end ConflictPolicy

/-- A step whose name has not been checked. -/
structure RawStep where
  name : String
  kind : JoinKind
  deriving DecidableEq

def RawStep.format : RecordFormat RawStep where
  title := "RawElement"
  fields := [
    .required "name" Decode.string .string name fun n s => { s with name := n },
    .defaulted "joinKind" JoinKind.decode JoinKind.encode kind (fun k s => { s with kind := k })
      fun _ => false]
  initial := ⟨"", .standard⟩
  refusesOthers := false

@[simp] theorem RawStep.decode_encode (o : Origin) (s : RawStep) :
    format.decode o (format.encode s) = .ok s := by
  obtain ⟨name, kind⟩ := s
  simp [format, RecordFormat.decode, RecordFormat.encode, RecordField.members,
    RecordFormat.ofMembers, RecordFormat.readMembers, RecordFormat.readMember, RecordField.find?,
    RecordField.required, RecordField.defaulted, RecordField.checkMissing, bind, Except.bind, pure,
    Except.pure, Except.map]

namespace Step

def decode : Decoder Step := fun o d => do
  let raw ← RawStep.format.decode o d
  match ofName raw.name raw.kind with
  | .ok step => return step
  | .error e => .error (.refused e.message)

def encode (s : Step) : Document := RawStep.format.encode ⟨s.name, s.kind⟩

@[simp] theorem decode_encode (o : Origin) (s : Step) : decode o s.encode = .ok s := by
  have h : ofName s.name s.kind = .ok s := by
    unfold ofName
    split
    · rename_i fault h
      rw [s.isSegment] at h
      exact absurd h (by simp)
    · rfl
  simp [decode, encode, h, bind, Except.bind, pure, Except.pure]

end Step

namespace AssociationPath

def decode : Decoder AssociationPath := fun o d =>
  (Decode.list Step.decode o d).map AssociationPath.mk

def encode (p : AssociationPath) : Document := .list (p.steps.map Step.encode)

@[simp] theorem decode_encode (o : Origin) (p : AssociationPath) :
    decode o p.encode = .ok p := by
  simp [decode, encode, Decode.list_map, Except.map]

end AssociationPath
end QueryCriteria
