import QueryCriteria.Error
import QueryCriteria.Segment
import QueryCriteria.Text.Dotted

/-!
# Association paths

The entity that owns a property is addressed by the associations that lead to it from the root of a
query. Each step names an association and says how it is joined. The empty path is the root itself.
Two paths are equal when their names and their join kinds agree at every step.
-/
namespace QueryCriteria

open Text

/-- One association step; its name is a segment. -/
structure Step where
  name : String
  kind : JoinKind
  isSegment : IsSegment name
  deriving DecidableEq

/-- The associations from the root to an entity. -/
structure AssociationPath where
  steps : List Step
  deriving DecidableEq

/-- The steps with the given names, all of one kind, or the refusal of the first name that is no
segment. -/
def stepsOfNames (kind : JoinKind) (refuse : String → SegmentFault → CriteriaError) :
    List String → Except CriteriaError (List Step)
  | [] => .ok []
  | name :: rest =>
    match h : segmentFault? name with
    | some fault => .error (refuse name fault)
    | none => (stepsOfNames kind refuse rest).map (⟨name, kind, h⟩ :: ·)

theorem names_of_stepsOfNames {kind : JoinKind} {refuse : String → SegmentFault → CriteriaError}
    {names : List String} {steps : List Step} (h : stepsOfNames kind refuse names = .ok steps) :
    steps.map Step.name = names ∧ ∀ step ∈ steps, step.kind = kind := by
  induction names generalizing steps with
  | nil => simp_all [stepsOfNames]
  | cons name rest ih =>
    unfold stepsOfNames at h
    split at h
    · simp at h
    · cases hr : stepsOfNames kind refuse rest with
      | error e => simp [hr, Except.map] at h
      | ok others =>
        simp only [hr, Except.map, Except.ok.injEq] at h
        subst h
        simpa using ih hr

namespace Step

def refusal (name : String) (fault : SegmentFault) : CriteriaError :=
  .invalidAssociationPath ("`" ++ name ++ "`: " ++ fault.message)

def ofName (name : String) (kind : JoinKind) : Except CriteriaError Step :=
  match h : segmentFault? name with
  | some fault => .error (refusal name fault)
  | none => .ok ⟨name, kind, h⟩

end Step

namespace AssociationPath

def root : AssociationPath := ⟨[]⟩

def names (p : AssociationPath) : List String := p.steps.map Step.name

def kinds (p : AssociationPath) : List JoinKind := p.steps.map Step.kind

def length (p : AssociationPath) : Nat := p.steps.length

def isRoot (p : AssociationPath) : Bool := p.steps.isEmpty

/-- The path that a dotted text writes, every step of one kind. The empty text writes the root. -/
def parse (text : String) (kind : JoinKind) : Except CriteriaError AssociationPath :=
  if text = "" then .ok root
  else (stepsOfNames kind Step.refusal (segments text)).map AssociationPath.mk

def push (p : AssociationPath) (step : Step) : AssociationPath := ⟨p.steps ++ [step]⟩

def append (p q : AssociationPath) : AssociationPath := ⟨p.steps ++ q.steps⟩

/-- The first steps of a path; all of them when it has no more. -/
def take (p : AssociationPath) (count : Nat) : AssociationPath := ⟨p.steps.take count⟩

def last? (p : AssociationPath) : Option Step := p.steps.getLast?

/-- The names with dots between them, which is empty for the root. -/
def key (p : AssociationPath) : String := dotted p.names

def display (p : AssociationPath) : String := if p.isRoot then "<root>" else p.key

@[simp] theorem names_root : root.names = [] := rfl

theorem names_push (p : AssociationPath) (step : Step) :
    (p.push step).names = p.names ++ [step.name] := by
  simp [names, push]

@[simp] theorem last?_push (p : AssociationPath) (step : Step) :
    (p.push step).last? = some step := by
  simp [last?, push]

@[simp] theorem length_push (p : AssociationPath) (step : Step) :
    (p.push step).length = p.length + 1 := by
  simp [length, push]

@[simp] theorem length_names (p : AssociationPath) : p.names.length = p.length := by
  simp [names, length]

end AssociationPath
end QueryCriteria
