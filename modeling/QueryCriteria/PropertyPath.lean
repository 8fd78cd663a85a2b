import QueryCriteria.AssociationPath

/-!
# Property paths

A property is addressed by the path to the entity that owns it and its name there. The flat form
writes both in one dotted text, whose last segment is the property.
-/
namespace QueryCriteria

open Text

/-- The address of a property; its name is a segment. -/
@[ext] structure PropertyPath where
  association : AssociationPath
  property : String
  isSegment : IsSegment property

namespace PropertyPath

instance : DecidableEq PropertyPath := fun _ _ => decidable_of_iff' _ PropertyPath.ext_iff

def refusal (text : String) (fault : SegmentFault) : CriteriaError :=
  .invalidPropertyPath text fault.message

/-- The property with a name on the entity at a path, if the name is a segment. -/
def ofName (association : AssociationPath) (property : String) :
    Except CriteriaError PropertyPath :=
  match h : segmentFault? property with
  | some fault => .error (refusal property fault)
  | none => .ok ⟨association, property, h⟩

/-- The property that a dotted text addresses, every step of one kind. The last segment is checked
before the others. -/
def parse (text : String) (kind : JoinKind) : Except CriteriaError PropertyPath :=
  let property := (segments text).getLast (segments_ne_nil text)
  match h : segmentFault? property with
  | some fault => .error (refusal text fault)
  | none =>
    (stepsOfNames kind (fun _ fault => refusal text fault) (segments text).dropLast).map
      fun steps => ⟨⟨steps⟩, property, h⟩

def display (p : PropertyPath) : String :=
  if p.association.isRoot then p.property else p.association.display ++ "." ++ p.property

end PropertyPath
end QueryCriteria
