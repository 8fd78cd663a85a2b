import QueryCriteria.Documents.Target
import QueryCriteria.Proofs.Except

/-!
# Well-formed targets

A target is well formed if it gives one of the two forms of an address, without what belongs to the
other, and every name in it is a segment. Then it addresses one property. Any other target is
refused, and here the refusals are listed. Of a dotted text the last segment is looked at first.
-/
namespace QueryCriteria

open Json Text

section Steps

variable {kind : JoinKind} {names : List String} {steps : List Step}

theorem stepsOfNames_eq_ok_iff {refuse : String → SegmentFault → CriteriaError} :
    stepsOfNames kind refuse names = .ok steps ↔
      steps.map Step.name = names ∧ ∀ step ∈ steps, step.kind = kind := by
  constructor
  · exact names_of_stepsOfNames
  · rintro ⟨rfl, hkinds⟩
    induction steps with
    | nil => rfl
    | cons step rest ih =>
      obtain ⟨hkind, hrest⟩ := List.forall_mem_cons.mp hkinds
      rw [List.map_cons, stepsOfNames]
      split
      · rename_i fault hfault
        rw [step.isSegment] at hfault
        cases hfault
      · rw [ih hrest, ← hkind]
        rfl

theorem stepsOfNames_eq_error_iff {refuse : SegmentFault → CriteriaError} {e : CriteriaError} :
    stepsOfNames kind (fun _ => refuse) names = .error e ↔
      ∃ fault, names.findSome? segmentFault? = some fault ∧ refuse fault = e := by
  induction names with
  | nil => simp [stepsOfNames]
  | cons name rest ih =>
    rw [stepsOfNames, List.findSome?_cons]
    split
    · rename_i fault hfault
      simp [hfault]
    · rename_i hsegment
      rw [map_eq_error_iff, ih, hsegment]

end Steps

/-- The fault of a dotted text: that of its last segment, or else the first of the others. -/
def pathFault? (text : String) : Option SegmentFault :=
  ((segments text).getLast (segments_ne_nil text) :: (segments text).dropLast).findSome?
    segmentFault?

theorem pathFault?_eq_none_iff {text : String} :
    pathFault? text = none ↔ ∀ segment ∈ segments text, IsSegment segment := by
  have hsplit := List.dropLast_append_getLast (segments_ne_nil text)
  constructor
  · intro h segment hmem
    rw [← hsplit, List.mem_append, List.mem_singleton] at hmem
    exact List.findSome?_eq_none_iff.mp h segment (List.mem_cons.mpr hmem.symm)
  · intro h
    refine List.findSome?_eq_none_iff.mpr fun segment hmem => h segment ?_
    rw [← hsplit, List.mem_append, List.mem_singleton]
    exact (List.mem_cons.mp hmem).symm

namespace PropertyPath

variable {text : String} {kind : JoinKind}

theorem ofName_eq_ok_iff {association : AssociationPath} {name : String} {p : PropertyPath} :
    ofName association name = .ok p ↔ p.association = association ∧ p.property = name := by
  unfold ofName
  split
  · rename_i fault hfault
    simp only [reduceCtorEq, false_iff, not_and]
    rintro - rfl
    rw [p.isSegment] at hfault
    cases hfault
  · rw [Except.ok.injEq, PropertyPath.ext_iff]
    exact and_congr eq_comm eq_comm

theorem ofName_eq_error_iff {association : AssociationPath} {name : String} {e : CriteriaError} :
    ofName association name = .error e ↔
      ∃ fault, segmentFault? name = some fault ∧ refusal name fault = e := by
  unfold ofName
  split
  · rename_i fault hfault
    simp [hfault]
  · rename_i hsegment
    simp [hsegment]

theorem parse_eq_ok_iff {p : PropertyPath} :
    parse text kind = .ok p ↔
      p.association.names ++ [p.property] = segments text ∧
        ∀ step ∈ p.association.steps, step.kind = kind := by
  have hsplit := List.dropLast_append_getLast (segments_ne_nil text)
  unfold parse
  dsimp only
  split
  · rename_i fault hfault
    -- A property path can have no last segment with a fault, as its property is a segment.
    simp only [reduceCtorEq, false_iff, not_and]
    intro hnames
    have hlast : (segments text).getLast (segments_ne_nil text) = p.property := by
      simp [← hnames]
    rw [hlast, p.isSegment] at hfault
    cases hfault
  · rename_i hsegment
    simp only [map_eq_ok_iff, stepsOfNames_eq_ok_iff]
    constructor
    · rintro ⟨steps, ⟨hnames, hkinds⟩, rfl⟩
      refine ⟨?_, hkinds⟩
      rw [AssociationPath.names, hnames]
      exact hsplit
    · rintro ⟨hnames, hkinds⟩
      have hinit : p.association.steps.map Step.name = (segments text).dropLast := by
        rw [← hnames, List.dropLast_concat, AssociationPath.names]
      have hlast : (segments text).getLast (segments_ne_nil text) = p.property := by
        simp [← hnames]
      exact ⟨p.association.steps, ⟨hinit, hkinds⟩, PropertyPath.ext rfl hlast⟩

theorem parse_eq_error_iff {e : CriteriaError} :
    parse text kind = .error e ↔
      ∃ fault, pathFault? text = some fault ∧ refusal text fault = e := by
  unfold parse
  dsimp only
  split
  · rename_i fault hfault
    simp [pathFault?, hfault]
  · rename_i hsegment
    rw [map_eq_error_iff, stepsOfNames_eq_error_iff, pathFault?, List.findSome?_cons, hsegment]

end PropertyPath

namespace RawTarget

/-- A target in one of its two forms: a name, with a path of steps that may be missing, or a dotted
text, with a join kind that may be missing. -/
inductive WellFormed : RawTarget → Prop
  | name {association : Option AssociationPath} {name : String} (h : IsSegment name) :
    WellFormed ⟨association, some name, none, none⟩
  | path {text : String} {kind : Option JoinKind}
    (h : ∀ segment ∈ segments text, IsSegment segment) :
    WellFormed ⟨none, none, some text, kind⟩

/-- The property that a target addresses. -/
inductive Addresses : RawTarget → PropertyPath → Prop
  | name {association : Option AssociationPath} {p : PropertyPath}
    (h : p.association = association.getD .root) :
    Addresses ⟨association, some p.property, none, none⟩ p
  | path {text : String} {kind : Option JoinKind} {p : PropertyPath}
    (hnames : p.association.names ++ [p.property] = segments text)
    (hkinds : ∀ step ∈ p.association.steps, step.kind = kind.getD .standard) :
    Addresses ⟨none, none, some text, kind⟩ p

/-- Why a target of a criterion of a property id is refused. -/
inductive Refused (id : String) : RawTarget → CriteriaError → Prop
  | neither {association : Option AssociationPath} {kind : Option JoinKind} :
    Refused id ⟨association, none, none, kind⟩
      (.invalidCriterion id "one of `targetPropertyName` or `propertyPath` is required")
  | both {association : Option AssociationPath} {name text : String} {kind : Option JoinKind} :
    Refused id ⟨association, some name, some text, kind⟩
      (.invalidCriterion id "both `targetPropertyName` and `propertyPath` are set")
  | nameWithKind {association : Option AssociationPath} {name : String} {kind : JoinKind} :
    Refused id ⟨association, some name, none, some kind⟩
      (.invalidCriterion id "`joinKind` only applies to `propertyPath`")
  | pathWithAssociation {association : AssociationPath} {text : String} {kind : Option JoinKind} :
    Refused id ⟨some association, none, some text, kind⟩
      (.invalidCriterion id "`associationPath` cannot be combined with `propertyPath`")
  | name {association : Option AssociationPath} {name : String} {fault : SegmentFault}
    (h : segmentFault? name = some fault) :
    Refused id ⟨association, some name, none, none⟩ (PropertyPath.refusal name fault)
  | path {text : String} {kind : Option JoinKind} {fault : SegmentFault}
    (h : pathFault? text = some fault) :
    Refused id ⟨none, none, some text, kind⟩ (PropertyPath.refusal text fault)

variable {id : String} {t : RawTarget}

theorem toPropertyPath_eq_ok_iff {p : PropertyPath} :
    t.toPropertyPath id = .ok p ↔ t.Addresses p := by
  constructor
  · obtain ⟨association, name, path, kind⟩ := t
    intro h
    unfold toPropertyPath at h
    cases name with
    | none =>
      cases path with
      | none => cases h
      | some text =>
        cases association with
        | some association => cases h
        | none =>
          obtain ⟨hnames, hkinds⟩ := PropertyPath.parse_eq_ok_iff.mp h
          exact .path hnames hkinds
    | some name =>
      cases path with
      | some text => cases h
      | none =>
        cases kind with
        | some kind => cases h
        | none =>
          obtain ⟨hassociation, rfl⟩ := PropertyPath.ofName_eq_ok_iff.mp h
          exact .name hassociation
  · intro h
    cases h with
    | name hassociation => exact PropertyPath.ofName_eq_ok_iff.mpr ⟨hassociation, rfl⟩
    | path hnames hkinds => exact PropertyPath.parse_eq_ok_iff.mpr ⟨hnames, hkinds⟩

theorem toPropertyPath_eq_error_iff {e : CriteriaError} :
    t.toPropertyPath id = .error e ↔ t.Refused id e := by
  constructor
  · obtain ⟨association, name, path, kind⟩ := t
    intro h
    unfold toPropertyPath at h
    cases name with
    | none =>
      cases path with
      | none =>
        cases h
        exact .neither
      | some text =>
        cases association with
        | some association =>
          cases h
          exact .pathWithAssociation
        | none =>
          obtain ⟨fault, hfault, rfl⟩ := PropertyPath.parse_eq_error_iff.mp h
          exact .path hfault
    | some name =>
      cases path with
      | some text =>
        cases h
        exact .both
      | none =>
        cases kind with
        | some kind =>
          cases h
          exact .nameWithKind
        | none =>
          obtain ⟨fault, hfault, rfl⟩ := PropertyPath.ofName_eq_error_iff.mp h
          exact .name hfault
  · intro h
    cases h with
    | neither | both | nameWithKind | pathWithAssociation => rfl
    | name hfault => exact PropertyPath.ofName_eq_error_iff.mpr ⟨_, hfault, rfl⟩
    | path hfault => exact PropertyPath.parse_eq_error_iff.mpr ⟨_, hfault, rfl⟩

theorem exists_addresses_iff : (∃ p, t.Addresses p) ↔ t.WellFormed := by
  constructor
  · rintro ⟨p, hp⟩
    cases hp with
    | name => exact .name p.isSegment
    | path hnames =>
      refine .path ?_
      rw [← hnames]
      intro segment hmem
      rcases List.mem_append.mp hmem with hname | hproperty
      · obtain ⟨step, -, rfl⟩ := List.mem_map.mp hname
        exact step.isSegment
      · rw [List.mem_singleton.mp hproperty]
        exact p.isSegment
  · intro h
    cases h with
    | @name association name h =>
      exact ⟨_, Addresses.name (p := ⟨association.getD .root, name, h⟩) rfl⟩
    | @path text kind h =>
      cases hparse : PropertyPath.parse text (kind.getD .standard) with
      | ok p =>
        obtain ⟨hnames, hkinds⟩ := PropertyPath.parse_eq_ok_iff.mp hparse
        exact ⟨p, .path hnames hkinds⟩
      | error e =>
        obtain ⟨fault, hfault, -⟩ := PropertyPath.parse_eq_error_iff.mp hparse
        rw [pathFault?_eq_none_iff.mpr h] at hfault
        cases hfault

theorem Refused.error_cases {e : CriteriaError} (h : t.Refused id e) :
    (∃ id reason, e = .invalidCriterion id reason) ∨
      ∃ path reason, e = .invalidPropertyPath path reason := by
  cases h with
  | neither | both | nameWithKind | pathWithAssociation => exact .inl ⟨_, _, rfl⟩
  | name | path => exact .inr ⟨_, _, rfl⟩

def fieldNames : List String :=
  ["associationPath", "targetPropertyName", "propertyPath", "joinKind"]

/-- Whether the members of a criterion that are not its own all belong to its target. -/
def Known (others : List (String × Value)) : Prop := ∀ key ∈ Keyed.keys others, key ∈ fieldNames

/-- The first member that does not belong to a target. -/
def FirstUnknown (others : List (String × Value)) (key : String) : Prop :=
  ∃ before after, Keyed.keys others = before ++ key :: after ∧ (∀ k ∈ before, k ∈ fieldNames) ∧
    key ∉ fieldNames

theorem isNone_find?_fields (key : String) :
    (RecordField.find? fields key).isNone = true ↔ key ∉ fieldNames := by
  have hnames : fields.map RecordField.name = fieldNames := rfl
  rw [← hnames, RecordField.find?, Option.isNone_iff_eq_none, List.find?_eq_none]
  simp [List.mem_map]

variable {others : List (String × Value)}

theorem checkOthers_eq_ok_iff {done : Unit} :
    checkOthers id others = .ok done ↔ Known others := by
  unfold checkOthers
  split
  · rename_i key hkey
    have hunknown := List.find?_some hkey
    rw [isNone_find?_fields] at hunknown
    simp only [reduceCtorEq, false_iff]
    intro hknown
    exact hunknown (hknown key (List.mem_of_find?_eq_some hkey))
  · rename_i hnone
    simp only [true_iff]
    intro key hkey
    have hfound := List.find?_eq_none.mp hnone key hkey
    rw [isNone_find?_fields, not_not] at hfound
    exact hfound

theorem checkOthers_eq_error_iff {e : CriteriaError} :
    checkOthers id others = .error e ↔
      ∃ key, FirstUnknown others key ∧
        e = .invalidCriterion id ("unknown field " ++ ticked key) := by
  have hfirst : ∀ key, ((Keyed.keys others).find? fun key =>
      (RecordField.find? fields key).isNone) = some key ↔ FirstUnknown others key := by
    intro key
    rw [List.find?_eq_some_iff_append, isNone_find?_fields]
    simp only [Bool.not_eq_true', ← Bool.not_eq_true, isNone_find?_fields, not_not]
    constructor
    · rintro ⟨hkey, before, after, hkeys, hbefore⟩
      exact ⟨before, after, hkeys, hbefore, hkey⟩
    · rintro ⟨before, after, hkeys, hbefore, hkey⟩
      exact ⟨hkey, before, after, hkeys, hbefore⟩
  unfold checkOthers
  split
  · rename_i found hfound
    constructor
    · intro h
      cases h
      exact ⟨found, (hfirst found).mp hfound, rfl⟩
    · rintro ⟨key, hkey, rfl⟩
      rw [← hfirst key, hfound, Option.some.injEq] at hkey
      rw [hkey]
  · rename_i hnone
    simp only [reduceCtorEq, false_iff]
    rintro ⟨key, hkey, -⟩
    rw [← hfirst key, hnone] at hkey
    cases hkey

end RawTarget
end QueryCriteria
