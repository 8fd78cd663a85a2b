import QueryCriteria.Proofs.Documents.Target
import QueryCriteria.Proofs.Text.Blank

/-!
# Paths as dotted texts

A path is shown as its names with dots between them, and read back from this text. The names of a
path are never empty and have no dots and no blanks at their ends, so the segments of the text are
the names again. Conversely every text with such segments is read, and is what shows the path. For
any other text the last segment is looked at first, and then the others from left to right.
-/
namespace QueryCriteria

open Text

namespace Text

/-- A text that is not empty and neither starts nor ends with a blank. -/
def IsTidy (s : String) : Prop := s ≠ "" ∧ hasOuterBlank s = false

/-- Why a text is not tidy, in words. -/
inductive Untidy : String → String → Prop
  | empty : Untidy "" "empty segment"
  | outerBlank {s : String} (hne : s ≠ "") (h : hasOuterBlank s = true) :
    Untidy s "segment has surrounding whitespace"

theorem notMem_of_mem_segments {s segment : String} (h : segment ∈ segments s) :
    '.' ∉ segment.toList := by
  obtain ⟨cs, hcs, rfl⟩ := List.mem_map.mp h
  rw [String.toList_ofList]
  exact notMem_of_mem_splitAtDots hcs

theorem dotted_cons (name : String) {rest : List String} (h : rest ≠ []) :
    dotted (name :: rest) = name ++ "." ++ dotted rest := by
  cases rest with
  | nil => exact absurd rfl h
  | cons next rest => rfl

theorem dotted_concat {names : List String} (h : names ≠ []) (last : String) :
    dotted (names ++ [last]) = dotted names ++ "." ++ last := by
  induction names with
  | nil => exact absurd rfl h
  | cons name rest ih =>
    cases rest with
    | nil => rfl
    | cons next rest =>
      rw [List.cons_append, dotted_cons name (by simp), ih (by simp), dotted_cons name (by simp)]
      simp only [String.append_assoc]

end Text

section Segments

variable {text segment reason : String}

/-- A segment of a text is a name of a path exactly if it is tidy, as it has no dot. -/
theorem isSegment_iff_isTidy (h : segment ∈ segments text) : IsSegment segment ↔ IsTidy segment := by
  have hdot := notMem_of_mem_segments h
  rw [isSegment_iff, IsTidy]
  simp [hdot]

theorem untidy_iff (h : segment ∈ segments text) :
    Untidy segment reason ↔ ∃ fault, segmentFault? segment = some fault ∧ fault.message = reason := by
  have hdot := notMem_of_mem_segments h
  unfold segmentFault?
  constructor
  · intro huntidy
    cases huntidy with
    | empty => exact ⟨.empty, rfl, rfl⟩
    | outerBlank hne hblank => exact ⟨.outerBlank, by simp [hne, hdot, hblank], rfl⟩
  · rintro ⟨fault, hfault, rfl⟩
    by_cases hempty : segment = ""
    · rw [if_pos hempty] at hfault
      cases hfault
      rw [hempty]
      exact .empty
    · rw [if_neg hempty, if_neg hdot] at hfault
      cases hblank : hasOuterBlank segment with
      | false => simp [hblank] at hfault
      | true =>
        simp only [hblank, if_true, Option.some.injEq] at hfault
        rw [← hfault]
        exact .outerBlank hempty hblank

/-- The reason to refuse a text as a property path: that of its last segment, or else that of the
leftmost other segment that is not tidy. -/
inductive PropertyPath.RefusedFor (text : String) : String → Prop
  | last {before : List String} {name reason : String}
    (hsegments : segments text = before ++ [name]) (h : Untidy name reason) :
    RefusedFor text reason
  | leftmost {before after : List String} {name last reason : String}
    (hsegments : segments text = before ++ name :: after ++ [last])
    (hlast : IsTidy last) (hbefore : ∀ other ∈ before, IsTidy other) (h : Untidy name reason) :
    RefusedFor text reason

theorem pathFault?_eq {init : List String} {last : String} (h : segments text = init ++ [last]) :
    pathFault? text = (last :: init).findSome? segmentFault? := by
  have hlast : (segments text).getLast (segments_ne_nil text) = last := by simp [h]
  have hinit : (segments text).dropLast = init := by simp [h]
  rw [pathFault?, hlast, hinit]

theorem PropertyPath.refusedFor_iff :
    RefusedFor text reason ↔ ∃ fault, pathFault? text = some fault ∧ fault.message = reason := by
  constructor
  · intro h
    cases h with
    | @last before name reason hsegments huntidy =>
      have hname : name ∈ segments text := by simp [hsegments]
      obtain ⟨fault, hfault, hreason⟩ := (untidy_iff hname).mp huntidy
      refine ⟨fault, ?_, hreason⟩
      rw [pathFault?_eq hsegments, List.findSome?_cons, hfault]
    | @leftmost before after name last reason hsegments hlast hbefore huntidy =>
      -- The check starts with the last segment, so that a leftmost fault is behind it in the list.
      have hmem : ∀ other ∈ last :: before ++ [name], other ∈ segments text := by grind
      obtain ⟨fault, hfault, hreason⟩ := (untidy_iff (hmem name (by simp))).mp huntidy
      refine ⟨fault, ?_, hreason⟩
      rw [pathFault?_eq hsegments]
      refine List.findSome?_eq_some_iff.mpr ⟨last :: before, name, after, rfl, hfault, ?_⟩
      intro other hother
      apply (isSegment_iff_isTidy (hmem other (List.mem_append_left _ hother))).mpr
      exact List.forall_mem_cons.mpr ⟨hlast, hbefore⟩ other hother
  · rintro ⟨fault, hfault, rfl⟩
    have hsegments := (List.dropLast_append_getLast (segments_ne_nil text)).symm
    rw [pathFault?_eq hsegments] at hfault
    obtain ⟨passed, name, after, hlist, hname, hpassed⟩ := List.findSome?_eq_some_iff.mp hfault
    rcases List.cons_eq_append_iff.mp hlist with ⟨rfl, heq⟩ | ⟨before, rfl, hinit⟩
    · obtain ⟨rfl, -⟩ := List.cons_eq_cons.mp heq
      exact .last hsegments ((untidy_iff (List.getLast_mem _)).mpr ⟨fault, hname, rfl⟩)
    · have hmem : ∀ other ∈ before ++ [name], other ∈ segments text := by
        intro other hother
        apply List.dropLast_subset
        rw [hinit, List.append_cons]
        exact List.mem_append_left _ hother
      obtain ⟨hlast, hbefore⟩ := List.forall_mem_cons.mp hpassed
      rw [hinit] at hsegments
      refine .leftmost hsegments ((isSegment_iff_isTidy (List.getLast_mem _)).mp hlast) ?_
        ((untidy_iff (hmem name (by simp))).mpr ⟨fault, hname, rfl⟩)
      intro other hother
      exact (isSegment_iff_isTidy (hmem other (List.mem_append_left _ hother))).mp
        (hbefore other hother)

end Segments

theorem AssociationPath.isSegment_of_mem_names {p : AssociationPath} {name : String}
    (h : name ∈ p.names) : IsSegment name := by
  obtain ⟨step, -, rfl⟩ := List.mem_map.mp h
  exact step.isSegment

theorem PropertyPath.isSegment_of_mem_names {p : PropertyPath} {name : String}
    (h : name ∈ p.association.names ++ [p.property]) : IsSegment name := by
  rcases List.mem_append.mp h with hstep | hproperty
  · exact AssociationPath.isSegment_of_mem_names hstep
  · rw [List.mem_singleton.mp hproperty]
    exact p.isSegment

theorem segments_dotted_of_isSegment {names : List String} (hne : names ≠ [])
    (h : ∀ name ∈ names, IsSegment name) : segments (dotted names) = names :=
  segments_dotted hne fun name hname => (isSegment_iff.mp (h name hname)).2.1

namespace PropertyPath

variable {text : String} {kind : JoinKind}

theorem display_eq_dotted (p : PropertyPath) :
    p.display = dotted (p.association.names ++ [p.property]) := by
  unfold display AssociationPath.display AssociationPath.key
  cases hroot : p.association.isRoot with
  | true =>
    have hnames : p.association.names = [] := by
      rw [AssociationPath.names, List.isEmpty_iff.mp hroot, List.map_nil]
    rw [hnames]
    rfl
  | false =>
    have hnames : p.association.names ≠ [] := by
      simpa [AssociationPath.isRoot, AssociationPath.names] using hroot
    rw [dotted_concat hnames]
    rfl

theorem exists_parse_eq_ok_iff :
    (∃ p, parse text kind = .ok p) ↔ ∀ segment ∈ segments text, IsTidy segment := by
  have htidy : (∀ segment ∈ segments text, IsTidy segment) ↔ pathFault? text = none := by
    rw [pathFault?_eq_none_iff]
    exact forall₂_congr fun segment hmem => (isSegment_iff_isTidy hmem).symm
  rw [htidy]
  cases hparse : parse text kind with
  | ok p =>
    simp only [Except.ok.injEq, exists_eq', true_iff]
    cases hfault : pathFault? text with
    | none => rfl
    | some fault =>
      have herror : parse text kind = .error (refusal text fault) :=
        parse_eq_error_iff.mpr ⟨fault, hfault, rfl⟩
      rw [hparse] at herror
      cases herror
  | error e =>
    obtain ⟨fault, hfault, -⟩ := parse_eq_error_iff.mp hparse
    simp [hfault]

theorem parse_eq_error_iff_refusedFor {e : CriteriaError} :
    parse text kind = .error e ↔
      ∃ reason, RefusedFor text reason ∧ e = .invalidPropertyPath text reason := by
  rw [parse_eq_error_iff]
  simp only [refusedFor_iff, refusal]
  constructor
  · rintro ⟨fault, hfault, rfl⟩
    exact ⟨_, ⟨fault, hfault, rfl⟩, rfl⟩
  · rintro ⟨_, ⟨fault, hfault, rfl⟩, rfl⟩
    exact ⟨fault, hfault, rfl⟩

theorem display_of_parse {p : PropertyPath} (h : parse text kind = .ok p) : p.display = text := by
  rw [display_eq_dotted, (parse_eq_ok_iff.mp h).1, dotted_segments]

theorem parse_display {p : PropertyPath} (h : ∀ step ∈ p.association.steps, step.kind = kind) :
    parse p.display kind = .ok p := by
  rw [parse_eq_ok_iff, display_eq_dotted]
  exact ⟨(segments_dotted_of_isSegment (by simp) fun _ => isSegment_of_mem_names).symm, h⟩

end PropertyPath

namespace AssociationPath

variable {text : String} {kind : JoinKind}

theorem parse_empty (kind : JoinKind) : parse "" kind = .ok .root := by
  rw [parse, if_pos rfl]

theorem parse_eq_ok_iff (hne : text ≠ "") {p : AssociationPath} :
    parse text kind = .ok p ↔ p.names = segments text ∧ ∀ step ∈ p.steps, step.kind = kind := by
  simp only [parse, if_neg hne, map_eq_ok_iff, stepsOfNames_eq_ok_iff]
  constructor
  · rintro ⟨steps, hsteps, rfl⟩
    exact hsteps
  · intro hsteps
    exact ⟨p.steps, hsteps, rfl⟩

/-- The texts of property paths are those of the association paths other than the root: what is
the property of the one is the last step of the other. -/
theorem exists_parse_eq_ok_iff (hne : text ≠ "") :
    (∃ p, parse text kind = .ok p) ↔ ∃ p, PropertyPath.parse text kind = .ok p := by
  simp only [parse_eq_ok_iff hne, PropertyPath.parse_eq_ok_iff]
  constructor
  · rintro ⟨⟨steps⟩, hnames, hkinds⟩
    rcases List.eq_nil_or_concat steps with rfl | ⟨init, last, rfl⟩
    · exact absurd hnames.symm (segments_ne_nil text)
    · refine ⟨⟨⟨init⟩, last.name, last.isSegment⟩, ?_, ?_⟩
      · rw [← hnames]
        simp [names]
      · intro step hstep
        exact hkinds step (by simp [hstep])
  · rintro ⟨p, hnames, hkinds⟩
    refine ⟨p.association.push ⟨p.property, kind, p.isSegment⟩, ?_, ?_⟩
    · rw [names_push, hnames]
    · intro step hstep
      rcases List.mem_append.mp hstep with hstep | hstep
      · exact hkinds step hstep
      · rw [List.mem_singleton.mp hstep]

theorem display_of_ne_root {p : AssociationPath} (h : p ≠ .root) : p.display = dotted p.names := by
  have hroot : p.isRoot = false := by
    rw [isRoot, List.isEmpty_eq_false_iff]
    rintro hsteps
    exact h (congrArg AssociationPath.mk hsteps)
  rw [display, hroot]
  rfl

theorem parse_display {p : AssociationPath} (h : p ≠ .root)
    (hkinds : ∀ step ∈ p.steps, step.kind = kind) : parse p.display kind = .ok p := by
  have hnames : p.names ≠ [] := by
    intro hnil
    exact h (congrArg AssociationPath.mk (List.map_eq_nil_iff.mp hnil))
  have hsegments : segments (dotted p.names) = p.names :=
    segments_dotted_of_isSegment hnames fun _ => isSegment_of_mem_names
  -- The empty text has one segment, which is empty and so not the name of a step.
  have hne : dotted p.names ≠ "" := by
    intro hempty
    rw [hempty] at hsegments
    have hmem : "" ∈ p.names := by
      rw [← hsegments]
      exact List.mem_singleton.mpr rfl
    exact (isSegment_iff.mp (isSegment_of_mem_names hmem)).1 rfl
  rw [display_of_ne_root h, parse_eq_ok_iff hne]
  exact ⟨hsegments.symm, hkinds⟩

theorem display_of_parse {p : AssociationPath} (hne : text ≠ "")
    (h : parse text kind = .ok p) : p.display = text := by
  have hnames := ((parse_eq_ok_iff hne).mp h).1
  have hroot : p ≠ .root := by
    rintro rfl
    exact segments_ne_nil text hnames.symm
  rw [display_of_ne_root hroot, hnames, dotted_segments]

end AssociationPath

/-- A dotted text is a property path if all its segments are tidy; else the last one is reported if
it is not tidy, and else the leftmost. It is an association path under the same condition, or if it
is empty. Paths with steps of one kind are read back from their texts. -/
theorem PropertyPath.parse_and_display (kind : JoinKind) :
    (∀ text,
      ((∃ p, parse text kind = .ok p) ↔ ∀ segment ∈ segments text, IsTidy segment) ∧
      (∀ p, parse text kind = .ok p →
        p.association.names ++ [p.property] = segments text ∧
        (∀ step ∈ p.association.steps, step.kind = kind) ∧ p.display = text) ∧
      (∀ e, parse text kind = .error e ↔
        ∃ reason, RefusedFor text reason ∧ e = .invalidPropertyPath text reason) ∧
      ((∃ p, AssociationPath.parse text kind = .ok p) ↔
        text = "" ∨ ∀ segment ∈ segments text, IsTidy segment) ∧
      (∀ p, AssociationPath.parse text kind = .ok p →
        (text = "" ∧ p = .root) ∨
        (text ≠ "" ∧ p.names = segments text ∧ (∀ step ∈ p.steps, step.kind = kind) ∧
          p.display = text))) ∧
    (∀ p : PropertyPath, (∀ step ∈ p.association.steps, step.kind = kind) →
      parse p.display kind = .ok p) ∧
    (∀ p : AssociationPath, p ≠ .root → (∀ step ∈ p.steps, step.kind = kind) →
      AssociationPath.parse p.display kind = .ok p) := by
  refine ⟨fun text => ⟨exists_parse_eq_ok_iff, ?_, fun e => parse_eq_error_iff_refusedFor, ?_, ?_⟩,
    fun p => parse_display, fun p => AssociationPath.parse_display⟩
  · intro p hparse
    obtain ⟨hnames, hkinds⟩ := parse_eq_ok_iff.mp hparse
    exact ⟨hnames, hkinds, display_of_parse hparse⟩
  · by_cases hempty : text = ""
    · simp [hempty, AssociationPath.parse_empty]
    · rw [AssociationPath.exists_parse_eq_ok_iff hempty, exists_parse_eq_ok_iff]
      simp [hempty]
  · intro p hparse
    by_cases hempty : text = ""
    · rw [hempty, AssociationPath.parse_empty, Except.ok.injEq] at hparse
      exact .inl ⟨hempty, hparse.symm⟩
    · obtain ⟨hnames, hkinds⟩ := (AssociationPath.parse_eq_ok_iff hempty).mp hparse
      exact .inr ⟨hempty, hnames, hkinds, AssociationPath.display_of_parse hempty hparse⟩

end QueryCriteria
