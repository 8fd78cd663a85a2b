import Mathlib.Data.List.Permutation
import QueryCriteria.Plan
import QueryCriteria.Proofs.Documents.Formats
import QueryCriteria.Proofs.Documents.TransferObject
import QueryCriteria.Proofs.DottedPaths
import QueryCriteria.Proofs.Json.Decoding
import QueryCriteria.Proofs.Json.Replacement

/-!
# The two forms of a target

The same names, property and join kind can be written as one dotted text or as a list of steps. The
steps of a list are checked when the document is decoded, those of a text when the transfer object
is taken from it, and both accept the same names. So a criterion can be written either way: it is
accepted in both forms or in none, and addresses the same property. The rest of the document does
not notice.
-/
namespace QueryCriteria

open Json Text

/-- The address with these names and this property, every step of one kind. -/
structure PropertyPath.HasParts (names : List String) (property : String) (kind : JoinKind)
    (p : PropertyPath) : Prop where
  names : p.association.names = names
  property : p.property = property
  kinds : ∀ step ∈ p.association.steps, step.kind = kind

theorem Step.ofName_eq_ok_iff {name : String} {kind : JoinKind} {step : Step} :
    ofName name kind = .ok step ↔ step.name = name ∧ step.kind = kind := by
  unfold ofName
  split
  · rename_i fault hfault
    simp only [reduceCtorEq, false_iff, not_and]
    rintro rfl -
    rw [step.isSegment] at hfault
    cases hfault
  · rw [Except.ok.injEq]
    constructor
    · rintro rfl
      exact ⟨rfl, rfl⟩
    · obtain ⟨name', kind', hsegment⟩ := step
      rintro ⟨rfl, rfl⟩
      rfl

def stepDocument (kind : JoinKind) (name : String) : Document :=
  .record [("name", .string name), ("joinKind", .string kind.name)]

theorem Step.decode_stepDocument {o : Origin} {kind : JoinKind} {name : String} {step : Step} :
    Step.decode o (stepDocument kind name) = .ok step ↔ step.name = name ∧ step.kind = kind := by
  have hraw : RawStep.format.decode o (stepDocument kind name) = .ok ⟨name, kind⟩ :=
    RawStep.decode_encode o ⟨name, kind⟩
  rw [decode, bind_eq_ok_iff, ← ofName_eq_ok_iff]
  simp only [hraw, Except.ok.injEq, exists_eq_left']
  cases ofName name kind <;> simp [pure, Except.pure]

theorem forall₂_decode_stepDocument {o : Origin} {kind : JoinKind} {names : List String}
    {steps : List Step} :
    List.Forall₂ (fun d step => Step.decode o d = .ok step) (names.map (stepDocument kind)) steps ↔
      steps.map Step.name = names ∧ ∀ step ∈ steps, step.kind = kind := by
  rw [List.forall₂_map_left_iff]
  simp only [Step.decode_stepDocument]
  induction steps generalizing names with
  | nil => simp [eq_comm]
  | cons step rest ih =>
    cases names with
    | nil => simp
    | cons name names =>
      rw [List.forall₂_cons, ih, List.map_cons, List.cons.injEq, List.forall_mem_cons]
      tauto

theorem AssociationPath.decode_stepDocuments {o : Origin} {kind : JoinKind} {names : List String}
    {p : AssociationPath} :
    AssociationPath.decode o (.list (names.map (stepDocument kind))) = .ok p ↔
      p.names = names ∧ ∀ step ∈ p.steps, step.kind = kind := by
  rw [AssociationPath.decode, map_eq_ok_iff]
  constructor
  · rintro ⟨steps, hsteps, rfl⟩
    obtain ⟨ds, hds, hdecoded⟩ := Decode.list_eq_ok hsteps
    cases hds
    exact forall₂_decode_stepDocument.mp hdecoded
  · intro hp
    refine ⟨p.steps, ?_, rfl⟩
    rw [Decode.list, Decode.items_eq_ok_iff.mpr (forall₂_decode_stepDocument.mpr hp)]
    rfl

namespace RawTarget

/-- The members of a target in the flat form. -/
def flatForm (names : List String) (property : String) (kind : JoinKind) :
    List (String × Document) :=
  [("propertyPath", .string (dotted (names ++ [property]))), ("joinKind", .string kind.name)]

/-- The members of a target in the normalized form. -/
def normalizedForm (names : List String) (property : String) (kind : JoinKind) :
    List (String × Document) :=
  [("associationPath", .list (names.map (stepDocument kind))),
    ("targetPropertyName", .string property)]

/-- The members of a criterion: those of its target, in any order, and among them others that are
not for a target. -/
structure HasMembers (target others ms : List (String × Document)) : Prop where
  target : (ms.filter fun m => m.1 ∈ fieldNames).Perm target
  others : (ms.filter fun m => m.1 ∉ fieldNames) = others

/-- Members are read as a target. -/
def Reads (ms : List (String × Document)) (t : RawTarget) : Prop :=
  ∃ seen, format.readMembers .buffer ⟨[], empty⟩ ms = .ok ⟨seen, t⟩

variable {names : List String} {property : String} {kind : JoinKind}
  {ms others : List (String × Document)} {t : RawTarget}

theorem Reads.eq {t' : RawTarget} (h : Reads ms t) (h' : Reads ms t') : t = t' := by
  obtain ⟨seen, hread⟩ := h
  obtain ⟨seen', hread'⟩ := h'
  rw [hread] at hread'
  cases hread'
  rfl

theorem reads_pair {key key' : String} {field field' : RecordField RawTarget} {x y : Document}
    {set set' : RawTarget → RawTarget} (hfield : RecordField.find? fields key = some field)
    (hfield' : RecordField.find? fields key' = some field') (hne : key' ≠ key)
    (hx : field.read .buffer x = .ok set) (hy : field'.read .buffer y = .ok set') :
    Reads [(key, x), (key', y)] (set' (set empty)) := by
  have hread := RecordFormat.readMember_field (f := format) (p := ⟨[], empty⟩) hfield
    List.not_mem_nil hx
  have hread' := RecordFormat.readMember_field (f := format) (p := ⟨[key], set empty⟩) hfield'
    (by simpa using hne) hy
  refine ⟨[key', key], ?_⟩
  rw [RecordFormat.readMembers_cons_eq_ok_iff]
  exact ⟨_, hread, RecordFormat.readMembers_cons_eq_ok_iff.mpr ⟨_, hread', rfl⟩⟩

theorem read_optional {α β : Type} {name : String} {decode : Decoder β} {encode : β → Document}
    {get : α → Option β} {set : Option β → α → α} {o : Origin} {d : Document} {v : Option β}
    (h : Decode.optional decode o d = .ok v) :
    (RecordField.optional name decode encode get set).read o d = .ok (set v) := by
  simp [RecordField.optional, h, Except.map]

theorem reads_flatForm (h : ms.Perm (flatForm names property kind)) :
    Reads ms ⟨none, none, some (dotted (names ++ [property])), some kind⟩ := by
  have htext (s : String) : Decode.optional Decode.string .buffer (.string s) = .ok (some s) := rfl
  have hkind : Decode.optional JoinKind.decode .buffer kind.encode = .ok (some kind) :=
    Decode.optional_encode (by simp [JoinKind.encode]) (JoinKind.decode_encode _ _)
  have hne : "joinKind" ≠ "propertyPath" := by decide
  rcases List.perm_pair.mp h with rfl | rfl
  · exact reads_pair rfl rfl hne (read_optional (htext _)) (read_optional hkind)
  · exact reads_pair rfl rfl hne.symm (read_optional hkind) (read_optional (htext _))

theorem reads_normalizedForm {path : AssociationPath} (h : ms.Perm (normalizedForm names property kind))
    (hpath : AssociationPath.decode .buffer (.list (names.map (stepDocument kind))) = .ok path) :
    Reads ms ⟨some path, some property, none, none⟩ := by
  have htext : Decode.optional Decode.string .buffer (.string property) = .ok (some property) := rfl
  have hsteps : Decode.optional AssociationPath.decode .buffer
      (.list (names.map (stepDocument kind))) = .ok (some path) := by
    simp [Decode.optional, hpath, Except.map]
  have hne : "targetPropertyName" ≠ "associationPath" := by decide
  rcases List.perm_pair.mp h with rfl | rfl
  · exact reads_pair rfl rfl hne (read_optional hsteps) (read_optional htext)
  · exact reads_pair rfl rfl hne.symm (read_optional htext) (read_optional hsteps)

theorem reads_normalizedForm_iff (h : ms.Perm (normalizedForm names property kind)) :
    Reads ms t ↔ ∃ path : AssociationPath, path.names = names ∧
      (∀ step ∈ path.steps, step.kind = kind) ∧ t = ⟨some path, some property, none, none⟩ := by
  constructor
  · intro ht
    obtain ⟨seen, hread⟩ := id ht
    have hmem : ("associationPath", .list (names.map (stepDocument kind))) ∈ ms :=
      h.mem_iff.mpr List.mem_cons_self
    have hpart := RecordFormat.decode_part_of_readMembers isPart_associationPath (by decide) hread
      hmem
    rcases Decode.optional_eq_ok hpart with ⟨hnull, -⟩ | ⟨path, hpath, -⟩
    · cases hnull
    · obtain ⟨hnames, hkinds⟩ := AssociationPath.decode_stepDocuments.mp hpath
      exact ⟨path, hnames, hkinds, ht.eq (reads_normalizedForm h hpath)⟩
  · rintro ⟨path, hnames, hkinds, rfl⟩
    exact reads_normalizedForm h (AssociationPath.decode_stepDocuments.mpr ⟨hnames, hkinds⟩)

variable {p : PropertyPath}

theorem flatForm_addresses_iff (hms : ms.Perm (flatForm names property kind))
    (hdots : ∀ name ∈ names ++ [property], '.' ∉ name.toList) :
    (∃ t, Reads ms t ∧ t.Addresses p) ↔ p.HasParts names property kind := by
  have hsegments := segments_dotted (by simp) hdots
  constructor
  · rintro ⟨t, ht, haddresses⟩
    cases (reads_flatForm hms).eq ht
    cases haddresses with
    | path hnames hkinds =>
      rw [hsegments] at hnames
      obtain ⟨hnames, hproperty⟩ := List.append_inj' hnames rfl
      exact ⟨hnames, List.singleton_inj.mp hproperty, hkinds⟩
  · intro hparts
    refine ⟨_, reads_flatForm hms, .path ?_ hparts.kinds⟩
    rw [hsegments, hparts.names, hparts.property]

theorem normalizedForm_addresses_iff (hms : ms.Perm (normalizedForm names property kind)) :
    (∃ t, Reads ms t ∧ t.Addresses p) ↔ p.HasParts names property kind := by
  simp only [reads_normalizedForm_iff hms]
  constructor
  · rintro ⟨t, ⟨path, hnames, hkinds, rfl⟩, haddresses⟩
    cases haddresses with
    | name hassociation =>
      rw [Option.getD_some] at hassociation
      exact ⟨hassociation ▸ hnames, rfl, hassociation ▸ hkinds⟩
  · rintro ⟨hnames, rfl, hkinds⟩
    exact ⟨_, ⟨p.association, hnames, hkinds, rfl⟩, .name rfl⟩

theorem isSome_toValue?_flatForm :
    ∀ m ∈ flatForm names property kind, m.2.toValue?.isSome = true := by
  simp only [flatForm, List.forall_mem_cons]
  exact ⟨rfl, rfl, by simp⟩

theorem isSome_toValue?_normalizedForm :
    ∀ m ∈ normalizedForm names property kind, m.2.toValue?.isSome = true := by
  have hstep (name : String) : (stepDocument kind name).toValue?.isSome = true := by
    apply Document.isSome_toValue?_record
    simp only [List.forall_mem_cons]
    exact ⟨rfl, rfl, by simp⟩
  simp only [normalizedForm, List.forall_mem_cons]
  refine ⟨Document.isSome_toValue?_list ?_, rfl, by simp⟩
  exact List.forall_mem_map.mpr fun name _ => hstep name

end RawTarget

/-- A criterion whose own fields do not touch its target. -/
structure KeepsTarget {α : Type} (f : FlattenedFormat α) (target : α → RawTarget)
    (put : RawTarget → α → α) : Prop where
  initial : target f.initial = .empty
  own : ∀ field ∈ f.ownFields, ∀ o d set a, field.read o d = .ok set → target (set a) = target a
  put_setOthers : ∀ others t a, f.setOthers others (put t a) = put t (f.setOthers others a)

section Criterion

variable {α γ : Type} {f : FlattenedFormat α} {target : α → RawTarget}
  {modify : (RawTarget → RawTarget) → α → α} {put : RawTarget → α → α} {o : Origin}
  {members members' others ms ms' : List (String × Document)} {a : α} {t : RawTarget}

theorem checkMissing_of_not_required {fields : List (RecordField α)}
    (h : ∀ field ∈ fields, field.isRequired = false) (seen : List String) :
    RecordField.checkMissing fields seen = .ok () := by
  have hnone : (fields.find? fun field => field.isRequired && !seen.contains field.name) = none := by
    refine List.find?_eq_none.mpr fun field hfield => ?_
    simp [h field hfield]
  rw [RecordField.checkMissing, hnone]

namespace HasTarget

variable (h : HasTarget f target modify put)
include h

theorem find?_ownFields_eq_none {key : String} (hkey : key ∈ RawTarget.fieldNames) :
    RecordField.find? f.ownFields key = none := by
  rw [RecordField.find?_eq_none_iff]
  intro hown
  rw [← h.names_innerFields] at hkey
  exact List.disjoint_of_nodup_append h.nodup_names hown hkey

theorem isNone_find?_innerFields {key : String} :
    (RecordField.find? f.innerFields key).isNone = true ↔ key ∉ RawTarget.fieldNames := by
  rw [Option.isNone_iff_eq_none, RecordField.find?_eq_none_iff, h.names_innerFields]

theorem ownMembers_eq (ms : List (String × Document)) :
    f.ownMembers ms = f.ownMembers (ms.filter fun m => m.1 ∉ RawTarget.fieldNames) := by
  unfold FlattenedFormat.ownMembers
  rw [List.filter_filter]
  refine List.filter_congr fun m _ => ?_
  by_cases hkey : m.1 ∈ RawTarget.fieldNames
  · simp [h.find?_ownFields_eq_none hkey]
  · simp [hkey]

theorem othersOf_eq (ms : List (String × Document)) :
    f.othersOf (f.asideMembers ms) =
      f.othersOf (f.asideMembers (ms.filter fun m => m.1 ∉ RawTarget.fieldNames)) := by
  unfold FlattenedFormat.othersOf FlattenedFormat.asideMembers
  simp only [List.filter_filter]
  congr 3
  funext m
  by_cases hkey : m.1 ∈ RawTarget.fieldNames
  · have hinner : (RecordField.find? f.innerFields m.1).isNone = false := by
      rw [← Bool.not_eq_true, h.isNone_find?_innerFields, not_not]
      exact hkey
    simp [hinner]
  · simp [hkey]

theorem filter_asideMembers (ms : List (String × Document)) :
    (f.asideMembers ms).filter (fun m => m.1 ∈ RecordField.names f.inner.fields) =
      ms.filter fun m => m.1 ∈ RawTarget.fieldNames := by
  have hnames : RecordField.names f.inner.fields = RawTarget.fieldNames := h.names_innerFields
  unfold FlattenedFormat.asideMembers
  rw [List.filter_filter, hnames]
  refine List.filter_congr fun m _ => ?_
  by_cases hkey : m.1 ∈ RawTarget.fieldNames
  · simp [hkey, h.find?_ownFields_eq_none hkey]
  · simp [hkey]

theorem readMembers_inner (hkeeps : KeepsTarget f target put) {own : RecordFormat.Progress α}
    (hown : f.own.readMembers o ⟨[], f.initial⟩ (f.ownMembers ms) = .ok own)
    (hvalues : ∀ m ∈ f.asideMembers ms, m.2.toValue?.isSome = true) :
    f.inner.readMembers .buffer ⟨[], own.record⟩ (f.asideMembers ms) =
      (RawTarget.format.readMembers .buffer ⟨[], .empty⟩
        (ms.filter fun m => m.1 ∈ RawTarget.fieldNames)).map fun q =>
          ⟨q.seen, put q.record own.record⟩ := by
  have hempty : target own.record = .empty := by
    refine RecordFormat.readMembers_induction (f := f.own) (P := fun a => target a = .empty) ?_
      hkeeps.initial hown
    intro field hfield d set a hset ha
    rw [hkeeps.own field hfield o d set a hset, ha]
  have hskip : ∀ m ∈ f.asideMembers ms, m.2.isSkippable = true := fun m hm =>
    Document.isSkippable_of_isSome (hvalues m hm)
  rw [← RecordFormat.readMembers_fields rfl hskip, h.filter_asideMembers,
    RecordFormat.readMembers_within (g := RawTarget.format) h.isLens h.innerFields rfl, hempty]

/-- A criterion is read in two parts: its target, and all the rest. -/
theorem decode_eq_ok_iff (hkeeps : KeepsTarget f target put) :
    f.decode o (.record ms) = .ok a ↔
      (∀ m ∈ f.asideMembers ms, m.2.toValue?.isSome = true) ∧ ∃ own,
        f.own.readMembers o ⟨[], f.initial⟩ (f.ownMembers ms) = .ok own ∧
        RecordField.checkMissing f.ownFields own.seen = .ok () ∧
        ∃ t, RawTarget.Reads (ms.filter fun m => m.1 ∈ RawTarget.fieldNames) t ∧
          put t (f.setOthers (f.othersOf (f.asideMembers ms)) own.record) = a := by
  have hrequired : ∀ field ∈ f.innerFields, field.isRequired = false := by
    rw [h.innerFields]
    refine List.forall_mem_map.mpr fun field hfield => ?_
    simp only [RawTarget.fields, List.mem_cons, List.not_mem_nil, or_false] at hfield
    rcases hfield with rfl | rfl | rfl | rfl <;> rfl
  rw [FlattenedFormat.decode, FlattenedFormat.ofMembers_eq_ok_iff, and_iff_right rfl]
  refine and_congr_right fun hvalues => exists_congr fun own => ?_
  constructor
  · rintro ⟨inner, hown, hmissing, hinner, -, rfl⟩
    rw [h.readMembers_inner hkeeps hown hvalues] at hinner
    obtain ⟨q, hq, rfl⟩ := map_eq_ok_iff.mp hinner
    exact ⟨hown, hmissing, q.record, ⟨q.seen, hq⟩, (hkeeps.put_setOthers _ _ _).symm⟩
  · rintro ⟨hown, hmissing, t, ⟨seen, ht⟩, rfl⟩
    refine ⟨⟨seen, put t own.record⟩, hown, hmissing, ?_, checkMissing_of_not_required hrequired _,
      hkeeps.put_setOthers _ _ _⟩
    rw [h.readMembers_inner hkeeps hown hvalues, ht]
    rfl

/-- A criterion is read again when its target is written differently. -/
theorem decode_readdressed (hkeeps : KeepsTarget f target put)
    (hms : RawTarget.HasMembers members others ms) (hms' : RawTarget.HasMembers members' others ms')
    (hreads : RawTarget.Reads (ms'.filter fun m => m.1 ∈ RawTarget.fieldNames) t)
    (hvalues : ∀ m ∈ members', m.2.toValue?.isSome = true)
    (hdecode : f.decode o (.record ms) = .ok a) : f.decode o (.record ms') = .ok (put t a) := by
  have hrest := hms.others.trans hms'.others.symm
  rw [h.decode_eq_ok_iff hkeeps, h.ownMembers_eq, h.othersOf_eq, hrest, ← h.ownMembers_eq,
    ← h.othersOf_eq] at hdecode
  obtain ⟨haside, own, hown, hmissing, t', -, rfl⟩ := hdecode
  rw [h.decode_eq_ok_iff hkeeps]
  refine ⟨?_, own, hown, hmissing, t, hreads, (h.isLens.put_put _ _ _).symm⟩
  intro m hm
  by_cases hkey : m.1 ∈ RawTarget.fieldNames
  · have hmem : m ∈ ms'.filter fun m => m.1 ∈ RawTarget.fieldNames :=
      List.mem_filter.mpr ⟨List.mem_of_mem_filter hm, by simpa using hkey⟩
    exact hvalues m (hms'.target.mem_iff.mp hmem)
  · have hmem : m ∈ ms.filter fun m => m.1 ∉ RawTarget.fieldNames := by
      rw [hrest]
      exact List.mem_filter.mpr ⟨List.mem_of_mem_filter hm, by simpa using hkey⟩
    exact haside m (List.mem_filter.mpr ⟨List.mem_of_mem_filter hmem, (List.mem_filter.mp hm).2⟩)

theorem reads_of_decode (hkeeps : KeepsTarget f target put)
    (hdecode : f.decode o (.record ms) = .ok a) :
    RawTarget.Reads (ms.filter fun m => m.1 ∈ RawTarget.fieldNames) (target a) := by
  obtain ⟨-, own, -, -, t, ht, rfl⟩ := (h.decode_eq_ok_iff hkeeps).mp hdecode
  rw [h.isLens.get_put]
  exact ht

end HasTarget

/-- What a criterion gives depends on its target through the property that it addresses. -/
structure GivesTarget (Gives : α → γ → Prop) (target : α → RawTarget) (put : RawTarget → α → α)
    (address : γ → PropertyPath) : Prop where
  addresses : ∀ a c, Gives a c → (target a).Addresses (address c)
  readdressed : ∀ a c t, Gives a c → t.Addresses (address c) → Gives (put t a) c

variable {Gives : α → γ → Prop} {address : γ → PropertyPath} {c : γ} {names : List String}
  {property : String} {kind : JoinKind}

theorem HasTarget.gives_readdressed (h : HasTarget f target modify put)
    (hkeeps : KeepsTarget f target put) (hgives : GivesTarget Gives target put address)
    (hms : RawTarget.HasMembers members others ms) (hms' : RawTarget.HasMembers members' others ms')
    (hvalues : ∀ m ∈ members', m.2.toValue?.isSome = true)
    (haddress : ∀ p, (∃ t, RawTarget.Reads (ms.filter fun m => m.1 ∈ RawTarget.fieldNames) t ∧
      t.Addresses p) → ∃ t, RawTarget.Reads (ms'.filter fun m => m.1 ∈ RawTarget.fieldNames) t ∧
      t.Addresses p) :
    (∃ a, f.decode o (.record ms) = .ok a ∧ Gives a c) →
      ∃ a, f.decode o (.record ms') = .ok a ∧ Gives a c := by
  rintro ⟨a, hdecode, hc⟩
  obtain ⟨t, hreads, haddresses⟩ := haddress (address c)
    ⟨target a, h.reads_of_decode hkeeps hdecode, hgives.addresses a c hc⟩
  exact ⟨put t a, h.decode_readdressed hkeeps hms hms' hreads hvalues hdecode,
    hgives.readdressed a c t hc haddresses⟩

/-- A criterion gives the same in both forms of its target, and only with the parts of the target. -/
theorem HasTarget.forms_agree (h : HasTarget f target modify put)
    (hkeeps : KeepsTarget f target put) (hgives : GivesTarget Gives target put address)
    (hdots : ∀ name ∈ names ++ [property], '.' ∉ name.toList)
    (hflat : RawTarget.HasMembers (RawTarget.flatForm names property kind) others ms)
    (hnormalized : RawTarget.HasMembers (RawTarget.normalizedForm names property kind) others ms') :
    ((∃ a, f.decode o (.record ms) = .ok a ∧ Gives a c) ↔
      ∃ a, f.decode o (.record ms') = .ok a ∧ Gives a c) ∧
    ((∃ a, f.decode o (.record ms) = .ok a ∧ Gives a c) →
      (address c).HasParts names property kind) := by
  have hparts (p : PropertyPath) := RawTarget.flatForm_addresses_iff (p := p) hflat.target hdots
  have hparts' (p : PropertyPath) :=
    RawTarget.normalizedForm_addresses_iff (p := p) hnormalized.target
  refine ⟨⟨?_, ?_⟩, ?_⟩
  · apply h.gives_readdressed hkeeps hgives hflat hnormalized RawTarget.isSome_toValue?_normalizedForm
    intro p hp
    exact (hparts' p).mpr ((hparts p).mp hp)
  · apply h.gives_readdressed hkeeps hgives hnormalized hflat RawTarget.isSome_toValue?_flatForm
    intro p hp
    exact (hparts p).mpr ((hparts' p).mp hp)
  · rintro ⟨a, hdecode, hc⟩
    exact (hparts (address c)).mp
      ⟨target a, h.reads_of_decode hkeeps hdecode, hgives.addresses a c hc⟩

end Criterion

variable {P : Type} {r : Registry P} {o : Origin} {d d' : Document}

theorem RawFilter.keepsTarget : KeepsTarget format target fun t f => { f with target := t } where
  initial := rfl
  own := by
    intro field hfield o d set f hset
    simp only [format, List.mem_cons, List.not_mem_nil, or_false] at hfield
    rcases hfield with rfl | rfl | rfl <;> obtain ⟨v, -, rfl⟩ := map_eq_ok_iff.mp hset <;> rfl
  put_setOthers _ _ _ := rfl

theorem RawFilter.givesTarget : GivesTarget (RawFilter.Gives r) target
    (fun t f => { f with target := t }) FilterCriterion.target where
  addresses _ _ h := h.target
  readdressed _ _ _ h ht := ⟨h.known, h.provider, ht, h.valuePaths, h.directValues⟩

theorem RawSort.keepsTarget : KeepsTarget format target fun t s => { s with target := t } where
  initial := rfl
  own := by
    intro field hfield o d set s hset
    obtain rfl := List.mem_singleton.mp hfield
    obtain ⟨v, -, rfl⟩ := map_eq_ok_iff.mp hset
    rfl
  put_setOthers _ _ _ := rfl

theorem RawSort.givesTarget : GivesTarget RawSort.Gives target
    (fun t s => { s with target := t }) SortCriterion.target where
  addresses _ _ h := h.target
  readdressed _ _ _ h ht := ⟨h.known, ht, h.ascending⟩

namespace RawEntry

/-- Two entries that differ in one criterion, a filter or the sort. -/
inductive Differ (d d' : Document) : Document → Document → Prop
  | filter {earlier later : List Document} {ending : Option Defect} {e e' : Document}
    (h : Document.Replaced fieldNames "filterCriteria" (.array (earlier ++ d :: later) ending)
      (.array (earlier ++ d' :: later) ending) e e') : Differ d d' e e'
  | sort {e e' : Document} (h : Document.Replaced fieldNames "sortCriterion" d d' e e') :
    Differ d d' e e'

theorem Differ.symm {e e' : Document} (h : Differ d d' e e') : Differ d' d e' e := by
  cases h with
  | filter h => exact .filter h.symm
  | sort h => exact .sort h.symm

theorem isSlot_filters : RecordFormat.IsSlot format.fields "filterCriteria"
    (Decode.list RawFilter.format.decode) fun fs e => { e with filters := fs } :=
  .cons_sets (fun _ _ => rfl) rfl <|
    .cons_keeps (fun _ _ => rfl) (fun _ _ _ => rfl) (by decide) <| .nil fun _ _ _ => rfl

theorem isSlot_sort : RecordFormat.IsSlot format.fields "sortCriterion"
    (Decode.optional RawSort.format.decode) fun s e => { e with sort := s } :=
  .cons_keeps (fun _ _ => rfl) (fun _ _ _ => rfl) (by decide) <|
    .cons_sets (fun _ _ => rfl) rfl <| .nil fun _ _ _ => rfl

variable {id : String} {e e' : Document} {raw : RawEntry} {entry : Entry P}

/-- An entry gives the same when a filter, or the sort, is replaced by one that gives what it gave.
-/
theorem gives_of_differ
    (hfilter : ∀ c, (∃ f, RawFilter.format.decode o d = .ok f ∧ f.Gives r c) →
      ∃ f, RawFilter.format.decode o d' = .ok f ∧ f.Gives r c)
    (hsort : ∀ c, (∃ s, Decode.optional RawSort.format.decode o d = .ok s ∧
      Option.Rel RawSort.Gives s c) →
        ∃ s, Decode.optional RawSort.format.decode o d' = .ok s ∧ Option.Rel RawSort.Gives s c)
    (h : Differ d d' e e') (hraw : format.decode o e = .ok raw) (hgives : raw.Gives r id entry) :
    ∃ raw', format.decode o e' = .ok raw' ∧ raw'.Gives r id entry := by
  cases h with
  | @filter earlier later ending _ _ h =>
    have hfilters := RecordFormat.decode_part_of_decode nodup_names isPart_filters (by decide) hraw
      h.mem_parts
    obtain ⟨ds, hds, hdecoded⟩ := Decode.list_eq_ok hfilters
    cases hds
    obtain ⟨fs, hfs, hentry⟩ := exists_forall₂_replaced
      (fun f c hf hc => hfilter c ⟨f, hf, hc⟩) hdecoded hgives.filters
    have hlist : Decode.list RawFilter.format.decode o (.array (earlier ++ d' :: later) none) =
        .ok fs := by
      rw [Decode.list, Decode.items_eq_ok_iff.mpr hfs]
      rfl
    exact ⟨{ raw with filters := fs },
      RecordFormat.decode_slot_replaced isSlot_filters nodup_names (by decide) hlist h hraw,
      hgives.propertyId, hentry, hgives.sort⟩
  | sort h =>
    have hdecoded := RecordFormat.decode_part_of_decode nodup_names isPart_sort (by decide) hraw
      h.mem_parts
    obtain ⟨s, hs, hentry⟩ := hsort entry.sort ⟨raw.sort, hdecoded, hgives.sort⟩
    exact ⟨{ raw with sort := s },
      RecordFormat.decode_slot_replaced isSlot_sort nodup_names (by decide) hs h hraw,
      hgives.propertyId, hgives.filters, hentry⟩

end RawEntry

namespace RawTransferObject

inductive Differ (d d' : Document) : Document → Document → Prop
  | entry {before after : List (String × Document)} {ending : Option Defect} {id : String}
    {e e' whole whole' : Document} (hentry : RawEntry.Differ d d' e e')
    (h : Document.Replaced fieldNames "criteria" (.object (before ++ (id, e) :: after) ending)
      (.object (before ++ (id, e') :: after) ending) whole whole') : Differ d d' whole whole'

theorem Differ.symm {whole whole' : Document} (h : Differ d d' whole whole') :
    Differ d' d whole' whole := by
  cases h with
  | entry hentry h => exact .entry hentry.symm h.symm

theorem isSlot_criteria : RecordFormat.IsSlot format.fields "criteria" decodeEntries
    fun c t => { t with criteria := c } :=
  .cons_keeps (fun _ _ => rfl) (fun _ _ _ => rfl) (by decide) <|
    .cons_keeps (fun _ _ => rfl) (fun _ _ _ => rfl) (by decide) <|
    .cons_sets (fun _ _ => rfl) rfl <| .nil fun _ _ _ => rfl

/-- A document gives a transfer object when it is decoded and resolved. -/
def Accepted (o : Origin) (r : Registry P) (d : Document) (u : TransferObject P) : Prop :=
  ∃ t, format.decode o d = .ok t ∧ t.resolve r = .ok u

/-- A document gives the same when an entry is replaced by one that gives what it gave. -/
theorem accepted_of_replaced {before after : List (String × Document)} {ending : Option Defect}
    {id : String} {e e' whole whole' : Document} {u : TransferObject P}
    (hentry : ∀ raw entry, RawEntry.format.decode o e = .ok raw → raw.Gives r id entry →
      ∃ raw', RawEntry.format.decode o e' = .ok raw' ∧ raw'.Gives r id entry)
    (h : Document.Replaced fieldNames "criteria" (.object (before ++ (id, e) :: after) ending)
      (.object (before ++ (id, e') :: after) ending) whole whole')
    (haccepted : Accepted o r whole u) : Accepted o r whole' u := by
  obtain ⟨t, ht, hresolve⟩ := haccepted
  obtain ⟨hnodup, hgives⟩ := resolve_eq_ok_iff.mp hresolve
  have hcriteria := RecordFormat.decode_part_of_decode nodup_names isPart_criteria (by decide) ht
    h.mem_parts
  obtain ⟨ms, hms, hdecoded⟩ := Decode.entries_eq_ok hcriteria
  cases hms
  have hreplaced : ∀ (c : String × RawEntry) (resolved : String × Entry P),
      (id = c.1 ∧ RawEntry.format.decode o e = .ok c.2) →
      (c.2.Gives r c.1 resolved.2 ∧ c.1 = resolved.1) →
      ∃ c' : String × RawEntry, (id = c'.1 ∧ RawEntry.format.decode o e' = .ok c'.2) ∧
        (c'.2.Gives r c'.1 resolved.2 ∧ c'.1 = resolved.1) := by
    rintro ⟨key, raw⟩ resolved ⟨rfl, hraw⟩ ⟨hgiven, hkey⟩
    obtain ⟨raw', hraw', hgiven'⟩ := hentry raw resolved.2 hraw hgiven
    exact ⟨(id, raw'), ⟨rfl, hraw'⟩, hgiven', hkey⟩
  obtain ⟨criteria, hmembers, hentries⟩ :=
    exists_forall₂_replaced (x := (id, e)) (y := (id, e')) hreplaced hdecoded hgives.entries
  have hlist : decodeEntries o (.object (before ++ (id, e') :: after) none) = .ok criteria := by
    rw [decodeEntries, Decode.entries, Decode.members_eq_ok_iff.mpr hmembers]
    rfl
  have hgives' : Gives r { t with criteria := criteria } u :=
    ⟨hgives.firstResult, hgives.maxResults, hentries⟩
  refine ⟨{ t with criteria := criteria }, ?_, resolve_eq_ok_iff.mpr ⟨?_, hgives'⟩⟩
  · exact RecordFormat.decode_slot_replaced isSlot_criteria nodup_names (by decide) hlist h ht
  · rw [← hgives'.propertyIds, hgives.propertyIds]
    exact hnodup

theorem accepted_of_differ {whole whole' : Document} {u : TransferObject P}
    (hfilter : ∀ c, (∃ f, RawFilter.format.decode o d = .ok f ∧ f.Gives r c) →
      ∃ f, RawFilter.format.decode o d' = .ok f ∧ f.Gives r c)
    (hsort : ∀ c, (∃ s, Decode.optional RawSort.format.decode o d = .ok s ∧
      Option.Rel RawSort.Gives s c) →
        ∃ s, Decode.optional RawSort.format.decode o d' = .ok s ∧ Option.Rel RawSort.Gives s c)
    (h : Differ d d' whole whole') (haccepted : Accepted o r whole u) : Accepted o r whole' u := by
  cases h with
  | entry hentry h =>
    refine accepted_of_replaced ?_ h haccepted
    intro raw entry hraw hgives
    exact RawEntry.gives_of_differ hfilter hsort hentry hraw hgives

end RawTransferObject

def RawFilter.Accepted (o : Origin) (r : Registry P) (id : String) (d : Document)
    (c : FilterCriterion P) : Prop :=
  ∃ f, format.decode o d = .ok f ∧ f.resolve r id = .ok c

def RawSort.Accepted (o : Origin) (id : String) (d : Document) (c : SortCriterion) : Prop :=
  ∃ s, format.decode o d = .ok s ∧ s.resolve id = .ok c

/-- What the two forms of a sort may give does not depend on the form, also where the sort may be
missing. -/
theorem optionalSort_iff {ms : List (String × Document)} {c : Option SortCriterion} :
    (∃ s, Decode.optional RawSort.format.decode o (.record ms) = .ok s ∧
        Option.Rel RawSort.Gives s c) ↔
      ∃ given, c = some given ∧ ∃ s, RawSort.format.decode o (.record ms) = .ok s ∧ s.Gives given := by
  constructor
  · rintro ⟨s, hs, hgives⟩
    rcases Decode.optional_eq_ok hs with ⟨hnull, -⟩ | ⟨s, hdecode, rfl⟩
    · cases hnull
    · cases hgives with
      | some hgives => exact ⟨_, rfl, s, hdecode, hgives⟩
  · rintro ⟨given, rfl, s, hdecode, hgives⟩
    refine ⟨some s, ?_, .some hgives⟩
    simp [Decode.optional, hdecode, Except.map]

namespace RawTransferObject

/-- A criterion is accepted in both forms of its target or in none, and as the same criterion. In a
document the one form can stand for the other: the document gives the same transfer object, and so
the same plan. -/
theorem forms_interchangeable {names : List String} {property : String} {kind : JoinKind}
    {others flat normalized : List (String × Document)}
    (hdots : ∀ name ∈ names ++ [property], '.' ∉ name.toList)
    (hflat : RawTarget.HasMembers (RawTarget.flatForm names property kind) others flat)
    (hnormalized :
      RawTarget.HasMembers (RawTarget.normalizedForm names property kind) others normalized)
    (o : Origin) (r : Registry P) :
    (∀ id c,
      (RawFilter.Accepted o r id (.record flat) c ↔
        RawFilter.Accepted o r id (.record normalized) c) ∧
      (RawFilter.Accepted o r id (.record flat) c → c.target.HasParts names property kind)) ∧
    (∀ id c,
      (RawSort.Accepted o id (.record flat) c ↔ RawSort.Accepted o id (.record normalized) c) ∧
      (RawSort.Accepted o id (.record flat) c → c.target.HasParts names property kind)) ∧
    ∀ whole whole', Differ (.record flat) (.record normalized) whole whole' →
      (∀ u, Accepted o r whole u ↔ Accepted o r whole' u) ∧
      ∀ options f plan,
        (∃ u, Accepted o r whole u ∧ u.compile options f = .ok plan) ↔
          ∃ u, Accepted o r whole' u ∧ u.compile options f = .ok plan := by
  have hfilter (c : FilterCriterion P) := RawFilter.hasTarget.forms_agree (o := o) (c := c)
    RawFilter.keepsTarget (RawFilter.givesTarget (r := r)) hdots hflat hnormalized
  have hsort (c : SortCriterion) := RawSort.hasTarget.forms_agree (o := o) (c := c)
    RawSort.keepsTarget RawSort.givesTarget hdots hflat hnormalized
  refine ⟨?_, ?_, ?_⟩
  · intro id c
    unfold RawFilter.Accepted
    simp only [RawFilter.resolve_eq_ok_iff]
    exact hfilter c
  · intro id c
    unfold RawSort.Accepted
    simp only [RawSort.resolve_eq_ok_iff]
    exact hsort c
  · intro whole whole' h
    have hoptional (c : Option SortCriterion) :
        (∃ s, Decode.optional RawSort.format.decode o (.record flat) = .ok s ∧
          Option.Rel RawSort.Gives s c) ↔
        ∃ s, Decode.optional RawSort.format.decode o (.record normalized) = .ok s ∧
          Option.Rel RawSort.Gives s c := by
      simp only [optionalSort_iff, (hsort _).1]
    have hsame (u : TransferObject P) : Accepted o r whole u ↔ Accepted o r whole' u := by
      constructor
      · exact accepted_of_differ (fun c => (hfilter c).1.mp) (fun c => (hoptional c).mp) h
      · exact accepted_of_differ (fun c => (hfilter c).1.mpr) (fun c => (hoptional c).mpr) h.symm
    refine ⟨hsame, fun options f plan => ?_⟩
    simp only [hsame]

def sortedBy (sort : Document) : Document :=
  .record [("criteria", .record [("stock", .record [("sortCriterion", sort)])])]

theorem differ_sortedBy (d d' : Document) : Differ d d' (sortedBy d) (sortedBy d') :=
  @Differ.entry d d' [] [] none "stock" _ _ _ _
    (.sort (@Document.Replaced.member _ _ d d' [] [] none))
    (@Document.Replaced.member _ _ _ _ [] [] none)

def flatCapacity : List (String × Document) :=
  [("propertyPath", .string "warehouse.capacity"), ("ascending", .bool false),
    ("joinKind", .string "left_outer")]

def normalizedCapacity : List (String × Document) :=
  [("targetPropertyName", .string "capacity"), ("ascending", .bool false),
    ("associationPath", .list [.record [("name", .string "warehouse"),
      ("joinKind", .string "left_outer")]])]

theorem forms_interchangeable_capacity :
    ∃ u, Accepted .text (Registry.empty : Registry Unit) (sortedBy (.record flatCapacity)) u ∧
      Accepted .text (Registry.empty : Registry Unit) (sortedBy (.record normalizedCapacity)) u := by
  have hdots : ∀ name ∈ ["warehouse"] ++ ["capacity"], '.' ∉ name.toList := by decide
  have hflat : RawTarget.HasMembers (RawTarget.flatForm ["warehouse"] "capacity" .leftOuter)
      [("ascending", .bool false)] flatCapacity := ⟨.of_eq rfl, rfl⟩
  have hnormalized : RawTarget.HasMembers
      (RawTarget.normalizedForm ["warehouse"] "capacity" .leftOuter)
      [("ascending", .bool false)] normalizedCapacity := ⟨.swap _ _ _, rfl⟩
  obtain ⟨-, -, hdocuments⟩ :=
    forms_interchangeable hdots hflat hnormalized .text (Registry.empty : Registry Unit)
  obtain ⟨hsame, -⟩ := hdocuments _ _ (differ_sortedBy _ _)
  have haccepted : ∃ u, Accepted .text (Registry.empty : Registry Unit)
      (sortedBy (.record flatCapacity)) u := ⟨_, _, rfl, rfl⟩
  obtain ⟨u, hu⟩ := haccepted
  exact ⟨u, hu, (hsame u).mp hu⟩

end RawTransferObject
end QueryCriteria
