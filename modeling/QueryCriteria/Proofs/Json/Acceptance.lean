import QueryCriteria.Proofs.Json.Flattened

/-!
# Which objects are records

An object is read as a record exactly if each of its members can be read, none of its fields is
repeated and no required field is missing. The order of the members makes no difference, and other
members make none where they are passed over. So a part of the record is given by the only member of
its name, or else it is the initial one. A flattened record repeats neither its own fields nor the
inner ones, although the inner ones are read later.
-/
namespace QueryCriteria.Json

variable {α β : Type}

/-- An object has each of these names at most once. -/
def Document.NamesOnce (names : List String) (d : Document) : Prop :=
  ∀ name ∈ names, d.memberNames.count name ≤ 1

theorem Document.length_parts (names : List String) (name : String) (d : Document) :
    (d.parts names name).length = (Keyed.keys (d.membersAs names)).count name := by
  rw [parts, List.length_map, Keyed.keys, List.count_eq_countP, List.countP_map,
    List.countP_eq_length_filter]
  rfl

namespace RecordField

variable {field : RecordField α} {fields : List (RecordField α)} {name : String} {o : Origin}
  {decode : Decoder β} {get : α → β} {initial : Option β} {ds : List Document} {b c : β}

/-- A field is read from the documents under its name: from one, or from none if it may be
missing. -/
inductive IsReadFrom (field : RecordField α) (o : Origin) : List Document → Prop
  | missing (notRequired : field.isRequired = false) : IsReadFrom field o []
  | present {d : Document} {set : α → α} (read_eq : field.read o d = .ok set) :
    IsReadFrom field o [d]

theorem isReadFrom_iff :
    field.IsReadFrom o ds ↔ ds.length ≤ 1 ∧ (∀ d ∈ ds, ∃ set, field.read o d = .ok set) ∧
      (field.isRequired = true → ds ≠ []) := by
  constructor
  · intro h
    cases h with
    | missing hnot => simp [hnot]
    | @present d set hset => simp [hset]
  · intro h
    obtain ⟨hlength, hread, hrequired⟩ := h
    cases ds with
    | nil => exact .missing (Bool.eq_false_iff.mpr fun hrequires => hrequired hrequires rfl)
    | cons d rest =>
      obtain ⟨set, hset⟩ := hread d List.mem_cons_self
      have hrest : rest = [] := by simpa using hlength
      rw [hrest]
      exact .present hset

/-- A value is given by the documents under a name: by one that is decoded to it, or by none if it
is the initial value. -/
inductive IsGiven (decode : Decoder β) (o : Origin) (initial : Option β) :
    List Document → β → Prop
  | missing {b : β} (initial_eq : initial = some b) : IsGiven decode o initial [] b
  | present {d : Document} {b : β} (decode_eq : decode o d = .ok b) :
    IsGiven decode o initial [d] b

theorem IsGiven.unique (hb : IsGiven decode o initial ds b) (hc : IsGiven decode o initial ds c) :
    b = c := by
  cases hb with
  | missing hb =>
    cases hc with
    | missing hc =>
      rw [hb] at hc
      exact Option.some.inj hc
  | present hb =>
    cases hc with
    | present hc =>
      rw [hb] at hc
      exact Except.ok.inj hc

theorem IsGiven.isReadFrom {set : β → α → α} (h : IsGiven decode o initial ds b)
    (hread : ∀ o d, field.read o d = (decode o d).map set)
    (hinitial : field.isRequired = true → initial = none) : field.IsReadFrom o ds := by
  cases h with
  | missing hb =>
    refine .missing (Bool.eq_false_iff.mpr fun hrequired => ?_)
    rw [hinitial hrequired] at hb
    cases hb
  | @present d _ hb =>
    have hset : field.read o d = .ok (set b) := by
      rw [hread, hb]
      rfl
    exact .present hset

theorem isPart_iff :
    IsPart fields name decode get ↔ ∀ field ∈ fields, ∀ o d a set, field.read o d = .ok set →
      if field.name = name then decode o d = .ok (get (set a)) else get (set a) = get a := by
  constructor
  · intro h field hfield o d a set hset
    split
    · exact h.sets field hfield ‹_› o d set a hset
    · exact h.keeps field hfield ‹_› o d set a hset
  · intro h
    refine ⟨fun field hfield hname o d set a hset => ?_, fun field hfield hname o d set a hset => ?_⟩
    · exact (if_pos hname).mp (h field hfield o d a set hset)
    · exact (if_neg hname).mp (h field hfield o d a set hset)

end RecordField

namespace RecordFormat

open RecordField

variable {f : RecordFormat α} {o : Origin} {p q : Progress α} {key name : String} {d : Document}
  {ms : List (String × Document)}

/-- A member that can be read: the value of a field, or what can be passed over. -/
structure Accepts (f : RecordFormat α) (o : Origin) (m : String × Document) : Prop where
  field : ∀ field, find? f.fields m.1 = some field → ∃ set, field.read o m.2 = .ok set
  other : m.1 ∉ names f.fields → f.refusesOthers = false ∧ m.2.isSkippable = true

theorem exists_readMember_iff :
    (∃ q, f.readMember o p key d = .ok q) ↔
      f.Accepts o (key, d) ∧ (key ∈ names f.fields → key ∉ p.seen) := by
  cases hfind : find? f.fields key with
  | none =>
    have hnot := find?_eq_none_iff.mp hfind
    rw [readMember, hfind]
    cases hothers : f.refusesOthers with
    | true =>
      simp only [if_true, reduceCtorEq, exists_false, false_iff, not_and]
      intro haccepts
      have hpasses := (haccepts.other hnot).1
      rw [hothers] at hpasses
      cases hpasses
    | false =>
      have haccepts : f.Accepts o (key, d) ↔ d.isSkippable = true :=
        ⟨fun h => (h.other hnot).2, fun h => ⟨by simp [hfind], fun _ => ⟨hothers, h⟩⟩⟩
      cases hskip : d.isSkippable <;> simp [haccepts, hskip, hnot]
  | some field =>
    have hkey : key ∈ names f.fields := mem_names_of_find? hfind
    have haccepts : f.Accepts o (key, d) ↔ ∃ set, field.read o d = .ok set := by
      constructor
      · intro h
        exact h.field field hfind
      · intro h
        refine ⟨fun other hother => ?_, fun hnot => absurd hkey hnot⟩
        rw [hfind, Option.some.injEq] at hother
        rw [← hother]
        exact h
    rw [readMember, hfind, haccepts]
    by_cases hseen : key ∈ p.seen
    · simp [hseen, hkey]
    · simp only [List.contains_eq_mem, hseen, decide_false, Bool.false_eq_true, if_false,
        map_eq_ok_iff, not_false_eq_true, implies_true, and_true]
      constructor
      · intro h
        obtain ⟨-, set, hset, -⟩ := h
        exact ⟨set, hset⟩
      · intro h
        obtain ⟨set, hset⟩ := h
        exact ⟨_, set, hset, rfl⟩

theorem mem_seen_of_readMember (h : f.readMember o p key d = .ok q) :
    name ∈ q.seen ↔ name ∈ p.seen ∨ name = key ∧ key ∈ names f.fields := by
  rcases readMember_cases h with ⟨field, set, hfind, -, -, rfl⟩ | ⟨hnot, -, rfl⟩
  · have hkey : key ∈ names f.fields := mem_names_of_find? hfind
    rw [List.mem_cons]
    tauto
  · tauto

theorem mem_seen_of_readMembers (h : f.readMembers o p ms = .ok q) :
    name ∈ q.seen ↔ name ∈ p.seen ∨ name ∈ Keyed.keys ms ∧ name ∈ names f.fields := by
  induction ms generalizing p with
  | nil =>
    cases h
    simp [Keyed.keys]
  | cons m rest ih =>
    obtain ⟨key, d⟩ := m
    obtain ⟨p', hp', hq⟩ := readMembers_cons_eq_ok_iff.mp h
    rw [ih hq, mem_seen_of_readMember hp']
    simp only [Keyed.keys, List.map_cons, List.mem_cons]
    constructor
    · intro hmem
      rcases hmem with (hseen | ⟨rfl, hkey⟩) | ⟨hrest, hname⟩
      · exact .inl hseen
      · exact .inr ⟨.inl rfl, hkey⟩
      · exact .inr ⟨.inr hrest, hname⟩
    · intro hmem
      rcases hmem with hseen | ⟨rfl | hrest, hname⟩
      · exact .inl (.inl hseen)
      · exact .inl (.inr ⟨rfl, hname⟩)
      · exact .inr ⟨hrest, hname⟩

/-- Members can be read in turn if each of them can be read and no field is seen twice. -/
theorem exists_readMembers_iff :
    (∃ q, f.readMembers o p ms = .ok q) ↔
      (∀ m ∈ ms, f.Accepts o m) ∧
      ∀ name ∈ names f.fields, (Keyed.keys ms).count name ≤ 1 ∧
        (name ∈ p.seen → name ∉ Keyed.keys ms) := by
  -- Over every progress, since the first member is among the names seen by the rest.
  induction ms generalizing p with
  | nil => simp [readMembers, Keyed.keys]
  | cons m rest ih =>
    obtain ⟨key, d⟩ := m
    have hkeys : Keyed.keys ((key, d) :: rest) = key :: Keyed.keys rest := rfl
    rw [hkeys, List.forall_mem_cons]
    constructor
    · intro h
      obtain ⟨q, hq⟩ := h
      obtain ⟨p', hp', hq⟩ := readMembers_cons_eq_ok_iff.mp hq
      obtain ⟨hfirst, hunseen⟩ := exists_readMember_iff.mp ⟨p', hp'⟩
      obtain ⟨haccepts, hrest⟩ := ih.mp ⟨q, hq⟩
      refine ⟨⟨hfirst, haccepts⟩, fun name hname => ?_⟩
      obtain ⟨hcount, hnot⟩ := hrest name hname
      rw [mem_seen_of_readMember hp'] at hnot
      constructor
      · by_cases hkey : name = key
        · have hnone := List.count_eq_zero.mpr (hnot (.inr ⟨hkey, hkey ▸ hname⟩))
          rw [hkey] at hnone ⊢
          exact Nat.le_of_eq (by rw [List.count_cons_self, hnone])
        · rw [List.count_cons_of_ne (Ne.symm hkey)]
          exact hcount
      · intro hseen
        refine List.not_mem_cons_of_ne_of_not_mem ?_ (hnot (.inl hseen))
        intro hkey
        exact hunseen (hkey ▸ hname) (hkey ▸ hseen)
    · intro h
      obtain ⟨⟨hfirst, haccepts⟩, hnames⟩ := h
      have hunseen : key ∈ names f.fields → key ∉ p.seen := fun hkey hseen =>
        (hnames key hkey).2 hseen List.mem_cons_self
      obtain ⟨p', hp'⟩ := exists_readMember_iff.mpr ⟨hfirst, hunseen⟩
      have hrest : ∃ q, f.readMembers o p' rest = .ok q := by
        refine ih.mpr ⟨haccepts, fun name hname => ?_⟩
        obtain ⟨hcount, hnot⟩ := hnames name hname
        refine ⟨Nat.le_trans List.count_le_count_cons hcount, fun hseen => ?_⟩
        rcases (mem_seen_of_readMember hp').mp hseen with hseen | ⟨rfl, -⟩
        · exact fun hmem => hnot hseen (List.mem_cons_of_mem _ hmem)
        · rw [List.count_cons_self] at hcount
          exact List.count_eq_zero.mp (by omega)
      obtain ⟨q, hq⟩ := hrest
      exact ⟨q, readMembers_cons_eq_ok_iff.mpr ⟨p', hp', hq⟩⟩

theorem checkMissing_eq_ok_iff {fields : List (RecordField α)} {seen : List String} {done : Unit} :
    checkMissing fields seen = .ok done ↔
      ∀ field ∈ fields, field.isRequired = true → field.name ∈ seen := by
  unfold checkMissing
  split
  · rename_i field hfield
    have hmissing := List.find?_some hfield
    simp only [Bool.and_eq_true, Bool.not_eq_true', List.contains_eq_mem,
      decide_eq_false_iff_not] at hmissing
    simp only [reduceCtorEq, false_iff]
    intro hall
    exact hmissing.2 (hall field (List.mem_of_find?_eq_some hfield) hmissing.1)
  · rename_i hnone
    simp only [true_iff]
    intro field hfield hrequired
    have hpresent := List.find?_eq_none.mp hnone field hfield
    simpa [hrequired] using hpresent

/-- An object is a record if its members can be read, no field is repeated, and none is missing. -/
theorem exists_decode_record_iff :
    (∃ a, f.decode o (.record ms) = .ok a) ↔
      (∀ m ∈ ms, f.Accepts o m) ∧ (Document.record ms).NamesOnce (names f.fields) ∧
      ∀ field ∈ f.fields, field.isRequired = true → field.name ∈ Keyed.keys ms := by
  have hread : (∃ q, f.readMembers o ⟨[], f.initial⟩ ms = .ok q) ↔
      (∀ m ∈ ms, f.Accepts o m) ∧ (Document.record ms).NamesOnce (names f.fields) := by
    rw [exists_readMembers_iff]
    simp [Document.NamesOnce, Document.memberNames]
  have hseen {q : Progress α} (hq : f.readMembers o ⟨[], f.initial⟩ ms = .ok q) :
      checkMissing f.fields q.seen = .ok () ↔
        ∀ field ∈ f.fields, field.isRequired = true → field.name ∈ Keyed.keys ms := by
    rw [checkMissing_eq_ok_iff]
    refine forall₂_congr fun field hfield => imp_congr_right fun _ => ?_
    rw [mem_seen_of_readMembers hq]
    have hname : field.name ∈ names f.fields := List.mem_map_of_mem hfield
    simp [hname]
  constructor
  · intro h
    obtain ⟨a, ha⟩ := h
    obtain ⟨q, hq, ha⟩ := bind_eq_ok_iff.mp ha
    obtain ⟨⟨⟩, hmissing, -⟩ := bind_eq_ok_iff.mp ha
    obtain ⟨haccepts, hnames⟩ := hread.mp ⟨q, hq⟩
    exact ⟨haccepts, hnames, (hseen hq).mp hmissing⟩
  · intro h
    obtain ⟨haccepts, hnames, hrequired⟩ := h
    obtain ⟨q, hq⟩ := hread.mpr ⟨haccepts, hnames⟩
    refine ⟨q.record, bind_eq_ok_iff.mpr ⟨q, hq, ?_⟩⟩
    exact bind_eq_ok_iff.mpr ⟨(), (hseen hq).mpr hrequired, rfl⟩

/-- An object is a record if its fields are read from its members of their names, and its other
members can be passed over. -/
theorem exists_decode_record_iff_isReadFrom (hnames : (names f.fields).Nodup) :
    (∃ a, f.decode o (.record ms) = .ok a) ↔
      (∀ field ∈ f.fields,
        field.IsReadFrom o ((Document.record ms).parts (names f.fields) field.name)) ∧
      ∀ m ∈ ms, m.1 ∉ names f.fields → f.refusesOthers = false ∧ m.2.isSkippable = true := by
  have hlength (name : String) := Document.length_parts (names f.fields) name (.record ms)
  rw [exists_decode_record_iff]
  constructor
  · intro h
    obtain ⟨haccepts, honce, hrequired⟩ := h
    refine ⟨fun field hfield => isReadFrom_iff.mpr ⟨?_, fun d hd => ?_, fun hrequires => ?_⟩,
      fun m hm hother => (haccepts m hm).other hother⟩
    · rw [hlength]
      exact honce field.name (List.mem_map_of_mem hfield)
    · exact (haccepts _ (Document.mem_parts_iff.mp hd)).field field (find?_of_mem hnames hfield)
    · rw [← List.length_pos_iff, hlength]
      exact List.count_pos_iff.mpr (hrequired field hfield hrequires)
  · intro h
    obtain ⟨hfields, hothers⟩ := h
    have hread (field : RecordField α) (hfield : field ∈ f.fields) :=
      isReadFrom_iff.mp (hfields field hfield)
    refine ⟨fun m hm => ⟨fun field hfind => ?_, hothers m hm⟩, fun name hname => ?_,
      fun field hfield hrequires => ?_⟩
    · obtain ⟨hfield, hname⟩ := mem_of_find? hfind
      obtain ⟨-, hvalues, -⟩ := hread field hfield
      refine hvalues m.2 (Document.mem_parts_iff.mpr ?_)
      rw [hname]
      exact hm
    · obtain ⟨field, hfield, rfl⟩ := List.mem_map.mp hname
      obtain ⟨hle, -, -⟩ := hread field hfield
      rw [hlength] at hle
      exact hle
    · obtain ⟨-, -, hne⟩ := hread field hfield
      have hpos := List.length_pos_iff.mpr (hne hrequires)
      rw [hlength] at hpos
      exact List.count_pos_iff.mp hpos

theorem namesOnce_of_decode {a : α} (h : f.decode o d = .ok a) : d.NamesOnce (names f.fields) := by
  cases d with
  | object ms ending =>
    obtain ⟨q, hread, -⟩ := bind_eq_ok_iff.mp h
    obtain ⟨-, hnames⟩ := exists_readMembers_iff.mp ⟨q, hread⟩
    intro name hname
    exact (hnames name hname).1
  | array | defect | null | bool | number | string => simp [Document.NamesOnce, Document.memberNames]

section Parts

variable {decode : Decoder β} {get : α → β}

theorem get_eq_of_notMem (hpart : IsPart f.fields name decode get) (hnot : name ∉ Keyed.keys ms)
    (h : f.readMembers o p ms = .ok q) : get q.record = get p.record := by
  induction ms generalizing p with
  | nil =>
    cases h
    rfl
  | cons m rest ih =>
    obtain ⟨key, d⟩ := m
    obtain ⟨hkey, hrest⟩ := not_or.mp (fun hmem => hnot (List.mem_cons.mpr hmem))
    obtain ⟨p', hp', hq⟩ := readMembers_cons_eq_ok_iff.mp h
    rw [ih hrest hq]
    rcases readMember_cases hp' with ⟨field, set, hfield, -, hset, rfl⟩ | ⟨-, -, rfl⟩
    · obtain ⟨hmem, hname⟩ := mem_of_find? hfield
      exact hpart.keeps field hmem (fun heq => hkey (heq.symm.trans hname)) o d set _ hset
    · rfl

theorem isGiven_of_decode {a : α} {field : RecordField α} {initial : Option β}
    (hnames : (names f.fields).Nodup) (hfind : find? f.fields name = some field)
    (hinitial : (if field.isRequired then none else some (get f.initial)) = initial)
    (hpart : IsPart f.fields name decode get) (h : f.decode o (.record ms) = .ok a) :
    IsGiven decode o initial ((Document.record ms).parts (names f.fields) name) (get a) := by
  obtain ⟨hfield, rfl⟩ := mem_of_find? hfind
  have hread := ((exists_decode_record_iff_isReadFrom hnames).mp ⟨a, h⟩).1 field hfield
  have hdecode : ∀ part ∈ (Document.record ms).parts (names f.fields) field.name,
      decode o part = .ok (get a) := fun part hmem =>
    decode_part_of_decode hnames hpart (List.mem_map_of_mem hfield) h hmem
  generalize hparts : (Document.record ms).parts (names f.fields) field.name = ds at *
  cases hread with
  | missing hnot =>
    have hlen := Document.length_parts (names f.fields) field.name (.record ms)
    rw [hparts] at hlen
    obtain ⟨seen, hmembers⟩ := exists_readMembers_of_decode hnames h
    have hget := get_eq_of_notMem hpart (List.count_eq_zero.mp hlen.symm) hmembers
    exact .missing (by simp [← hinitial, hnot, hget])
  | present _ => exact .present (hdecode _ List.mem_cons_self)

end Parts

/-- A relation describes the records that are read from an object, if each of them is in it, no two
records are, and the object has the fields of every record that is. -/
theorem decode_record_eq_ok_iff {R : α → Prop} {a : α} (hnames : (names f.fields).Nodup)
    (hothers : f.refusesOthers = false)
    (given : ∀ a, f.decode o (.record ms) = .ok a → R a)
    (unique : ∀ a b, R a → R b → a = b)
    (isReadFrom : ∀ a, R a → ∀ field ∈ f.fields,
      field.IsReadFrom o ((Document.record ms).parts (names f.fields) field.name)) :
    f.decode o (.record ms) = .ok a ↔
      R a ∧ ∀ m ∈ ms, m.1 ∉ names f.fields → m.2.isSkippable = true := by
  constructor
  · intro h
    obtain ⟨-, hskip⟩ := (exists_decode_record_iff_isReadFrom hnames).mp ⟨a, h⟩
    exact ⟨given a h, fun m hm hother => (hskip m hm hother).2⟩
  · intro h
    obtain ⟨ha, hskip⟩ := h
    obtain ⟨b, hb⟩ := (exists_decode_record_iff_isReadFrom hnames).mpr
      ⟨isReadFrom a ha, fun m hm hother => ⟨hothers, hskip m hm hother⟩⟩
    rw [hb, unique a b ha (given b hb)]

end RecordFormat

namespace FlattenedFormat

open RecordField

variable {f : FlattenedFormat α} {o : Origin} {d : Document} {a : α} {name : String}
  {ms : List (String × Document)}

theorem namesOnce_of_decode (h : f.decode o d = .ok a) : d.NamesOnce f.names := by
  obtain ⟨ms, rfl, h⟩ := exists_ofMembers_of_decode h
  obtain ⟨-, -, own, inner, hown, -, hinner, -⟩ := ofMembers_eq_ok_iff.mp h
  obtain ⟨-, hownNames⟩ := RecordFormat.exists_readMembers_iff.mp ⟨own, hown⟩
  obtain ⟨-, hinnerNames⟩ := RecordFormat.exists_readMembers_iff.mp ⟨inner, hinner⟩
  intro name hname
  cases hfind : find? f.ownFields name with
  | some field =>
    have hcount := (hownNames name (mem_names_of_find? hfind)).1
    rw [ownMembers, Keyed.count_keys_filter (p := fun key => (find? f.ownFields key).isSome)
      (by rw [hfind]; rfl)] at hcount
    exact hcount
  | none =>
    have haside : name ∈ RecordField.names f.innerFields :=
      (List.mem_append.mp hname).resolve_left (find?_eq_none_iff.mp hfind)
    have hcount := (hinnerNames name haside).1
    rw [asideMembers, Keyed.count_keys_filter (p := fun key => (find? f.ownFields key).isNone)
      (by rw [hfind]; rfl)] at hcount
    exact hcount

end FlattenedFormat
end QueryCriteria.Json
