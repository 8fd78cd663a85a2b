import QueryCriteria.Json.Flattened
import QueryCriteria.Proofs.Json.Record

/-!
# Reading and writing flattened records

The members of the object of a flattened record are its own fields and those that are set aside. The
two parts are read one after the other, each in the order of the document. What was set aside and is
no field either is foreign: its keys are distinct, and none of them is the name of a field.

A record that is written gives its fields and its foreign members. When its own fields restore what
they write, and the inner fields after them, it is read back.
-/
namespace QueryCriteria.Json

variable {α β : Type}

namespace RecordField

/-- A part of a record that can be taken from it, changed in it and put into it. -/
structure IsLens (get : α → β) (modify : (β → β) → α → α) (put : β → α → α) : Prop where
  modify_eq : ∀ g a, modify g a = put (g (get a)) a
  get_put : ∀ b a, get (put b a) = b
  put_get : ∀ a, put (get a) a = a
  put_put : ∀ b b' a, put b (put b' a) = put b a

variable {get : α → β} {modify : (β → β) → α → α} {put : β → α → α} {fields : List (RecordField β)}
  {o : Origin}

theorem names_within : names (fields.map (.within get modify)) = names fields := by
  simp [names, within]

theorem members_within (a : α) :
    members (fields.map (.within get modify)) a = members fields (get a) := by
  rw [members, List.filterMap_map]
  rfl

theorem RestoreAll.within (hlens : IsLens get modify put) {a b : α} {x y : β}
    (h : RestoreAll o (get a) fields x y) (hb : get b = x) :
    RestoreAll o a (fields.map (.within get modify)) b (put y b) := by
  induction h generalizing b with
  | nil =>
    rw [← hb, hlens.put_get]
    exact .nil
  | cons first rest ih =>
    cases first with
    | omitted hwrite hrequired => exact .cons (.omitted hwrite hrequired) (ih hb)
    | @written d set hwrite hread =>
      have hrest := ih (b := modify set b) (by rw [hlens.modify_eq, hlens.get_put, hb])
      rw [hlens.modify_eq, hlens.put_put, ← hlens.modify_eq] at hrest
      refine .cons (.written hwrite ?_) hrest
      simp [RecordField.within, hread, Except.map]

theorem IsPart.within {γ : Type} {name : String} {decode : Decoder γ} {part : β → γ}
    (hlens : IsLens get modify put) (h : IsPart fields name decode part) :
    IsPart (fields.map (.within get modify)) name decode fun a => part (get a) := by
  have hmodify : ∀ g a, get (modify g a) = g (get a) := by
    intro g a
    rw [hlens.modify_eq, hlens.get_put]
  refine ⟨List.forall_mem_map.mpr fun field hfield hname o d set a hset => ?_,
    List.forall_mem_map.mpr fun field hfield hname o d set a hset => ?_⟩
  · obtain ⟨g, hg, rfl⟩ := map_eq_ok_iff.mp hset
    rw [hmodify]
    exact h.sets field hfield hname o d g (get a) hg
  · obtain ⟨g, hg, rfl⟩ := map_eq_ok_iff.mp hset
    rw [hmodify]
    exact h.keeps field hfield hname o d g (get a) hg

theorem find?_within (key : String) :
    find? (fields.map (.within get modify)) key = (find? fields key).map (.within get modify) := by
  rw [find?, List.find?_map]
  rfl

end RecordField

namespace RecordFormat

variable {get : α → β} {modify : (β → β) → α → α} {put : β → α → α} {f : RecordFormat α}
  {g : RecordFormat β} {o : Origin}

/-- A record whose fields are those of a part reads a member as the part does. -/
theorem readMember_within (hlens : RecordField.IsLens get modify put)
    (hfields : f.fields = g.fields.map (.within get modify))
    (hothers : f.refusesOthers = g.refusesOthers) (p : Progress α) (key : String) (d : Document) :
    f.readMember o p key d = (g.readMember o ⟨p.seen, get p.record⟩ key d).map fun q =>
      ⟨q.seen, put q.record p.record⟩ := by
  rw [readMember, readMember, hfields, RecordField.find?_within, RecordField.names_within, hothers]
  cases RecordField.find? g.fields key with
  | some field =>
    dsimp only [Option.map_some]
    split
    · rfl
    · dsimp only [RecordField.within]
      cases field.read o d with
      | error e => rfl
      | ok set => simp only [Except.map, hlens.modify_eq]
  | none =>
    dsimp only [Option.map_none]
    split
    · rfl
    · split
      · simp only [Except.map]
        rw [hlens.put_get]
      · rfl

theorem readMembers_within (hlens : RecordField.IsLens get modify put)
    (hfields : f.fields = g.fields.map (.within get modify))
    (hothers : f.refusesOthers = g.refusesOthers) (p : Progress α) (ms : List (String × Document)) :
    f.readMembers o p ms = (g.readMembers o ⟨p.seen, get p.record⟩ ms).map fun q =>
      ⟨q.seen, put q.record p.record⟩ := by
  induction ms generalizing p with
  | nil => simp only [readMembers, Except.map, hlens.put_get]
  | cons m rest ih =>
    obtain ⟨key, d⟩ := m
    rw [readMembers, readMembers, readMember_within hlens hfields hothers]
    cases g.readMember o ⟨p.seen, get p.record⟩ key d with
    | error e => rfl
    | ok q =>
      simp only [Except.map, bind, Except.bind]
      rw [ih]
      simp only [hlens.get_put, hlens.put_put, Except.map]

end RecordFormat

namespace FlattenedFormat

open RecordField

variable {f : FlattenedFormat α} {o : Origin} {p q : Progress α} {ms : List (String × Document)}
  {d : Document} {a b c : α}

def names (f : FlattenedFormat α) : List String :=
  RecordField.names f.ownFields ++ RecordField.names f.innerFields

/-- Members that are no fields of a record, as it can keep them. -/
structure IsForeign (f : FlattenedFormat α) (others : List (String × Value)) : Prop where
  nodup : (Keyed.keys others).Nodup
  undeclared : ∀ key ∈ Keyed.keys others, key ∉ f.names
  keysDistinct : Value.MemberKeysDistinct others

theorem IsForeign.nil : f.IsForeign [] := ⟨List.nodup_nil, by simp [Keyed.keys], trivial⟩

theorem IsForeign.of_keys {others others' : List (String × Value)} (h : f.IsForeign others)
    (hkeys : Keyed.keys others' = Keyed.keys others) (hdistinct : Value.MemberKeysDistinct others') :
    f.IsForeign others' :=
  ⟨hkeys ▸ h.nodup, hkeys ▸ h.undeclared, hdistinct⟩

def ownMembers (f : FlattenedFormat α) (ms : List (String × Document)) : List (String × Document) :=
  ms.filter fun m => (find? f.ownFields m.1).isSome

/-- The members that are set aside. -/
def asideMembers (f : FlattenedFormat α) (ms : List (String × Document)) :
    List (String × Document) :=
  ms.filter fun m => (find? f.ownFields m.1).isNone

theorem readMembers_eq_ok_iff :
    f.readMembers o p ms = .ok q ↔
      f.own.readMembers o p.own (f.ownMembers ms) = .ok q.own ∧
        p.aside ++ f.asideMembers ms = q.aside ∧
        ∀ m ∈ f.asideMembers ms, m.2.toValue?.isSome = true := by
  -- Each member goes on with one of the two parts, so the induction is over both at once.
  induction ms generalizing p with
  | nil =>
    obtain ⟨own, aside⟩ := p
    obtain ⟨own', aside'⟩ := q
    simp [readMembers, RecordFormat.readMembers, ownMembers, asideMembers]
  | cons m rest ih =>
    obtain ⟨key, d⟩ := m
    cases hkey : find? f.ownFields key with
    | some field =>
      have hown : f.ownMembers ((key, d) :: rest) = (key, d) :: f.ownMembers rest := by
        simp [ownMembers, hkey]
      have haside : f.asideMembers ((key, d) :: rest) = f.asideMembers rest := by
        simp [asideMembers, hkey]
      rw [readMembers, hkey, hown, haside]
      simp only [Option.isSome_some, if_true, bind_eq_ok_iff, ih,
        RecordFormat.readMembers_cons_eq_ok_iff]
      constructor
      · rintro ⟨own, hown, hrest, haside⟩
        exact ⟨⟨own, hown, hrest⟩, haside⟩
      · rintro ⟨⟨own, hown, hrest⟩, haside⟩
        exact ⟨own, hown, hrest, haside⟩
    | none =>
      have hown : f.ownMembers ((key, d) :: rest) = f.ownMembers rest := by
        simp [ownMembers, hkey]
      have haside : f.asideMembers ((key, d) :: rest) = (key, d) :: f.asideMembers rest := by
        simp [asideMembers, hkey]
      rw [readMembers, hkey, hown, haside, List.forall_mem_cons]
      cases hvalue : d.toValue? with
      | none => simp
      | some v => simp [ih]

/-- An object is read as its two parts. -/
theorem ofMembers_eq_ok_iff {ending : Option Defect} :
    f.ofMembers o ms ending = .ok a ↔
      ending = none ∧ (∀ m ∈ f.asideMembers ms, m.2.toValue?.isSome = true) ∧ ∃ own inner,
        f.own.readMembers o ⟨[], f.initial⟩ (f.ownMembers ms) = .ok own ∧
        checkMissing f.ownFields own.seen = .ok () ∧
        f.inner.readMembers .buffer ⟨[], own.record⟩ (f.asideMembers ms) = .ok inner ∧
        checkMissing f.innerFields inner.seen = .ok () ∧
        f.setOthers (f.othersOf (f.asideMembers ms)) inner.record = a := by
  unfold ofMembers
  rw [bind_eq_ok_iff]
  constructor
  · rintro ⟨p, hp, h⟩
    obtain ⟨hown, haside, hvalues⟩ := readMembers_eq_ok_iff.mp hp
    rw [List.nil_append] at haside
    split at h
    · cases h
    · rename_i hending
      obtain ⟨⟨⟩, hmissing, h⟩ := bind_eq_ok_iff.mp h
      obtain ⟨q, hinner, h⟩ := bind_eq_ok_iff.mp h
      obtain ⟨⟨⟩, hmissing', h⟩ := bind_eq_ok_iff.mp h
      rw [← haside] at hinner h
      cases h
      exact ⟨by simpa using hending, hvalues, p.own, q, hown, hmissing, hinner, hmissing', rfl⟩
  · rintro ⟨rfl, hvalues, own, q, hown, hmissing, hinner, hmissing', rfl⟩
    refine ⟨⟨own, f.asideMembers ms⟩, readMembers_eq_ok_iff.mpr ⟨hown, rfl, hvalues⟩, ?_⟩
    simp [bind, Except.bind, hmissing, hinner, hmissing', pure, Except.pure]

theorem exists_ofMembers_of_decode (h : f.decode o d = .ok a) :
    ∃ ms, d = .record ms ∧ f.ofMembers o ms none = .ok a := by
  cases d with
  | object ms ending =>
    obtain ⟨rfl, -⟩ := ofMembers_eq_ok_iff.mp h
    exact ⟨ms, rfl, h⟩
  | array | defect | null | bool | number | string => cases h

section Others

variable (h : ∀ m ∈ f.asideMembers ms, m.2.toValue?.isSome = true)
include h

theorem toMembers?_othersOf :
    Document.toMembers? [] ((f.asideMembers ms).filter fun m => (find? f.innerFields m.1).isNone) =
      some (f.othersOf (f.asideMembers ms)) := by
  have hsome : (Document.toMembers? [] ((f.asideMembers ms).filter fun m =>
      (find? f.innerFields m.1).isNone)).isSome = true :=
    Document.isSome_toMembers?_iff.mpr fun m hm => h m (List.mem_of_mem_filter hm)
  obtain ⟨others, hothers⟩ := Option.isSome_iff_exists.mp hsome
  rw [othersOf, hothers]
  rfl

theorem mem_keys_othersOf {key : String} :
    key ∈ Keyed.keys (f.othersOf (f.asideMembers ms)) ↔ key ∈ Keyed.keys ms ∧ key ∉ f.names := by
  rw [Document.mem_keys_of_toMembers? (toMembers?_othersOf h)]
  simp only [Keyed.keys, asideMembers, names, List.map_nil, List.not_mem_nil, false_or,
    List.mem_map, List.mem_filter, Option.isNone_iff_eq_none, find?_eq_none_iff, List.mem_append]
  constructor
  · rintro ⟨m, ⟨⟨hm, hown⟩, hinner⟩, rfl⟩
    exact ⟨⟨m, hm, rfl⟩, not_or.mpr ⟨hown, hinner⟩⟩
  · rintro ⟨⟨m, hm, rfl⟩, hnot⟩
    obtain ⟨hown, hinner⟩ := not_or.mp hnot
    exact ⟨m, ⟨⟨hm, hown⟩, hinner⟩, rfl⟩

theorem isForeign_othersOf : f.IsForeign (f.othersOf (f.asideMembers ms)) := by
  obtain ⟨hnodup, hdistinct⟩ :=
    Document.keysDistinct_of_toMembers? (toMembers?_othersOf h) List.nodup_nil trivial
  exact ⟨hnodup, fun key hkey => ((mem_keys_othersOf h).mp hkey).2, hdistinct⟩

end Others

/-- A record is read from an object whose members are its fields and the others that it keeps. -/
theorem mem_names_of_decode (hothers : ∀ others b, f.others (f.setOthers others b) = others)
    (h : f.decode o d = .ok a) :
    ∃ ms, d = .record ms ∧
      ∀ key ∈ Keyed.keys ms, key ∈ f.names ∨ key ∈ Keyed.keys (f.others a) := by
  obtain ⟨ms, rfl, h⟩ := exists_ofMembers_of_decode h
  obtain ⟨-, hvalues, own, inner, -, -, -, -, rfl⟩ := ofMembers_eq_ok_iff.mp h
  refine ⟨ms, rfl, fun key hkey => ?_⟩
  rw [hothers, mem_keys_othersOf hvalues]
  tauto

theorem decode_inner_part_of_decode {name : String} {decode : Decoder β} {get : α → β}
    {keys : List String} {part : Document} (hnames : f.names.Nodup)
    (hpart : IsPart f.innerFields name decode get)
    (hname : name ∈ RecordField.names f.innerFields)
    (hothers : ∀ others b, get (f.setOthers others b) = get b) (h : f.decode o d = .ok a)
    (hmem : part ∈ d.parts keys name) : decode .buffer part = .ok (get a) := by
  obtain ⟨ms, rfl, h⟩ := exists_ofMembers_of_decode h
  obtain ⟨-, -, p, q, -, -, hinner, -, rfl⟩ := ofMembers_eq_ok_iff.mp h
  have hown : name ∉ RecordField.names f.ownFields :=
    fun hown => List.disjoint_of_nodup_append hnames hown hname
  have haside : (name, part) ∈ f.asideMembers ms := by
    refine List.mem_filter.mpr ⟨Document.mem_parts_iff.mp hmem, ?_⟩
    rw [Option.isNone_iff_eq_none, find?_eq_none_iff]
    exact hown
  rw [hothers]
  exact RecordFormat.decode_part_of_readMembers (f := f.inner) hpart hname hinner haside

theorem exists_decode_own {name : String} {decode : Decoder β} {get : α → β}
    (hpart : IsPart f.ownFields name decode get) (hname : name ∈ RecordField.names f.ownFields)
    (h : f.decode o (.record ms) = .ok a) (hmem : (name, d) ∈ ms) : ∃ x, decode o d = .ok x := by
  obtain ⟨-, -, p, q, hown, -⟩ := ofMembers_eq_ok_iff.mp h
  refine ⟨_, RecordFormat.decode_part_of_readMembers (f := f.own) hpart hname hown ?_⟩
  exact List.mem_filter.mpr ⟨hmem, isSome_find?_iff.mpr hname⟩

/-- A property of the initial record that every field and all foreign members keep holds of each
record that is read. -/
theorem decode_induction {P : α → Prop} (initial : P f.initial)
    (own : ∀ field ∈ f.ownFields, ∀ d set a, field.read o d = .ok set → P a → P (set a))
    (inner : ∀ field ∈ f.innerFields, ∀ d set a,
      field.read .buffer d = .ok set → P a → P (set a))
    (foreign : ∀ others a, f.IsForeign others → P a → P (f.setOthers others a))
    (h : f.decode o d = .ok a) : P a := by
  obtain ⟨ms, rfl, h⟩ := exists_ofMembers_of_decode h
  obtain ⟨-, hvalues, p, q, hown, -, hinner, -, rfl⟩ := ofMembers_eq_ok_iff.mp h
  have hp : P p.record := RecordFormat.readMembers_induction own initial hown
  have hq : P q.record :=
    RecordFormat.readMembers_induction (p := ⟨[], p.record⟩) inner hp hinner
  exact foreign _ _ (isForeign_othersOf hvalues) hq

section RoundTrip

variable {others : List (String × Value)}

theorem notMem_names_of_mem_ofMembers (h : f.IsForeign others) :
    ∀ m ∈ Document.ofMembers others, m.1 ∉ f.names := by
  intro m hm
  refine h.undeclared m.1 ?_
  rw [← Document.keys_ofMembers]
  exact List.mem_map_of_mem hm

theorem ownMembers_written (hnames : f.names.Nodup) (h : f.IsForeign others) :
    f.ownMembers (members f.innerFields a ++ members f.ownFields a ++ Document.ofMembers others) =
      members f.ownFields a := by
  have hinner : f.ownMembers (members f.innerFields a) = [] := by
    refine List.filter_eq_nil_iff.mpr fun m hm hown => ?_
    exact List.disjoint_of_nodup_append hnames (isSome_find?_iff.mp hown)
      (mem_names_of_mem_members hm)
  have hown : f.ownMembers (members f.ownFields a) = members f.ownFields a :=
    List.filter_eq_self.mpr fun m hm => isSome_find?_iff.mpr (mem_names_of_mem_members hm)
  have hforeign : f.ownMembers (Document.ofMembers others) = [] := by
    refine List.filter_eq_nil_iff.mpr fun m hm hown => ?_
    exact notMem_names_of_mem_ofMembers h m hm
      (List.mem_append_left _ (isSome_find?_iff.mp hown))
  rw [ownMembers] at hinner hown hforeign ⊢
  rw [List.filter_append, List.filter_append, hinner, hown, hforeign, List.nil_append,
    List.append_nil]

/-- The inner fields and the foreign members are set aside. -/
theorem asideMembers_written (hnames : f.names.Nodup) (h : f.IsForeign others) :
    f.asideMembers (members f.innerFields a ++ members f.ownFields a ++ Document.ofMembers others) =
      members f.innerFields a ++ Document.ofMembers others := by
  have hinner : f.asideMembers (members f.innerFields a) = members f.innerFields a := by
    refine List.filter_eq_self.mpr fun m hm => ?_
    rw [Option.isNone_iff_eq_none, find?_eq_none_iff]
    exact fun hown => List.disjoint_of_nodup_append hnames hown (mem_names_of_mem_members hm)
  have hown : f.asideMembers (members f.ownFields a) = [] := by
    refine List.filter_eq_nil_iff.mpr fun m hm haside => ?_
    rw [Option.isNone_iff_eq_none, find?_eq_none_iff] at haside
    exact haside (mem_names_of_mem_members hm)
  have hforeign : f.asideMembers (Document.ofMembers others) = Document.ofMembers others := by
    refine List.filter_eq_self.mpr fun m hm => ?_
    rw [Option.isNone_iff_eq_none, find?_eq_none_iff]
    exact fun hown => notMem_names_of_mem_ofMembers h m hm (List.mem_append_left _ hown)
  rw [asideMembers] at hinner hown hforeign ⊢
  rw [List.filter_append, List.filter_append, hinner, hown, hforeign, List.append_nil]

theorem othersOf_written (h : f.IsForeign others) :
    f.othersOf (members f.innerFields a ++ Document.ofMembers others) = others := by
  have hinner : (members f.innerFields a).filter
      (fun m => (find? f.innerFields m.1).isNone) = [] := by
    refine List.filter_eq_nil_iff.mpr fun m hm hnone => ?_
    rw [Option.isNone_iff_eq_none, find?_eq_none_iff] at hnone
    exact hnone (mem_names_of_mem_members hm)
  have hforeign : (Document.ofMembers others).filter
      (fun m => (find? f.innerFields m.1).isNone) = Document.ofMembers others := by
    refine List.filter_eq_self.mpr fun m hm => ?_
    rw [Option.isNone_iff_eq_none, find?_eq_none_iff]
    exact fun hinner => notMem_names_of_mem_ofMembers h m hm (List.mem_append_right _ hinner)
  have hvalues : Document.toMembers? [] (Document.ofMembers others) = some others :=
    Document.toMembers?_ofMembers (by simpa using h.nodup) h.keysDistinct
  rw [othersOf, List.filter_append, hinner, hforeign, List.nil_append, hvalues]
  rfl

/-- A record is read back when its own fields restore what they write, and then the inner fields. -/
theorem decode_encode_of_restoreAll (hnames : f.names.Nodup) (hforeign : f.IsForeign (f.others a))
    (hown : RestoreAll o a f.ownFields f.initial b)
    (hinner : RestoreAll .buffer a f.innerFields b c)
    (hvalues : ∀ m ∈ members f.innerFields a, m.2.toValue?.isSome = true)
    (hothers : f.setOthers (f.others a) c = a) : f.decode o (f.encode a) = .ok a := by
  obtain ⟨hownNames, hinnerNames, -⟩ := List.nodup_append.mp hnames
  have hreadOwn := RecordFormat.readMembers_members (f := f.own) (p := ⟨[], f.initial⟩)
    (.all hownNames) hown
  have hreadInner := RecordFormat.readMembers_members (f := f.inner) (p := ⟨[], b⟩)
    (.all hinnerNames) hinner
  -- The inner record passes over the foreign members, which were set aside with its fields.
  have hskip : ∀ m ∈ Document.ofMembers (f.others a),
      m.1 ∉ RecordField.names f.inner.fields ∧ m.2.isSkippable = true := by
    intro m hm
    have hvalue := Document.isSome_toValue?_ofMembers hforeign.keysDistinct m hm
    exact ⟨fun hmem => notMem_names_of_mem_ofMembers hforeign m hm (List.mem_append_right _ hmem),
      Document.isSkippable_of_isSome hvalue⟩
  rw [encode, decode, ofMembers_eq_ok_iff, ownMembers_written hnames hforeign,
    asideMembers_written hnames hforeign, othersOf_written hforeign]
  have haside := RecordFormat.readMembers_append_eq_ok_iff.mpr
    ⟨_, hreadInner, RecordFormat.readMembers_foreign rfl hskip⟩
  refine ⟨rfl, ?_, _, _, hreadOwn, RecordFormat.checkMissing_of_restoreAll hown [], haside,
    RecordFormat.checkMissing_of_restoreAll hinner [], hothers⟩
  intro m hm
  rcases List.mem_append.mp hm with hm | hm
  · exact hvalues m hm
  · exact Document.isSome_toValue?_ofMembers hforeign.keysDistinct m hm

end RoundTrip

end FlattenedFormat
end QueryCriteria.Json
