import QueryCriteria.Json.Record
import QueryCriteria.Proofs.Except
import QueryCriteria.Proofs.Json.Document

/-!
# Reading and writing records

A record is read member by member. Each member that names a field sets it, no field is set twice,
and other members are refused or leave the record as it is. A property of records that the initial
one has and that every field keeps is hence a property of each record that is read, and a part of it
that only one field sets is what the member of this name was decoded to. The items of an array are
read as if each had the name of its field.

A field restores what it writes if reading this back sets the field again, and if leaving the field
out does no harm. When all fields of a format restore what they write, one after the other, the
records that are written are read back.
-/
namespace QueryCriteria.Json

variable {α β : Type}

namespace RecordField

variable {fields : List (RecordField α)} {key : String}

theorem mem_of_find? {field : RecordField α} (h : find? fields key = some field) :
    field ∈ fields ∧ field.name = key :=
  ⟨List.mem_of_find?_eq_some h, by simpa using List.find?_some h⟩

theorem find?_eq_none_iff : find? fields key = none ↔ key ∉ names fields := by
  rw [find?, List.find?_eq_none, names, List.mem_map]
  simp

theorem isSome_find?_iff : (find? fields key).isSome = true ↔ key ∈ names fields := by
  rw [← not_iff_not, Option.not_isSome_iff_eq_none, find?_eq_none_iff]

theorem mem_names_of_find? {field : RecordField α} (h : find? fields key = some field) :
    key ∈ names fields := by
  obtain ⟨hmem, rfl⟩ := mem_of_find? h
  exact List.mem_map_of_mem hmem

theorem find?_of_mem (hnames : (names fields).Nodup) {field : RecordField α} (h : field ∈ fields) :
    find? fields field.name = some field := by
  induction fields with
  | nil => cases h
  | cons first rest ih =>
    obtain ⟨hfirst, hrest⟩ := List.nodup_cons.mp hnames
    rcases List.mem_cons.mp h with rfl | h
    · simp [find?]
    · have hne : first.name ≠ field.name := by
        intro heq
        exact hfirst (heq ▸ List.mem_map_of_mem h)
      rw [find?, List.find?_cons_of_neg (by simpa using hne)]
      exact ih hrest h

/-- Reading back what a field writes of `a` turns the record `b` into another. -/
inductive Restores (field : RecordField α) (o : Origin) (a b : α) : α → Prop
  | omitted (write_eq : field.write a = none) (notRequired : field.isRequired = false) :
    Restores field o a b b
  | written {d : Document} {set : α → α} (write_eq : field.write a = some d)
    (read_eq : field.read o d = .ok set) : Restores field o a b (set b)

inductive RestoreAll (o : Origin) (a : α) : List (RecordField α) → α → α → Prop
  | nil {b : α} : RestoreAll o a [] b b
  | cons {field : RecordField α} {fields : List (RecordField α)} {b c e : α}
    (first : field.Restores o a b c) (rest : RestoreAll o a fields c e) :
    RestoreAll o a (field :: fields) b e

section Restores

variable {name : String} {decode : Decoder β} {encode : β → Document} {o : Origin} {a b : α}

theorem restores_required {get : α → β} {set : β → α → α}
    (h : decode o (encode (get a)) = .ok (get a)) :
    (required name decode encode get set).Restores o a b (set (get a) b) :=
  .written rfl (by simp [required, h, Except.map])

theorem restores_optional {get : α → Option β} {set : Option β → α → α}
    (h : ∀ v, get a = some v → encode v ≠ .null ∧ decode o (encode v) = .ok v)
    (hb : get a = none → set none b = b) :
    (optional name decode encode get set).Restores o a b (set (get a) b) := by
  cases hv : get a with
  | none =>
    rw [hb hv]
    exact .omitted (by simp [optional, hv]) rfl
  | some v =>
    obtain ⟨hnull, hdecode⟩ := h v hv
    refine .written (d := encode v) (by simp [optional, hv]) ?_
    simp [optional, Decode.optional_encode hnull hdecode, Except.map]

theorem restores_defaulted {get : α → β} {set : β → α → α} {isOmitted : β → Bool}
    (h : decode o (encode (get a)) = .ok (get a))
    (hb : isOmitted (get a) = true → set (get a) b = b) :
    (defaulted name decode encode get set isOmitted).Restores o a b (set (get a) b) := by
  cases homitted : isOmitted (get a) with
  | true =>
    rw [hb homitted]
    exact .omitted (by simp [defaulted, homitted]) rfl
  | false =>
    refine .written (d := encode (get a)) (by simp [defaulted, homitted]) ?_
    simp [defaulted, h, Except.map]

end Restores

theorem RestoreAll.isSome_write {o : Origin} {a b c : α} (h : RestoreAll o a fields b c) :
    ∀ field ∈ fields, field.isRequired = true → (field.write a).isSome = true := by
  induction h with
  | nil => simp
  | cons first rest ih =>
    refine List.forall_mem_cons.mpr ⟨fun hrequired => ?_, ih⟩
    cases first with
    | omitted _ hnot => exact absurd hrequired (by simp [hnot])
    | written hwrite _ => rw [hwrite]; rfl

theorem members_cons (field : RecordField α) (fields : List (RecordField α)) (a : α) :
    members (field :: fields) a =
      ((field.write a).map (field.name, ·)).toList ++ members fields a := by
  unfold members
  cases h : field.write a <;> simp [h]

theorem mem_names_of_mem_members {a : α} {m : String × Document} (h : m ∈ members fields a) :
    m.1 ∈ names fields := by
  obtain ⟨field, hfield, hwrite⟩ := List.mem_filterMap.mp h
  obtain ⟨d, -, rfl⟩ := Option.map_eq_some_iff.mp hwrite
  exact List.mem_map_of_mem hfield

theorem forall_mem_members {P : Document → Prop} {a : α}
    (h : ∀ field ∈ fields, ∀ d, field.write a = some d → P d) : ∀ m ∈ members fields a, P m.2 := by
  intro m hm
  obtain ⟨field, hfield, hwrite⟩ := List.mem_filterMap.mp hm
  obtain ⟨d, hd, rfl⟩ := Option.map_eq_some_iff.mp hwrite
  exact h field hfield d hd

theorem keys_members (fields : List (RecordField α)) (a : α) :
    (members fields a).map Prod.fst = names (fields.filter fun field => (field.write a).isSome) := by
  induction fields with
  | nil => rfl
  | cons field rest ih =>
    rw [members_cons, List.map_append, ih]
    cases h : field.write a <;> simp [names, h]

/-- A part of a record is what the field of a name sets and what the other fields keep. -/
structure IsPart (fields : List (RecordField α)) (name : String) (decode : Decoder β)
    (get : α → β) : Prop where
  sets : ∀ field ∈ fields, field.name = name → ∀ o d set a,
    field.read o d = .ok set → decode o d = .ok (get (set a))
  keeps : ∀ field ∈ fields, field.name ≠ name → ∀ o d set a,
    field.read o d = .ok set → get (set a) = get a

section IsPart

variable {γ : Type} {field : RecordField α} {name : String} {decode : Decoder β} {get : α → β}

theorem IsPart.nil : IsPart ([] : List (RecordField α)) name decode get := ⟨by simp, by simp⟩

theorem IsPart.cons_sets {set : β → α → α}
    (hread : ∀ o d, field.read o d = (decode o d).map set) (hset : ∀ b a, get (set b a) = b)
    (hname : field.name = name) (rest : IsPart fields name decode get) :
    IsPart (field :: fields) name decode get := by
  refine ⟨List.forall_mem_cons.mpr ⟨fun _ o d g a hg => ?_, rest.sets⟩,
    List.forall_mem_cons.mpr ⟨fun hne => absurd hname hne, rest.keeps⟩⟩
  rw [hread] at hg
  obtain ⟨b, hb, rfl⟩ := map_eq_ok_iff.mp hg
  rw [hset, hb]

theorem IsPart.cons_keeps {decode' : Decoder γ} {set : γ → α → α}
    (hread : ∀ o d, field.read o d = (decode' o d).map set) (hset : ∀ c a, get (set c a) = get a)
    (hname : field.name ≠ name) (rest : IsPart fields name decode get) :
    IsPart (field :: fields) name decode get := by
  refine ⟨List.forall_mem_cons.mpr ⟨fun heq => absurd heq hname, rest.sets⟩,
    List.forall_mem_cons.mpr ⟨fun _ o d g a hg => ?_, rest.keeps⟩⟩
  rw [hread] at hg
  obtain ⟨c, -, rfl⟩ := map_eq_ok_iff.mp hg
  exact hset c a

end IsPart

end RecordField

namespace Document

/-- The members of a document that is read as a record with fields of these names. The items of an
array stand for the fields in their order. -/
def membersAs (names : List String) : Document → List (String × Document)
  | .object members _ => members
  | .array items _ => names.zip items
  | _ => []

/-- The values of the field of a name, in a document that is read as a record. -/
def parts (names : List String) (name : String) (d : Document) : List Document :=
  ((d.membersAs names).filter fun m => m.1 = name).map Prod.snd

theorem mem_parts_iff {names : List String} {name : String} {d part : Document} :
    part ∈ d.parts names name ↔ (name, part) ∈ d.membersAs names := by
  simp [parts]

def memberNames : Document → List String
  | .object members _ => Keyed.keys members
  | _ => []

/-- A document whose members have one of these names, if it is an object; others are taken out. -/
def keepMembers (names : List String) : Document → Document
  | .object members ending => .object (members.filter fun m => m.1 ∈ names) ending
  | d => d

end Document

namespace RecordFormat

open RecordField

variable {f : RecordFormat α} {o : Origin} {p q : Progress α} {key : String} {d : Document}
  {ms : List (String × Document)}

theorem readMember_cases (h : f.readMember o p key d = .ok q) :
    (∃ field set, find? f.fields key = some field ∧ key ∉ p.seen ∧ field.read o d = .ok set ∧
      q = ⟨key :: p.seen, set p.record⟩) ∨
    key ∉ names f.fields ∧ f.refusesOthers = false ∧ q = p := by
  unfold readMember at h
  split at h
  · rename_i field hfield
    split at h
    · cases h
    · rename_i hseen
      obtain ⟨set, hset, rfl⟩ := map_eq_ok_iff.mp h
      exact .inl ⟨field, set, hfield, by simpa using hseen, hset, rfl⟩
  · rename_i hnone
    split at h
    · cases h
    · rename_i hothers
      split at h
      · cases h
        exact .inr ⟨find?_eq_none_iff.mp hnone, by simpa using hothers, rfl⟩
      · cases h

theorem readMembers_cons_eq_ok_iff :
    f.readMembers o p ((key, d) :: ms) = .ok q ↔
      ∃ p', f.readMember o p key d = .ok p' ∧ f.readMembers o p' ms = .ok q := by
  rw [readMembers, bind_eq_ok_iff]

theorem readMembers_append_eq_ok_iff {others : List (String × Document)} :
    f.readMembers o p (ms ++ others) = .ok q ↔
      ∃ p', f.readMembers o p ms = .ok p' ∧ f.readMembers o p' others = .ok q := by
  induction ms generalizing p with
  | nil => simp [readMembers]
  | cons m rest ih =>
    obtain ⟨key, d⟩ := m
    simp only [List.cons_append, readMembers_cons_eq_ok_iff, ih]
    constructor
    · rintro ⟨p', hp', p'', hp'', hq⟩
      exact ⟨p'', ⟨p', hp', hp''⟩, hq⟩
    · rintro ⟨p'', ⟨p', hp', hp''⟩, hq⟩
      exact ⟨p', hp', p'', hp'', hq⟩

theorem readMembers_foreign (hothers : f.refusesOthers = false)
    (h : ∀ m ∈ ms, m.1 ∉ names f.fields ∧ m.2.isSkippable = true) :
    f.readMembers o p ms = .ok p := by
  induction ms with
  | nil => rfl
  | cons m rest ih =>
    obtain ⟨key, d⟩ := m
    obtain ⟨⟨hkey, hskip⟩, hrest⟩ := List.forall_mem_cons.mp h
    refine readMembers_cons_eq_ok_iff.mpr ⟨p, ?_, ih hrest⟩
    rw [readMember, find?_eq_none_iff.mpr hkey]
    simp [hothers, hskip]

/-- A record that passes other members over is read as if they were not there. -/
theorem readMembers_fields (hothers : f.refusesOthers = false)
    (h : ∀ m ∈ ms, m.2.isSkippable = true) :
    f.readMembers o p (ms.filter fun m => m.1 ∈ names f.fields) = f.readMembers o p ms := by
  induction ms generalizing p with
  | nil => rfl
  | cons m rest ih =>
    obtain ⟨key, d⟩ := m
    obtain ⟨hskip, hrest⟩ := List.forall_mem_cons.mp h
    by_cases hkey : key ∈ names f.fields
    · rw [List.filter_cons_of_pos (by simpa using hkey), readMembers, readMembers]
      simp only [ih hrest]
    · have hpassed : f.readMember o p key d = .ok p := by
        rw [readMember, find?_eq_none_iff.mpr hkey]
        simp [hothers, hskip]
      rw [List.filter_cons_of_neg (by simpa using hkey), ih hrest, readMembers, hpassed]
      rfl

/-- Fields that can still be read: they have names of their own, which were not seen yet. -/
structure Pending (f : RecordFormat α) (seen : List String) (fields : List (RecordField α)) :
    Prop where
  find? : ∀ field ∈ fields, RecordField.find? f.fields field.name = some field
  nodup : (names fields).Nodup
  unseen : ∀ name ∈ names fields, name ∉ seen

namespace Pending

variable {seen : List String} {field : RecordField α} {fields : List (RecordField α)}

theorem all (hnames : (names f.fields).Nodup) : f.Pending [] f.fields :=
  ⟨fun _ => find?_of_mem hnames, hnames, fun _ _ => List.not_mem_nil⟩

theorem tail (h : f.Pending seen (field :: fields)) : f.Pending seen fields :=
  ⟨(List.forall_mem_cons.mp h.find?).2, (List.nodup_cons.mp h.nodup).2,
    (List.forall_mem_cons.mp h.unseen).2⟩

theorem next (h : f.Pending seen (field :: fields)) : f.Pending (field.name :: seen) fields := by
  refine ⟨h.tail.find?, h.tail.nodup, fun name hname => ?_⟩
  have hne : name ≠ field.name := by
    rintro rfl
    exact (List.nodup_cons.mp h.nodup).1 hname
  exact List.not_mem_cons_of_ne_of_not_mem hne (h.tail.unseen name hname)

theorem readMember {set : α → α} (h : f.Pending p.seen (field :: fields))
    (hset : field.read o d = .ok set) :
    f.readMember o p field.name d = .ok ⟨field.name :: p.seen, set p.record⟩ := by
  have hunseen : field.name ∉ p.seen := h.unseen field.name List.mem_cons_self
  rw [RecordFormat.readMember, h.find? field List.mem_cons_self]
  simp [hunseen, hset, Except.map]

end Pending

section RoundTrip

variable {fields : List (RecordField α)} {a b c : α}

theorem readMembers_members (hpending : f.Pending p.seen fields)
    (h : RestoreAll o a fields p.record c) :
    f.readMembers o p (members fields a) =
      .ok ⟨((members fields a).map Prod.fst).reverse ++ p.seen, c⟩ := by
  -- A field that was left out leaves the others pending, one that was written is seen by them.
  induction fields generalizing p with
  | nil =>
    cases h
    rfl
  | cons field rest ih =>
    cases h with
    | cons first hrest =>
      rw [members_cons]
      cases first with
      | omitted hwrite _ =>
        rw [hwrite]
        exact ih hpending.tail hrest
      | written hwrite hset =>
        rw [hwrite]
        refine readMembers_cons_eq_ok_iff.mpr ⟨_, hpending.readMember hset, ?_⟩
        refine (ih (p := ⟨_, _⟩) hpending.next hrest).trans ?_
        simp

theorem checkMissing_of_restoreAll (h : RestoreAll o a fields b c) (seen : List String) :
    checkMissing fields (((members fields a).map Prod.fst).reverse ++ seen) = .ok () := by
  unfold checkMissing
  split
  · rename_i field hfield
    have hmem := List.mem_of_find?_eq_some hfield
    have hmissing := List.find?_some hfield
    simp only [Bool.and_eq_true, Bool.not_eq_true', List.contains_eq_mem,
      decide_eq_false_iff_not, List.mem_append, List.mem_reverse, not_or] at hmissing
    refine absurd ?_ hmissing.2.1
    rw [keys_members]
    exact List.mem_map_of_mem
      (List.mem_filter.mpr ⟨hmem, h.isSome_write field hmem hmissing.1⟩)
  · rfl

theorem decode_encode_of_restoreAll (hnames : (names f.fields).Nodup)
    (h : RestoreAll o a f.fields f.initial a) : f.decode o (f.encode a) = .ok a := by
  have hread := readMembers_members (p := ⟨[], f.initial⟩) (.all hnames) h
  rw [encode, decode, ofMembers, hread]
  simp only [bind, Except.bind, checkMissing_of_restoreAll h]
  rfl

end RoundTrip

section Arrays

variable {fields : List (RecordField α)} {a b : α} {ending : Option Defect} {index : Nat}
  {ds : List Document}

theorem readItems_nil (h : f.readItems o ending fields index a [] = .ok b) : b = a := by
  induction fields generalizing index with
  | nil =>
    cases h
    rfl
  | cons field rest ih =>
    rw [readItems] at h
    split at h
    · cases h
    · split at h
      · cases h
      · exact ih h

/-- Items are read as the members that have the names of the fields in turn. -/
theorem readMembers_zip_of_readItems (hpending : f.Pending p.seen fields)
    (h : f.readItems o ending fields index p.record ds = .ok b) :
    ∃ seen, f.readMembers o p ((names fields).zip ds) = .ok ⟨seen, b⟩ := by
  induction fields generalizing p index ds with
  | nil =>
    cases h
    exact ⟨p.seen, rfl⟩
  | cons field rest ih =>
    cases ds with
    | nil =>
      rw [readItems_nil h]
      exact ⟨p.seen, rfl⟩
    | cons d ds =>
      obtain ⟨set, hset, h⟩ := bind_eq_ok_iff.mp h
      obtain ⟨seen, hread⟩ := ih (p := ⟨field.name :: p.seen, set p.record⟩) hpending.next h
      exact ⟨seen, readMembers_cons_eq_ok_iff.mpr ⟨_, hpending.readMember hset, hread⟩⟩

end Arrays

/-- A record is read from members, which an object has and which the items of an array stand for. -/
theorem exists_readMembers_of_decode {a : α} (hnames : (names f.fields).Nodup)
    (h : f.decode o d = .ok a) :
    ∃ seen, f.readMembers o ⟨[], f.initial⟩ (d.membersAs (names f.fields)) = .ok ⟨seen, a⟩ := by
  cases d with
  | object ms ending =>
    obtain ⟨q, hread, h⟩ := bind_eq_ok_iff.mp h
    split at h
    · cases h
    · obtain ⟨-, -, h⟩ := bind_eq_ok_iff.mp h
      cases h
      exact ⟨q.seen, hread⟩
  | array ds ending =>
    obtain ⟨b, hb, h⟩ := bind_eq_ok_iff.mp h
    obtain ⟨-, -, h⟩ := bind_eq_ok_iff.mp h
    split at h
    · cases h
      exact readMembers_zip_of_readItems (p := ⟨[], f.initial⟩) (.all hnames) hb
    · cases h
  | defect | null | bool | number | string => cases h

section Parts

variable {P : α → Prop} {get : α → β} {name : String} {decode : Decoder β}

/-- What every field keeps, reading members keeps. -/
theorem readMembers_induction
    (step : ∀ field ∈ f.fields, ∀ d set a, field.read o d = .ok set → P a → P (set a))
    (hp : P p.record) (h : f.readMembers o p ms = .ok q) : P q.record := by
  induction ms generalizing p with
  | nil =>
    cases h
    exact hp
  | cons m rest ih =>
    obtain ⟨key, d⟩ := m
    obtain ⟨p', hp', hq⟩ := readMembers_cons_eq_ok_iff.mp h
    refine ih ?_ hq
    rcases readMember_cases hp' with ⟨field, set, hfield, -, hset, rfl⟩ | ⟨-, -, rfl⟩
    · exact step field (mem_of_find? hfield).1 d set _ hset hp
    · exact hp

theorem decode_induction {a : α} (hnames : (names f.fields).Nodup) (initial : P f.initial)
    (step : ∀ field ∈ f.fields, ∀ d set a, field.read o d = .ok set → P a → P (set a))
    (h : f.decode o d = .ok a) : P a := by
  obtain ⟨seen, hread⟩ := exists_readMembers_of_decode hnames h
  exact readMembers_induction step initial hread

theorem mem_names_of_readMembers (hothers : f.refusesOthers = true)
    (h : f.readMembers o p ms = .ok q) : ∀ m ∈ ms, m.1 ∈ names f.fields := by
  induction ms generalizing p with
  | nil => simp
  | cons m rest ih =>
    obtain ⟨key, d⟩ := m
    obtain ⟨p', hp', hq⟩ := readMembers_cons_eq_ok_iff.mp h
    refine List.forall_mem_cons.mpr ⟨?_, ih hq⟩
    rcases readMember_cases hp' with ⟨field, set, hfield, -, -, rfl⟩ | ⟨-, hnot, -⟩
    · exact mem_names_of_find? hfield
    · rw [hothers] at hnot
      cases hnot

/-- A part is kept once its field has been seen, as no field is read twice. -/
theorem get_eq_of_seen (hpart : IsPart f.fields name decode get) (hseen : name ∈ p.seen)
    (h : f.readMembers o p ms = .ok q) : get q.record = get p.record := by
  induction ms generalizing p with
  | nil =>
    cases h
    rfl
  | cons m rest ih =>
    obtain ⟨key, d⟩ := m
    obtain ⟨p', hp', hq⟩ := readMembers_cons_eq_ok_iff.mp h
    rcases readMember_cases hp' with ⟨field, set, hfield, hunseen, hset, rfl⟩ | ⟨-, -, rfl⟩
    · obtain ⟨hmem, rfl⟩ := mem_of_find? hfield
      rw [ih (List.mem_cons_of_mem _ hseen) hq]
      exact hpart.keeps field hmem (fun heq => hunseen (heq ▸ hseen)) o d set _ hset
    · exact ih hseen hq

theorem decode_part_of_readMembers (hpart : IsPart f.fields name decode get)
    (hname : name ∈ names f.fields) (h : f.readMembers o p ms = .ok q) (hd : (name, d) ∈ ms) :
    decode o d = .ok (get q.record) := by
  induction ms generalizing p with
  | nil => cases hd
  | cons m rest ih =>
    obtain ⟨key, d'⟩ := m
    obtain ⟨p', hp', hq⟩ := readMembers_cons_eq_ok_iff.mp h
    -- Behind the member of this name the part cannot change any more.
    rcases List.mem_cons.mp hd with heq | hd
    · cases heq
      rcases readMember_cases hp' with ⟨field, set, hfield, -, hset, rfl⟩ | ⟨hnot, -, -⟩
      · obtain ⟨hmem, hfield⟩ := mem_of_find? hfield
        rw [get_eq_of_seen hpart List.mem_cons_self hq]
        exact hpart.sets field hmem hfield o d set _ hset
      · exact absurd hname hnot
    · exact ih hq hd

theorem mem_names_of_decode {a : α} (hnames : (names f.fields).Nodup)
    (hothers : f.refusesOthers = true) (h : f.decode o d = .ok a) :
    ∀ name ∈ d.memberNames, name ∈ names f.fields := by
  cases d with
  | object ms ending =>
    obtain ⟨seen, hread⟩ := exists_readMembers_of_decode hnames h
    exact List.forall_mem_map.mpr (mem_names_of_readMembers hothers hread)
  | array | defect | null | bool | number | string => simp [Document.memberNames]

theorem decode_part_of_decode {a : α} {part : Document} (hnames : (names f.fields).Nodup)
    (hpart : IsPart f.fields name decode get) (hname : name ∈ names f.fields)
    (h : f.decode o d = .ok a) (hmem : part ∈ d.parts (names f.fields) name) :
    decode o part = .ok (get a) := by
  obtain ⟨seen, hread⟩ := exists_readMembers_of_decode hnames h
  exact decode_part_of_readMembers hpart hname hread (Document.mem_parts_iff.mp hmem)

theorem readMembers_keepMembers (h : f.readMembers o p ms = .ok q) :
    f.readMembers o p (ms.filter fun m => m.1 ∈ names f.fields) = .ok q := by
  induction ms generalizing p with
  | nil => exact h
  | cons m rest ih =>
    obtain ⟨key, d⟩ := m
    obtain ⟨p', hp', hq⟩ := readMembers_cons_eq_ok_iff.mp h
    by_cases hkey : key ∈ names f.fields
    · rw [List.filter_cons_of_pos (by simpa using hkey)]
      exact readMembers_cons_eq_ok_iff.mpr ⟨p', hp', ih hq⟩
    · rw [List.filter_cons_of_neg (by simpa using hkey)]
      rcases readMember_cases hp' with ⟨field, -, hfield, -⟩ | ⟨-, -, rfl⟩
      · rw [find?_eq_none_iff.mpr hkey] at hfield
        cases hfield
      · exact ih hq

theorem decode_keepMembers {a : α} (h : f.decode o d = .ok a) :
    f.decode o (d.keepMembers (names f.fields)) = .ok a := by
  cases d with
  | object ms ending =>
    obtain ⟨p, hread, h⟩ := bind_eq_ok_iff.mp h
    exact bind_eq_ok_iff.mpr ⟨p, readMembers_keepMembers hread, h⟩
  | array | defect | null | bool | number | string => exact h

end Parts

end RecordFormat
end QueryCriteria.Json
