import QueryCriteria.Proofs.Json.Record

/-!
# Replaced members

A record is read member by member, and the members do not disturb each other. So when the value of
one member is replaced by another that can be read too, the record is read again, and differs in
what this member sets. The same holds of the items of an array.
-/
namespace QueryCriteria.Json

/-- A relation that goes from documents to their readings and on to what the readings give, passed
on when one document of a list is replaced. -/
theorem exists_forall₂_replaced {α β γ : Type} {R : α → β → Prop} {S : β → γ → Prop} {x y : α}
    (hreplaced : ∀ b c, R x b → S b c → ∃ b', R y b' ∧ S b' c) {before after : List α}
    {bs : List β} {cs : List γ} (hR : List.Forall₂ R (before ++ x :: after) bs)
    (hS : List.Forall₂ S bs cs) :
    ∃ bs', List.Forall₂ R (before ++ y :: after) bs' ∧ List.Forall₂ S bs' cs := by
  induction before generalizing bs cs with
  | nil =>
    obtain ⟨b, bs, hb, hafter, rfl⟩ := List.forall₂_cons_left_iff.mp hR
    obtain ⟨c, cs, hc, hrest, rfl⟩ := List.forall₂_cons_left_iff.mp hS
    obtain ⟨b', hb', hc'⟩ := hreplaced b c hb hc
    exact ⟨b' :: bs, .cons hb' hafter, .cons hc' hrest⟩
  | cons first before ih =>
    obtain ⟨b, bs, hb, hafter, rfl⟩ := List.forall₂_cons_left_iff.mp hR
    obtain ⟨c, cs, hc, hrest, rfl⟩ := List.forall₂_cons_left_iff.mp hS
    obtain ⟨bs', hbs', hcs⟩ := ih hafter hrest
    exact ⟨b :: bs', .cons hb hbs', .cons hc hcs⟩

/-- Two documents that are read as records with fields of these names, and differ in the value of
one field: a member with its name, or the item of an array that stands for it. -/
inductive Document.Replaced (names : List String) (key : String) (x y : Document) :
    Document → Document → Prop
  | member {before after : List (String × Document)} {ending : Option Defect} :
    Replaced names key x y (.object (before ++ (key, x) :: after) ending)
      (.object (before ++ (key, y) :: after) ending)
  | item {before after : List Document} {ending : Option Defect}
    (h : names[before.length]? = some key) :
    Replaced names key x y (.array (before ++ x :: after) ending)
      (.array (before ++ y :: after) ending)

theorem Document.Replaced.symm {names : List String} {key : String} {x y d d' : Document}
    (h : Replaced names key x y d d') : Replaced names key y x d' d := by
  cases h with
  | member => exact .member
  | item h => exact .item h

theorem Document.Replaced.mem_parts {names : List String} {key : String} {x y d d' : Document}
    (h : Replaced names key x y d d') : x ∈ d.parts names key := by
  rw [mem_parts_iff]
  cases h with
  | member => simp [membersAs]
  | @item before after ending h =>
    rw [membersAs]
    refine List.mem_iff_getElem?.mpr ⟨before.length, ?_⟩
    simp [List.getElem?_zip_eq_some, h]

namespace RecordFormat

open RecordField

variable {α : Type} {f : RecordFormat α} {o : Origin} {p q : Progress α} {key : String}
  {x y d d' : Document} {ms : List (String × Document)} {change : α → α} {a b : α}

/-- A change of a record with which the fields of other names do not interfere. -/
def Commutes (fields : List (RecordField α)) (key : String) (change : α → α) : Prop :=
  ∀ field ∈ fields, field.name ≠ key → ∀ o d set a, field.read o d = .ok set →
    set (change a) = change (set a)

/-- The fields of a name read the second document too, and then the record is changed further. -/
def ReadsAlso (fields : List (RecordField α)) (key : String) (o : Origin) (x y : Document)
    (change : α → α) : Prop :=
  ∀ field ∈ fields, field.name = key → ∀ set, field.read o x = .ok set →
    field.read o y = .ok fun a => change (set a)

theorem readMember_field {field : RecordField α} {set : α → α} (h : find? f.fields key = some field)
    (hunseen : key ∉ p.seen) (hset : field.read o x = .ok set) :
    f.readMember o p key x = .ok ⟨key :: p.seen, set p.record⟩ := by
  simp [readMember, h, hunseen, hset, Except.map]

theorem readMember_changed {name : String} (hcommutes : Commutes f.fields key change)
    (hne : name ≠ key) (h : f.readMember o p name x = .ok q) :
    f.readMember o ⟨p.seen, change p.record⟩ name x = .ok ⟨q.seen, change q.record⟩ := by
  rcases readMember_cases h with ⟨field, set, hfield, hunseen, hset, rfl⟩ | ⟨hforeign, -, rfl⟩
  · obtain ⟨hmem, hname⟩ := mem_of_find? hfield
    have hfield' := readMember_field (p := ⟨p.seen, change p.record⟩) hfield hunseen hset
    rw [hfield']
    simp only [hcommutes field hmem (hname ▸ hne) o x set _ hset]
  · rw [readMember, find?_eq_none_iff.mpr hforeign] at h ⊢
    dsimp only at h ⊢
    split at h
    · cases h
    · rename_i hothers
      split at h
      · rename_i hskip
        simp [hothers, hskip]
      · cases h

/-- Behind the member of a name the change is carried along, as no field is read twice. -/
theorem readMembers_changed (hcommutes : Commutes f.fields key change) (hseen : key ∈ p.seen)
    (hkey : key ∈ names f.fields) (h : f.readMembers o p ms = .ok q) :
    f.readMembers o ⟨p.seen, change p.record⟩ ms = .ok ⟨q.seen, change q.record⟩ := by
  induction ms generalizing p with
  | nil =>
    cases h
    rfl
  | cons m rest ih =>
    obtain ⟨name, d⟩ := m
    obtain ⟨p', hp', hq⟩ := readMembers_cons_eq_ok_iff.mp h
    have hmember : name ≠ key ∧ key ∈ p'.seen := by
      rcases readMember_cases hp' with ⟨field, set, -, hunseen, -, rfl⟩ | ⟨hforeign, -, rfl⟩
      · exact ⟨fun heq => hunseen (heq ▸ hseen), List.mem_cons_of_mem _ hseen⟩
      · exact ⟨fun heq => hforeign (heq ▸ hkey), hseen⟩
    exact readMembers_cons_eq_ok_iff.mpr
      ⟨_, readMember_changed hcommutes hmember.1 hp', ih hmember.2 hq⟩

theorem readMembers_replaced {before after : List (String × Document)}
    (hreads : ReadsAlso f.fields key o x y change) (hcommutes : Commutes f.fields key change)
    (hkey : key ∈ names f.fields) (h : f.readMembers o p (before ++ (key, x) :: after) = .ok q) :
    f.readMembers o p (before ++ (key, y) :: after) = .ok ⟨q.seen, change q.record⟩ := by
  obtain ⟨p', hbefore, h⟩ := readMembers_append_eq_ok_iff.mp h
  obtain ⟨p'', hmember, hafter⟩ := readMembers_cons_eq_ok_iff.mp h
  refine readMembers_append_eq_ok_iff.mpr ⟨p', hbefore, ?_⟩
  rcases readMember_cases hmember with ⟨field, set, hfield, hunseen, hset, rfl⟩ | ⟨hforeign, -, -⟩
  · obtain ⟨hmem, hname⟩ := mem_of_find? hfield
    have hy := readMember_field hfield hunseen (hreads field hmem hname set hset)
    refine readMembers_cons_eq_ok_iff.mpr ⟨_, hy, ?_⟩
    exact readMembers_changed hcommutes List.mem_cons_self hkey hafter
  · exact absurd hkey hforeign

section Items

variable {fields : List (RecordField α)} {ending : Option Defect} {index : Nat} {ds : List Document}

theorem readItems_changed (hcommutes : Commutes fields key change) (hkey : key ∉ names fields)
    (h : f.readItems o ending fields index a ds = .ok b) :
    f.readItems o ending fields index (change a) ds = .ok (change b) := by
  induction fields generalizing index a ds with
  | nil =>
    cases h
    rfl
  | cons field rest ih =>
    obtain ⟨hname, hrest⟩ := not_or.mp (mt List.mem_cons.mpr hkey)
    obtain ⟨hfield, hcommutes⟩ := List.forall_mem_cons.mp hcommutes
    cases ds with
    | nil =>
      rw [readItems] at h ⊢
      split at h
      · cases h
      · split at h
        · cases h
        · rename_i hending hrequired
          rw [if_neg hending, if_neg hrequired]
          exact ih hcommutes hrest h
    | cons d ds =>
      obtain ⟨set, hset, h⟩ := bind_eq_ok_iff.mp h
      refine bind_eq_ok_iff.mpr ⟨set, hset, ?_⟩
      rw [hfield (Ne.symm hname) o d set a hset]
      exact ih hcommutes hrest h

theorem readItems_replaced {before after : List Document}
    (hreads : ReadsAlso fields key o x y change) (hcommutes : Commutes fields key change)
    (hnames : (names fields).Nodup) (hkey : (names fields)[before.length]? = some key)
    (h : f.readItems o ending fields index a (before ++ x :: after) = .ok b) :
    f.readItems o ending fields index a (before ++ y :: after) = .ok (change b) := by
  induction before generalizing fields index a with
  | nil =>
    cases fields with
    | nil => cases hkey
    | cons field rest =>
      obtain ⟨hfield, -⟩ := List.forall_mem_cons.mp hreads
      obtain ⟨-, hcommutes⟩ := List.forall_mem_cons.mp hcommutes
      obtain ⟨hrest, -⟩ := List.nodup_cons.mp hnames
      have hname : field.name = key := by simpa [names] using hkey
      obtain ⟨set, hset, h⟩ := bind_eq_ok_iff.mp h
      refine bind_eq_ok_iff.mpr ⟨_, hfield hname set hset, ?_⟩
      exact readItems_changed hcommutes (hname ▸ hrest) h
  | cons d before ih =>
    cases fields with
    | nil => cases hkey
    | cons field rest =>
      obtain ⟨-, hreads⟩ := List.forall_mem_cons.mp hreads
      obtain ⟨-, hcommutes⟩ := List.forall_mem_cons.mp hcommutes
      obtain ⟨-, hnames⟩ := List.nodup_cons.mp hnames
      obtain ⟨set, hset, h⟩ := bind_eq_ok_iff.mp h
      exact bind_eq_ok_iff.mpr ⟨set, hset, ih hreads hcommutes hnames hkey h⟩

end Items

theorem decode_replaced (hreads : ReadsAlso f.fields key o x y change)
    (hcommutes : Commutes f.fields key change) (hnames : (names f.fields).Nodup)
    (hkey : key ∈ names f.fields) (hreplaced : Document.Replaced (names f.fields) key x y d d')
    (h : f.decode o d = .ok a) : f.decode o d' = .ok (change a) := by
  cases hreplaced with
  | member =>
    obtain ⟨q, hread, h⟩ := bind_eq_ok_iff.mp h
    refine bind_eq_ok_iff.mpr ⟨_, readMembers_replaced hreads hcommutes hkey hread, ?_⟩
    split at h
    · cases h
    · rename_i hending
      obtain ⟨done, hmissing, h⟩ := bind_eq_ok_iff.mp h
      cases h
      rw [if_neg hending]
      exact bind_eq_ok_iff.mpr ⟨done, hmissing, rfl⟩
  | item hitem =>
    obtain ⟨b, hb, h⟩ := bind_eq_ok_iff.mp h
    obtain ⟨done, hexcess, h⟩ := bind_eq_ok_iff.mp h
    have hlength {before after : List Document} :
        (before ++ x :: after).length = (before ++ y :: after).length := by simp
    refine bind_eq_ok_iff.mpr ⟨_, readItems_replaced hreads hcommutes hnames hitem hb, ?_⟩
    rw [hlength] at hexcess
    refine bind_eq_ok_iff.mpr ⟨done, hexcess, ?_⟩
    split at h
    · rename_i hending
      cases h
      rw [if_pos hending]
      rfl
    · cases h

/-- The fields of a name set one part of a record, over whatever was there, and the other fields do
not interfere with it. -/
structure IsSlot {β : Type} (fields : List (RecordField α)) (key : String) (decode : Decoder β)
    (set : β → α → α) : Prop where
  reads : ∀ field ∈ fields, field.name = key → ∀ o d, field.read o d = (decode o d).map set
  overwrites : ∀ v w a, set v (set w a) = set v a
  commutes : ∀ v, Commutes fields key (set v)

namespace IsSlot

variable {β γ : Type} {field : RecordField α} {fields : List (RecordField α)}
  {decode : Decoder β} {set : β → α → α}

theorem nil (h : ∀ v w a, set v (set w a) = set v a) :
    IsSlot ([] : List (RecordField α)) key decode set :=
  ⟨by simp, h, by simp [Commutes]⟩

theorem cons_sets (hread : ∀ o d, field.read o d = (decode o d).map set) (hname : field.name = key)
    (rest : IsSlot fields key decode set) : IsSlot (field :: fields) key decode set :=
  ⟨List.forall_mem_cons.mpr ⟨fun _ => hread, rest.reads⟩, rest.overwrites,
    fun v => List.forall_mem_cons.mpr ⟨fun hne => absurd hname hne, rest.commutes v⟩⟩

theorem cons_keeps {decode' : Decoder γ} {set' : γ → α → α}
    (hread : ∀ o d, field.read o d = (decode' o d).map set')
    (hset : ∀ v w a, set' w (set v a) = set v (set' w a)) (hname : field.name ≠ key)
    (rest : IsSlot fields key decode set) : IsSlot (field :: fields) key decode set := by
  refine ⟨List.forall_mem_cons.mpr ⟨fun heq => absurd heq hname, rest.reads⟩, rest.overwrites,
    fun v => List.forall_mem_cons.mpr ⟨fun _ o d g a hg => ?_, rest.commutes v⟩⟩
  rw [hread] at hg
  obtain ⟨w, -, rfl⟩ := map_eq_ok_iff.mp hg
  exact hset v w a

end IsSlot

/-- A record in which the value of one part is replaced is read with the new part. -/
theorem decode_slot_replaced {β : Type} {decode : Decoder β} {set : β → α → α} {v : β}
    (hslot : IsSlot f.fields key decode set) (hnames : (names f.fields).Nodup)
    (hkey : key ∈ names f.fields) (hy : decode o y = .ok v)
    (hreplaced : Document.Replaced (names f.fields) key x y d d') (h : f.decode o d = .ok a) :
    f.decode o d' = .ok (set v a) := by
  have hreads : ReadsAlso f.fields key o x y (set v) := by
    intro field hfield hname g hg
    rw [hslot.reads field hfield hname] at hg ⊢
    obtain ⟨w, -, rfl⟩ := map_eq_ok_iff.mp hg
    simp only [hy, Except.map, hslot.overwrites]
  exact decode_replaced hreads (hslot.commutes v) hnames hkey hreplaced h

end RecordFormat
end QueryCriteria.Json
