import QueryCriteria.FilterObject
import QueryCriteria.Proofs.Keyed
import QueryCriteria.Proofs.Text.Numeral

/-!
# Where a dotted path leads

A path into a filter object names a member of the object first, and then a part of each value that
it reaches. `Leads` says which value the segments lead to, and `Misses` why there is none. A path is
unknown, it leads to a value, or it misses one: each of the three has its own condition, and every
path falls under exactly one of them. In the other direction, the keys and indexes on the way to a
place in the object are the segments of a path that leads there.
-/
namespace QueryCriteria.FilterObject

open Json Text

/-- The parts of a value and the segments that name them: a member by its key, and an item of an
array by a numeral of its index, which is a machine number. -/
inductive HasPart : Value → String → Value → Prop
  | member {members : List (String × Value)} {key : String} {part : Value}
    (h : members.lookup key = some part) : HasPart (.object members) key part
  | item {items : List Value} {segment : String} {part : Value} (index : UInt64)
    (hsegment : IsUnsignedNumeral segment.toList index.toNat)
    (h : items[index.toNat]? = some part) : HasPart (.array items) segment part

/-- Segments lead from a value to a part of it, of a part, and so on. -/
inductive Leads : Value → List String → Value → Prop
  | here {v : Value} : Leads v [] v
  | through {v part w : Value} {segment : String} {rest : List String}
    (h : HasPart v segment part) (hrest : Leads part rest w) : Leads v (segment :: rest) w

/-- Segments do not lead to a value: at their end is a null, or on their way is a key that is
missing, a segment of an array that is no index or not in range, or a value without parts. -/
inductive Misses : Value → List String → Prop
  | null : Misses .null []
  | missingKey {members : List (String × Value)} {key : String} {rest : List String}
    (h : key ∉ Keyed.keys members) : Misses (.object members) (key :: rest)
  | noIndex {items : List Value} {segment : String} {rest : List String}
    (h : ∀ n, ¬ IsUnsignedNumeral segment.toList n) : Misses (.array items) (segment :: rest)
  | outOfRange {items : List Value} {segment : String} {rest : List String} {n : Nat}
    (hsegment : IsUnsignedNumeral segment.toList n)
    (h : items.length ≤ n ∨ UInt64.size ≤ n) : Misses (.array items) (segment :: rest)
  | scalar {v : Value} {segment : String} {rest : List String}
    (hobject : ∀ members, v ≠ .object members) (harray : ∀ items, v ≠ .array items) :
    Misses v (segment :: rest)
  | through {v part : Value} {segment : String} {rest : List String}
    (h : HasPart v segment part) (hrest : Misses part rest) : Misses v (segment :: rest)

section Segments

variable {v part w : Value} {segment : String} {rest : List String}

theorem child?_eq_some_iff : child? v segment = some part ↔ HasPart v segment part := by
  constructor
  · intro h
    cases v with
    | object members => exact .member h
    | array items =>
      obtain ⟨n, hn, hitem⟩ := Option.bind_eq_some_iff.mp h
      obtain ⟨hnumeral, hlt⟩ := readBounded?_eq_some_iff.mp hn
      have hindex : (UInt64.ofNat n).toNat = n := UInt64.toNat_ofNat_of_lt hlt
      refine .item (UInt64.ofNat n) ?_ ?_
      · rwa [hindex]
      · rwa [hindex]
    | null | bool | number | string => cases h
  · intro h
    cases h with
    | member h => exact h
    | item index hsegment h =>
      apply Option.bind_eq_some_iff.mpr
      exact ⟨_, readBounded?_eq_some_iff.mpr ⟨hsegment, index.toNat_lt⟩, h⟩

theorem descend_eq_some_iff : descend v rest = some w ↔ Leads v rest w := by
  induction rest generalizing v with
  | nil =>
    constructor
    · intro h
      cases h
      exact .here
    · intro h
      cases h
      rfl
  | cons segment rest ih =>
    rw [descend, Option.bind_eq_some_iff]
    constructor
    · intro h
      obtain ⟨part, hpart, hrest⟩ := h
      exact .through (child?_eq_some_iff.mp hpart) (ih.mp hrest)
    · intro h
      cases h with
      | through hpart hrest => exact ⟨_, child?_eq_some_iff.mpr hpart, ih.mpr hrest⟩

/-- A segment that names no part is one of the causes of a miss, whatever follows it. -/
theorem misses_of_child?_eq_none (h : child? v segment = Option.none) : Misses v (segment :: rest) := by
  cases v with
  | object members => exact .missingKey (Keyed.lookup_eq_none_iff.mp h)
  | array items =>
    by_cases hindex : ∃ n, IsUnsignedNumeral segment.toList n
    · obtain ⟨n, hn⟩ := hindex
      refine .outOfRange hn ?_
      by_contra hrange
      obtain ⟨hlength, hsize⟩ := not_or.mp hrange
      have hread : readBounded? indexBound segment.toList = some n :=
        readBounded?_eq_some_iff.mpr ⟨hn, Nat.lt_of_not_le hsize⟩
      have hitem : (Value.array items).item? n = Option.none := by
        rw [← h, ← Option.bind_some n (Value.array items).item?, ← hread]
        rfl
      exact hlength (List.getElem?_eq_none_iff.mp hitem)
    · exact .noIndex (not_exists.mp hindex)
  | null | bool | number | string => exact .scalar (by simp) (by simp)

theorem Misses.eq_null_of_leads (h : Misses v rest) (hleads : Leads v rest w) : w = .null := by
  induction h with
  | null =>
    cases hleads
    rfl
  | missingKey hkey =>
    cases hleads with
    | through hpart _ =>
      cases hpart with
      | member hlookup => rw [Keyed.lookup_eq_none_iff.mpr hkey] at hlookup; cases hlookup
  | noIndex hnone =>
    cases hleads with
    | through hpart _ =>
      cases hpart with
      | item index hsegment _ => exact absurd hsegment (hnone _)
  | outOfRange hsegment hrange =>
    cases hleads with
    | through hpart _ =>
      cases hpart with
      | item index hindex hitem =>
        rw [hsegment.unique hindex] at hrange
        obtain ⟨hlength, -⟩ := List.getElem?_eq_some_iff.mp hitem
        have hsize := index.toNat_lt_size
        omega
  | scalar hobject harray =>
    cases hleads with
    | through hpart _ =>
      cases hpart with
      | member _ => exact absurd rfl (hobject _)
      | item _ _ _ => exact absurd rfl (harray _)
  | through hpart _ ih =>
    cases hleads with
    | through hother hrest =>
      have hsame := child?_eq_some_iff.mpr hother
      rw [child?_eq_some_iff.mpr hpart, Option.some.injEq] at hsame
      exact ih (hsame ▸ hrest)

theorem misses_of_descend_eq_none (h : descend v rest = Option.none) : Misses v rest := by
  induction rest generalizing v with
  | nil => cases h
  | cons segment rest ih =>
    cases hchild : child? v segment with
    | none => exact misses_of_child?_eq_none hchild
    | some part =>
      rw [descend, hchild, Option.bind_some] at h
      exact .through (child?_eq_some_iff.mp hchild) (ih h)

theorem Leads.misses_of_null (h : Leads v rest w) (hw : w = .null) : Misses v rest := by
  induction h with
  | here =>
    rw [hw]
    exact .null
  | through hpart _ ih => exact .through hpart (ih hw)

theorem not_isNull_iff : (!w.isNull) = true ↔ w ≠ .null := by
  cases w <;> simp [Value.isNull]

theorem filter_descend_eq_some_iff :
    (descend v rest).filter (!·.isNull) = some w ↔ Leads v rest w ∧ w ≠ .null := by
  rw [Option.filter_eq_some_iff, descend_eq_some_iff, not_isNull_iff]

theorem filter_descend_eq_none_iff :
    (descend v rest).filter (!·.isNull) = Option.none ↔ Misses v rest := by
  rw [Option.filter_eq_none_iff]
  constructor
  · intro h
    cases hdescend : descend v rest with
    | none => exact misses_of_descend_eq_none hdescend
    | some w =>
      apply (descend_eq_some_iff.mp hdescend).misses_of_null
      by_contra hne
      exact h w hdescend (not_isNull_iff.mpr hne)
  · intro h w hdescend hnull
    exact not_isNull_iff.mp hnull (h.eq_null_of_leads (descend_eq_some_iff.mp hdescend))

end Segments

def rootKey (path : String) : String := (segments path).head (segments_ne_nil path)

/-- Why a path cannot address anything in a filter object. -/
inductive IsUnknown (v : Value) (path : String) : Prop
  | emptyKey (h : rootKey path = "")
  | notObject (h : ∀ members, v ≠ .object members)
  | noMember {members : List (String × Value)} (hv : v = .object members)
    (h : rootKey path ∉ Keyed.keys members)

section Root

variable {v : Value} {path : String}

theorem segments_eq_cons (path : String) :
    segments path = rootKey path :: (segments path).tail :=
  (List.cons_head_tail (segments_ne_nil path)).symm

theorem ofValue_of_isUnknown (h : IsUnknown v path) :
    ofValue v path = .error (.unknownFilterObjectPath path) := by
  unfold ofValue
  rw [segments_eq_cons]
  dsimp only
  cases h with
  | emptyKey h => rw [if_pos h]
  | notObject h =>
    split
    · rfl
    · cases v with
      | object members => exact absurd rfl (h members)
      | null | bool | number | string | array => rfl
  | noMember hv h =>
    split
    · rfl
    · rw [hv, Value.member?, Keyed.lookup_eq_none_iff.mpr h]

theorem ofValue_of_not_isUnknown (h : ¬ IsUnknown v path) :
    ofValue v path = .ok ((descend v (segments path)).filter (!·.isNull)) := by
  have hkey : rootKey path ≠ "" := fun heq => h (.emptyKey heq)
  cases v with
  | object members =>
    unfold ofValue
    rw [segments_eq_cons]
    dsimp only
    rw [if_neg hkey, descend]
    change _ = Except.ok (((members.lookup (rootKey path)).bind _).filter _)
    cases hroot : members.lookup (rootKey path) with
    | none => exact absurd (.noMember rfl (Keyed.lookup_eq_none_iff.mp hroot)) h
    | some root => rw [Value.member?, hroot, Option.bind_some]
  | null | bool | number | string | array => exact absurd (.notObject (by simp)) h

end Root

inductive Place where
  | key (name : String)
  | index (i : UInt64)

namespace Place

/-- A key stands for itself, and an index for its digits. -/
def text : Place → String
  | .key name => name
  | .index i => decimal i.toNat

def HasNoDot : Place → Prop
  | .key name => '.' ∉ name.toList
  | .index _ => True

theorem notMem_text {place : Place} (h : place.HasNoDot) : '.' ∉ place.text.toList := by
  cases place with
  | key name => exact h
  | index i =>
    intro hdot
    rw [text, decimal, String.toList_ofList] at hdot
    exact absurd (List.all_eq_true.mp (all_isDigit_toDigits _) _ hdot) (by decide)

end Place

def at? : Value → List Place → Option Value
  | v, [] => some v
  | v, .key name :: rest => (v.member? name).bind (at? · rest)
  | v, .index i :: rest => (v.item? i.toNat).bind (at? · rest)

/-- The texts of the steps to a place lead to it. -/
theorem leads_of_at? {v w : Value} {places : List Place} (h : at? v places = some w) :
    Leads v (places.map Place.text) w := by
  induction places generalizing v with
  | nil =>
    cases h
    exact .here
  | cons place rest ih =>
    cases place with
    | key name =>
      obtain ⟨part, hpart, hrest⟩ := Option.bind_eq_some_iff.mp h
      refine .through ?_ (ih hrest)
      cases v with
      | object members => exact .member hpart
      | null | bool | number | string | array => cases hpart
    | index i =>
      obtain ⟨part, hpart, hrest⟩ := Option.bind_eq_some_iff.mp h
      refine .through ?_ (ih hrest)
      cases v with
      | array items =>
        refine .item i (.inl ?_) hpart
        rw [Place.text, decimal, String.toList_ofList]
        exact isNumeral_toDigits i.toNat
      | null | bool | number | string | object => cases hpart

theorem segments_places {places : List Place} (hne : places ≠ [])
    (h : ∀ place ∈ places, place.HasNoDot) :
    segments (dotted (places.map Place.text)) = places.map Place.text := by
  apply segments_dotted
  · rwa [Ne, List.map_eq_nil_iff]
  · intro name hname
    obtain ⟨place, hplace, rfl⟩ := List.mem_map.mp hname
    exact Place.notMem_text (h place hplace)

theorem not_isUnknown_of_at? {v w : Value} {path key : String} {places : List Place}
    (hroot : rootKey path = key) (hkey : key ≠ "") (hat : at? v (.key key :: places) = some w) :
    ¬ IsUnknown v path := by
  intro hunknown
  cases hunknown with
  | emptyKey h => exact hkey (hroot.symm.trans h)
  | notObject h =>
    cases v with
    | object members => exact h members rfl
    | null | bool | number | string | array => cases hat
  | noMember hv h =>
    rw [hroot] at h
    rw [hv, at?, Value.member?, Keyed.lookup_eq_none_iff.mpr h] at hat
    cases hat

/-- A path is unknown if its first segment is empty or names no member of the filter object, and
this is the only error. Else it gives the value that its segments lead to, unless that is null.
Every place in the object whose keys have no dots is found by its path. -/
theorem ofValue_by_segments (v : Value) :
    (∀ path, (∀ e, ofValue v path = .error e ↔
          e = .unknownFilterObjectPath path ∧ IsUnknown v path) ∧
        (∀ w, ofValue v path = .ok (some w) ↔
          ¬ IsUnknown v path ∧ Leads v (segments path) w ∧ w ≠ .null) ∧
        (ofValue v path = .ok Option.none ↔
          ¬ IsUnknown v path ∧ Misses v (segments path))) ∧
      ∀ key places w, key ≠ "" → (∀ place ∈ Place.key key :: places, place.HasNoDot) →
        at? v (.key key :: places) = some w →
        ofValue v (dotted ((Place.key key :: places).map Place.text)) =
          .ok (if w = .null then Option.none else some w) := by
  constructor
  · intro path
    by_cases hunknown : IsUnknown v path
    · rw [ofValue_of_isUnknown hunknown]
      simp [hunknown, eq_comm]
    · rw [ofValue_of_not_isUnknown hunknown]
      refine ⟨?_, ?_, ?_⟩
      · simp [hunknown]
      · intro w
        rw [Except.ok.injEq, filter_descend_eq_some_iff, and_iff_right hunknown]
      · rw [Except.ok.injEq, filter_descend_eq_none_iff, and_iff_right hunknown]
  · intro key places w hkey hdots hat
    have hsegments := segments_places (List.cons_ne_nil _ _) hdots
    have hleads := leads_of_at? hat
    have hroot : rootKey (dotted ((Place.key key :: places).map Place.text)) = key := by
      have hcons := segments_eq_cons (dotted ((Place.key key :: places).map Place.text))
      rw [hsegments] at hcons
      exact (List.cons.inj hcons).1.symm
    rw [ofValue_of_not_isUnknown (not_isUnknown_of_at? hroot hkey hat), hsegments,
      Except.ok.injEq]
    split
    · rename_i hnull
      exact filter_descend_eq_none_iff.mpr (hleads.misses_of_null hnull)
    · rename_i hne
      exact filter_descend_eq_some_iff.mpr ⟨hleads, hne⟩

end QueryCriteria.FilterObject
