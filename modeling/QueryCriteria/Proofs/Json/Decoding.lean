import QueryCriteria.Json.Decoding
import QueryCriteria.Proofs.Except

/-!
# What decoders accept

A list is decoded from an array, item by item, and the entries of an object from its members. An
absent value is decoded from null. A text is decoded if its document is and nothing stands behind
it.
-/
namespace QueryCriteria.Json

theorem decodeText_eq_ok_iff {α : Type} {decode : Decoder α} {text : String} {a : α} :
    decodeText decode text = .ok a ↔
      decode .text (readText text).document = .ok a ∧ (readText text).isWhole = true := by
  unfold decodeText
  rw [bind_eq_ok_iff]
  constructor
  · intro h
    obtain ⟨b, hb, h⟩ := h
    split at h
    · cases h
      exact ⟨hb, ‹_›⟩
    · cases h
  · intro h
    obtain ⟨ha, hwhole⟩ := h
    refine ⟨a, ha, ?_⟩
    rw [if_pos hwhole]
    rfl

namespace Decode

variable {α : Type} {decode : Decoder α} {o : Origin} {d : Document}

theorem value_eq_ok_iff {v : Value} : value o d = .ok v ↔ d.toValue? = some v := by
  unfold value
  cases d.toValue? <;> simp

theorem optional_eq_ok {x : Option α} (h : optional decode o d = .ok x) :
    d = .null ∧ x = none ∨ ∃ a, decode o d = .ok a ∧ x = some a := by
  unfold optional at h
  split at h
  · cases h
    exact .inl ⟨rfl, rfl⟩
  · obtain ⟨a, ha, rfl⟩ := map_eq_ok_iff.mp h
    exact .inr ⟨a, ha, rfl⟩

theorem items_eq_ok_iff {ds : List Document} {as : List α} :
    items decode o ds = .ok as ↔ List.Forall₂ (fun d a => decode o d = .ok a) ds as := by
  induction ds generalizing as with
  | nil => simp [items, eq_comm]
  | cons d rest ih =>
    simp only [items, bind_eq_ok_iff, pure_eq_ok_iff, List.forall₂_cons_left_iff, ih]
    constructor
    · rintro ⟨a, ha, others, hothers, rfl⟩
      exact ⟨a, others, ha, hothers, rfl⟩
    · rintro ⟨a, others, ha, hothers, rfl⟩
      exact ⟨a, ha, others, hothers, rfl⟩

theorem list_eq_ok {as : List α} (h : list decode o d = .ok as) :
    ∃ ds, d = .list ds ∧ List.Forall₂ (fun d a => decode o d = .ok a) ds as := by
  cases d with
  | array ds ending =>
    obtain ⟨decoded, hdecoded, h⟩ := bind_eq_ok_iff.mp h
    cases ending with
    | none =>
      cases h
      exact ⟨ds, rfl, items_eq_ok_iff.mp hdecoded⟩
    | some defect => cases h
  | object | defect | null | bool | number | string => cases h

theorem members_eq_ok_iff {ms : List (String × Document)} {as : List (String × α)} :
    members decode o ms = .ok as ↔
      List.Forall₂ (fun m a => m.1 = a.1 ∧ decode o m.2 = .ok a.2) ms as := by
  induction ms generalizing as with
  | nil => simp [members, eq_comm]
  | cons m rest ih =>
    obtain ⟨key, d⟩ := m
    simp only [members, bind_eq_ok_iff, pure_eq_ok_iff, List.forall₂_cons_left_iff, ih]
    constructor
    · rintro ⟨a, ha, others, hothers, rfl⟩
      exact ⟨(key, a), others, ⟨rfl, ha⟩, hothers, rfl⟩
    · rintro ⟨⟨key', a⟩, others, ⟨rfl, ha⟩, hothers, rfl⟩
      exact ⟨a, ha, others, hothers, rfl⟩

theorem entries_eq_ok {expected : String} {as : List (String × α)}
    (h : entries expected decode o d = .ok as) :
    ∃ ms, d = .record ms ∧
      List.Forall₂ (fun m a => m.1 = a.1 ∧ decode o m.2 = .ok a.2) ms as := by
  cases d with
  | object ms ending =>
    obtain ⟨decoded, hdecoded, h⟩ := bind_eq_ok_iff.mp h
    cases ending with
    | none =>
      cases h
      exact ⟨ms, rfl, members_eq_ok_iff.mp hdecoded⟩
    | some defect => cases h
  | array | defect | null | bool | number | string => cases h

theorem int32_toInt (n : Int32) : int32 o (.int n.toInt) = .ok n := by
  have hleast : Int32.minValue.toInt ≤ n.toInt := Int32.minValue_le_toInt n
  have hgreatest : n.toInt ≤ Int32.maxValue.toInt := Int32.toInt_le n
  rw [int32, integer, if_pos ⟨hleast, hgreatest⟩, Except.map, Int32.ofInt_toInt]

theorem entries_map {expected : String} {encode : α → Document} {as : List (String × α)}
    (h : ∀ a ∈ as, decode o (encode a.2) = .ok a.2) :
    entries expected decode o (.record (as.map fun a => (a.1, encode a.2))) = .ok as := by
  simp [entries, members_map h, bind, Except.bind, pure, Except.pure]

end Decode
end QueryCriteria.Json
