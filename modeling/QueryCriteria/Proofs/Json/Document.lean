import QueryCriteria.Json.Document
import QueryCriteria.Proofs.Keyed

/-!
# Documents and their values

A value in which no object repeats a key is written as a document that means it. Every value that a
document means is of this kind, whether the document repeats keys or not. A document that means a
value can also be passed over.
-/
namespace QueryCriteria.Json

namespace Value

mutual

/-- Whether no object in the value repeats a key. -/
def KeysDistinct : Value → Prop
  | .array items => ItemKeysDistinct items
  | .object members => (Keyed.keys members).Nodup ∧ MemberKeysDistinct members
  | _ => True

def ItemKeysDistinct : List Value → Prop
  | [] => True
  | v :: rest => v.KeysDistinct ∧ ItemKeysDistinct rest

def MemberKeysDistinct : List (String × Value) → Prop
  | [] => True
  | (_, v) :: rest => v.KeysDistinct ∧ MemberKeysDistinct rest

end

theorem itemKeysDistinct_iff {items : List Value} :
    ItemKeysDistinct items ↔ ∀ v ∈ items, v.KeysDistinct := by
  induction items with
  | nil => simp [ItemKeysDistinct]
  | cons v rest ih => rw [ItemKeysDistinct, ih, List.forall_mem_cons]

theorem memberKeysDistinct_iff {members : List (String × Value)} :
    MemberKeysDistinct members ↔ ∀ m ∈ members, m.2.KeysDistinct := by
  induction members with
  | nil => simp [MemberKeysDistinct]
  | cons m rest ih =>
    obtain ⟨key, v⟩ := m
    rw [MemberKeysDistinct, ih, List.forall_mem_cons]

end Value

namespace Document

mutual

theorem toValue?_ofValue : ∀ {v : Value}, v.KeysDistinct → (ofValue v).toValue? = some v
  | .null, _ | .bool _, _ | .number _, _ | .string _, _ => rfl
  | .array items, h => by
    rw [ofValue, toValue?, toItems?_ofItems h]
    rfl
  | .object members, h => by
    rw [ofValue, toValue?, toMembers?_ofMembers (by simpa using h.1) h.2]
    rfl

theorem toItems?_ofItems :
    ∀ {items : List Value}, Value.ItemKeysDistinct items → toItems? (ofItems items) = some items
  | [], _ => rfl
  | v :: rest, h => by
    rw [ofItems, toItems?, toValue?_ofValue h.1, toItems?_ofItems h.2]
    rfl

theorem toMembers?_ofMembers : ∀ {read members : List (String × Value)},
    (Keyed.keys (read ++ members)).Nodup → Value.MemberKeysDistinct members →
      toMembers? read (ofMembers members) = some (read ++ members)
  | read, [], _, _ => by rw [ofMembers, toMembers?, List.append_nil]
  | read, (key, v) :: rest, hkeys, h => by
    have hnew : key ∉ Keyed.keys read := by
      rw [Keyed.keys, List.map_append] at hkeys
      intro hmem
      exact List.disjoint_of_nodup_append hkeys hmem List.mem_cons_self
    rw [List.append_cons] at hkeys ⊢
    rw [ofMembers, toMembers?, toValue?_ofValue h.1, ← toMembers?_ofMembers hkeys h.2,
      ← Keyed.insert_of_notMem hnew]
    rfl

end

mutual

theorem keysDistinct_of_toValue? :
    ∀ {d : Document} {v : Value}, d.toValue? = some v → v.KeysDistinct
  | .null, _, h | .bool _, _, h | .number _, _, h | .string _, _, h => by
    cases h
    trivial
  | .array items ending, v, h => by
    rw [toValue?] at h
    split at h
    · obtain ⟨vs, hvs, rfl⟩ := Option.map_eq_some_iff.mp h
      exact keysDistinct_of_toItems? hvs
    · cases h
  | .object members ending, v, h => by
    rw [toValue?] at h
    split at h
    · obtain ⟨vs, hvs, rfl⟩ := Option.map_eq_some_iff.mp h
      exact keysDistinct_of_toMembers? hvs List.nodup_nil trivial
    · cases h
  | .defect _, _, h => by cases h

theorem keysDistinct_of_toItems? : ∀ {ds : List Document} {vs : List Value},
    toItems? ds = some vs → Value.ItemKeysDistinct vs
  | [], _, h => by
    cases h
    trivial
  | d :: rest, _, h => by
    simp only [toItems?, Option.bind_eq_bind, Option.bind_eq_some_iff, Option.pure_def,
      Option.some.injEq] at h
    obtain ⟨v, hv, vs, hvs, rfl⟩ := h
    exact ⟨keysDistinct_of_toValue? hv, keysDistinct_of_toItems? hvs⟩

theorem keysDistinct_of_toMembers? : ∀ {read vs : List (String × Value)}
    {ms : List (String × Document)}, toMembers? read ms = some vs → (Keyed.keys read).Nodup →
      Value.MemberKeysDistinct read → (Keyed.keys vs).Nodup ∧ Value.MemberKeysDistinct vs
  | read, _, [], h, hkeys, hread => by
    cases h
    exact ⟨hkeys, hread⟩
  | read, _, (key, d) :: rest, h, hkeys, hread => by
    simp only [toMembers?, Option.bind_eq_bind, Option.bind_eq_some_iff] at h
    obtain ⟨v, hv, h⟩ := h
    refine keysDistinct_of_toMembers? h (Keyed.nodup_keys_insert hkeys) ?_
    rw [Value.memberKeysDistinct_iff] at hread ⊢
    intro m hm
    rcases Keyed.mem_of_mem_insert hm with rfl | hm
    · exact keysDistinct_of_toValue? hv
    · exact hread m hm

end

theorem mem_keys_of_toMembers? {read vs : List (String × Value)} {ms : List (String × Document)}
    (h : toMembers? read ms = some vs) {key : String} :
    key ∈ Keyed.keys vs ↔ key ∈ Keyed.keys read ∨ key ∈ Keyed.keys ms := by
  induction ms generalizing read with
  | nil =>
    cases h
    simp [Keyed.keys]
  | cons m rest ih =>
    obtain ⟨k, d⟩ := m
    simp only [toMembers?, Option.bind_eq_bind, Option.bind_eq_some_iff] at h
    obtain ⟨v, -, h⟩ := h
    rw [ih h, Keyed.mem_keys_insert]
    simp only [Keyed.keys, List.map_cons, List.mem_cons]
    tauto

theorem isSome_toItems?_iff {ds : List Document} :
    (toItems? ds).isSome = true ↔ ∀ d ∈ ds, d.toValue?.isSome = true := by
  induction ds with
  | nil => simp [toItems?]
  | cons d rest ih =>
    rw [toItems?, List.forall_mem_cons, ← ih]
    cases d.toValue? <;> cases toItems? rest <;> simp

theorem isSome_toMembers?_iff {read : List (String × Value)} {ms : List (String × Document)} :
    (toMembers? read ms).isSome = true ↔ ∀ m ∈ ms, m.2.toValue?.isSome = true := by
  induction ms generalizing read with
  | nil => simp [toMembers?]
  | cons m rest ih =>
    obtain ⟨key, d⟩ := m
    rw [toMembers?, List.forall_mem_cons]
    cases h : d.toValue? with
    | none => simp
    | some v => simp [ih]

theorem toItems?_of_isSome {items : List Document} {ending : Option Defect}
    (h : (array items ending).toValue?.isSome = true) :
    ending = none ∧ (toItems? items).isSome = true := by
  cases ending with
  | none => simpa [toValue?] using h
  | some defect => cases h

theorem toMembers?_of_isSome {members : List (String × Document)} {ending : Option Defect}
    (h : (object members ending).toValue?.isSome = true) :
    ending = none ∧ (toMembers? [] members).isSome = true := by
  cases ending with
  | none => simpa [toValue?] using h
  | some defect => cases h

mutual

theorem isSkippable_of_isSome : ∀ {d : Document}, d.toValue?.isSome = true → d.isSkippable = true
  | .null, _ | .bool _, _ | .number _, _ | .string _, _ => rfl
  | .array items ending, h => by
    obtain ⟨rfl, hitems⟩ := toItems?_of_isSome h
    exact areItemsSkippable_of_isSome (isSome_toItems?_iff.mp hitems)
  | .object members ending, h => by
    obtain ⟨rfl, hmembers⟩ := toMembers?_of_isSome h
    exact areMembersSkippable_of_isSome (isSome_toMembers?_iff.mp hmembers)
  | .defect _, h => by cases h

theorem areItemsSkippable_of_isSome : ∀ {items : List Document},
    (∀ d ∈ items, d.toValue?.isSome = true) → areItemsSkippable items = true
  | [], _ => rfl
  | d :: rest, h => by
    obtain ⟨hd, hrest⟩ := List.forall_mem_cons.mp h
    rw [areItemsSkippable, isSkippable_of_isSome hd, areItemsSkippable_of_isSome hrest]
    rfl

theorem areMembersSkippable_of_isSome : ∀ {members : List (String × Document)},
    (∀ m ∈ members, m.2.toValue?.isSome = true) → areMembersSkippable members = true
  | [], _ => rfl
  | (key, d) :: rest, h => by
    obtain ⟨hd, hrest⟩ := List.forall_mem_cons.mp h
    rw [areMembersSkippable, isSkippable_of_isSome hd, areMembersSkippable_of_isSome hrest]
    rfl

end

theorem isSome_toValue?_ofValue {v : Value} (h : v.KeysDistinct) :
    (ofValue v).toValue?.isSome = true := by
  rw [toValue?_ofValue h]
  rfl

theorem keys_ofMembers (members : List (String × Value)) :
    Keyed.keys (ofMembers members) = Keyed.keys members := by
  induction members with
  | nil => rfl
  | cons m rest ih =>
    rw [ofMembers, Keyed.keys, List.map_cons, ← Keyed.keys, ih]
    rfl

theorem isSome_toValue?_ofMembers {members : List (String × Value)}
    (h : Value.MemberKeysDistinct members) :
    ∀ m ∈ ofMembers members, m.2.toValue?.isSome = true := by
  induction members with
  | nil => simp [ofMembers]
  | cons m rest ih =>
    rw [ofMembers, List.forall_mem_cons]
    exact ⟨isSome_toValue?_ofValue h.1, ih h.2⟩

theorem isSome_toValue?_list {items : List Document} (h : ∀ d ∈ items, d.toValue?.isSome = true) :
    (list items).toValue?.isSome = true := by
  simpa [toValue?] using isSome_toItems?_iff.mpr h

theorem isSome_toValue?_record {members : List (String × Document)}
    (h : ∀ m ∈ members, m.2.toValue?.isSome = true) : (record members).toValue?.isSome = true := by
  simpa [toValue?] using isSome_toMembers?_iff.mpr h

end Document
end QueryCriteria.Json
