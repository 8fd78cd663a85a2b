import QueryCriteria.Proofs.Json.Text

/-!
# Values that are written and read

A value that is written to a text and read differs from itself in its numbers at most: it has the
same items and the same keys in the same order.
-/
namespace QueryCriteria.Json

namespace Value

mutual

/-- The value with zero in place of every number. -/
def eraseNumbers : Value → Value
  | .null => .null
  | .bool b => .bool b
  | .number _ => .number (.integer 0)
  | .string s => .string s
  | .array items => .array (eraseItemNumbers items)
  | .object members => .object (eraseMemberNumbers members)

def eraseItemNumbers : List Value → List Value
  | [] => []
  | v :: rest => v.eraseNumbers :: eraseItemNumbers rest

def eraseMemberNumbers : List (String × Value) → List (String × Value)
  | [] => []
  | (key, v) :: rest => (key, v.eraseNumbers) :: eraseMemberNumbers rest

end

theorem eraseItemNumbers_eq_map (items : List Value) :
    eraseItemNumbers items = items.map eraseNumbers := by
  induction items with
  | nil => rfl
  | cons v rest ih => rw [eraseItemNumbers, ih, List.map_cons]

theorem keys_eraseMemberNumbers (members : List (String × Value)) :
    Keyed.keys (eraseMemberNumbers members) = Keyed.keys members := by
  induction members with
  | nil => rfl
  | cons m rest ih =>
    rw [eraseMemberNumbers, Keyed.keys, List.map_cons, ← Keyed.keys, ih]
    rfl

end Value

namespace Document

theorem ofItems_eq_map (items : List Value) : ofItems items = items.map ofValue := by
  induction items with
  | nil => rfl
  | cons v rest ih => rw [ofItems, ih, List.map_cons]

theorem rereadItems_eq_map (depth : Nat) (items : List Document) :
    rereadItems depth items = items.map (·.reread depth) := by
  induction items with
  | nil => rfl
  | cons d rest ih => rw [rereadItems, ih, List.map_cons]

theorem rereadMembers_eq_map (depth : Nat) (members : List (String × Document)) :
    rereadMembers depth members = members.map fun m => (m.1, m.2.reread depth) := by
  induction members with
  | nil => rfl
  | cons m rest ih =>
    obtain ⟨key, d⟩ := m
    rw [rereadMembers, ih, List.map_cons]

mutual

/-- What the text of a value is read as is a value with other numbers, unless a part of it cannot be
read. -/
theorem exists_reread_ofValue : ∀ {depth : Nat} {v : Value}, v.KeysDistinct →
    ((ofValue v).reread depth).toValue?.isSome = true →
      ∃ w : Value, (ofValue v).reread depth = ofValue w ∧ w.KeysDistinct ∧
        w.eraseNumbers = v.eraseNumbers
  | _, .null, _, _ => ⟨.null, rfl, trivial, rfl⟩
  | _, .bool b, _, _ => ⟨.bool b, rfl, trivial, rfl⟩
  | depth, .number n, _, hsome => by
    rw [ofValue, reread] at hsome ⊢
    rcases n.reread_cases with ⟨m, hm⟩ | hdefect
    · exact ⟨.number m, hm, trivial, rfl⟩
    · rw [hdefect] at hsome
      cases hsome
  | _, .string s, _, _ => ⟨.string s, rfl, trivial, rfl⟩
  | depth, .array items, h, hsome => by
    rw [ofValue, reread] at hsome ⊢
    by_cases hdepth : depth < maxDepth
    · rw [if_pos hdepth] at hsome ⊢
      obtain ⟨-, hsome⟩ := toItems?_of_isSome hsome
      obtain ⟨items', hreread, hdistinct, herase⟩ :=
        exists_rereadItems_ofItems h (isSome_toItems?_iff.mp hsome)
      exact ⟨.array items', by rw [hreread, ofValue], hdistinct,
        by rw [Value.eraseNumbers, herase, Value.eraseNumbers]⟩
    · rw [if_neg hdepth] at hsome
      cases hsome
  | depth, .object members, h, hsome => by
    rw [ofValue, reread] at hsome ⊢
    by_cases hdepth : depth < maxDepth
    · rw [if_pos hdepth] at hsome ⊢
      obtain ⟨-, hsome⟩ := toMembers?_of_isSome hsome
      obtain ⟨members', hreread, hdistinct, herase⟩ :=
        exists_rereadMembers_ofMembers h.2 (isSome_toMembers?_iff.mp hsome)
      have hkeys : Keyed.keys members' = Keyed.keys members := by
        rw [← Value.keys_eraseMemberNumbers, herase, Value.keys_eraseMemberNumbers]
      exact ⟨.object members', by rw [hreread, ofValue], ⟨hkeys ▸ h.1, hdistinct⟩,
        by rw [Value.eraseNumbers, herase, Value.eraseNumbers]⟩
    · rw [if_neg hdepth] at hsome
      cases hsome

theorem exists_rereadItems_ofItems : ∀ {depth : Nat} {items : List Value},
    Value.ItemKeysDistinct items →
      (∀ d ∈ rereadItems depth (ofItems items), d.toValue?.isSome = true) →
        ∃ items', rereadItems depth (ofItems items) = ofItems items' ∧
          Value.ItemKeysDistinct items' ∧
          Value.eraseItemNumbers items' = Value.eraseItemNumbers items
  | _, [], _, _ => ⟨[], rfl, trivial, rfl⟩
  | depth, v :: rest, h, hsome => by
    rw [ofItems, rereadItems, List.forall_mem_cons] at hsome
    obtain ⟨w, hw, hdistinct, herase⟩ := exists_reread_ofValue h.1 hsome.1
    obtain ⟨others, hothers, hdistincts, herases⟩ := exists_rereadItems_ofItems h.2 hsome.2
    refine ⟨w :: others, ?_, ⟨hdistinct, hdistincts⟩, ?_⟩
    · rw [ofItems, rereadItems, hw, hothers, ofItems]
    · rw [Value.eraseItemNumbers, Value.eraseItemNumbers, herase, herases]

theorem exists_rereadMembers_ofMembers : ∀ {depth : Nat} {members : List (String × Value)},
    Value.MemberKeysDistinct members →
      (∀ m ∈ rereadMembers depth (ofMembers members), m.2.toValue?.isSome = true) →
        ∃ members', rereadMembers depth (ofMembers members) = ofMembers members' ∧
          Value.MemberKeysDistinct members' ∧
          Value.eraseMemberNumbers members' = Value.eraseMemberNumbers members
  | _, [], _, _ => ⟨[], rfl, trivial, rfl⟩
  | depth, (key, v) :: rest, h, hsome => by
    rw [ofMembers, rereadMembers, List.forall_mem_cons] at hsome
    obtain ⟨w, hw, hdistinct, herase⟩ := exists_reread_ofValue h.1 hsome.1
    obtain ⟨others, hothers, hdistincts, herases⟩ := exists_rereadMembers_ofMembers h.2 hsome.2
    refine ⟨(key, w) :: others, ?_, ⟨hdistinct, hdistincts⟩, ?_⟩
    · rw [ofMembers, rereadMembers, hw, hothers, ofMembers]
    · rw [Value.eraseMemberNumbers, Value.eraseMemberNumbers, herase, herases]

end

end Document
end QueryCriteria.Json
