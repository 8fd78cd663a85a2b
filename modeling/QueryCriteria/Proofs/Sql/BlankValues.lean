import QueryCriteria.Proofs.FilterObject
import QueryCriteria.Proofs.RelatedValues
import QueryCriteria.Proofs.Sql.Operator

/-!
# Blank values

A form leaves a field blank by a null or by a text of blanks. No operator tells these apart: lists of
values that differ only in how some of them are blank give the same predicate, or none, or the same
error. So the plan of a search does not depend on how a form writes the fields that nobody filled
in, at whatever depth they stand. Only an error that quotes an object or an array shows what is
inside it.
-/
namespace QueryCriteria

open Json

namespace Sql

/-- The values are the same, or both are blank. -/
def BlankAlike (v w : Value) : Prop := v = w ∨ isBlankValue v ∧ isBlankValue w

/-- The values differ at most in how values inside them are blank. -/
inductive BlankWithin : Value → Value → Prop
  | alike {v w : Value} (h : BlankAlike v w) : BlankWithin v w
  | array {xs ys : List Value} (h : List.Forall₂ BlankWithin xs ys) :
    BlankWithin (.array xs) (.array ys)
  | object {ms ns : List (String × Value)} (hkeys : Keyed.keys ms = Keyed.keys ns)
    (h : List.Forall₂ BlankWithin (ms.map Prod.snd) (ns.map Prod.snd)) :
    BlankWithin (.object ms) (.object ns)

/-- The lists differ at most in how values are blank, position by position. For a list operator this
may also be the items of the one array that each of them is. -/
inductive Operator.BlankAlike (operator : Operator) : List Value → List Value → Prop
  | values {vs ws : List Value} (h : List.Forall₂ Sql.BlankAlike vs ws) :
    BlankAlike operator vs ws
  | items {isNegated : Bool} {xs ys : List Value} (hoperator : operator = .member isNegated)
    (h : List.Forall₂ Sql.BlankAlike xs ys) : BlankAlike operator [.array xs] [.array ys]

theorem BlankAlike.refl (v : Value) : BlankAlike v v := .inl rfl

theorem BlankWithin.refl (v : Value) : BlankWithin v v := .alike (.refl v)

section Operators

variable {kind : ColumnKind} {c : Column} {vs ws : List Value} {v w : Value}

theorem BlankWithin.of_array {xs : List Value} (h : BlankWithin (.array xs) w) :
    ∃ ys, w = .array ys ∧ List.Forall₂ BlankWithin xs ys := by
  cases h with
  | alike h =>
    rcases h with heq | ⟨hblank, -⟩
    · exact ⟨xs, heq.symm, List.forall₂_same.mpr fun x _ => .refl x⟩
    · cases hblank
  | array h => exact ⟨_, rfl, h⟩

theorem BlankWithin.eq_array {ys : List Value} (h : BlankWithin v (.array ys)) :
    ∃ xs, v = .array xs := by
  cases h with
  | alike h =>
    rcases h with heq | ⟨-, hblank⟩
    · exact ⟨ys, heq⟩
    · cases hblank
  | array h => exact ⟨_, rfl⟩

/-- No column takes an array or an object, and the error names only which of them it was. -/
theorem coerceFilled_blankWithin (h : BlankWithin v w) (position : Nat) :
    coerceFilled kind position v = coerceFilled kind position w := by
  cases h with
  | alike h =>
    rcases h with heq | ⟨hv, hw⟩
    · rw [heq]
    · unfold coerceFilled
      rw [if_pos hv, if_pos hw]
  | array h => rfl
  | object hkeys h => rfl

theorem coerceAll_blankWithin (h : List.Forall₂ BlankWithin vs ws) (position : Nat) :
    coerceAll kind position vs = coerceAll kind position ws := by
  induction h generalizing position with
  | nil => rfl
  | cons hfirst hrest ih =>
    rw [coerceAll, coerceAll, coerceFilled_blankWithin hfirst, ih]

/-- An array is never blank, so both lists are one array or neither is. -/
theorem listItems_blankWithin (h : List.Forall₂ BlankWithin vs ws) :
    List.Forall₂ BlankWithin (listItems vs) (listItems ws) := by
  by_cases harray : ∃ items, vs = [.array items]
  · obtain ⟨items, rfl⟩ := harray
    obtain ⟨w, rest, hw, hrest, rfl⟩ := List.forall₂_cons_left_iff.mp h
    obtain ⟨ys, rfl, hitems⟩ := hw.of_array
    rw [List.forall₂_nil_left_iff.mp hrest]
    exact hitems
  · rw [listItems_eq_self (not_exists.mp harray), listItems_eq_self]
    · exact h
    · intro items hws
      subst hws
      obtain ⟨v, rest, hv, hrest, rfl⟩ := List.forall₂_cons_right_iff.mp h
      obtain ⟨xs, rfl⟩ := hv.eq_array
      rw [List.forall₂_nil_right_iff.mp hrest] at harray
      exact harray ⟨xs, rfl⟩

theorem comparePredicate_blankWithin (comparison : Comparison)
    (h : List.Forall₂ BlankWithin vs ws) :
    comparePredicate kind c comparison vs = comparePredicate kind c comparison ws := by
  have hlength := h.length_eq
  match h with
  | .nil => rfl
  | .cons hfirst .nil => rw [comparePredicate, comparePredicate, coerceFilled_blankWithin hfirst]
  | .cons hfirst (.cons hsecond hrest) =>
    rw [comparePredicate, comparePredicate, hlength]
    · simp
    · simp

theorem betweenPredicate_blankWithin (h : List.Forall₂ BlankWithin vs ws) :
    betweenPredicate kind c vs = betweenPredicate kind c ws := by
  have hlength := h.length_eq
  match h with
  | .nil => rfl
  | .cons _ .nil => rfl
  | .cons hlow (.cons hhigh .nil) =>
    rw [betweenPredicate, betweenPredicate, coerceFilled_blankWithin hlow,
      coerceFilled_blankWithin hhigh]
  | .cons _ (.cons _ (.cons _ _)) =>
    rw [betweenPredicate, betweenPredicate, hlength]
    · simp
    · simp

theorem memberPredicate_blankWithin (isNegated : Bool) (h : List.Forall₂ BlankWithin vs ws) :
    memberPredicate kind c isNegated vs = memberPredicate kind c isNegated ws := by
  rw [memberPredicate, memberPredicate, coerceAll_blankWithin (listItems_blankWithin h)]

theorem patternPredicate_of_isBlankValue (operator : Operator) (hv : isBlankValue v)
    (hw : isBlankValue w) :
    patternPredicate operator kind c [v] = patternPredicate operator kind c [w] := by
  have hnone : ∀ u, isBlankValue u → patternPredicate operator kind c [u] =
      patternPredicate operator kind c [.null] := by
    intro u hu
    cases u with
    | null => rfl
    | string s =>
      have hblank : Text.isAllBlank s = true := hu
      simp only [patternPredicate, hblank, if_true]
    | bool | number | array | object => cases hu
  rw [hnone v hv, hnone w hw]

theorem patternPredicate_blankAlike (operator : Operator) (h : List.Forall₂ BlankAlike vs ws) :
    patternPredicate operator kind c vs = patternPredicate operator kind c ws := by
  have hlength := h.length_eq
  match h with
  | .nil => rfl
  | .cons (.inl heq) .nil => rw [heq]
  | .cons (.inr hblank) .nil => exact patternPredicate_of_isBlankValue operator hblank.1 hblank.2
  | .cons _ (.cons _ _) =>
    unfold patternPredicate
    simp only [hlength]

/-- A search for a text refuses an array or an object with an error that quotes it. -/
theorem patternPredicate_blankWithin (operator : Operator) (h : List.Forall₂ BlankWithin vs ws) :
    SameOutcome False Eq (patternPredicate operator kind c vs)
      (patternPredicate operator kind c ws) := by
  have hlength := h.length_eq
  match h with
  | .nil => exact .of_eq rfl
  | .cons (.alike halike) .nil =>
    exact .of_eq (patternPredicate_blankAlike operator (.cons halike .nil))
  | .cons (.array hitems) .nil =>
    unfold patternPredicate
    split <;> exact False.elim
  | .cons (.object hkeys hvalues) .nil =>
    unfold patternPredicate
    split <;> exact False.elim
  | .cons _ (.cons _ _) =>
    unfold patternPredicate
    simp only [hlength]
    exact .of_eq rfl

end Operators

namespace OperatorProvider

variable (p : OperatorProvider) (c : Column) {vs ws : List Value}

/-- Operators build the same from lists that differ only in how values are blank. -/
theorem predicate_blankAlike (h : p.operator.BlankAlike vs ws) :
    p.predicate c vs = p.predicate c ws := by
  unfold predicate
  cases h with
  | values h =>
    have hwithin : List.Forall₂ BlankWithin vs ws := h.imp fun _ _ => .alike
    split
    · exact comparePredicate_blankWithin _ hwithin
    · exact betweenPredicate_blankWithin hwithin
    · exact memberPredicate_blankWithin _ hwithin
    · rw [checkCount, checkCount, h.length_eq]
    · exact patternPredicate_blankAlike _ h
  | items hoperator h =>
    rw [hoperator]
    exact memberPredicate_blankWithin _ (.cons (.array (h.imp fun _ _ => .alike)) .nil)

theorem predicate_blankWithin (h : List.Forall₂ BlankWithin vs ws) :
    SameOutcome False Eq (p.predicate c vs) (p.predicate c ws) := by
  unfold predicate
  split
  · exact .of_eq (comparePredicate_blankWithin _ h)
  · exact .of_eq (betweenPredicate_blankWithin h)
  · exact .of_eq (memberPredicate_blankWithin _ h)
  · rw [checkCount, checkCount, h.length_eq]
    exact .of_eq rfl
  · exact patternPredicate_blankWithin _ h

end OperatorProvider
end Sql

namespace FilterObject

variable {v w : Value}

theorem related_insert {members : List (String × Value)} {key s : String}
    (hnull : members.lookup key = some .null) (hs : Text.isAllBlank s) :
    Related Sql.BlankAlike (ofValue (.object members))
      (ofValue (.object (Keyed.insert key (.string s) members))) := by
  intro path
  unfold ofValue
  rw [segments_eq_cons]
  dsimp only [Value.member?]
  by_cases hempty : rootKey path = ""
  · rw [if_pos hempty, if_pos hempty]
    exact fun _ => rfl
  · rw [if_neg hempty, if_neg hempty]
    by_cases hkey : rootKey path = key
    · rw [hkey, hnull, Keyed.lookup_insert_self]
      cases (Text.segments path).tail with
      | nil =>
        -- The path ends at the field itself.
        exact .inr ⟨rfl, hs⟩
      | cons segment rest => exact .refl _
    · rw [Keyed.lookup_insert_of_ne hkey]
      cases members.lookup (rootKey path) with
      | none => exact fun _ => rfl
      | some root => exact .refl _

end FilterObject

namespace Sql.BlankWithin

variable {v w : Value}

theorem member?_of_isBlankValue (h : isBlankValue v) (key : String) : v.member? key = none := by
  cases v with
  | null | string => rfl
  | bool | number | array | object => cases h

theorem child?_of_isBlankValue (h : isBlankValue v) (segment : String) :
    FilterObject.child? v segment = none := by
  cases v with
  | null | string => rfl
  | bool | number | array | object => cases h

theorem rel_refl (found : Option Value) : Option.Rel BlankWithin found found := by
  cases found with
  | none => exact .none
  | some v => exact .some (.refl v)

theorem rel_lookup {ms ns : List (String × Value)} (hkeys : Keyed.keys ms = Keyed.keys ns)
    (h : List.Forall₂ BlankWithin (ms.map Prod.snd) (ns.map Prod.snd)) (key : String) :
    Option.Rel BlankWithin (ms.lookup key) (ns.lookup key) := by
  induction ms generalizing ns with
  | nil =>
    cases ns with
    | nil => exact .none
    | cons n ns => cases hkeys
  | cons m ms ih =>
    cases ns with
    | nil => cases hkeys
    | cons n ns =>
      obtain ⟨hkey, hkeys⟩ := List.cons.inj hkeys
      obtain ⟨hfirst, hrest⟩ := List.forall₂_cons.mp h
      rw [List.lookup_cons, List.lookup_cons, ← hkey]
      split
      · exact .some hfirst
      · exact ih hkeys hrest

theorem rel_getElem? {xs ys : List Value} (h : List.Forall₂ BlankWithin xs ys) (i : Nat) :
    Option.Rel BlankWithin xs[i]? ys[i]? := by
  induction h generalizing i with
  | nil => exact .none
  | cons hfirst hrest ih =>
    cases i with
    | zero => exact .some hfirst
    | succ i => exact ih i

theorem member? (h : BlankWithin v w) (key : String) :
    Option.Rel BlankWithin (v.member? key) (w.member? key) := by
  cases h with
  | alike h =>
    rcases h with rfl | ⟨hv, hw⟩
    · exact rel_refl _
    · rw [member?_of_isBlankValue hv, member?_of_isBlankValue hw]
      exact .none
  | array h => exact .none
  | object hkeys h => exact rel_lookup hkeys h key

theorem child? (h : BlankWithin v w) (segment : String) :
    Option.Rel BlankWithin (FilterObject.child? v segment) (FilterObject.child? w segment) := by
  cases h with
  | alike h =>
    rcases h with rfl | ⟨hv, hw⟩
    · exact rel_refl _
    · rw [child?_of_isBlankValue hv, child?_of_isBlankValue hw]
      exact .none
  | array h =>
    unfold FilterObject.child?
    cases Text.readBounded? FilterObject.indexBound segment.toList with
    | none => exact .none
    | some i => exact rel_getElem? h i
  | object hkeys h => exact rel_lookup hkeys h segment

theorem descend (h : BlankWithin v w) (rest : List String) :
    Option.Rel BlankWithin (FilterObject.descend v rest) (FilterObject.descend w rest) := by
  induction rest generalizing v w with
  | nil => exact .some h
  | cons segment rest ih =>
    have hpart := h.child? segment
    rw [FilterObject.descend, FilterObject.descend]
    generalize FilterObject.child? v segment = part at hpart
    generalize FilterObject.child? w segment = part' at hpart
    cases hpart with
    | none => exact .none
    | some hpart => exact ih hpart

theorem getD_null {found found' : Option Value} (h : Option.Rel BlankWithin found found') :
    BlankWithin (found.getD .null) (found'.getD .null) := by
  cases h with
  | none => exact .refl _
  | some h => exact h

end Sql.BlankWithin

namespace FilterObject

variable {v w : Value}

theorem getD_filter_not_isNull (found : Option Value) :
    (found.filter (!·.isNull)).getD .null = found.getD .null := by
  cases found with
  | none => rfl
  | some v => cases v <;> rfl

/-- Fields of a form at any depth may be blank in either way. -/
theorem related_of_blankWithin (h : Sql.BlankWithin v w) :
    Related Sql.BlankWithin (ofValue v) (ofValue w) := by
  intro path
  have hroot := h.member? (rootKey path)
  unfold ofValue
  rw [segments_eq_cons]
  dsimp only
  generalize v.member? (rootKey path) = root at hroot
  generalize w.member? (rootKey path) = root' at hroot
  split
  · exact fun _ => rfl
  · cases hroot with
    | none => exact fun _ => rfl
    | some hroot =>
      show Sql.BlankWithin (Option.getD (Option.filter _ _) _) (Option.getD (Option.filter _ _) _)
      rw [getD_filter_not_isNull, getD_filter_not_isNull]
      exact Sql.BlankWithin.getD_null (hroot.descend _)

end FilterObject

namespace Sql

theorem OperatorProvider.respects_blankAlike (p : OperatorProvider) :
    Provider.Respects True BlankAlike p.provider := by
  intro node property vs ws h
  exact .of_eq (p.predicate_blankAlike _ (.values h))

theorem OperatorProvider.respects_blankWithin (p : OperatorProvider) :
    Provider.Respects False BlankWithin p.provider := by
  intro node property vs ws h
  exact p.predicate_blankWithin _ h

/-- How a value is blank makes no difference: an operator gives the same predicate, or none, or the
same error, for values that differ only in that. So do searches by operators, for filter objects
that differ only in that; inside a value of a form they have the same plan or none. -/
theorem blanks_interchangeable :
    (∀ (p : OperatorProvider) (node : JoinNode) (property : String) (vs ws : List Value),
      p.operator.BlankAlike vs ws → p.provider node property vs = p.provider node property ws) ∧
    ∀ (t : TransferObject Predicate) (options : Options),
      (∀ entry ∈ t.filters, ∃ p : OperatorProvider, entry.2.provider = p.provider) →
      (∀ f g : FilterObject, f.Related BlankAlike g → t.compile options f = t.compile options g) ∧
      (∀ (members : List (String × Value)) (key s : String), members.lookup key = some .null →
        Text.isAllBlank s →
        t.compile options (.ofValue (.object members)) =
          t.compile options (.ofValue (.object (Keyed.insert key (.string s) members)))) ∧
      ∀ v w : Value, BlankWithin v w → ∀ plan : Plan Predicate,
        t.compile options (.ofValue v) = .ok plan ↔ t.compile options (.ofValue w) = .ok plan := by
  constructor
  · intro p node property vs ws h
    exact p.predicate_blankAlike (p.column node property) h
  · intro t options hfilters
    have hexact : ∀ f g : FilterObject, f.Related BlankAlike g →
        t.compile options f = t.compile options g := by
      intro f g h
      rw [← sameOutcome_true_iff]
      apply TransferObject.compile_related h BlankAlike.refl
      intro entry hentry
      obtain ⟨p, hp⟩ := hfilters entry hentry
      rw [hp]
      exact p.respects_blankAlike
    refine ⟨hexact, ?_, ?_⟩
    · intro members key s hnull hs
      exact hexact _ _ (FilterObject.related_insert hnull hs)
    · intro v w h plan
      have hsame : SameOutcome False Eq (t.compile options (.ofValue v))
          (t.compile options (.ofValue w)) := by
        apply TransferObject.compile_related (FilterObject.related_of_blankWithin h)
          BlankWithin.refl
        intro entry hentry
        obtain ⟨p, hp⟩ := hfilters entry hentry
        rw [hp]
        exact p.respects_blankWithin
      exact hsame.eq_ok_iff plan

end Sql
end QueryCriteria
