import QueryCriteria.Binary64.Rounding
import QueryCriteria.Keyed

/-!
# JSON values

A value is what a JSON document means: an object has each key once, and keeps the order in which its
keys first appeared. A number is an exact integer between `-2 ^ 63` and `2 ^ 64 - 1` or a finite
double.
-/
namespace QueryCriteria.Json

inductive Number where
  | integer (n : Int)
  | float (x : Binary64)
  deriving DecidableEq

inductive Value where
  | null
  | bool (b : Bool)
  | number (n : Number)
  | string (s : String)
  | array (items : List Value)
  | object (members : List (String × Value))

namespace Value

mutual

/-- Equality of values; the order of the members of an object counts. -/
def beq : Value → Value → Bool
  | .null, .null => true
  | .bool a, .bool b => a == b
  | .number m, .number n => decide (m = n)
  | .string s, .string t => s == t
  | .array xs, .array ys => beqItems xs ys
  | .object xs, .object ys => beqMembers xs ys
  | _, _ => false

def beqItems : List Value → List Value → Bool
  | [], [] => true
  | x :: xs, y :: ys => beq x y && beqItems xs ys
  | _, _ => false

def beqMembers : List (String × Value) → List (String × Value) → Bool
  | [], [] => true
  | (k, x) :: xs, (l, y) :: ys => k == l && beq x y && beqMembers xs ys
  | _, _ => false

end

mutual

theorem eq_of_beq : ∀ {v w : Value}, beq v w = true → v = w
  | .null, w, h => by cases w <;> simp_all [beq]
  | .bool _, w, h => by cases w <;> simp_all [beq]
  | .number _, w, h => by cases w <;> simp_all [beq]
  | .string _, w, h => by cases w <;> simp_all [beq]
  | .array xs, w, h => by
    cases w <;> simp only [beq, Bool.false_eq_true] at h
    rw [eq_of_beqItems h]
  | .object xs, w, h => by
    cases w <;> simp only [beq, Bool.false_eq_true] at h
    rw [eq_of_beqMembers h]

theorem eq_of_beqItems : ∀ {xs ys : List Value}, beqItems xs ys = true → xs = ys
  | [], ys, h => by cases ys <;> simp_all [beqItems]
  | x :: xs, [], h => by simp [beqItems] at h
  | x :: xs, y :: ys, h => by
    simp only [beqItems, Bool.and_eq_true] at h
    rw [eq_of_beq h.1, eq_of_beqItems h.2]

theorem eq_of_beqMembers :
    ∀ {xs ys : List (String × Value)}, beqMembers xs ys = true → xs = ys
  | [], ys, h => by cases ys <;> simp_all [beqMembers]
  | x :: xs, [], h => by simp [beqMembers] at h
  | (k, x) :: xs, (l, y) :: ys, h => by
    simp only [beqMembers, Bool.and_eq_true, beq_iff_eq] at h
    rw [h.1.1, eq_of_beq h.1.2, eq_of_beqMembers h.2]

end

mutual

theorem beq_refl : ∀ v : Value, beq v v = true
  | .null => rfl
  | .bool _ | .number _ | .string _ => by simp [beq]
  | .array xs => by simp [beq, beqItems_refl xs]
  | .object xs => by simp [beq, beqMembers_refl xs]

theorem beqItems_refl : ∀ xs : List Value, beqItems xs xs = true
  | [] => rfl
  | x :: xs => by simp [beqItems, beq_refl x, beqItems_refl xs]

theorem beqMembers_refl : ∀ xs : List (String × Value), beqMembers xs xs = true
  | [] => rfl
  | (_, x) :: xs => by simp [beqMembers, beq_refl x, beqMembers_refl xs]

end

instance : DecidableEq Value := fun v w =>
  decidable_of_iff (beq v w = true) ⟨eq_of_beq, fun h => h ▸ beq_refl v⟩

def member? (v : Value) (key : String) : Option Value :=
  match v with
  | .object members => members.lookup key
  | _ => none

def item? (v : Value) (index : Nat) : Option Value :=
  match v with
  | .array items => items[index]?
  | _ => none

def typeName : Value → String
  | .null => "null"
  | .bool _ => "bool"
  | .number _ => "number"
  | .string _ => "string"
  | .array _ => "array"
  | .object _ => "object"

def isNull : Value → Bool
  | .null => true
  | _ => false

end Value
end QueryCriteria.Json
