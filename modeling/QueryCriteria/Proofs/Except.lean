import Mathlib.Data.List.Forall2

/-!
# Steps that may fail

Two steps in sequence succeed if both do, and else fail with the error of the first that fails. The
same holds of a step that is taken for each element of a list.
-/
namespace QueryCriteria

variable {ε α β : Type}

theorem bind_eq_ok_iff {x : Except ε α} {f : α → Except ε β} {b : β} :
    (x >>= f) = .ok b ↔ ∃ a, x = .ok a ∧ f a = .ok b := by
  cases x <;> simp [bind, Except.bind]

theorem bind_eq_error_iff {x : Except ε α} {f : α → Except ε β} {e : ε} :
    (x >>= f) = .error e ↔ x = .error e ∨ ∃ a, x = .ok a ∧ f a = .error e := by
  cases x <;> simp [bind, Except.bind]

theorem map_eq_ok_iff {x : Except ε α} {f : α → β} {b : β} :
    x.map f = .ok b ↔ ∃ a, x = .ok a ∧ f a = b := by
  cases x <;> simp [Except.map]

theorem map_eq_error_iff {x : Except ε α} {f : α → β} {e : ε} :
    x.map f = .error e ↔ x = .error e := by
  cases x <;> simp [Except.map]

theorem mapError_eq_ok_iff {ε' : Type} {x : Except ε α} {f : ε → ε'} {a : α} :
    x.mapError f = .ok a ↔ x = .ok a := by
  cases x <;> simp [Except.mapError]

theorem mapError_eq_error_iff {ε' : Type} {x : Except ε α} {f : ε → ε'} {e : ε'} :
    x.mapError f = .error e ↔ ∃ source, x = .error source ∧ f source = e := by
  cases x <;> simp [Except.mapError]

theorem pure_eq_ok_iff {a b : α} : (pure a : Except ε α) = .ok b ↔ a = b := by
  simp [pure, Except.pure]

theorem pure_ne_error {a : α} {e : ε} : (pure a : Except ε α) ≠ .error e := by
  simp [pure, Except.pure]

theorem mapM_eq_ok_iff {f : α → Except ε β} {as : List α} {bs : List β} :
    as.mapM f = .ok bs ↔ List.Forall₂ (fun a b => f a = .ok b) as bs := by
  induction as generalizing bs with
  | nil =>
    rw [List.mapM_nil, pure_eq_ok_iff, List.forall₂_nil_left_iff]
    exact eq_comm
  | cons a rest ih =>
    simp only [List.mapM_cons, bind_eq_ok_iff, pure_eq_ok_iff, List.forall₂_cons_left_iff, ih]
    constructor
    · rintro ⟨b, hb, others, hothers, rfl⟩
      exact ⟨b, others, hb, hothers, rfl⟩
    · rintro ⟨b, others, hb, hothers, rfl⟩
      exact ⟨b, hb, others, hothers, rfl⟩

theorem exists_of_forall₂_of_mem_right {R : α → β → Prop} {as : List α} {bs : List β}
    (h : List.Forall₂ R as bs) {b : β} (hb : b ∈ bs) : ∃ a ∈ as, R a b := by
  induction h with
  | nil => cases hb
  | cons first rest ih =>
    rcases List.mem_cons.mp hb with rfl | hb
    · exact ⟨_, List.mem_cons_self, first⟩
    · obtain ⟨a, ha, hab⟩ := ih hb
      exact ⟨a, List.mem_cons_of_mem _ ha, hab⟩

theorem exists_of_forall₂_of_mem_left {R : α → β → Prop} {as : List α} {bs : List β}
    (h : List.Forall₂ R as bs) {a : α} (ha : a ∈ as) : ∃ b ∈ bs, R a b :=
  exists_of_forall₂_of_mem_right h.flip ha

theorem exists_forall₂_iff {R : α → β → Prop} {as : List α} :
    (∃ bs, List.Forall₂ R as bs) ↔ ∀ a ∈ as, ∃ b, R a b := by
  induction as with
  | nil => simp
  | cons a rest ih =>
    rw [List.forall_mem_cons, ← ih]
    simp only [List.forall₂_cons_left_iff]
    constructor
    · rintro ⟨-, b, others, hb, hothers, -⟩
      exact ⟨⟨b, hb⟩, others, hothers⟩
    · rintro ⟨⟨b, hb⟩, others, hothers⟩
      exact ⟨b :: others, b, others, hb, hothers, rfl⟩

theorem exists_mapM_eq_ok_iff {f : α → Except ε β} {as : List α} :
    (∃ bs, as.mapM f = .ok bs) ↔ ∀ a ∈ as, ∃ b, f a = .ok b := by
  simp only [mapM_eq_ok_iff]
  exact exists_forall₂_iff

theorem mapM_cons_eq_error_iff {f : α → Except ε β} {a : α} {rest : List α} {e : ε} :
    (a :: rest).mapM f = .error e ↔
      f a = .error e ∨ (∃ b, f a = .ok b) ∧ rest.mapM f = .error e := by
  simp only [List.mapM_cons, bind_eq_error_iff, pure_ne_error, and_false, exists_false, or_false]
  exact or_congr_right exists_and_right

theorem exists_of_mapM_eq_error {f : α → Except ε β} {as : List α} {e : ε}
    (h : as.mapM f = .error e) : ∃ a ∈ as, f a = .error e := by
  induction as with
  | nil => exact absurd h pure_ne_error
  | cons a rest ih =>
    rcases mapM_cons_eq_error_iff.mp h with hfirst | ⟨-, hrest⟩
    · exact ⟨a, List.mem_cons_self, hfirst⟩
    · obtain ⟨b, hb, herror⟩ := ih hrest
      exact ⟨b, List.mem_cons_of_mem _ hb, herror⟩

section SameOutcome

variable {α' β' : Type} {exact : Prop} {R : α → α' → Prop} {S : β → β' → Prop}

/-- Two steps both fail, or both succeed with related results. An exact agreement is one in the
errors too. -/
def SameOutcome (exact : Prop) (R : α → α' → Prop) : Except ε α → Except ε α' → Prop
  | .error e, .error e' => exact → e = e'
  | .ok a, .ok b => R a b
  | _, _ => False

theorem SameOutcome.of_eq {x y : Except ε α} (h : x = y) : SameOutcome exact Eq x y := by
  rw [h]
  cases y with
  | error e => exact fun _ => rfl
  | ok a => exact rfl

theorem SameOutcome.of_exact {x : Except ε α} {y : Except ε α'} (h : SameOutcome True R x y) :
    SameOutcome exact R x y := by
  cases x with
  | error e =>
    cases y with
    | error e' => exact fun _ => h trivial
    | ok b => exact h.elim
  | ok a =>
    cases y with
    | error e' => exact h.elim
    | ok b => exact h

/-- Sequences agree if their first steps do, and the next ones on related results. -/
theorem SameOutcome.bind {x : Except ε α} {y : Except ε α'} {f : α → Except ε β}
    {g : α' → Except ε β'} (h : SameOutcome exact R x y)
    (hnext : ∀ a b, R a b → SameOutcome exact S (f a) (g b)) :
    SameOutcome exact S (x >>= f) (y >>= g) := by
  cases x with
  | error e =>
    cases y with
    | error e' => exact h
    | ok b => exact h.elim
  | ok a =>
    cases y with
    | error e' => exact h.elim
    | ok b => exact hnext a b h

theorem SameOutcome.mapError {ε' : Type} {x : Except ε α} {y : Except ε α'} {f : ε → ε'}
    (h : SameOutcome exact R x y) : SameOutcome exact R (x.mapError f) (y.mapError f) := by
  cases x with
  | error e =>
    cases y with
    | error e' => exact fun hexact => congrArg f (h hexact)
    | ok b => exact h.elim
  | ok a =>
    cases y with
    | error e' => exact h.elim
    | ok b => exact h

theorem sameOutcome_true_iff {x y : Except ε α} : SameOutcome True Eq x y ↔ x = y := by
  cases x <;> cases y <;> simp [SameOutcome]

theorem SameOutcome.eq_ok_iff {x y : Except ε α} (h : SameOutcome exact Eq x y) (a : α) :
    x = .ok a ↔ y = .ok a := by
  cases x <;> cases y <;> simp_all [SameOutcome]

end SameOutcome

end QueryCriteria
