import QueryCriteria.Proofs.Compilation

/-!
# Values that providers do not tell apart

The compiler hands the values of a filter to its provider and does not look at them itself. So where
two filter objects give related values, and no provider tells related values apart, they have the
same plan. They have the same errors too if the providers fail alike.
-/
namespace QueryCriteria

open Json

/-- Two filter objects fail on the same paths, and give related values on the others, where no value
counts as null. -/
def FilterObject.Related (R : Value → Value → Prop) (f g : FilterObject) : Prop :=
  ∀ path, SameOutcome True (fun a b => R (a.getD .null) (b.getD .null)) (f path) (g path)

variable {P : Type} {R : Value → Value → Prop} {exact : Prop} {f g : FilterObject}

theorem FilterObject.Related.resolveAll (h : Related R f g) (paths : List String) :
    SameOutcome True (List.Forall₂ R) (f.resolveAll paths) (g.resolveAll paths) := by
  induction paths with
  | nil => exact .nil
  | cons path rest ih =>
    rw [FilterObject.resolveAll, FilterObject.resolveAll]
    apply (h path).bind
    intro a b hfirst
    apply ih.bind
    intro vs ws hrest
    exact .cons hfirst hrest

theorem FilterObject.Related.valuesOf (h : Related R f g) (hrefl : ∀ v, R v v)
    (c : FilterCriterion P) :
    SameOutcome True (List.Forall₂ R) (f.valuesOf c) (g.valuesOf c) := by
  apply (h.resolveAll _).bind
  intro vs ws hrelated
  exact List.rel_append hrelated (List.forall₂_same.mpr fun v _ => hrefl v)

/-- A provider that does not tell related values apart, and if this is exact, not in its errors
either. -/
def Provider.Respects (exact : Prop) (R : Value → Value → Prop) (provider : Provider P) : Prop :=
  ∀ node property vs ws, List.Forall₂ R vs ws →
    SameOutcome exact Eq (provider node property vs) (provider node property ws)

theorem FilterCriterion.contribution_related (h : f.Related R g) (hrefl : ∀ v, R v v)
    {c : FilterCriterion P} (hc : Provider.Respects exact R c.provider) (tree : JoinTree)
    (id : String) :
    SameOutcome exact Eq (c.contribution tree f id) (c.contribution tree g id) := by
  rw [contribution_eq_bind, contribution_eq_bind]
  apply (h.valuesOf hrefl c).of_exact.bind
  intro vs ws hrelated
  exact (hc _ _ _ _ hrelated).mapError

theorem Plan.contributions_related (h : f.Related R g) (hrefl : ∀ v, R v v) (tree : JoinTree)
    {filters : List (String × FilterCriterion P)}
    (hfilters : ∀ entry ∈ filters, Provider.Respects exact R entry.2.provider) :
    SameOutcome exact Eq (contributions tree f filters) (contributions tree g filters) := by
  induction filters with
  | nil => exact .of_eq rfl
  | cons entry rest ih =>
    obtain ⟨hfirst, hrest⟩ := List.forall_mem_cons.mp hfilters
    rw [contributions_cons, contributions_cons]
    apply (FilterCriterion.contribution_related h hrefl hfirst tree _).bind
    rintro first _ rfl
    apply (ih hrest).bind
    rintro others _ rfl
    exact .of_eq rfl

/-- The filter object is seen through the providers only. -/
theorem TransferObject.compile_related {t : TransferObject P} (h : f.Related R g)
    (hrefl : ∀ v, R v v) (hfilters : ∀ entry ∈ t.filters, Provider.Respects exact R entry.2.provider)
    (options : Options) : SameOutcome exact Eq (t.compile options f) (t.compile options g) := by
  rw [compile_eq_planByStages, compile_eq_planByStages]
  unfold planByStages
  split
  · exact .of_eq rfl
  · apply (SameOutcome.of_eq rfl).bind
    rintro tree _ rfl
    apply (Plan.contributions_related h hrefl tree hfilters).bind
    rintro contributed _ rfl
    exact .of_eq rfl

end QueryCriteria
