import QueryCriteria.Problem
import QueryCriteria.Proofs.Compilation
import QueryCriteria.Proofs.Documents.TransferObject
import QueryCriteria.Sql.Operator

/-!
# Answers to clients

A document that can be decoded may still be refused, when the transfer object is taken from it or
when the transfer object is compiled. Whatever the reason, it is an input error: nothing that the
host is to blame for is among the reasons, and a reason that is about one property id is about one
of the document. So the answer is a problem with status 422, whose violation, if it has one, has a
property id of the document as its field.
-/
namespace QueryCriteria

/-- What can be wrong with a document that has the given property ids. -/
inductive InputError (ids : List String) : CriteriaError → Prop
  | invalidPropertyPath (path reason : String) : InputError ids (.invalidPropertyPath path reason)
  | duplicatePropertyId {id : String} (h : id ∈ ids) : InputError ids (.duplicatePropertyId id)
  | joinKindConflict (path : String) (registered requested : JoinKind) :
    InputError ids (.joinKindConflict path registered requested)
  | unknownFilterObjectPath (path : String) : InputError ids (.unknownFilterObjectPath path)
  | unknownProvider (name : String) : InputError ids (.unknownProvider name)
  | invalidCriterion {id : String} (h : id ∈ ids) (reason : String) :
    InputError ids (.invalidCriterion id reason)
  | limitExceeded (what : String) (max got : Nat) : InputError ids (.limitExceeded what max got)
  | provider {id : String} (h : id ∈ ids) (property : String) (source : ProviderError) :
    InputError ids (.provider id property source)

namespace CriteriaError

theorem errors_problem (e : CriteriaError) : e.problem.errors = e.violation?.map fun v => [v] := by
  cases e <;> rfl

theorem length_errors_problem_le (e : CriteriaError) : (e.problem.errors.getD []).length ≤ 1 := by
  rw [e.errors_problem]
  cases e.violation? <;> simp

theorem isConfigurationError_eq_false_iff {e : CriteriaError} :
    e.isConfigurationError = false ↔ ∃ id property source, e = .provider id property source := by
  cases e <;> simp [isConfigurationError]

end CriteriaError

namespace InputError

variable {ids : List String} {e : CriteriaError} (h : InputError ids e)

include h

theorem status_problem : e.problem.status.code = 422 := by
  cases h <;> rfl

theorem code_problem :
    e.problem.code = if e.isConfigurationError then CatalogEntry.invalidCriteria.code
      else CatalogEntry.invalidFilterValue.code := by
  cases h <;> rfl

theorem isClientError_problem : e.problem.isClientError = true := by
  rw [Problem.isClientError, Status.isClientError, h.status_problem]
  rfl

theorem field_mem {v : Violation} (hv : v ∈ e.problem.errors.getD []) : v.field ∈ ids := by
  rw [e.errors_problem] at hv
  cases h with
  | invalidPropertyPath | joinKindConflict | unknownFilterObjectPath | unknownProvider
  | limitExceeded => cases hv
  | duplicatePropertyId hid | invalidCriterion hid | provider hid =>
    rw [List.mem_singleton.mp hv]
    exact hid

end InputError

section Refusals

variable {P : Type} {r : Registry P} {id : String} {ids : List String} {e : CriteriaError}

theorem RawTarget.Refused.inputError {t : RawTarget} (h : t.Refused id e) (hid : id ∈ ids) :
    InputError ids e := by
  cases h with
  | neither | both | nameWithKind | pathWithAssociation => exact .invalidCriterion hid _
  | name | path => exact .invalidPropertyPath _ _

theorem RawCriterion.Refused.inputError {c : RawCriterion} (h : c.Refused r id e)
    (hid : id ∈ ids) : InputError ids e := by
  cases c with
  | filter f =>
    cases h with
    | unknownField => exact .invalidCriterion hid _
    | unknownProvider => exact .unknownProvider _
    | target _ _ htarget => exact htarget.inputError hid
  | sort s =>
    cases h with
    | unknownField => exact .invalidCriterion hid _
    | target _ htarget => exact htarget.inputError hid

namespace RawTransferObject

variable {raw : RawTransferObject}

theorem inputError_of_resolve (h : raw.resolve r = .error e) : InputError raw.propertyIds e := by
  rcases resolve_eq_error_iff.mp h with ⟨id, hrepeated, rfl⟩ | ⟨-, hrefused⟩
  · obtain ⟨before, after, hkeys, -, -⟩ := hrepeated
    apply InputError.duplicatePropertyId
    simp [hkeys]
  · obtain ⟨before, id, c, after, hentries, -, hc⟩ := hrefused
    have hmem : (id, c) ∈ documentOrder raw.criteria := by simp [hentries]
    exact hc.inputError (mem_keys_of_mem_documentOrder hmem)

theorem Gives.id_mem_of_mem_filters {t : TransferObject P} (h : raw.Gives r t)
    {entry : String × FilterCriterion P} (hentry : entry ∈ t.filters) :
    entry.1 ∈ raw.propertyIds := by
  obtain ⟨resolved, hresolved, hc⟩ := List.mem_flatMap.mp hentry
  obtain ⟨c, -, rfl⟩ := List.mem_map.mp hc
  obtain ⟨given, hgiven, hgives, -⟩ := exists_of_forall₂_of_mem_right h.entries hresolved
  rw [hgives.propertyId]
  exact List.mem_map.mpr ⟨given, hgiven, rfl⟩

end RawTransferObject

/-- A path that the filter object gives an error for is reported as unknown. -/
def FilterObject.ReportsUnknown (f : FilterObject) : Prop :=
  ∀ path e, f path = .error e → ∃ unknown, e = .unknownFilterObjectPath unknown

theorem FilterObject.reportsUnknown_none : FilterObject.none.ReportsUnknown := by
  intro path e h
  cases h
  exact ⟨path, rfl⟩

theorem FilterObject.reportsUnknown_ofValue (v : Json.Value) : (ofValue v).ReportsUnknown := by
  intro path e h
  unfold ofValue at h
  split at h
  · cases h
    exact ⟨path, rfl⟩
  · split at h
    · cases h
      exact ⟨path, rfl⟩
    · split at h
      · cases h
        exact ⟨path, rfl⟩
      · cases h

theorem TransferObject.inputError_of_compile {t : TransferObject P} {options : Options}
    {f : FilterObject} (hf : f.ReportsUnknown) (hids : ∀ entry ∈ t.filters, entry.1 ∈ ids)
    (h : t.compile options f = .error e) : InputError ids e := by
  rw [compile_eq_planByStages, planByStages] at h
  cases hlimits : options.limits.firstExceeded? t with
  | some measure =>
    rw [hlimits] at h
    cases h
    exact .limitExceeded _ _ _
  | none =>
    simp only [hlimits, bind_eq_error_iff, pure_ne_error, and_false, exists_false, or_false] at h
    rcases h with hpaths | ⟨tree, -, hfilters⟩
    · obtain ⟨c, rfl⟩ := JoinTree.exists_conflict_of_registerPaths hpaths
      exact .joinKindConflict _ _ _
    · obtain ⟨entry, hentry, hfails⟩ := exists_of_mapM_eq_error hfilters
      rcases FilterCriterion.error_of_contribution hfails with ⟨path, hpath⟩ | ⟨source, rfl⟩
      · obtain ⟨unknown, rfl⟩ := hf path e hpath
        exact .unknownFilterObjectPath unknown
      · exact .provider (hids entry hentry) _ source

end Refusals

namespace RawTransferObject

variable {P : Type}

/-- Whatever is wrong with a document, the providers and the options of the host, a client whose
document is refused gets an answer about its own input. -/
theorem inputError_of_request {raw : RawTransferObject} {r : Registry P} {options : Options}
    {f : FilterObject} (hf : f.ReportsUnknown) {e : CriteriaError}
    (h : (raw.resolve r >>= fun t => t.compile options f) = .error e) :
    InputError raw.propertyIds e := by
  rcases bind_eq_error_iff.mp h with hresolve | ⟨t, ht, hcompile⟩
  · exact inputError_of_resolve hresolve
  · have hgives := (resolve_eq_ok_iff.mp ht).2
    exact TransferObject.inputError_of_compile hf
      (fun entry hentry => hgives.id_mem_of_mem_filters hentry) hcompile

/-- No document makes the host answer with a failure of its own. If there is no transfer object or
no plan, the status is 422, the code tells the failures of providers from other errors, and a
violation is about a property id of the document. -/
theorem answer_to_document (raw : RawTransferObject) (r : Registry P) (options : Options)
    {f : FilterObject} (hf : f = .none ∨ ∃ v, f = .ofValue v) {e : CriteriaError}
    (h : (raw.resolve r >>= fun t => t.compile options f) = .error e) :
    (∀ reason, e ≠ .configuration reason) ∧ (∀ id, e ≠ .sortAlreadyAssigned id) ∧
    (∀ reason, e ≠ .invalidAssociationPath reason) ∧
    e.problem.status.code = 422 ∧ e.problem.isClientError = true ∧
    (e.problem.code = CatalogEntry.invalidFilterValue.code ↔
      ∃ id property source, e = .provider id property source) ∧
    (e.isConfigurationError = false ↔ ∃ id property source, e = .provider id property source) ∧
    (e.problem.code ≠ CatalogEntry.invalidFilterValue.code →
      e.problem.code = CatalogEntry.invalidCriteria.code) ∧
    (e.problem.errors.getD []).length ≤ 1 ∧
    ∀ v ∈ e.problem.errors.getD [], v.field ∈ raw.propertyIds := by
  have hreports : f.ReportsUnknown := by
    rcases hf with rfl | ⟨v, rfl⟩
    · exact FilterObject.reportsUnknown_none
    · exact FilterObject.reportsUnknown_ofValue v
  have hinput := inputError_of_request hreports h
  refine ⟨?_, ?_, ?_, hinput.status_problem, hinput.isClientError_problem, ?_,
    CriteriaError.isConfigurationError_eq_false_iff, ?_, e.length_errors_problem_le,
    fun v hv => hinput.field_mem hv⟩
  · rintro reason rfl
    cases hinput
  · rintro id rfl
    cases hinput
  · rintro reason rfl
    cases hinput
  · rw [hinput.code_problem, ← CriteriaError.isConfigurationError_eq_false_iff]
    cases e.isConfigurationError <;> decide
  · rw [hinput.code_problem]
    intro hcode
    split
    · rfl
    · rename_i hprovider
      exact absurd (if_neg hprovider) hcode

def wrongAge : RawTransferObject :=
  ⟨none, none, [("age", ⟨[⟨⟨none, some "age", none, none⟩, none, some [.string "old"], "eq", []⟩],
    none⟩)]⟩

theorem answer_to_wrongAge :
    ∃ e, (wrongAge.resolve (Sql.standardRegistry .integer) >>= fun t => t.compile .standard .none) =
        .error e ∧
      e = .provider "age" "age" (.typeMismatch 0 "I64" "string \"old\"") ∧
      e.problem.status.code = 422 ∧ e.problem.code = CatalogEntry.invalidFilterValue.code ∧
      ∀ v ∈ e.problem.errors.getD [], v.field ∈ ["age"] := by
  have he : (wrongAge.resolve (Sql.standardRegistry .integer) >>= fun t =>
      t.compile .standard .none) =
        .error (.provider "age" "age" (.typeMismatch 0 "I64" "string \"old\"")) := rfl
  obtain ⟨-, -, -, hstatus, -, hcode, -, -, -, hfields⟩ :=
    answer_to_document wrongAge (Sql.standardRegistry .integer) .standard (.inl rfl) he
  exact ⟨_, he, rfl, hstatus, hcode.mpr ⟨_, _, _, rfl⟩, hfields⟩

end RawTransferObject
end QueryCriteria
