import QueryCriteria.Limits
import QueryCriteria.Proofs.TransferObject

/-!
# The check of the limits

The limits bound a list of counts: the entries, the filters, the sort keys and the depth of each
path. A transfer object is refused with the first count that is above its bound.
-/
namespace QueryCriteria

variable {P : Type}

namespace Limits

/-- A count that a limit bounds. -/
structure Measure where
  what : String
  max : Nat
  got : Nat

def Measure.exceeded (m : Measure) : Bool := decide (m.max < m.got)

def Measure.toError (m : Measure) : CriteriaError := .limitExceeded m.what m.max m.got

/-- The counts of a transfer object, in the order in which they are checked. -/
def measures (l : Limits) (t : TransferObject P) : List Measure :=
  [⟨"propertyId entries", l.maxEntries, t.entries.length⟩,
    ⟨"filter criteria", l.maxFilters, t.filters.length⟩,
    ⟨"sort keys", l.maxSortKeys, t.sorts.length⟩] ++
  t.paths.map fun p => ⟨"association depth", l.maxDepth, p.length⟩

/-- The first count of a transfer object that is above its bound. -/
def firstExceeded? (l : Limits) (t : TransferObject P) : Option Measure :=
  (l.measures t).find? Measure.exceeded

theorem filterCount_eq (t : TransferObject P) : filterCount t = t.filters.length := by
  have hfrom (entries : List (String × Entry P)) (count : Nat) :
      entries.foldl (fun count e => count + e.2.filters.length) count =
        count + (entries.flatMap fun e => e.2.filters.map (e.2.propertyId, ·)).length := by
    induction entries generalizing count with
    | nil => rfl
    | cons e rest ih =>
      rw [List.foldl_cons, ih, List.flatMap_cons, List.length_append, List.length_map]
      omega
  rw [filterCount, hfrom, Nat.zero_add]
  rfl

theorem sortCount_eq (t : TransferObject P) : sortCount t = t.sorts.length := by
  unfold sortCount TransferObject.sorts
  induction t.entries with
  | nil => rfl
  | cons e rest ih =>
    obtain ⟨key, ⟨id, filters, sort⟩⟩ := e
    rw [List.countP_cons, List.flatMap_cons, List.length_append, ih]
    cases sort <;> simp [Nat.add_comm]

def checkAll : List Measure → Except CriteriaError Unit
  | [] => .ok ()
  | m :: rest => do
    check m.what m.max m.got
    checkAll rest

theorem checkAll_eq (measures : List Measure) :
    checkAll measures =
      match measures.find? Measure.exceeded with
      | none => .ok ()
      | some m => .error m.toError := by
  induction measures with
  | nil => rfl
  | cons m rest ih =>
    by_cases h : m.max < m.got
    · simp [checkAll, check, Measure.exceeded, Measure.toError, h, bind, Except.bind]
    · simpa [checkAll, check, Measure.exceeded, h, bind, Except.bind] using ih

theorem checkPaths_eq_checkAll (l : Limits) (paths : List AssociationPath) :
    l.checkPaths paths =
      checkAll (paths.map fun p => ⟨"association depth", l.maxDepth, p.length⟩) := by
  induction paths with
  | nil => rfl
  | cons p rest ih =>
    rw [checkPaths, ih]
    rfl

/-- A transfer object is refused with the first count that is above its bound. -/
theorem checkTransferObject_eq (l : Limits) (t : TransferObject P) :
    l.checkTransferObject t =
      match l.firstExceeded? t with
      | none => .ok ()
      | some m => .error m.toError := by
  rw [firstExceeded?, ← checkAll_eq]
  unfold checkTransferObject
  rw [filterCount_eq, sortCount_eq, ← t.paths_eq_map_criteria, checkPaths_eq_checkAll]
  rfl

end Limits
end QueryCriteria
