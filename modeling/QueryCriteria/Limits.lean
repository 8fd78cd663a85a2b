import QueryCriteria.TransferObject

/-!
# Limits

Transfer objects come from clients, so the work that one may request is bounded: its entries, its
filters, its sort keys, and the depth of its association paths. The limits are checked in this order
and the first that is exceeded is reported; of the paths, the first too deep one in the order of
compilation.
-/
namespace QueryCriteria

/-- Bounds on a transfer object. -/
structure Limits where
  maxEntries : Nat
  maxFilters : Nat
  maxSortKeys : Nat
  maxDepth : Nat
  deriving DecidableEq

namespace Limits

def standard : Limits := ⟨64, 128, 8, 8⟩

/-- The greatest bound that can be configured. -/
def greatest : Nat := UInt64.size - 1

/-- No limits but the greatest bound, for trusted callers. -/
def unbounded : Limits := ⟨greatest, greatest, greatest, greatest⟩

/-- Refuses a count above its bound. -/
def check (what : String) (max got : Nat) : Except CriteriaError Unit :=
  if max < got then .error (.limitExceeded what max got) else .ok ()

def checkPath (l : Limits) (p : AssociationPath) : Except CriteriaError Unit :=
  check "association depth" l.maxDepth p.length

def checkPaths (l : Limits) : List AssociationPath → Except CriteriaError Unit
  | [] => .ok ()
  | p :: rest => do
    l.checkPath p
    checkPaths l rest

variable {P : Type}

def filterCount (t : TransferObject P) : Nat :=
  t.entries.foldl (fun count e => count + e.2.filters.length) 0

def sortCount (t : TransferObject P) : Nat := t.entries.countP (·.2.sort.isSome)

def checkTransferObject (l : Limits) (t : TransferObject P) : Except CriteriaError Unit := do
  check "propertyId entries" l.maxEntries t.size
  check "filter criteria" l.maxFilters (filterCount t)
  check "sort keys" l.maxSortKeys (sortCount t)
  l.checkPaths (t.criteria.map (·.2.target.association))

end Limits

/-- How transfer objects are compiled. -/
structure Options where
  conflictPolicy : ConflictPolicy
  limits : Limits
  deriving DecidableEq

def Options.standard : Options := ⟨.firstWins, .standard⟩

end QueryCriteria
