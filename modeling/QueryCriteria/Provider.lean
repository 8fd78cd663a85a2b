import QueryCriteria.JoinTree
import QueryCriteria.Json.Value

/-!
# Providers and their registry

A provider turns the resolved values of one filter into a predicate on one property of one join
node. It may decline, for instance on blank input. Clients name providers; what a name can request
is what the host registered under it.
-/
namespace QueryCriteria

open Json

/-- A strategy that builds predicates of a type for a node, a property and values. -/
abbrev Provider (P : Type) : Type :=
  JoinNode → String → List Value → Except ProviderError (Option P)

/-- The providers that a host offers, by name. -/
structure Registry (P : Type) where
  entries : List (String × Provider P)

namespace Registry

variable {P : Type}

def empty : Registry P := ⟨[]⟩

/-- The registry with a provider under a name, in place of the one it had. -/
def insert (r : Registry P) (name : String) (provider : Provider P) : Registry P :=
  ⟨Keyed.insert name provider r.entries⟩

def find? (r : Registry P) (name : String) : Option (Provider P) := r.entries.lookup name

def contains (r : Registry P) (name : String) : Bool := (r.find? name).isSome

/-- The names by ascending code points. -/
def names (r : Registry P) : List String :=
  (Keyed.keys r.entries).mergeSort fun a b => decide (a ≤ b)

def size (r : Registry P) : Nat := r.entries.length

end Registry
end QueryCriteria
