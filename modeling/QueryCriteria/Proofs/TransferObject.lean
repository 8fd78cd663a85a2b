import Mathlib.Data.List.Basic
import QueryCriteria.TransferObject

/-!
# The criteria of a transfer object

Compilation goes through the criteria entry by entry. Inside an entry the filters come first, in the
order of their declaration, and then the sort. The lists here pick the filters, the sorts and the
association paths out of the entries in this order.
-/
namespace QueryCriteria

variable {P : Type}

def Criterion.filter? : Criterion P → Option (FilterCriterion P)
  | .filter c => some c
  | .sort _ => none

def Criterion.sort? : Criterion P → Option SortCriterion
  | .filter _ => none
  | .sort c => some c

namespace TransferObject

def filters (t : TransferObject P) : List (String × FilterCriterion P) :=
  t.entries.flatMap fun (_, e) => e.filters.map (e.propertyId, ·)

def sorts (t : TransferObject P) : List SortCriterion :=
  t.entries.flatMap fun (_, e) => e.sort.toList

def paths (t : TransferObject P) : List AssociationPath :=
  t.entries.flatMap fun (_, e) =>
    e.filters.map (·.target.association) ++ e.sort.toList.map (·.target.association)

theorem paths_eq_map_criteria (t : TransferObject P) :
    t.paths = t.criteria.map (·.2.target.association) := by
  simp [paths, criteria, Entry.criteria, List.map_flatMap, Function.comp_def, Criterion.target]

theorem filterMap_filter?_criteria (t : TransferObject P) :
    (t.criteria.filterMap fun (id, c) => c.filter?.map (id, ·)) = t.filters := by
  simp [filters, criteria, Entry.criteria, List.filterMap_flatMap, Function.comp_def,
    Criterion.filter?, List.filterMap_none]

theorem filterMap_sort?_criteria (t : TransferObject P) :
    t.criteria.filterMap (·.2.sort?) = t.sorts := by
  simp [sorts, criteria, Entry.criteria, List.filterMap_flatMap, Function.comp_def,
    Criterion.sort?, List.filterMap_none]

theorem filter_mem_paths {t : TransferObject P} {id : String} {c : FilterCriterion P}
    (h : (id, c) ∈ t.filters) : c.target.association ∈ t.paths := by
  obtain ⟨⟨key, e⟩, he, hc⟩ := List.mem_flatMap.mp h
  obtain ⟨c', hc', heq⟩ := List.mem_map.mp hc
  cases heq
  exact List.mem_flatMap.mpr ⟨(key, e), he,
    List.mem_append_left _ (List.mem_map.mpr ⟨c, hc', rfl⟩)⟩

theorem sort_mem_paths {t : TransferObject P} {c : SortCriterion} (h : c ∈ t.sorts) :
    c.target.association ∈ t.paths := by
  obtain ⟨⟨key, e⟩, he, hc⟩ := List.mem_flatMap.mp h
  exact List.mem_flatMap.mpr ⟨(key, e), he,
    List.mem_append_right _ (List.mem_map.mpr ⟨c, hc, rfl⟩)⟩

end TransferObject
end QueryCriteria
