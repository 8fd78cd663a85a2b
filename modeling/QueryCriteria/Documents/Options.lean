import QueryCriteria.Limits
import QueryCriteria.Documents.Path

/-!
# Options in documents

The options of a host come from a document or from a section of its configuration. What is missing
keeps its standard value. A section is found by the names that lead to it; a name that is empty ends
the search.
-/
namespace QueryCriteria

open Json Text

def Limits.format : RecordFormat Limits where
  title := "CriteriaLimits"
  fields := [
    .defaulted "max_entries" Decode.count (.int ·) maxEntries
      (fun n l => { l with maxEntries := n }) fun _ => false,
    .defaulted "max_filter_criteria" Decode.count (.int ·) maxFilters
      (fun n l => { l with maxFilters := n }) fun _ => false,
    .defaulted "max_sort_keys" Decode.count (.int ·) maxSortKeys
      (fun n l => { l with maxSortKeys := n }) fun _ => false,
    .defaulted "max_association_depth" Decode.count (.int ·) maxDepth
      (fun n l => { l with maxDepth := n }) fun _ => false]
  initial := .standard
  refusesOthers := true

namespace Options

def format : RecordFormat Options where
  title := "ConverterOptions"
  fields := [
    .defaulted "join_conflict_policy" ConflictPolicy.decode ConflictPolicy.encode conflictPolicy
      (fun p o => { o with conflictPolicy := p }) fun _ => false,
    .defaulted "limits" Limits.format.decode Limits.format.encode limits
      (fun l o => { o with limits := l }) fun _ => false]
  initial := .standard
  refusesOthers := true

/-- The part of a configuration that names lead to. -/
def sectionAt? : Value → List String → Option Value
  | v, [] => some v
  | v, name :: rest =>
    if name = "" then some v
    else match v.member? name with
      | some inner => sectionAt? inner rest
      | none => none

/-- The options in the section of a configuration that a dotted key leads to. A configuration that
has no such section gives the standard options. -/
def ofSettings (settings : Value) (key : String) : Except CriteriaError Options :=
  match settings with
  | .object _ =>
    match sectionAt? settings (segments key) with
    | none => .ok .standard
    | some v =>
      match format.decode .settings (.ofValue v) with
      | .ok options => .ok options
      | .error e => .error (.configuration (ticked key ++ ": " ++ e.message))
  | _ => .ok .standard

end Options
end QueryCriteria
