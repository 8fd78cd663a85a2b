import Mathlib.Data.List.Induction
import QueryCriteria.Proofs.DottedPaths
import QueryCriteria.Proofs.JoinTree.Conflicts

/-!
# The dotted names of nodes

A tree finds a node by its list of names. Outside of the tree a node is known by one text, its names
with dots between them: so in conflicts, in errors and in the relations of a schema. No name of a
path is empty or has a dot, so that this text has the names as its segments. Nodes of a tree are
therefore told apart by their texts, and the path of a recorded conflict leads to the one node at
which it arose.
-/
namespace QueryCriteria

open Text

namespace AssociationPath

variable {p q : AssociationPath}

theorem segments_key (h : p.names ≠ []) : segments p.key = p.names :=
  segments_dotted_of_isSegment h fun _ => isSegment_of_mem_names

/-- Only the root is written as the empty text, whose one segment names no step. -/
theorem key_eq_empty_iff : p.key = "" ↔ p.names = [] := by
  constructor
  · intro hkey
    by_contra hne
    have hsegments := segments_key hne
    have hmem : "" ∈ p.names := by
      rw [← hsegments, hkey]
      exact List.mem_singleton.mpr rfl
    exact (isSegment_iff.mp (isSegment_of_mem_names hmem)).1 rfl
  · intro hnil
    rw [key, hnil]
    rfl

theorem key_eq_key_iff : p.key = q.key ↔ p.names = q.names := by
  constructor
  · intro hkey
    by_cases hp : p.names = []
    · have hempty : q.key = "" := hkey ▸ key_eq_empty_iff.mpr hp
      rw [hp, key_eq_empty_iff.mp hempty]
    · have hq : q.names ≠ [] := by
        intro hnil
        exact hp (key_eq_empty_iff.mp (hkey ▸ key_eq_empty_iff.mpr hnil))
      rw [← segments_key hp, ← segments_key hq, hkey]
  · intro hnames
    rw [key, key, hnames]

end AssociationPath

namespace JoinTree

open AssociationPath

variable {t u : JoinTree}

/-- A conflict that arose at a node: its path is the dotted names of the node, and the kind in force
there is the registered one, which is not the one that was asked for. -/
structure ConflictAt (t : JoinTree) (c : JoinConflict) (id : NodeId) (node : JoinNode) : Prop where
  found : t.node? id = some node
  path : c.path = node.path.key
  registered : node.kind? = some c.registered
  requested : c.requested ≠ c.registered

def LocatesConflicts (t : JoinTree) : Prop :=
  ∀ c ∈ t.conflicts, ∃ id node, ConflictAt t c id node

theorem ConflictAt.mono {c : JoinConflict} {id : NodeId} {node : JoinNode}
    (h : ConflictAt t c id node) (htu : Extends t u) : ∃ node', ConflictAt u c id node' := by
  obtain ⟨more, hmore⟩ := htu id node h.found
  exact ⟨_, hmore, h.path, h.registered, h.requested⟩

namespace WellFormed

variable (h : t.WellFormed)

include h

theorem id_eq_of_key_eq {id id' : NodeId} {node node' : JoinNode} (hnode : t.node? id = some node)
    (hnode' : t.node? id' = some node') (hkey : node.path.key = node'.path.key) : id = id' :=
  h.id_eq_of_names_eq hnode hnode' (key_eq_key_iff.mp hkey)

theorem key_eq_empty_iff_eq_zero {id : NodeId} {node : JoinNode} (hnode : t.node? id = some node) :
    node.path.key = "" ↔ id = 0 := by
  obtain ⟨children, hroot⟩ := h.root
  constructor
  · intro hkey
    exact h.id_eq_of_key_eq hnode hroot hkey
  · rintro rfl
    rw [hroot, Option.some.injEq] at hnode
    rw [← hnode]
    rfl

theorem ne_zero_of_conflictAt {c : JoinConflict} {id : NodeId} {node : JoinNode}
    (hc : ConflictAt t c id node) : id ≠ 0 := by
  rintro rfl
  obtain ⟨children, hroot⟩ := h.root
  have hnode := hc.found
  rw [hroot, Option.some.injEq] at hnode
  have hkind := hc.registered
  rw [← hnode] at hkind
  cases hkind

theorem exists_conflictAt_of_mem_clashes {p : AssociationPath} {c : JoinConflict}
    (hc : c ∈ p.clashes t.kindOf?) : ∃ id node, ConflictAt t c id node := by
  obtain ⟨q, -, hclash⟩ := List.mem_filterMap.mp hc
  obtain ⟨hpath, hregistered, -, hne⟩ := clash?_eq_some_iff.mp hclash
  obtain ⟨node, hfound, hkind⟩ := Option.bind_eq_some_iff.mp hregistered
  obtain ⟨id, hid, hnode⟩ := Option.bind_eq_some_iff.mp hfound
  obtain ⟨other, hother, hnames⟩ := h.index.mp hid
  rw [hnode, Option.some.injEq] at hother
  subst hother
  exact ⟨id, node, hnode, hpath.trans (key_eq_key_iff.mpr hnames.symm), hkind, hne.symm⟩

theorem mem_conflicts_register {policy : ConflictPolicy} {p : AssociationPath} {c : JoinConflict}
    (hc : c ∈ (t.register policy p).1.conflicts) : c ∈ t.conflicts ∨ c ∈ p.clashes t.kindOf? := by
  cases policy with
  | firstWins => rwa [h.conflicts_register_firstWins p, List.mem_append] at hc
  | reject =>
    rw [h.register_reject_eq p] at hc
    split at hc
    · rwa [h.conflicts_register_firstWins p, List.mem_append] at hc
    · exact .inl hc

theorem locatesConflicts_register (ht : t.LocatesConflicts) (policy : ConflictPolicy)
    (p : AssociationPath) : (t.register policy p).1.LocatesConflicts := by
  intro c hc
  have hext := h.extends_register policy p
  rcases h.mem_conflicts_register hc with hold | hnew
  · obtain ⟨id, node, hat⟩ := ht c hold
    exact ⟨id, hat.mono hext⟩
  · obtain ⟨id, node, hat⟩ := h.exists_conflictAt_of_mem_clashes hnew
    exact ⟨id, hat.mono hext⟩

end WellFormed

theorem locatesConflicts_after (calls : List (ConflictPolicy × AssociationPath)) :
    (after calls).LocatesConflicts := by
  induction calls using List.reverseRecOn with
  | nil =>
    intro c hc
    cases hc
  | append_singleton calls call ih =>
    rw [after_concat]
    exact (wellFormed_after calls).locatesConflicts_register ih call.1 call.2

end JoinTree
end QueryCriteria
