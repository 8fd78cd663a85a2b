import QueryCriteria.Proofs.JoinTree.DottedNames
import QueryCriteria.Proofs.Keyed
import QueryCriteria.Sql.Relation

/-!
# The relations of nodes

A schema is built by inserting relations one after another, each for a path that is written as a
dotted text. A node is resolved by the relation that was inserted last for the text of its own path.
Since the texts tell the nodes of a tree apart, a relation for one node is never used for another,
be it the parent, a node of the same association elsewhere or one of a similar name.
-/
namespace QueryCriteria.Sql

namespace RelationMap

/-- The schema after insertions, each of a relation for the text of a path. -/
def afterInserts (rootTable : String) (inserts : List (String × Relation)) : RelationMap :=
  inserts.foldl (fun m entry => m.insert entry.1 entry.2) (ofTable rootTable)

theorem afterInserts_concat (rootTable : String) (inserts : List (String × Relation))
    (entry : String × Relation) :
    afterInserts rootTable (inserts ++ [entry]) =
      (afterInserts rootTable inserts).insert entry.1 entry.2 := by
  simp [afterInserts]

theorem lookup_insert (m : RelationMap) (text other : String) (relation : Relation) :
    (m.insert text relation).relations.lookup other =
      if other = text then some relation else m.relations.lookup other := by
  split
  · rename_i heq
    rw [heq]
    exact Keyed.lookup_insert_self text relation m.relations
  · rename_i hne
    exact Keyed.lookup_insert_of_ne hne relation m.relations

/-- Of the insertions the last one for a text counts, so they are searched from the end. -/
theorem lookup_afterInserts (rootTable text : String) (inserts : List (String × Relation)) :
    (afterInserts rootTable inserts).relations.lookup text = inserts.reverse.lookup text := by
  induction inserts using List.reverseRecOn with
  | nil => rfl
  | append_singleton inserts entry ih =>
    rw [afterInserts_concat, lookup_insert, ih, List.reverse_concat, List.lookup_cons]
    by_cases heq : text = entry.1
    · rw [if_pos heq, beq_iff_eq.mpr heq]
    · rw [if_neg heq, beq_eq_false_iff_ne.mpr heq]

/-- A relation is the last one that was inserted for a text. -/
def IsLast (inserts : List (String × Relation)) (text : String) (relation : Relation) : Prop :=
  ∃ before after, inserts = before ++ (text, relation) :: after ∧ text ∉ Keyed.keys after

section Lookup

variable {rootTable text : String} {inserts : List (String × Relation)} {relation : Relation}

theorem lookup_afterInserts_eq_some_iff :
    (afterInserts rootTable inserts).relations.lookup text = some relation ↔
      IsLast inserts text relation := by
  -- The entries behind the last one for the text are those that a search from the end passes.
  have hkeys (entries : List (String × Relation)) :
      text ∉ Keyed.keys entries ↔ ∀ entry ∈ entries.reverse, text != entry.1 := by
    rw [← Keyed.lookup_eq_none_iff, List.lookup_eq_none_iff]
    simp only [List.mem_reverse]
  rw [lookup_afterInserts, List.lookup_eq_some_iff]
  constructor
  · rintro ⟨later, earlier, hreverse, hlater⟩
    have hinserts : inserts = earlier.reverse ++ (text, relation) :: later.reverse := by
      rw [← List.reverse_reverse inserts, hreverse]
      simp
    refine ⟨earlier.reverse, later.reverse, hinserts, ?_⟩
    rwa [hkeys, List.reverse_reverse]
  · rintro ⟨before, after, rfl, hafter⟩
    exact ⟨after.reverse, before.reverse, by simp, (hkeys after).mp hafter⟩

theorem lookup_afterInserts_middle {other : String} (h : text ≠ other)
    (before after : List (String × Relation)) :
    (afterInserts rootTable (before ++ (other, relation) :: after)).relations.lookup text =
      (afterInserts rootTable (before ++ after)).relations.lookup text := by
  simp only [lookup_afterInserts, List.reverse_append, List.reverse_cons, List.lookup_append,
    List.lookup_cons, beq_eq_false_iff_ne.mpr h, List.lookup_nil, Option.or_none]

end Lookup

section Resolve

variable {node : JoinNode} {tableAlias : String}

/-- A node with an alias is resolved by the relation for the text of its path: its column under the
alias must agree with the column of the parent. -/
theorem resolve_eq_some_iff {m : RelationMap} (halias : node.tableAlias = some tableAlias)
    {parentQualifier : String} {resolved : ResolvedJoin} :
    m.resolve node parentQualifier = some resolved ↔
      ∃ relation, m.relations.lookup node.path.key = some relation ∧
        resolved = ⟨relation.table, .equalColumns ⟨some parentQualifier, relation.parentColumn⟩
          ⟨some tableAlias, relation.column⟩⟩ := by
  unfold resolve
  rw [halias]
  cases m.relations.lookup node.path.key with
  | none => simp
  | some relation => simp [eq_comm]

theorem resolve_congr {m m' : RelationMap}
    (h : m.relations.lookup node.path.key = m'.relations.lookup node.path.key)
    (parentQualifier : String) :
    m.resolve node parentQualifier = m'.resolve node parentQualifier := by
  unfold resolve
  rw [h]

end Resolve

end RelationMap

open RelationMap

/-- After any calls the dotted names of nodes tell them apart, so that a node other than the root is
resolved by the relation that was inserted last for its text, and by no other. A recorded conflict
has the text of one node only, which is joined as the conflict says. -/
theorem dotted_names_identify_nodes (calls : List (ConflictPolicy × AssociationPath)) :
    let t := JoinTree.after calls
    (∀ id id' node node', t.node? id = some node → t.node? id' = some node' → id ≠ id' →
      node.path.key ≠ node'.path.key) ∧
    (∀ id node, t.node? id = some node → (node.path.key = "" ↔ id = 0)) ∧
    (∀ id node, t.node? id = some node → id ≠ 0 →
      ∃ tableAlias, node.tableAlias = some tableAlias ∧
        ∀ rootTable inserts parentQualifier resolved,
          (afterInserts rootTable inserts).resolve node parentQualifier = some resolved ↔
            ∃ relation, IsLast inserts node.path.key relation ∧
              resolved =
                ⟨relation.table, .equalColumns ⟨some parentQualifier, relation.parentColumn⟩
                  ⟨some tableAlias, relation.column⟩⟩) ∧
    (∀ id id' node node', t.node? id = some node → t.node? id' = some node' → id ≠ id' →
      ∀ rootTable before relation after parentQualifier,
        (afterInserts rootTable (before ++ (node'.path.key, relation) :: after)).resolve node
            parentQualifier =
          (afterInserts rootTable (before ++ after)).resolve node parentQualifier) ∧
    (∀ c ∈ t.conflicts, ∃ id node, JoinTree.ConflictAt t c id node ∧ id ≠ 0 ∧
      ∀ id' node', t.node? id' = some node' → node'.path.key = c.path → id' = id) := by
  intro t
  have hwell : t.WellFormed := JoinTree.wellFormed_after calls
  have hapart : ∀ id id' node node', t.node? id = some node → t.node? id' = some node' →
      id ≠ id' → node.path.key ≠ node'.path.key := by
    intro id id' node node' hnode hnode' hne hkey
    exact hne (hwell.id_eq_of_key_eq hnode hnode' hkey)
  refine ⟨hapart, fun id node => hwell.key_eq_empty_iff_eq_zero, ?_, ?_, ?_⟩
  · intro id node hnode hid
    obtain ⟨parent, above, step, -, -, heq⟩ := hwell.child hnode hid
    have halias : node.tableAlias = some (aliasOf step.name id) := by rw [heq]
    refine ⟨_, halias, fun rootTable inserts parentQualifier resolved => ?_⟩
    rw [resolve_eq_some_iff halias]
    simp only [lookup_afterInserts_eq_some_iff]
  · intro id id' node node' hnode hnode' hne rootTable before relation after parentQualifier
    have hkey := hapart id id' node node' hnode hnode' hne
    exact resolve_congr (lookup_afterInserts_middle hkey before after) parentQualifier
  · intro c hc
    obtain ⟨id, node, hat⟩ := JoinTree.locatesConflicts_after calls c hc
    refine ⟨id, node, hat, hwell.ne_zero_of_conflictAt hat, ?_⟩
    intro id' node' hnode' hkey
    exact hwell.id_eq_of_key_eq hnode' hat.found (hkey.trans hat.path)

/-- The relation of a berth is not used for the berth of a port, the last of two relations of a port
counts, and a conflict about ports is not one about berths. -/
example :
    let port : Step := ⟨"port", .inner, by decide⟩
    let berth : Step := ⟨"berth", .leftOuter, by decide⟩
    let t := JoinTree.after [(.firstWins, ⟨[port, berth]⟩), (.firstWins, ⟨[berth]⟩),
      (.firstWins, ⟨[⟨"port", .full, port.isSegment⟩, berth]⟩)]
    let m := afterInserts "ship" [("port", ⟨"town", "town_id", "id"⟩),
      ("port.berth", ⟨"berth", "id", "port_id"⟩), ("berth", ⟨"quay", "quay_id", "id"⟩),
      ("port", ⟨"harbour", "harbour_id", "id"⟩)]
    t.joins.map (fun node => (m.resolve node "ship").map (·.table)) =
      [some "harbour", some "berth", some "quay"] ∧
    t.conflicts = [⟨"port", .inner, .full⟩] := by
  decide

end QueryCriteria.Sql
