import QueryCriteria.Proofs.Documents.RoundTrip
import QueryCriteria.Proofs.Documents.TransferObject
import QueryCriteria.Proofs.Keyed

/-!
# Sorts that are written and read back

A sort criterion addresses its property by segments, so that it is written with a path and a name
that are accepted again, and with no member that a sort does not have. It is read back from the
document and from the text of the document. As the sort of an entry it is taken for the criterion
that was written, under every property id, and it makes no difference to anything else.
-/
namespace QueryCriteria

open Json

section Texts

/-- A document is read as a value, wherever it comes from, and so is its text. -/
structure IsReadAs {α : Type} (decode : Decoder α) (d : Document) (a : α) : Prop where
  document : ∀ o, decode o d = .ok a
  text : decodeText decode d.text = .ok a

theorem isReadAs_of_isWritable {α : Type} {decode : Decoder α} {d : Document} {a : α}
    (hd : IsWritable 0 d) (h : ∀ o, decode o d = .ok a) : IsReadAs decode d a := by
  refine ⟨h, ?_⟩
  unfold decodeText
  rw [hd.readText]
  dsimp only
  rw [h]
  rfl

theorem encode_ofCriterion (c : SortCriterion) :
    RawSort.format.encode (.ofCriterion c) = .record [
      ("associationPath", c.target.association.encode),
      ("targetPropertyName", .string c.target.property), ("ascending", .bool c.ascending)] := rfl

theorem isWritable_encodeSort (c : SortCriterion) :
    IsWritable 0 (RawSort.format.encode (.ofCriterion c)) := by
  rw [encode_ofCriterion]
  refine .object (by decide) ?_
  simp only [List.forall_mem_cons]
  exact ⟨AssociationPath.isWritable_encode _ (by decide), .string _, .bool _, by simp⟩

end Texts

theorem RawTarget.toPropertyPath_ofPropertyPath (p : PropertyPath) (id : String) :
    (ofPropertyPath p).toPropertyPath id = .ok p :=
  toPropertyPath_eq_ok_iff.mpr (.name rfl)

theorem RawSort.resolve_ofCriterion (c : SortCriterion) (id : String) :
    (ofCriterion c).resolve id = .ok c := by
  refine resolve_eq_ok_iff.mpr ⟨?_, .name rfl, rfl⟩
  simp [ofCriterion, RawTarget.Known, Keyed.keys]

section Replacement

variable {P : Type} {r : Registry P} {id : String} {s : RawSort} {c : SortCriterion}

def RawEntry.withSort (e : RawEntry) (s : Option RawSort) : RawEntry := { e with sort := s }

def Entry.withSort (e : Entry P) (c : Option SortCriterion) : Entry P := { e with sort := c }

def RawTransferObject.withSort (t : RawTransferObject) (id : String) (s : Option RawSort) :
    RawTransferObject :=
  { t with criteria := Keyed.update id (·.withSort s) t.criteria }

/-- The transfer object with another sort for a property id. -/
def TransferObject.withSort (t : TransferObject P) (id : String) (c : Option SortCriterion) :
    TransferObject P :=
  { t with entries := Keyed.update id (·.withSort c) t.entries }

theorem RawEntry.resolve_withSort (e : RawEntry) (h : s.resolve id = .ok c) :
    (e.withSort (some s)).resolve r id =
      ((e.withSort none).resolve r id).map (·.withSort (some c)) := by
  unfold resolve withSort
  dsimp only
  cases resolveFilters r id e.filters with
  | error err => rfl
  | ok filters =>
    simp only [bind, Except.bind, h]
    rfl

theorem RawTransferObject.resolveEntries_withSort (entries : List (String × RawEntry))
    (h : s.resolve id = .ok c) :
    resolveEntries r (Keyed.update id (·.withSort (some s)) entries) =
      (resolveEntries r (Keyed.update id (·.withSort none) entries)).map
        (Keyed.update id (·.withSort (some c))) := by
  induction entries with
  | nil => rfl
  | cons entry rest ih =>
    obtain ⟨key, e⟩ := entry
    have hfirst : (if key = id then e.withSort (some s) else e).resolve r key =
        ((if key = id then e.withSort none else e).resolve r key).map fun first =>
          if key = id then first.withSort (some c) else first := by
      by_cases hkey : key = id
      · subst hkey
        simpa using e.resolve_withSort h
      · simp only [hkey, if_false]
        cases e.resolve r key <;> rfl
    rw [Keyed.update_cons, Keyed.update_cons, resolveEntries, resolveEntries, ih, hfirst]
    cases (if key = id then e.withSort none else e).resolve r key with
    | error err => rfl
    | ok first =>
      cases resolveEntries r (Keyed.update id (·.withSort none) rest) with
      | error err => rfl
      | ok others => simp [Except.map, bind, Except.bind, pure, Except.pure, Keyed.update_cons]

theorem RawTransferObject.propertyIds_withSort (t : RawTransferObject) (s : Option RawSort) :
    (t.withSort id s).propertyIds = t.propertyIds := by
  unfold propertyIds withSort
  dsimp only
  rw [Keyed.keys_update]

/-- A sort that gives a criterion under a property id can be taken out of the document and put back
as the criterion. -/
theorem RawTransferObject.resolve_withSort (t : RawTransferObject) (h : s.resolve id = .ok c) :
    (t.withSort id (some s)).resolve r =
      ((t.withSort id none).resolve r).map (·.withSort id (some c)) := by
  rw [resolve, resolve, propertyIds_withSort, propertyIds_withSort]
  unfold withSort
  dsimp only
  rw [resolveEntries_withSort _ h]
  cases Keyed.firstRepeated? [] t.propertyIds with
  | some key => rfl
  | none =>
    dsimp only
    cases resolveEntries r (Keyed.update id (·.withSort none) t.criteria) with
    | error err => rfl
    | ok entries => rfl

theorem TransferObject.find?_withSort (t : TransferObject P) :
    (t.withSort id (some c)).find? id = (t.find? id).map (·.withSort (some c)) := by
  unfold find? withSort
  dsimp only
  rw [Keyed.lookup_update_self]

/-- The transfer object that a document gives has an entry for each property id of the document,
with the sort of this id. -/
theorem RawTransferObject.exists_find?_withSort {t : RawTransferObject} {u : TransferObject P}
    (hid : id ∈ t.propertyIds) (hs : s.resolve id = .ok c)
    (hu : (t.withSort id (some s)).resolve r = .ok u) :
    ∃ e, u.find? id = some e ∧ e.sort = some c := by
  rw [resolve_withSort t hs] at hu
  obtain ⟨u', hu', rfl⟩ := map_eq_ok_iff.mp hu
  have hids := (resolve_eq_ok_iff.mp hu').2.propertyIds
  rw [propertyIds_withSort] at hids
  cases hfind : u'.find? id with
  | none =>
    have hnot : id ∉ u'.propertyIds := Keyed.lookup_eq_none_iff.mp hfind
    rw [hids] at hnot
    exact absurd hid hnot
  | some e =>
    refine ⟨e.withSort (some c), ?_, rfl⟩
    rw [TransferObject.find?_withSort, hfind, Option.map_some]

end Replacement

/-- A sort criterion survives being written and read, and so do its target and its path. In an entry
of a document it is taken for the criterion itself, and every other part of the document is taken as
if the entry had no sort. -/
theorem sort_survives_round_trip (c : SortCriterion) :
    (∀ id, (RawTarget.ofPropertyPath c.target).toPropertyPath id = .ok c.target) ∧
    IsReadAs AssociationPath.decode c.target.association.encode c.target.association ∧
    IsReadAs RawSort.format.decode (RawSort.format.encode (.ofCriterion c)) (.ofCriterion c) ∧
    (RawSort.ofCriterion c).others = [] ∧
    ∀ (P : Type) (r : Registry P) (t : RawTransferObject) (id : String),
      (t.withSort id (some (.ofCriterion c))).resolve r =
        ((t.withSort id none).resolve r).map (·.withSort id (some c)) ∧
      ∀ u, (t.withSort id (some (.ofCriterion c))).resolve r = .ok u → id ∈ t.propertyIds →
        ∃ e, u.find? id = some e ∧ e.sort = some c := by
  have hregular : (RawSort.ofCriterion c).IsRegular := FlattenedFormat.IsForeign.nil
  refine ⟨RawTarget.toPropertyPath_ofPropertyPath c.target, ?_, ?_, rfl, fun P r t id => ⟨?_, ?_⟩⟩
  · exact isReadAs_of_isWritable (AssociationPath.isWritable_encode _ (by decide)) fun o =>
      AssociationPath.decode_encode o _
  · exact isReadAs_of_isWritable (isWritable_encodeSort c) fun o => hregular.decode_encode
  · exact t.resolve_withSort (RawSort.resolve_ofCriterion c id)
  · intro u hu hid
    exact RawTransferObject.exists_find?_withSort hid (RawSort.resolve_ofCriterion c id) hu

def shelfSerials : SortCriterion :=
  ⟨⟨⟨[⟨"shelf", .full, by decide⟩]⟩, "serial", by decide⟩, false⟩

theorem sort_survives_round_trip_shelfSerials :
    ∃ u, (RawTransferObject.withSort ⟨none, some 5, [("a", .empty), ("b", .empty)]⟩ "b"
        (some (.ofCriterion shelfSerials))).resolve (.empty : Registry Unit) = .ok u ∧
      ∃ e, u.find? "b" = some e ∧ e.sort = some shelfSerials := by
  obtain ⟨-, -, -, -, hplaced⟩ := sort_survives_round_trip shelfSerials
  obtain ⟨hresolve, hfind⟩ := hplaced Unit .empty ⟨none, some 5, [("a", .empty), ("b", .empty)]⟩ "b"
  exact ⟨_, hresolve, hfind _ hresolve (by decide)⟩

example : (RawSort.format.encode (.ofCriterion shelfSerials)).text =
    "\x7b\"associationPath\":[\x7b\"name\":\"shelf\",\"joinKind\":\"full\"\x7d]," ++
      "\"targetPropertyName\":\"serial\",\"ascending\":false\x7d" := rfl

end QueryCriteria
