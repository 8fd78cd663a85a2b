import QueryCriteria.Binary64.Extended
import QueryCriteria.Proofs.Binary64.Overflow
import QueryCriteria.Proofs.Text.Numeral

/-!
# The texts of values that are not finite

A text that is read as a double is a decimal or the name of a value, with at most one sign before
it. Two kinds of texts are read as a value that is no finite double: the names, and the decimals
whose magnitude reaches the bound of overflow. All other texts that are read give finite doubles.
-/
namespace QueryCriteria.Extended

open Text

def IsFinite (v : Extended) : Prop := ∃ x, v = .finite x

def withoutSign : List Char → List Char
  | '-' :: cs => cs
  | '+' :: cs => cs
  | cs => cs

/-- The characters are a name of a value that is not finite, in any letter case. -/
def IsName (cs : List Char) : Prop :=
  String.ofList (cs.map Char.toLower) ∈ ["inf", "infinity", "nan"]

/-- The characters write the power of ten of a decimal: they are none, or a mark and an integer. -/
def WritesPower (cs : List Char) (power : Int) : Prop :=
  cs = [] ∧ power = 0 ∨
    ∃ mark rest, cs = mark :: rest ∧ (mark = 'e' ∨ mark = 'E') ∧ readInt? rest = some power

/-- The characters write the decimal `digits * 10 ^ exponent`: digits, among which there may be one
point, and a power. -/
inductive WritesDecimal : List Char → Nat → Int → Prop
  | whole {whole rest : List Char} {power : Int} (hne : whole ≠ [])
    (hwhole : whole.all Char.isDigit) (hrest : WritesPower rest power) :
    WritesDecimal (whole ++ rest) (natOfDigits whole) power
  | point {whole fraction rest : List Char} {power : Int} (hne : whole ++ fraction ≠ [])
    (hwhole : whole.all Char.isDigit) (hfraction : fraction.all Char.isDigit)
    (hrest : WritesPower rest power) :
    WritesDecimal (whole ++ '.' :: (fraction ++ rest)) (natOfDigits (whole ++ fraction))
      (power - fraction.length)

/-- The text writes a value that is no finite double: a name of one, or a decimal out of range. -/
def WritesNonFinite (s : String) : Prop :=
  let cs := withoutSign s.toList
  IsName cs ∨ ∃ digits exponent, WritesDecimal cs digits exponent ∧
    Binary64.overflowBound * 10 ^ (-exponent).toNat ≤ digits * 10 ^ exponent.toNat

section Reading

variable {negative : Bool} {cs : List Char} {v : Extended}

theorem readExponent?_eq_some_iff {power : Int} :
    readExponent? cs = some power ↔ WritesPower cs power := by
  unfold WritesPower
  cases cs with
  | nil => simp [readExponent?, eq_comm]
  | cons mark rest =>
    rw [readExponent?]
    split
    · rename_i hmark
      simp_all
    · rename_i hmark
      simp_all

theorem WritesPower.not_isDigit_head {power : Int} (h : WritesPower cs power) :
    ∀ c ∈ cs.head?, c.isDigit = false := by
  rcases h with ⟨rfl, -⟩ | ⟨mark, rest, rfl, rfl | rfl, -⟩ <;> simp

theorem readDecimal?_of_writesDecimal {digits : Nat} {exponent : Int}
    (h : WritesDecimal cs digits exponent) :
    readDecimal? negative cs = some (ofDecimal negative digits exponent) := by
  unfold readDecimal?
  dsimp only
  cases h with
  | @whole whole rest power hne hwhole hrest =>
    have hhead := hrest.not_isDigit_head
    have hpower := readExponent?_eq_some_iff.mpr hrest
    have hempty : whole.isEmpty = false := by simpa using hne
    rw [takeWhile_isDigit_append hwhole hhead, dropWhile_isDigit_append hwhole hhead]
    split
    · rename_i tail
      rcases hrest with ⟨hnil, -⟩ | ⟨mark, rest, heq, hmark, -⟩
      · cases hnil
      · cases heq
        simp at hmark
    · simp [hempty, hpower]
  | @point whole fraction rest power hne hwhole hfraction hrest =>
    have hhead := hrest.not_isDigit_head
    have hpower := readExponent?_eq_some_iff.mpr hrest
    have hempty : (whole.isEmpty && fraction.isEmpty) = false := by simpa using hne
    rw [takeWhile_isDigit_append hwhole (by simp), dropWhile_isDigit_append hwhole (by simp)]
    split
    · rename_i tail heq
      cases heq
      rw [takeWhile_isDigit_append hfraction hhead, dropWhile_isDigit_append hfraction hhead]
      simp [hempty, hpower]
    · rename_i hpoint
      exact absurd rfl (hpoint _)

theorem exists_writesDecimal_of_readDecimal? (h : readDecimal? negative cs = some v) :
    ∃ digits exponent, WritesDecimal cs digits exponent ∧
      ofDecimal negative digits exponent = v := by
  unfold readDecimal? at h
  dsimp only at h
  have hwhole : (cs.takeWhile Char.isDigit).all Char.isDigit := List.all_takeWhile
  have hcs : cs.takeWhile Char.isDigit ++ cs.dropWhile Char.isDigit = cs :=
    List.takeWhile_append_dropWhile
  split at h
  · rename_i tail hpoint
    have hfraction : (tail.takeWhile Char.isDigit).all Char.isDigit := List.all_takeWhile
    have htail : tail.takeWhile Char.isDigit ++ tail.dropWhile Char.isDigit = tail :=
      List.takeWhile_append_dropWhile
    split at h
    · cases h
    · rename_i hempty
      obtain ⟨power, hpower, rfl⟩ := Option.map_eq_some_iff.mp h
      have hwrites := WritesDecimal.point (by simpa using hempty) hwhole hfraction
        (readExponent?_eq_some_iff.mp hpower)
      rw [htail, ← hpoint, hcs] at hwrites
      exact ⟨_, _, hwrites, rfl⟩
  · split at h
    · cases h
    · rename_i hempty
      obtain ⟨power, hpower, rfl⟩ := Option.map_eq_some_iff.mp h
      have hwrites := WritesDecimal.whole (by simpa using hempty) hwhole
        (readExponent?_eq_some_iff.mp hpower)
      rw [hcs] at hwrites
      exact ⟨_, _, hwrites, by simp⟩

theorem readDecimal?_eq_some_iff : readDecimal? negative cs = some v ↔
    ∃ digits exponent, WritesDecimal cs digits exponent ∧
      ofDecimal negative digits exponent = v := by
  constructor
  · exact exists_writesDecimal_of_readDecimal?
  · rintro ⟨digits, exponent, hwrites, rfl⟩
    exact readDecimal?_of_writesDecimal hwrites

theorem isFinite_ofDecimal_iff {digits : Nat} {exponent : Int} :
    (ofDecimal negative digits exponent).IsFinite ↔
      ¬ Binary64.overflowBound * 10 ^ (-exponent).toNat ≤ digits * 10 ^ exponent.toNat := by
  rw [← @Binary64.ofDecimal_eq_none_iff negative]
  unfold ofDecimal IsFinite
  cases Binary64.ofDecimal negative digits exponent <;> simp

theorem exists_readUnsigned?_of_isName (h : IsName cs) :
    ∃ v, readUnsigned? negative cs = some v ∧ ¬ v.IsFinite := by
  unfold IsName at h
  unfold readUnsigned?
  dsimp only
  generalize String.ofList (cs.map Char.toLower) = name at h
  simp only [List.mem_cons, List.not_mem_nil, or_false] at h
  rcases h with rfl | rfl | rfl
  · exact ⟨.infinite negative, rfl, by simp [IsFinite]⟩
  · exact ⟨.infinite negative, rfl, by simp [IsFinite]⟩
  · exact ⟨.notANumber, rfl, by simp [IsFinite]⟩

theorem readUnsigned?_of_not_isName (h : ¬ IsName cs) :
    readUnsigned? negative cs = readDecimal? negative cs := by
  unfold IsName at h
  unfold readUnsigned?
  simp_all

theorem read?_eq (s : String) :
    read? s = readUnsigned? (s.toList.head? = some '-') (withoutSign s.toList) := by
  unfold read? withoutSign
  split <;> simp_all [List.head?_eq_some_iff]

end Reading

variable {s : String} {v : Extended}

theorem exists_read?_of_writesNonFinite (h : WritesNonFinite s) : ∃ v, read? s = some v := by
  rw [read?_eq]
  by_cases hname : IsName (withoutSign s.toList)
  · obtain ⟨v, hv, -⟩ := exists_readUnsigned?_of_isName hname
    exact ⟨v, hv⟩
  · rw [readUnsigned?_of_not_isName hname]
    rcases h with h | ⟨digits, exponent, hwrites, -⟩
    · exact absurd h hname
    · exact ⟨_, readDecimal?_of_writesDecimal hwrites⟩

/-- Of the texts that are read, those that write a value that is not finite give one. -/
theorem isFinite_iff_of_read? (h : read? s = some v) : v.IsFinite ↔ ¬ WritesNonFinite s := by
  rw [read?_eq] at h
  unfold WritesNonFinite
  dsimp only
  generalize withoutSign s.toList = cs at h
  by_cases hname : IsName cs
  · obtain ⟨w, hw, hfinite⟩ := exists_readUnsigned?_of_isName hname
    rw [hw] at h
    cases h
    simp [hname, hfinite]
  · rw [readUnsigned?_of_not_isName hname] at h
    obtain ⟨digits, exponent, hwrites, rfl⟩ := readDecimal?_eq_some_iff.mp h
    rw [isFinite_ofDecimal_iff]
    constructor
    · rintro hrange (hname' | ⟨digits', exponent', hwrites', hlarge⟩)
      · exact hname hname'
      · -- The characters are read as one value only.
        have hsame := @readDecimal?_of_writesDecimal (s.toList.head? = some '-') _ _ _ hwrites'
        rw [h, Option.some.injEq] at hsame
        rw [← isFinite_ofDecimal_iff, hsame, isFinite_ofDecimal_iff] at hrange
        exact hrange hlarge
    · intro hnot hlarge
      exact hnot (.inr ⟨digits, exponent, hwrites, hlarge⟩)

end QueryCriteria.Extended
