import QueryCriteria.Json.Printer
import QueryCriteria.Json.Reader
import QueryCriteria.Proofs.Binary64.Layout

/-!
# Number literals

A number is written as one literal: an integer as its digits, a double with a point or an exponent
mark among them. A literal is scanned as it was written, up to the first character that it cannot go
on with. Which number it stands for is another matter: the digits of a double are read with less
care than they are written.
-/
namespace QueryCriteria.Json

open Text

/-- A number ends before these characters. -/
def EndsNumber (rest : List Char) : Prop :=
  ∀ c ∈ rest.head?, c.isDigit = false ∧ c ≠ '.' ∧ c ≠ 'e' ∧ c ≠ 'E'

def IsDigits (cs : List Char) : Prop := cs ≠ [] ∧ cs.all Char.isDigit

theorem isDigits_toDigits (n : Nat) : IsDigits (Nat.toDigits 10 n) :=
  ⟨Nat.toDigits_ne_nil, all_isDigit_toDigits n⟩

theorem IsDigits.exists_cons {cs : List Char} (h : IsDigits cs) :
    ∃ c rest, cs = c :: rest ∧ c.isDigit := by
  obtain ⟨hne, hall⟩ := h
  obtain ⟨c, rest, rfl⟩ := List.exists_cons_of_ne_nil hne
  rw [List.all_cons, Bool.and_eq_true] at hall
  exact ⟨c, rest, rfl, hall.1⟩

theorem head?_toDigits_ne {n : Nat} (h : n ≠ 0) : (Nat.toDigits 10 n).head? ≠ some '0' := by
  intro hhead
  have hdigits := all_isDigit_toDigits n
  have hvalue : natOfDigits (Nat.toDigits 10 n) = n := (isNumeral_toDigits n).natOfDigits_eq
  obtain ⟨others, hothers⟩ := List.head?_eq_some_iff.mp hhead
  have hsame : natOfDigits others = n := by
    rw [hothers] at hvalue
    simpa [natOfDigits, digitValue] using hvalue
  rw [hothers, List.all_cons, Bool.and_eq_true] at hdigits
  have hne : others ≠ [] := by
    rintro rfl
    exact h hsame.symm
  obtain ⟨zeros, hzeros⟩ := isNumeral_natOfDigits hne hdigits.2
  rw [hsame] at hzeros
  have hlength := congrArg List.length hothers
  rw [hzeros, List.length_cons, List.length_append] at hlength
  omega

namespace NumberLiteral

def fractionChars : Option (List Char) → List Char
  | none => []
  | some digits => '.' :: digits

def exponentChars : Option (Bool × List Char) → List Char
  | none => []
  | some (negative, digits) => 'e' :: (if negative then '-' else '+') :: digits

def chars (l : NumberLiteral) : List Char :=
  l.whole ++ (fractionChars l.fraction ++ exponentChars l.exponent)

/-- A literal that can stand in a text: digits in each of its parts, and no zero in front of other
whole digits. -/
structure IsWellFormed (l : NumberLiteral) : Prop where
  whole : IsDigits l.whole
  leading : l.whole.head? = some '0' → l.whole.length = 1
  fraction : ∀ digits, l.fraction = some digits → IsDigits digits
  exponent : ∀ negative digits, l.exponent = some (negative, digits) → IsDigits digits

end NumberLiteral

section Scanning

open NumberLiteral

variable {rest : List Char}

theorem scanDigits_append {digits : List Char} (h : IsDigits digits)
    (hrest : ∀ c ∈ rest.head?, c.isDigit = false) :
    scanDigits (digits ++ rest) = some (digits, rest) := by
  unfold scanDigits
  rw [takeWhile_isDigit_append h.2 hrest, dropWhile_isDigit_append h.2 hrest]
  simp [h.1]

theorem scanExponent_exponentChars {exponent : Option (Bool × List Char)}
    (h : ∀ negative digits, exponent = some (negative, digits) → IsDigits digits)
    (hrest : EndsNumber rest) :
    scanExponent (exponentChars exponent ++ rest) = some (exponent, rest) := by
  cases exponent with
  | none =>
    cases rest with
    | nil => rfl
    | cons c rest =>
      obtain ⟨-, -, he, hE⟩ := hrest c rfl
      simp [exponentChars, scanExponent, he, hE]
  | some e =>
    obtain ⟨negative, digits⟩ := e
    have hscan := scanDigits_append (h negative digits rfl) fun c hc => (hrest c hc).1
    cases negative <;> simp [exponentChars, scanExponent, hscan]

theorem head?_exponentChars_append (exponent : Option (Bool × List Char))
    (hrest : EndsNumber rest) :
    ∀ c ∈ (exponentChars exponent ++ rest).head?, c.isDigit = false ∧ c ≠ '.' := by
  intro c hc
  cases exponent with
  | none => exact ⟨(hrest c hc).1, (hrest c hc).2.1⟩
  | some e =>
    cases hc
    decide

/-- A literal is scanned in front of any text that it cannot go on with. -/
theorem NumberLiteral.IsWellFormed.scanNumber {l : NumberLiteral} (h : l.IsWellFormed)
    (hrest : EndsNumber rest) : scanNumber l.negative (l.chars ++ rest) = some (l, rest) := by
  obtain ⟨negative, whole, fraction, exponent⟩ := l
  have hzeros : (whole.head? == some '0' && whole.length != 1) = false := by
    by_cases hhead : whole.head? = some '0'
    · simp [h.leading hhead]
    · simp [hhead]
  have hends := head?_exponentChars_append exponent hrest
  have hscan := scanExponent_exponentChars h.exponent hrest
  unfold chars Json.scanNumber
  dsimp only at hscan ⊢
  rw [List.append_assoc, List.append_assoc]
  generalize exponentChars exponent ++ rest = tail at hends hscan ⊢
  cases fraction with
  | none =>
    rw [fractionChars, List.nil_append, scanDigits_append h.whole fun c hc => (hends c hc).1]
    simp only [Option.bind_eq_bind, Option.bind_some, hzeros, Bool.false_eq_true, if_false]
    split
    · exact absurd rfl (hends '.' rfl).2
    · rw [hscan]
      rfl
  | some digits =>
    have hpoint : ∀ c ∈ ('.' :: (digits ++ tail)).head?, c.isDigit = false := by
      rintro c ⟨⟩
      rfl
    rw [fractionChars, List.cons_append, scanDigits_append h.whole hpoint]
    simp only [Option.bind_eq_bind, Option.bind_some, hzeros, Bool.false_eq_true, if_false]
    rw [scanDigits_append (h.fraction digits rfl) fun c hc => (hends c hc).1]
    simp only [Option.bind_some, hscan]
    rfl

end Scanning

section Layouts

open Binary64 NumberLiteral

variable {negative : Bool} {digits whole fraction : List Char} {exponent : Int}

theorem isDigits_append (h : IsDigits digits) {others : List Char}
    (hothers : others.all Char.isDigit) : IsDigits (digits ++ others) := by
  refine ⟨by simp [h.1], ?_⟩
  rw [List.all_append, h.2, hothers]
  rfl

theorem all_isDigit_zeros (n : Nat) : (List.replicate n '0').all Char.isDigit := by
  rw [List.all_replicate]
  simp [show '0'.isDigit = true from rfl]

theorem isDigits_zero : IsDigits ['0'] := ⟨by decide, by decide⟩

theorem isWellFormed_pointed (hwhole : IsDigits whole)
    (hleading : whole.head? = some '0' → whole.length = 1) (hfraction : IsDigits fraction) :
    IsWellFormed ⟨negative, whole, some fraction, none⟩ := by
  refine ⟨hwhole, hleading, ?_, ?_⟩
  · rintro _ ⟨⟩
    exact hfraction
  · rintro _ _ ⟨⟩

theorem exists_chars_eq_plainText (hdigits : IsDigits digits)
    (hleading : digits.head? = some '0' → digits.length = 1 ∧ exponent = 0) :
    ∃ l : NumberLiteral, l.IsWellFormed ∧ l.negative = negative ∧
      l.chars = plainText .json digits exponent := by
  obtain ⟨c, others, rfl, -⟩ := hdigits.exists_cons
  unfold plainText
  split
  · -- The point stands behind the last digit, or behind the zeros that follow it.
    refine ⟨⟨negative, (c :: others) ++ List.replicate exponent.toNat '0', some ['0'], none⟩,
      isWellFormed_pointed (isDigits_append hdigits (all_isDigit_zeros _)) (fun hhead => ?_)
        isDigits_zero, rfl, ?_⟩
    · obtain ⟨hlength, hexponent⟩ := hleading hhead
      simp [hexponent, hlength]
    · simp [chars, fractionChars, exponentChars, Layout.json]
  · dsimp only
    rename_i hexponent
    split
    · -- The point stands among the digits.
      rename_i hplaces
      obtain ⟨count, hcount⟩ : ∃ count, (c :: others).length - (-exponent).toNat = count + 1 :=
        ⟨others.length - (-exponent).toNat, by rw [List.length_cons] at hplaces ⊢; omega⟩
      rw [hcount]
      have hall := hdigits.2
      rw [← List.take_append_drop (count + 1) (c :: others), List.all_append, Bool.and_eq_true]
        at hall
      have hdrop : (c :: others).drop (count + 1) ≠ [] := by
        rw [Ne, List.drop_eq_nil_iff]
        omega
      refine ⟨⟨negative, (c :: others).take (count + 1), some ((c :: others).drop (count + 1)),
        none⟩, isWellFormed_pointed ⟨by simp, hall.1⟩ (fun hhead => ?_) ⟨hdrop, hall.2⟩, rfl, ?_⟩
      · obtain ⟨hlength, hzero⟩ := hleading hhead
        omega
      · simp [chars, fractionChars, exponentChars]
    · -- The digits stand behind the point, with zeros before them.
      let zeros := List.replicate ((-exponent).toNat - (c :: others).length) '0'
      refine ⟨⟨negative, ['0'], some (zeros ++ c :: others), none⟩,
        isWellFormed_pointed isDigits_zero (fun _ => rfl) ⟨by simp, ?_⟩, rfl, ?_⟩
      · rw [List.all_append, all_isDigit_zeros, hdigits.2]
        rfl
      · simp [zeros, chars, fractionChars, exponentChars]

theorem exists_chars_eq_scientificText (hdigits : IsDigits digits) (leading : Int) :
    ∃ l : NumberLiteral, l.IsWellFormed ∧ l.negative = negative ∧
      l.chars = scientificText digits leading := by
  obtain ⟨c, others, rfl, hc⟩ := hdigits.exists_cons
  have hothers := hdigits.2
  rw [List.all_cons, Bool.and_eq_true] at hothers
  refine ⟨⟨negative, [c], if others.isEmpty then none else some others,
    some (decide (leading < 0), Nat.toDigits 10 leading.natAbs)⟩,
    ⟨?_, fun _ => rfl, ?_, ?_⟩, rfl, ?_⟩
  · exact ⟨by simp, by simp [hc]⟩
  · intro fraction hfraction
    obtain ⟨hne, hsome⟩ := Option.ite_none_left_eq_some.mp hfraction
    cases hsome
    exact ⟨by simpa using hne, hothers.2⟩
  · rintro _ _ ⟨⟩
    exact isDigits_toDigits _
  · cases others <;> simp [chars, fractionChars, exponentChars, scientificText]

theorem exists_chars_eq_shortest (x : Binary64) :
    ∃ l : NumberLiteral, l.IsWellFormed ∧ l.negative = x.negative ∧
      l.chars = x.shortest.text .json := by
  have hdigits := isDigits_toDigits x.shortest.digits
  unfold Decimal.text
  dsimp only
  split
  · refine exists_chars_eq_plainText hdigits fun hhead => ?_
    cases hzero : x.isZero with
    | true =>
      rw [shortest, if_pos hzero]
      decide
    | false => exact absurd hhead (head?_toDigits_ne (shortest_digits_ne_zero hzero))
  · exact exists_chars_eq_scientificText hdigits _

end Layouts

section Numbers

open NumberLiteral

def signChars (negative : Bool) : List Char := if negative then ['-'] else []

theorem isWellFormed_integer (i : Int) :
    IsWellFormed ⟨decide (i < 0), Nat.toDigits 10 i.natAbs, none, none⟩ := by
  refine ⟨isDigits_toDigits _, fun hhead => ?_, ?_, ?_⟩
  · by_cases hzero : i.natAbs = 0
    · simp [hzero]
    · exact absurd hhead (head?_toDigits_ne hzero)
  · rintro _ ⟨⟩
  · rintro _ _ ⟨⟩

theorem toList_text_integer (i : Int) : (Number.integer i).text.toList =
    signChars (decide (i < 0)) ++ chars ⟨decide (i < 0), Nat.toDigits 10 i.natAbs, none, none⟩ := by
  rw [Number.text, toList_signedDecimal]
  simp [signChars, chars, fractionChars, exponentChars]

/-- The text of a number is a literal behind its sign. -/
theorem Number.exists_literal (n : Number) :
    ∃ l : NumberLiteral, l.IsWellFormed ∧ n.text.toList = signChars l.negative ++ l.chars := by
  cases n with
  | integer i => exact ⟨_, isWellFormed_integer i, toList_text_integer i⟩
  | float x =>
    obtain ⟨l, hl, hnegative, hchars⟩ := exists_chars_eq_shortest x
    refine ⟨l, hl, ?_⟩
    rw [Number.text, Binary64.text, String.toList_ofList, hnegative, hchars]
    rfl

end Numbers
end QueryCriteria.Json
