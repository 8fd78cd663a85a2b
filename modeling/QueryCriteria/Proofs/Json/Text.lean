import QueryCriteria.Proofs.Json.Document
import QueryCriteria.Proofs.Json.NumberLiteral

/-!
# Reading what was written

The text of a document is read as a document of the same shape. Texts, truth values and the keys of
objects come back as they were. A number comes back as the number that its digits are read as, which
need not be the same double again, since digits are read with less care than they are written. A
container that stands inside too many others cannot be read at all.

So a document is read back from its text exactly if no part of it is a defect, each of its numbers
is read back from the text of the number, and its containers are not nested too deeply. Integers of
64 bits are always read back.
-/
namespace QueryCriteria.Json

open Text

section Strings

/-- A unit of a string that writes a character: the character itself, or its code if this is not
half of a pair. -/
inductive StringUnit.Writes (c : Char) : StringUnit → Prop
  | char : Writes c (.char c)
  | code (h : c.toNat < 0xD800) : Writes c (.code c.toNat)

theorem paddedHex_four {n : Nat} (h : n < 32) :
    paddedHex 4 n = ['0', '0', Nat.digitChar (n / 16), Nat.digitChar (n % 16)] ∧
      codeUnit? '0' '0' (Nat.digitChar (n / 16)) (Nat.digitChar (n % 16)) = some n := by
  have hall : ∀ n < 32,
      paddedHex 4 n = ['0', '0', Nat.digitChar (n / 16), Nat.digitChar (n % 16)] ∧
        codeUnit? '0' '0' (Nat.digitChar (n / 16)) (Nat.digitChar (n % 16)) = some n := by decide
  exact hall n h

theorem scanString_letter {letter c : Char} (hu : letter ≠ 'u') (h : unescaped? letter = some c)
    (rest : List Char) : scanString ('\\' :: letter :: rest) =
      (scanString rest).map fun scanned => (.char c :: scanned.1, scanned.2) := by
  rw [scanString]
  · rw [h]
    cases scanString rest <;> rfl
  · intro a b c d rest' hletter
    exact absurd hletter hu

theorem scanString_plain {c : Char} (hquote : c ≠ '\"') (hescape : c ≠ '\\') (h : 32 ≤ c.toNat)
    (rest : List Char) : scanString (c :: rest) =
      (scanString rest).map fun scanned => (.char c :: scanned.1, scanned.2) := by
  rw [scanString]
  · have hcontrol : ¬ c.toNat < 32 := by omega
    simp only [hescape, hcontrol, beq_iff_eq, decide_eq_true_eq, Bool.or_eq_true, or_self, if_false]
    cases scanString rest <;> rfl
  · exact hquote
  · intro a b c' d rest' heq
    exact absurd heq hescape
  · intro c' rest' heq
    exact absurd heq hescape

/-- How a character stands in a written string: escaped by a letter or by its code, or as it is. -/
inductive WritesChar (c : Char) : List Char → Prop
  | letter {letter : Char} (hu : letter ≠ 'u') (h : unescaped? letter = some c) :
    WritesChar c ['\\', letter]
  | code (h : c.toNat < 32) : WritesChar c ('\\' :: 'u' :: paddedHex 4 c.toNat)
  | plain (hquote : c ≠ '\"') (hescape : c ≠ '\\') (h : 32 ≤ c.toNat) : WritesChar c [c]

theorem writesChar_escapedChar (c : Char) : WritesChar c (escapedChar c) := by
  have hletter {d letter : Char} (hu : letter ≠ 'u') (h : unescaped? letter = some d)
      (hc : c = d) : WritesChar c ['\\', letter] := by
    subst hc
    exact .letter hu h
  have hcode {n : Nat} (h : (c.toNat == n) = true) : c = Char.ofNat n := by
    rw [← beq_iff_eq.mp h, Char.ofNat_toNat]
  unfold escapedChar
  split
  · rename_i h
    exact hletter (by decide) rfl (beq_iff_eq.mp h)
  split
  · rename_i h
    exact hletter (by decide) rfl (beq_iff_eq.mp h)
  split
  · rename_i h
    exact hletter (by decide) rfl (beq_iff_eq.mp h)
  split
  · rename_i h
    exact hletter (by decide) rfl (beq_iff_eq.mp h)
  split
  · rename_i h
    exact hletter (by decide) rfl (beq_iff_eq.mp h)
  split
  · rename_i h
    exact hletter (by decide) rfl (hcode h)
  split
  · rename_i h
    exact hletter (by decide) rfl (hcode h)
  split
  · rename_i hcontrol
    exact .code hcontrol
  · rename_i hquote hescape _ _ _ _ _ hcontrol
    exact .plain (by simpa using hquote) (by simpa using hescape) (Nat.not_lt.mp hcontrol)

theorem WritesChar.scanString_append {c : Char} {cs : List Char} (h : WritesChar c cs) :
    ∃ unit, StringUnit.Writes c unit ∧ ∀ rest, scanString (cs ++ rest) =
      (scanString rest).map fun scanned => (unit :: scanned.1, scanned.2) := by
  cases h with
  | letter hu h => exact ⟨_, .char, scanString_letter hu h⟩
  | code h =>
    obtain ⟨hhex, hcode⟩ := paddedHex_four h
    refine ⟨_, .code (by omega), fun rest => ?_⟩
    rw [hhex]
    simp only [List.cons_append, List.nil_append, scanString, hcode]
    cases scanString rest <;> rfl
  | plain hquote hescape h => exact ⟨_, .char, scanString_plain hquote hescape h⟩

/-- The characters of a written string are scanned up to its closing quote. -/
theorem scanString_written (cs rest : List Char) :
    ∃ units, List.Forall₂ StringUnit.Writes cs units ∧
      scanString (cs.flatMap escapedChar ++ '\"' :: rest) = some (units, rest) := by
  induction cs with
  | nil => exact ⟨[], .nil, rfl⟩
  | cons c cs ih =>
    obtain ⟨units, hunits, hscan⟩ := ih
    obtain ⟨unit, hunit, hfirst⟩ := (writesChar_escapedChar c).scanString_append
    refine ⟨unit :: units, .cons hunit hunits, ?_⟩
    rw [List.flatMap_cons, List.append_assoc, hfirst, hscan]
    rfl

/-- A code that is not half of a pair writes its character, whatever stands behind it. -/
theorem charsOfUnits?_code {n : Nat} (h : n < 0xD800) (units : List StringUnit) :
    charsOfUnits? (.code n :: units) = (charsOfUnits? units).map (Char.ofNat n :: ·) := by
  have hhigh : decide (0xD800 ≤ n) = false := decide_eq_false (by omega)
  have hlow : decide (0xDC00 ≤ n) = false := decide_eq_false (by omega)
  cases units with
  | nil => simp [charsOfUnits?, hhigh]
  | cons unit units =>
    cases unit with
    | char d => simp [charsOfUnits?, hhigh]
    | code low =>
      rw [charsOfUnits?, hhigh, hlow]
      rfl

theorem charsOfUnits?_of_writes {cs : List Char} {units : List StringUnit}
    (h : List.Forall₂ StringUnit.Writes cs units) : charsOfUnits? units = some cs := by
  induction h with
  | nil => rfl
  | cons hfirst _ ih =>
    cases hfirst with
    | char => rw [charsOfUnits?, ih, Option.map_some]
    | code hcode => rw [charsOfUnits?_code hcode, ih, Option.map_some, Char.ofNat_toNat]

theorem readString_written (cs rest : List Char) :
    readString (cs.flatMap escapedChar ++ '\"' :: rest) =
      ⟨.string (String.ofList cs), some rest⟩ := by
  obtain ⟨units, hunits, hscan⟩ := scanString_written cs rest
  rw [readString, hscan]
  simp only [charsOfUnits?_of_writes hunits]

theorem readKey_written (cs rest : List Char) :
    readKey (cs.flatMap escapedChar ++ '\"' :: rest) = some (some (String.ofList cs), rest) := by
  obtain ⟨units, hunits, hscan⟩ := scanString_written cs rest
  rw [readKey, hscan]
  simp [charsOfUnits?_of_writes hunits]

end Strings

section Numbers

variable {rest : List Char}

def NumberLiteral.document (l : NumberLiteral) : Document :=
  match l.toNumber? with
  | some n => .number n
  | none => .defect .unreadable

theorem readNumber_chars {l : NumberLiteral} (h : l.IsWellFormed) (hrest : EndsNumber rest) :
    readNumber l.negative (l.chars ++ rest) = ⟨l.document, some rest⟩ := by
  rw [readNumber, h.scanNumber hrest, NumberLiteral.document]
  dsimp only
  cases l.toNumber? <;> rfl

/-- An integer of 64 bits is exactly what its digits stand for. -/
theorem toNumber?_digits {i : Int} (hmin : Int64.minValue.toInt ≤ i) (hmax : i < UInt64.size) :
    NumberLiteral.toNumber? ⟨decide (i < 0), Nat.toDigits 10 i.natAbs, none, none⟩ =
      some (.integer i) := by
  have hleast : Int64.minValue.toInt = -(Nat.pow 2 63 : Nat) := by decide
  have hgreatest : Nat.pow 2 63 < UInt64.size := by decide
  have hvalue : natOfDigits (Nat.toDigits 10 i.natAbs) = i.natAbs :=
    (isNumeral_toDigits i.natAbs).natOfDigits_eq
  rw [hleast] at hmin
  have hbound : decide (i.natAbs < NumberLiteral.significandBound) = true :=
    decide_eq_true (show i.natAbs < UInt64.size by omega)
  simp only [NumberLiteral.toNumber?, hvalue, hbound, Option.isNone_none, Bool.and_self, if_true]
  by_cases hnegative : i < 0
  · have hpos : decide (0 < i.natAbs) = true := decide_eq_true (by omega)
    have hle : decide (i.natAbs ≤ Nat.pow 2 63) = true := decide_eq_true (by omega)
    have habs : -(i.natAbs : Int) = i := by omega
    simp only [decide_eq_true hnegative, hpos, hle, habs, Bool.not_true, Bool.and_self,
      Bool.false_eq_true, if_true, if_false]
  · have habs : (i.natAbs : Int) = i := by omega
    simp only [decide_eq_false hnegative, habs, Bool.not_false, if_true]

end Numbers

/-- What the text of a number is read as: a number, unless it is out of range. -/
def Number.reread (n : Number) : Document := (readText n.text).document

/-- The text of the number stands for the same number. -/
def Number.IsReadBack (n : Number) : Prop := valueOfText? n.text = some (.number n)

instance (n : Number) : Decidable n.IsReadBack :=
  inferInstanceAs (Decidable (valueOfText? n.text = some (.number n)))

mutual

/-- What the text of a document is read as inside `depth` containers. -/
def Document.reread : Nat → Document → Document
  | _, .null => .null
  | _, .bool b => .bool b
  | _, .number n => n.reread
  | _, .string s => .string s
  | depth, .array items ending =>
    if depth < maxDepth then .array (Document.rereadItems (depth + 1) items) ending
    else .defect .unreadable
  | depth, .object members ending =>
    if depth < maxDepth then .object (Document.rereadMembers (depth + 1) members) ending
    else .defect .unreadable
  | _, .defect d => .defect d

def Document.rereadItems : Nat → List Document → List Document
  | _, [] => []
  | depth, d :: rest => d.reread depth :: Document.rereadItems depth rest

def Document.rereadMembers : Nat → List (String × Document) → List (String × Document)
  | _, [] => []
  | depth, (key, d) :: rest => (key, d.reread depth) :: Document.rereadMembers depth rest

end

/-- A document that is read back from its text, inside `depth` containers. -/
inductive IsWritable : Nat → Document → Prop
  | null {depth : Nat} : IsWritable depth .null
  | bool {depth : Nat} (b : Bool) : IsWritable depth (.bool b)
  | number {depth : Nat} {n : Number} (h : n.IsReadBack) : IsWritable depth (.number n)
  | string {depth : Nat} (s : String) : IsWritable depth (.string s)
  | array {depth : Nat} {items : List Document} (hdepth : depth < maxDepth)
    (hitems : ∀ d ∈ items, IsWritable (depth + 1) d) : IsWritable depth (.list items)
  | object {depth : Nat} {members : List (String × Document)} (hdepth : depth < maxDepth)
    (hmembers : ∀ m ∈ members, IsWritable (depth + 1) m.2) : IsWritable depth (.record members)

/-- A character that begins a part of a text: no blank, and no bracket that ends a container. -/
def BeginsPart (c : Char) : Prop := c ∉ [' ', '\n', '\t', '\r', ']', '\x7d']

instance (c : Char) : Decidable (BeginsPart c) :=
  inferInstanceAs (Decidable (c ∉ [' ', '\n', '\t', '\r', ']', '\x7d']))

section Documents

variable {rest : List Char}

theorem skipBlanks_cons {c : Char} (h : BeginsPart c) (cs : List Char) :
    skipBlanks (c :: cs) = c :: cs := by
  simp only [BeginsPart, List.mem_cons, List.not_mem_nil, or_false, not_or] at h
  simp [skipBlanks, h]

theorem beginsPart_of_isDigit {c : Char} (h : c.isDigit) : BeginsPart c := by
  intro hmem
  simp only [List.mem_cons, List.not_mem_nil, or_false] at hmem
  rcases hmem with rfl | rfl | rfl | rfl | rfl | rfl <;> cases h

theorem readPart_digit {c : Char} (h : c.isDigit) (fuel depth : Nat) (cs : List Char) :
    readPart (fuel + 1) depth (c :: cs) = readNumber false (c :: cs) := by
  rw [readPart, skipBlanks_cons (beginsPart_of_isDigit h)]
  split <;> simp_all

theorem readPart_literal {l : NumberLiteral} (h : l.IsWellFormed) (fuel depth : Nat)
    (hrest : EndsNumber rest) :
    readPart (fuel + 1) depth (signChars l.negative ++ l.chars ++ rest) =
      ⟨l.document, some rest⟩ := by
  have hread := readNumber_chars h hrest
  cases hnegative : l.negative with
  | true =>
    rw [hnegative] at hread
    exact hread
  | false =>
    rw [hnegative] at hread
    obtain ⟨c, others, hwhole, hc⟩ := h.whole.exists_cons
    rw [NumberLiteral.chars, hwhole] at hread ⊢
    exact (readPart_digit hc fuel depth _).trans hread

theorem readText_literal {n : Number} {l : NumberLiteral} (h : l.IsWellFormed)
    (htext : n.text.toList = signChars l.negative ++ l.chars) :
    readText n.text = ⟨l.document, true⟩ := by
  have hread := @readPart_literal [] l h (2 * n.text.toList.length + 1) 0 (by simp [EndsNumber])
  rw [List.append_nil, ← htext] at hread
  unfold readText
  dsimp only
  rw [hread]
  rfl

theorem readText_number (n : Number) : readText n.text = ⟨n.reread, true⟩ := by
  obtain ⟨l, hl, htext⟩ := n.exists_literal
  rw [Number.reread, readText_literal hl htext]

theorem readPart_number (n : Number) (fuel depth : Nat) (hrest : EndsNumber rest) :
    readPart (fuel + 1) depth ((Document.number n).text.toList ++ rest) =
      ⟨n.reread, some rest⟩ := by
  obtain ⟨l, hl, htext⟩ := n.exists_literal
  rw [Number.reread, readText_literal hl htext]
  change readPart _ _ (n.text.toList ++ rest) = _
  rw [htext]
  exact readPart_literal hl fuel depth hrest

theorem Number.reread_cases (n : Number) :
    (∃ m, n.reread = .number m) ∨ n.reread = .defect .unreadable := by
  obtain ⟨l, hl, htext⟩ := n.exists_literal
  rw [Number.reread, readText_literal hl htext]
  unfold NumberLiteral.document
  cases l.toNumber? with
  | none => exact .inr rfl
  | some m => exact .inl ⟨m, rfl⟩

theorem Number.isReadBack_iff {n : Number} : n.IsReadBack ↔ n.reread = .number n := by
  unfold IsReadBack valueOfText?
  rw [readText_number]
  dsimp only
  rw [if_pos rfl]
  rcases n.reread_cases with ⟨m, hm⟩ | hdefect
  · simp [hm, Document.toValue?]
  · simp [hdefect, Document.toValue?]

theorem Number.isReadBack_integer {i : Int} (hmin : Int64.minValue.toInt ≤ i)
    (hmax : i < UInt64.size) : (Number.integer i).IsReadBack := by
  rw [isReadBack_iff, reread, readText_literal (isWellFormed_integer i) (toList_text_integer i)]
  simp only [NumberLiteral.document, toNumber?_digits hmin hmax]

theorem IsWritable.int {depth : Nat} {i : Int} (hmin : Int64.minValue.toInt ≤ i)
    (hmax : i < UInt64.size) : IsWritable depth (.int i) :=
  .number (Number.isReadBack_integer hmin hmax)

theorem toList_stringText (s : String) :
    (stringText s).toList = '\"' :: (s.toList.flatMap escapedChar ++ ['\"']) := by
  simp [stringText]

theorem toList_text_list (items : List Document) : (Document.list items).text.toList =
    '[' :: ((commaSeparated (Document.itemTexts items)).toList ++ [']']) := by
  simp [Document.text]

theorem toList_text_record (members : List (String × Document)) :
    (Document.record members).text.toList =
      '\x7b' :: ((commaSeparated (Document.memberTexts members)).toList ++ ['\x7d']) := by
  simp [Document.text]

theorem exists_text_cons {d : Document} (h : d.toValue?.isSome = true) :
    ∃ c cs, d.text.toList = c :: cs ∧ BeginsPart c := by
  cases d with
  | null => exact ⟨'n', _, rfl, by decide⟩
  | bool b =>
    cases b with
    | false => exact ⟨'f', _, rfl, by decide⟩
    | true => exact ⟨'t', _, rfl, by decide⟩
  | number n =>
    obtain ⟨l, hl, htext⟩ := n.exists_literal
    obtain ⟨c, others, hwhole, hc⟩ := hl.whole.exists_cons
    change ∃ c cs, n.text.toList = c :: cs ∧ BeginsPart c
    rw [htext, NumberLiteral.chars, hwhole]
    cases l.negative with
    | false => exact ⟨c, _, rfl, beginsPart_of_isDigit hc⟩
    | true => exact ⟨'-', _, rfl, by decide⟩
  | string s => exact ⟨'\"', _, toList_stringText s, by decide⟩
  | array items ending =>
    obtain ⟨rfl, -⟩ := Document.toItems?_of_isSome h
    exact ⟨'[', _, toList_text_list items, by decide⟩
  | object members ending =>
    obtain ⟨rfl, -⟩ := Document.toMembers?_of_isSome h
    exact ⟨'\x7b', _, toList_text_record members, by decide⟩
  | defect d => cases h

/-- A document is read as another in front of any text that a number cannot go on with. -/
def ReadsAs (depth : Nat) (d d' : Document) : Prop :=
  ∀ fuel rest, d.text.toList.length ≤ fuel → EndsNumber rest →
    readPart fuel depth (d.text.toList ++ rest) = ⟨d', some rest⟩

/-- A text is not empty, so that a reader makes at least one call. -/
theorem readsAs_of_succ {depth : Nat} {d d' : Document} (h : d.toValue?.isSome = true)
    (hread : ∀ fuel rest, d.text.toList.length ≤ fuel + 1 → EndsNumber rest →
      readPart (fuel + 1) depth (d.text.toList ++ rest) = ⟨d', some rest⟩) :
    ReadsAs depth d d' := by
  intro fuel rest hfuel hrest
  obtain ⟨c, cs, htext, -⟩ := exists_text_cons h
  cases fuel with
  | zero =>
    rw [htext] at hfuel
    cases hfuel
  | succ fuel => exact hread fuel rest hfuel hrest

theorem endsNumber_cons {c : Char} (h : c ∈ [',', ']', '\x7d']) (cs : List Char) :
    EndsNumber (c :: cs) := by
  intro c' hc'
  cases hc'
  simp only [List.mem_cons, List.not_mem_nil, or_false] at h
  rcases h with rfl | rfl | rfl <;> decide

/-- The items of a list are read up to the bracket behind them. -/
theorem readItems_written {depth : Nat} {items items' : List Document} (hne : items ≠ [])
    (h : List.Forall₂ (ReadsAs depth) items items') {fuel : Nat}
    (hfuel : (commaSeparated (Document.itemTexts items)).toList.length < fuel) :
    readItems fuel depth ((commaSeparated (Document.itemTexts items)).toList ++ ']' :: rest) =
      .closed items' rest := by
  induction h generalizing fuel with
  | nil => exact absurd rfl hne
  | @cons d d' items items' hfirst hothers ih =>
    obtain ⟨fuel, rfl⟩ := Nat.exists_eq_succ_of_ne_zero (Nat.ne_zero_of_lt hfuel)
    -- The last item is in front of the bracket, every other one in front of a comma.
    cases hothers with
    | nil =>
      have hread := hfirst fuel (']' :: rest) (Nat.le_of_lt_succ hfuel)
        (endsNumber_cons (by decide) rest)
      simp only [Document.itemTexts, commaSeparated]
      rw [readItems, hread]
      rfl
    | @cons e e' items items' hnext hothers =>
      have htext : (commaSeparated (Document.itemTexts (d :: e :: items))).toList =
          d.text.toList ++ ',' :: (commaSeparated (Document.itemTexts (e :: items))).toList := by
        simp [Document.itemTexts, commaSeparated]
      rw [htext] at hfuel ⊢
      rw [List.length_append, List.length_cons] at hfuel
      have hread := hfirst fuel
        (',' :: ((commaSeparated (Document.itemTexts (e :: items))).toList ++ ']' :: rest))
        (by omega) (endsNumber_cons (by decide) _)
      have hrest := @ih (by simp) fuel (by omega)
      rw [List.append_assoc, List.cons_append, readItems, hread]
      change (readItems fuel depth _).cons d' = _
      rw [hrest]
      rfl

theorem readMembers_member {key : String} {d d' : Document} {fuel depth : Nat} {tail : List Char}
    (hread : readPart fuel depth (d.text.toList ++ tail) = ⟨d', some tail⟩) :
    readMembers (fuel + 1) depth ((stringText key).toList ++ ':' :: (d.text.toList ++ tail)) =
      Contents.cons (key, d') (match skipBlanks tail with
        | '\x7d' :: rest => .closed [] rest
        | ',' :: rest => readMembers fuel depth rest
        | _ => .broken []) := by
  have hkey := readKey_written key.toList (':' :: (d.text.toList ++ tail))
  have hcolon : skipBlanks (':' :: (d.text.toList ++ tail)) = ':' :: (d.text.toList ++ tail) := rfl
  rw [toList_stringText, List.cons_append, List.append_assoc, List.singleton_append, readMembers,
    skipBlanks_cons (by decide)]
  simp only [hkey, hcolon, hread, String.ofList_toList, Option.map_some]
  split <;> simp_all [Contents.consMember]

theorem toList_memberTexts_cons (key : String) (d : Document) (m : String × Document)
    (members : List (String × Document)) :
    (commaSeparated (Document.memberTexts ((key, d) :: m :: members))).toList =
      (stringText key).toList ++ ':' :: (d.text.toList ++
        ',' :: (commaSeparated (Document.memberTexts (m :: members))).toList) := by
  simp [Document.memberTexts, commaSeparated]

theorem readMembers_written {depth : Nat} {members members' : List (String × Document)}
    (hne : members ≠ [])
    (h : List.Forall₂ (fun m m' => m.1 = m'.1 ∧ ReadsAs depth m.2 m'.2) members members')
    {fuel : Nat} (hfuel : (commaSeparated (Document.memberTexts members)).toList.length < fuel) :
    readMembers fuel depth
      ((commaSeparated (Document.memberTexts members)).toList ++ '\x7d' :: rest) =
        .closed members' rest := by
  induction h generalizing fuel with
  | nil => exact absurd rfl hne
  | @cons m m' members members' hfirst hothers ih =>
    obtain ⟨key, d⟩ := m
    obtain ⟨key', d'⟩ := m'
    obtain ⟨hkey, hfirst⟩ := hfirst
    obtain rfl : key = key' := hkey
    obtain ⟨fuel, rfl⟩ := Nat.exists_eq_succ_of_ne_zero (Nat.ne_zero_of_lt hfuel)
    cases hothers with
    | nil =>
      have htext : (commaSeparated (Document.memberTexts [(key, d)])).toList =
          (stringText key).toList ++ ':' :: d.text.toList := by
        simp [Document.memberTexts, commaSeparated]
      rw [htext] at hfuel ⊢
      rw [List.length_append, List.length_cons] at hfuel
      have hlength : d.text.toList.length ≤ fuel := by omega
      have hread := hfirst fuel ('\x7d' :: rest) hlength (endsNumber_cons (by decide) rest)
      rw [List.append_assoc, List.cons_append, readMembers_member hread]
      rfl
    | @cons m m' members members' hnext hothers =>
      rw [toList_memberTexts_cons] at hfuel ⊢
      rw [List.length_append, List.length_cons, List.length_append, List.length_cons] at hfuel
      have hlength : d.text.toList.length ≤ fuel := by omega
      have hread := hfirst fuel
        (',' :: ((commaSeparated (Document.memberTexts (m :: members))).toList ++ '\x7d' :: rest))
        hlength (endsNumber_cons (by decide) _)
      have hrest := @ih (by simp) fuel (by omega)
      rw [List.append_assoc, List.cons_append, List.append_assoc, List.cons_append,
        readMembers_member hread]
      change Contents.cons _ (readMembers fuel depth _) = _
      rw [hrest]
      rfl

theorem containerPart_some (depth : Nat) (d : Document) (rest : List Char) :
    containerPart depth d (some rest) =
      ⟨if depth < maxDepth then d else .defect .unreadable, some rest⟩ := by
  unfold containerPart
  by_cases h : depth < maxDepth
  · simp [h]
  · simp [h, Nat.not_lt.mp h]

theorem readPart_string (s : String) (fuel depth : Nat) :
    readPart (fuel + 1) depth ((Document.string s).text.toList ++ rest) =
      ⟨.string s, some rest⟩ := by
  have hread := readString_written s.toList rest
  rw [String.ofList_toList] at hread
  change readPart _ _ ((stringText s).toList ++ rest) = _
  rw [toList_stringText, List.cons_append, List.append_assoc]
  exact hread

theorem exists_itemTexts_cons {items : List Document} (hne : items ≠ [])
    (hitems : ∀ d ∈ items, d.toValue?.isSome = true) :
    ∃ c cs, (commaSeparated (Document.itemTexts items)).toList = c :: cs ∧ BeginsPart c := by
  cases items with
  | nil => exact absurd rfl hne
  | cons d items =>
    obtain ⟨c, cs, htext, hc⟩ := exists_text_cons (hitems d List.mem_cons_self)
    cases items with
    | nil => exact ⟨c, cs, htext, hc⟩
    | cons d' items =>
      refine ⟨c, cs ++ ',' :: (commaSeparated (Document.itemTexts (d' :: items))).toList, ?_, hc⟩
      rw [← List.cons_append, ← htext]
      simp [Document.itemTexts, commaSeparated]

theorem exists_memberTexts_cons {members : List (String × Document)} (hne : members ≠ []) :
    ∃ cs, (commaSeparated (Document.memberTexts members)).toList = '\"' :: cs := by
  match members with
  | [] => exact absurd rfl hne
  | [(key, d)] =>
    simp [Document.memberTexts, commaSeparated, toList_stringText]
  | (key, d) :: m :: members =>
    rw [toList_memberTexts_cons, toList_stringText]
    exact ⟨_, rfl⟩

theorem readPart_list {depth : Nat} {items items' : List Document}
    (hitems : ∀ d ∈ items, d.toValue?.isSome = true)
    (h : List.Forall₂ (ReadsAs (depth + 1)) items items') {fuel : Nat}
    (hfuel : (Document.list items).text.toList.length ≤ fuel + 1) :
    readPart (fuel + 1) depth ((Document.list items).text.toList ++ rest) =
      ⟨if depth < maxDepth then .list items' else .defect .unreadable, some rest⟩ := by
  rw [toList_text_list] at hfuel ⊢
  rw [List.cons_append, List.append_assoc, List.singleton_append, readPart,
    skipBlanks_cons (by decide), ← containerPart_some]
  by_cases hne : items = []
  · subst hne
    cases h
    rfl
  · rw [List.length_cons, List.length_append, List.length_singleton] at hfuel
    have hcontents := @readItems_written rest _ _ _ hne h fuel (by omega)
    obtain ⟨c, cs, htext, hc⟩ := exists_itemTexts_cons hne hitems
    have hbracket : c ≠ ']' := by
      rintro rfl
      exact hc (by decide)
    rw [htext] at hcontents ⊢
    rw [List.cons_append] at hcontents ⊢
    simp only [skipBlanks_cons hc]
    split
    · rename_i heq
      exact absurd (List.cons.inj heq).1 hbracket
    · rw [hcontents]
      rfl

theorem readPart_record {depth : Nat} {members members' : List (String × Document)}
    (h : List.Forall₂ (fun m m' => m.1 = m'.1 ∧ ReadsAs (depth + 1) m.2 m'.2) members members')
    {fuel : Nat} (hfuel : (Document.record members).text.toList.length ≤ fuel + 1) :
    readPart (fuel + 1) depth ((Document.record members).text.toList ++ rest) =
      ⟨if depth < maxDepth then .record members' else .defect .unreadable, some rest⟩ := by
  rw [toList_text_record] at hfuel ⊢
  rw [List.cons_append, List.append_assoc, List.singleton_append, readPart,
    skipBlanks_cons (by decide), ← containerPart_some]
  by_cases hne : members = []
  · subst hne
    cases h
    rfl
  · rw [List.length_cons, List.length_append, List.length_singleton] at hfuel
    have hcontents := @readMembers_written rest _ _ _ hne h fuel (by omega)
    obtain ⟨cs, htext⟩ := exists_memberTexts_cons hne
    rw [htext] at hcontents ⊢
    rw [List.cons_append] at hcontents ⊢
    simp only [skipBlanks_cons (show BeginsPart '\"' by decide)]
    split
    · rename_i heq
      cases heq
    · rw [hcontents]
      rfl

mutual

/-- A document without defects is read as `reread` says. -/
theorem readsAs_reread : ∀ {depth : Nat} {d : Document}, d.toValue?.isSome = true →
    ReadsAs depth d (d.reread depth)
  | _, .null, h => readsAs_of_succ h fun _ _ _ _ => rfl
  | _, .bool b, h => readsAs_of_succ h fun _ _ _ _ => by cases b <;> rfl
  | depth, .number n, h => readsAs_of_succ h fun fuel _ _ hrest => by
    rw [Document.reread]
    exact readPart_number n fuel depth hrest
  | depth, .string s, h => readsAs_of_succ h fun fuel _ _ _ => readPart_string s fuel depth
  | depth, .array items ending, h => readsAs_of_succ h fun fuel rest hfuel _ => by
    obtain ⟨rfl, hitems⟩ := Document.toItems?_of_isSome h
    rw [Document.isSome_toItems?_iff] at hitems
    rw [Document.reread]
    exact readPart_list hitems (readsAs_rereadItems hitems) hfuel
  | depth, .object members ending, h => readsAs_of_succ h fun fuel rest hfuel _ => by
    obtain ⟨rfl, hmembers⟩ := Document.toMembers?_of_isSome h
    rw [Document.isSome_toMembers?_iff] at hmembers
    rw [Document.reread]
    exact readPart_record (readsAs_rereadMembers hmembers) hfuel
  | _, .defect _, h => by cases h

theorem readsAs_rereadItems : ∀ {depth : Nat} {items : List Document},
    (∀ d ∈ items, d.toValue?.isSome = true) →
      List.Forall₂ (ReadsAs depth) items (Document.rereadItems depth items)
  | _, [], _ => .nil
  | _, _ :: _, h => .cons (readsAs_reread (List.forall_mem_cons.mp h).1)
    (readsAs_rereadItems (List.forall_mem_cons.mp h).2)

theorem readsAs_rereadMembers : ∀ {depth : Nat} {members : List (String × Document)},
    (∀ m ∈ members, m.2.toValue?.isSome = true) →
      List.Forall₂ (fun m m' => m.1 = m'.1 ∧ ReadsAs depth m.2 m'.2) members
        (Document.rereadMembers depth members)
  | _, [], _ => .nil
  | _, (_, _) :: _, h => .cons ⟨rfl, readsAs_reread (List.forall_mem_cons.mp h).1⟩
    (readsAs_rereadMembers (List.forall_mem_cons.mp h).2)

end

/-- The text of a document without defects is read as one document, and nothing stands behind it. -/
theorem readText_text {d : Document} (h : d.toValue?.isSome = true) :
    readText d.text = ⟨d.reread 0, true⟩ := by
  have hread := @readsAs_reread 0 d h (2 * d.text.toList.length + 2) [] (by omega)
    (by simp [EndsNumber])
  rw [List.append_nil] at hread
  unfold readText
  dsimp only
  rw [hread]
  rfl

end Documents

section ReadBack

variable {depth : Nat} {d : Document}

theorem rereadItems_eq_self_iff {items : List Document} :
    Document.rereadItems depth items = items ↔ ∀ d ∈ items, d.reread depth = d := by
  induction items with
  | nil => simp [Document.rereadItems]
  | cons d items ih => rw [Document.rereadItems, List.cons.injEq, ih, List.forall_mem_cons]

theorem rereadMembers_eq_self_iff {members : List (String × Document)} :
    Document.rereadMembers depth members = members ↔ ∀ m ∈ members, m.2.reread depth = m.2 := by
  induction members with
  | nil => simp [Document.rereadMembers]
  | cons m members ih =>
    obtain ⟨key, d⟩ := m
    rw [Document.rereadMembers, List.cons.injEq, ih, List.forall_mem_cons, Prod.mk.injEq]
    simp

theorem reread_list_eq_self_iff {items : List Document} :
    (Document.list items).reread depth = .list items ↔
      depth < maxDepth ∧ ∀ d ∈ items, d.reread (depth + 1) = d := by
  rw [Document.reread, ← rereadItems_eq_self_iff]
  split <;> simp_all

theorem reread_record_eq_self_iff {members : List (String × Document)} :
    (Document.record members).reread depth = .record members ↔
      depth < maxDepth ∧ ∀ m ∈ members, m.2.reread (depth + 1) = m.2 := by
  rw [Document.reread, ← rereadMembers_eq_self_iff]
  split <;> simp_all

theorem IsWritable.isSome_toValue? (h : IsWritable depth d) : d.toValue?.isSome = true := by
  induction h with
  | null | bool | number | string => rfl
  | array _ _ ih => exact Document.isSome_toValue?_list ih
  | object _ _ ih => exact Document.isSome_toValue?_record ih

theorem IsWritable.reread_eq (h : IsWritable depth d) : d.reread depth = d := by
  induction h with
  | null | bool | string => rfl
  | number h => exact Number.isReadBack_iff.mp h
  | array hdepth _ ih => exact reread_list_eq_self_iff.mpr ⟨hdepth, ih⟩
  | object hdepth _ ih => exact reread_record_eq_self_iff.mpr ⟨hdepth, ih⟩

mutual

theorem isWritable_of_reread_eq : ∀ {depth : Nat} {d : Document}, d.toValue?.isSome = true →
    d.reread depth = d → IsWritable depth d
  | _, .null, _, _ => .null
  | _, .bool b, _, _ => .bool b
  | _, .number _, _, h => .number (Number.isReadBack_iff.mpr h)
  | _, .string s, _, _ => .string s
  | _, .array items ending, hsome, h => by
    obtain ⟨rfl, hitems⟩ := Document.toItems?_of_isSome hsome
    obtain ⟨hdepth, h⟩ := reread_list_eq_self_iff.mp h
    exact .array hdepth (isWritable_items (Document.isSome_toItems?_iff.mp hitems) h)
  | _, .object members ending, hsome, h => by
    obtain ⟨rfl, hmembers⟩ := Document.toMembers?_of_isSome hsome
    obtain ⟨hdepth, h⟩ := reread_record_eq_self_iff.mp h
    exact .object hdepth (isWritable_members (Document.isSome_toMembers?_iff.mp hmembers) h)
  | _, .defect _, hsome, _ => by cases hsome

theorem isWritable_items : ∀ {depth : Nat} {items : List Document},
    (∀ d ∈ items, d.toValue?.isSome = true) → (∀ d ∈ items, d.reread depth = d) →
      ∀ d ∈ items, IsWritable depth d
  | _, [], _, _ => by simp
  | _, _ :: _, hsome, h => by
    rw [List.forall_mem_cons] at hsome h ⊢
    exact ⟨isWritable_of_reread_eq hsome.1 h.1, isWritable_items hsome.2 h.2⟩

theorem isWritable_members : ∀ {depth : Nat} {members : List (String × Document)},
    (∀ m ∈ members, m.2.toValue?.isSome = true) → (∀ m ∈ members, m.2.reread depth = m.2) →
      ∀ m ∈ members, IsWritable depth m.2
  | _, [], _, _ => by simp
  | _, (_, _) :: _, hsome, h => by
    rw [List.forall_mem_cons] at hsome h ⊢
    exact ⟨isWritable_of_reread_eq hsome.1 h.1, isWritable_members hsome.2 h.2⟩

end

theorem isWritable_iff_reread_eq (h : d.toValue?.isSome = true) :
    IsWritable depth d ↔ d.reread depth = d :=
  ⟨IsWritable.reread_eq, isWritable_of_reread_eq h⟩

theorem IsWritable.readText {d : Document} (h : IsWritable 0 d) : readText d.text = ⟨d, true⟩ := by
  rw [readText_text h.isSome_toValue?, h.reread_eq]

end ReadBack
end QueryCriteria.Json
