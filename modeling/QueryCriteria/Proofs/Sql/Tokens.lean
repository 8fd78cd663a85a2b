import Mathlib.Data.List.Basic
import QueryCriteria.Sql.Fragment

/-!
# Tokens of statements

A database reads the text of a statement as a list of tokens. The reader here knows the tokens of
SQLite that statements are made of, and goes on with a token as long as it can. It refuses any other
character outside quotation marks, and a text that ends inside of them. Fragments are read one by
one if none runs on into the next, and then a name is one token whatever its characters are.
-/
namespace QueryCriteria.Sql

inductive Token where
  | word (text : String)
  | identifier (name : String)
  | literal (text : String)
  | parameter
  | sign (text : String)
  deriving DecidableEq

@[simp] def Token.name? : Token → Option String
  | identifier name => some name
  | _ => none

def namesOf (ts : List Token) : List String := ts.filterMap Token.name?

@[simp] theorem namesOf_nil : namesOf [] = [] := rfl

@[simp] theorem namesOf_append (ts us : List Token) :
    namesOf (ts ++ us) = namesOf ts ++ namesOf us :=
  List.filterMap_append

@[simp] theorem namesOf_cons (t : Token) (ts : List Token) :
    namesOf (t :: ts) = t.name?.toList ++ namesOf ts := by
  unfold namesOf
  rw [List.filterMap_cons]
  cases t.name? <;> rfl

/-- What stands between quotation marks. -/
inductive Quotation where
  | name
  | text
  deriving DecidableEq

def Quotation.mark : Quotation → Char
  | name => '\"'
  | text => '\''

def Quotation.token : Quotation → String → Token
  | name, s => .identifier s
  | text, s => .literal s

/-- The token that is being read. Its characters so far stand in reverse order. -/
inductive Reading where
  | between
  | word (letters : List Char)
  | sign (c : Char)
  | quoted (q : Quotation) (read : List Char)
  /-- After a mark that ends the quotation, unless a second one follows. -/
  | closed (q : Quotation) (read : List Char)
  deriving DecidableEq

namespace Reading

/-- The token that ends here. A quotation without its closing mark does not. -/
def finish : Reading → Option (List Token)
  | between => some []
  | word letters => some [.word (String.ofList letters.reverse)]
  | sign c => some [.sign (String.ofList [c])]
  | quoted .. => none
  | closed q read => some [q.token (String.ofList read.reverse)]

def start (c : Char) : Option (List Token × Reading) :=
  if c = ' ' then some ([], between)
  else if c = '?' then some ([.parameter], between)
  else if c ∈ ['.', ',', '(', ')'] then some ([.sign (String.ofList [c])], between)
  else if c ∈ ['=', '<', '>'] then some ([], sign c)
  else if c = Quotation.name.mark then some ([], quoted .name [])
  else if c = Quotation.text.mark then some ([], quoted .text [])
  else if c.isAlpha then some ([], word [c])
  else none

/-- Ends the token that is being read, and reads a character that does not belong to it. -/
def restart (reading : Reading) (c : Char) : Option (List Token × Reading) := do
  let ended ← reading.finish
  let (ts, next) ← start c
  return (ended ++ ts, next)

/-- Reads a character. The tokens are those that are complete then. -/
def step (reading : Reading) (c : Char) : Option (List Token × Reading) :=
  match reading with
  | between => start c
  | word letters => if c.isAlpha then some ([], word (c :: letters)) else reading.restart c
  | sign first =>
    if (first, c) ∈ [('<', '='), ('<', '>'), ('>', '=')] then
      some ([.sign (String.ofList [first, c])], between)
    else reading.restart c
  | quoted q read => some ([], if c = q.mark then closed q read else quoted q (c :: read))
  | closed q read => if c = q.mark then some ([], quoted q (c :: read)) else reading.restart c

def run : Reading → List Char → Option (List Token × Reading)
  | reading, [] => some ([], reading)
  | reading, c :: cs => do
    let (ts, next) ← reading.step c
    let (us, last) ← next.run cs
    return (ts ++ us, last)

end Reading

def readTokens (text : String) : Option (List Token) := do
  let (ts, last) ← Reading.between.run text.toList
  let ended ← last.finish
  return ts ++ ended

/-- The characters that belong to no token before them. -/
def isDelimiter (c : Char) : Bool := [' ', '.', ',', ')'].contains c

namespace Reading

variable {reading next last : Reading} {ts us ended : List Token} {c : Char} {cs ds : List Char}

theorem run_cons (h : reading.step c = some (ts, next))
    (hcs : next.run cs = some (us, last)) : reading.run (c :: cs) = some (ts ++ us, last) := by
  simp [run, h, hcs]

theorem run_append (h : reading.run cs = some (ts, next))
    (hds : next.run ds = some (us, last)) : reading.run (cs ++ ds) = some (ts ++ us, last) := by
  induction cs generalizing reading ts with
  | nil =>
    simp only [run, Option.some.injEq, Prod.mk.injEq] at h
    obtain ⟨rfl, rfl⟩ := h
    exact hds
  | cons c cs ih =>
    simp only [run, Option.bind_eq_bind, Option.bind_eq_some_iff, Option.pure_def,
      Option.some.injEq] at h
    obtain ⟨⟨first, after⟩, hstep, ⟨rest, _⟩, hrest, heq⟩ := h
    obtain ⟨rfl, rfl⟩ := Prod.mk.inj heq
    rw [List.append_assoc]
    exact run_cons hstep (ih hrest)

theorem run_doubled (q : Quotation) (read cs : List Char) :
    (quoted q read).run (cs.flatMap fun c => if c = q.mark then [c, c] else [c]) =
      some ([], quoted q (cs.reverse ++ read)) := by
  induction cs generalizing read with
  | nil => rfl
  | cons c cs ih =>
    have hfirst : (quoted q read).run (if c = q.mark then [c, c] else [c]) =
        some ([], quoted q (c :: read)) := by
      by_cases hc : c = q.mark <;> simp [run, step, hc]
    rw [List.flatMap_cons, List.reverse_cons, List.append_assoc]
    exact run_append hfirst (ih (c :: read))

theorem run_enclosed (q : Quotation) (s : String) :
    between.run (enclosed q.mark s).toList = some ([], closed q s.toList.reverse) := by
  have hopen : between.run [q.mark] = some ([], quoted q []) := by cases q <;> rfl
  have hclose : (quoted q s.toList.reverse).run [q.mark] =
      some ([], closed q s.toList.reverse) := by
    simp [run, step]
  have hread := run_doubled q [] s.toList
  rw [List.append_nil] at hread
  rw [enclosed, String.toList_ofList]
  exact run_append (run_append hopen hread) hclose

/-- A token outside quotation marks ends before a delimiter. -/
theorem step_of_isDelimiter (hc : isDelimiter c = true) (hended : reading.finish = some ended)
    (hstart : between.step c = some (ts, next)) : reading.step c = some (ended ++ ts, next) := by
  have hrestart : reading.restart c = some (ended ++ ts, next) := by
    have hstart' : start c = some (ts, next) := hstart
    simp [restart, hended, hstart']
  have hcases : c = ' ' ∨ c = '.' ∨ c = ',' ∨ c = ')' := by simpa [isDelimiter] using hc
  -- A delimiter is no letter, no second character of a sign and no quotation mark.
  cases reading with
  | between =>
    cases hended
    exact hstart
  | word letters =>
    have hletter : c.isAlpha = false := by rcases hcases with rfl | rfl | rfl | rfl <;> rfl
    simpa [step, hletter] using hrestart
  | sign first =>
    have hpair : (first, c) ∉ [('<', '='), ('<', '>'), ('>', '=')] := by
      rcases hcases with rfl | rfl | rfl | rfl <;> simp
    simpa [step, hpair] using hrestart
  | quoted q read => cases hended
  | closed q read =>
    have hmark : c ≠ q.mark := by
      cases q <;> rcases hcases with rfl | rfl | rfl | rfl <;> decide
    simpa [step, hmark] using hrestart

theorem run_of_isDelimiter (hc : isDelimiter c = true)
    (hended : reading.finish = some ended) (hrun : between.run (c :: cs) = some (us, last)) :
    reading.run (c :: cs) = some (ended ++ us, last) := by
  simp only [run, Option.bind_eq_bind, Option.bind_eq_some_iff, Option.pure_def,
    Option.some.injEq] at hrun
  obtain ⟨⟨first, after⟩, hstart, ⟨rest, _⟩, hrest, heq⟩ := hrun
  obtain ⟨rfl, rfl⟩ := Prod.mk.inj heq
  rw [← List.append_assoc]
  exact run_cons (step_of_isDelimiter hc hended hstart) hrest

end Reading

theorem readTokens_eq_some_iff {text : String} {tokens : List Token} :
    readTokens text = some tokens ↔
      ∃ ts last ended, Reading.between.run text.toList = some (ts, last) ∧
        last.finish = some ended ∧ ts ++ ended = tokens := by
  simp only [readTokens, Option.bind_eq_bind, Option.bind_eq_some_iff, Option.pure_def,
    Option.some.injEq, Prod.exists, exists_and_left]

def BeginsDelimited (text : String) : Prop := text.toList.head?.any isDelimiter = true

instance (text : String) : Decidable (BeginsDelimited text) :=
  inferInstanceAs (Decidable (_ = true))

/-- Whether the last token of a text ends with it, whatever follows. -/
def EndsComplete (text : String) : Prop :=
  (Reading.between.run text.toList).map Prod.snd = some .between

instance (text : String) : Decidable (EndsComplete text) :=
  inferInstanceAs (Decidable (_ = _))

/-- A text that can stand between two others. -/
structure Separates (text : String) : Prop where
  begins : BeginsDelimited text
  ends : EndsComplete text

instance (text : String) : Decidable (Separates text) :=
  decidable_of_iff (BeginsDelimited text ∧ EndsComplete text)
    ⟨fun h => ⟨h.1, h.2⟩, fun h => ⟨h.begins, h.ends⟩⟩

theorem BeginsDelimited.append {a : String} (h : BeginsDelimited a) (b : String) :
    BeginsDelimited (a ++ b) := by
  obtain ⟨c, hc, hdelimiter⟩ := (Option.any_eq_true _ _).mp h
  refine (Option.any_eq_true _ _).mpr ⟨c, ?_, hdelimiter⟩
  simp [hc]

theorem EndsComplete.exists_run {text : String} (h : EndsComplete text) :
    ∃ ts, Reading.between.run text.toList = some (ts, .between) ∧ readTokens text = some ts := by
  obtain ⟨⟨ts, last⟩, hrun, hlast⟩ := Option.map_eq_some_iff.mp h
  change last = .between at hlast
  rw [hlast] at hrun
  exact ⟨ts, hrun, readTokens_eq_some_iff.mpr ⟨ts, .between, [], hrun, rfl, List.append_nil ts⟩⟩

section Append

variable {a b : String} {ts us : List Token}

theorem readTokens_append_of_endsComplete (ha : EndsComplete a) (hts : readTokens a = some ts)
    (hus : readTokens b = some us) : readTokens (a ++ b) = some (ts ++ us) := by
  obtain ⟨ts', hrun, hts'⟩ := ha.exists_run
  rw [hts, Option.some.injEq] at hts'
  rw [← hts'] at hrun
  obtain ⟨us', last, ended, hrest, hended, rfl⟩ := readTokens_eq_some_iff.mp hus
  rw [readTokens_eq_some_iff, String.toList_append]
  exact ⟨_, last, ended, Reading.run_append hrun hrest, hended, List.append_assoc ..⟩

theorem readTokens_append_of_beginsDelimited (hb : BeginsDelimited b) (hts : readTokens a = some ts)
    (hus : readTokens b = some us) : readTokens (a ++ b) = some (ts ++ us) := by
  obtain ⟨c, hhead, hc⟩ := (Option.any_eq_true _ _).mp hb
  obtain ⟨cs, hchars⟩ := List.head?_eq_some_iff.mp hhead
  obtain ⟨ts', next, ended, hrun, hended, rfl⟩ := readTokens_eq_some_iff.mp hts
  obtain ⟨us', last, ended', hrest, hended', rfl⟩ := readTokens_eq_some_iff.mp hus
  rw [hchars] at hrest
  have hnext := Reading.run_of_isDelimiter hc hended hrest
  rw [readTokens_eq_some_iff, String.toList_append, hchars]
  exact ⟨_, last, ended', Reading.run_append hrun hnext, hended', by simp⟩

end Append

/-! ## Fragments -/

namespace Fragment

def tokens : Fragment → List Token
  | .fixed text => (readTokens text).getD []
  | .identifier name => [.identifier name]
  | .value _ => [.parameter]

@[simp] theorem tokens_identifier (name : String) :
    (Fragment.identifier name).tokens = [.identifier name] := rfl

@[simp] theorem tokens_value (v : ColumnValue) : (Fragment.value v).tokens = [.parameter] := rfl

end Fragment

/-- The tokens of fragments that are read one by one. -/
def tokensOf (fs : List Fragment) : List Token := fs.flatMap Fragment.tokens

@[simp] theorem tokensOf_nil : tokensOf [] = [] := rfl

@[simp] theorem tokensOf_cons (f : Fragment) (fs : List Fragment) :
    tokensOf (f :: fs) = f.tokens ++ tokensOf fs := rfl

@[simp] theorem tokensOf_append (fs gs : List Fragment) :
    tokensOf (fs ++ gs) = tokensOf fs ++ tokensOf gs :=
  List.flatMap_append

/-- The text of fragments is read as their tokens. -/
def Reads (fs : List Fragment) : Prop := readTokens (preparedText fs) = some (tokensOf fs)

/-- No token runs on into the fragments, whatever stands before them outside quotation marks. -/
inductive Continues : List Fragment → Prop
  | nil : Continues []
  | fixed {text : String} {fs : List Fragment} (h : BeginsDelimited text) :
    Continues (.fixed text :: fs)

theorem preparedText_cons (f : Fragment) (fs : List Fragment) :
    preparedText (f :: fs) = f.prepared ++ preparedText fs :=
  String.join_cons

theorem preparedText_append (fs gs : List Fragment) :
    preparedText (fs ++ gs) = preparedText fs ++ preparedText gs := by
  unfold preparedText
  rw [List.map_append, String.join_append]

theorem readTokens_identifierText (name : String) :
    readTokens (identifierText name) = some [.identifier name] := by
  rw [readTokens_eq_some_iff]
  exact ⟨_, _, _, Reading.run_enclosed .name name, rfl, by simp [Quotation.token]⟩

example : readTokens (identifierText "a\" --") = some [.identifier "a\" --"] := by decide

theorem readTokens_prepared {f : Fragment} (h : (readTokens f.prepared).isSome) :
    readTokens f.prepared = some f.tokens := by
  cases f with
  | fixed text =>
    obtain ⟨ts, hts⟩ := Option.isSome_iff_exists.mp h
    have htokens : (Fragment.fixed text).tokens = ts := congrArg (Option.getD · []) hts
    rw [htokens]
    exact hts
  | identifier name => exact readTokens_identifierText name
  | value v =>
    change readTokens "?" = some [.parameter]
    decide

theorem reads_nil : Reads [] := rfl

section Reads

variable {fs gs : List Fragment} {f : Fragment}

theorem reads_singleton (h : (readTokens f.prepared).isSome) : Reads [f] := by
  unfold Reads
  rw [preparedText_cons, tokensOf_cons]
  simpa [preparedText] using readTokens_prepared h

theorem reads_identifier (name : String) : Reads [.identifier name] := by
  have hread : readTokens (Fragment.identifier name).prepared = some [.identifier name] :=
    readTokens_identifierText name
  exact reads_singleton (by rw [hread]; rfl)

theorem Reads.cons (h : EndsComplete f.prepared) (hfs : Reads fs) : Reads (f :: fs) := by
  obtain ⟨ts, -, hts⟩ := h.exists_run
  have hf : readTokens f.prepared = some f.tokens := readTokens_prepared (by rw [hts]; rfl)
  unfold Reads
  rw [preparedText_cons]
  exact readTokens_append_of_endsComplete h hf hfs

theorem Reads.fixed_cons {text : String} (h : EndsComplete text) (hfs : Reads fs) :
    Reads (.fixed text :: fs) :=
  hfs.cons h

theorem Reads.value_cons (v : ColumnValue) (hfs : Reads fs) : Reads (.value v :: fs) := by
  have hcomplete : EndsComplete "?" := by decide
  exact hfs.cons hcomplete

theorem Reads.append (hfs : Reads fs) (hgs : Reads gs) (h : Continues gs) : Reads (fs ++ gs) := by
  cases h with
  | nil =>
    rw [List.append_nil]
    exact hfs
  | @fixed text gs hdelimited =>
    unfold Reads
    rw [preparedText_append, tokensOf_append]
    refine readTokens_append_of_beginsDelimited ?_ hfs hgs
    rw [preparedText_cons]
    exact hdelimited.append _

theorem Reads.identifier_cons (name : String) (hfs : Reads fs) (h : Continues fs) :
    Reads (.identifier name :: fs) :=
  (reads_identifier name).append hfs h

theorem Reads.separated {text : String} (h : Separates text) (hfs : Reads fs) (hgs : Reads gs) :
    Reads (fs ++ .fixed text :: gs) :=
  hfs.append (hgs.fixed_cons h.ends) (.fixed h.begins)

/-- A part is read between parentheses, the first of which may end a longer text. -/
theorem Reads.enclosed {opening : String} (h : EndsComplete opening) (hfs : Reads fs) :
    Reads (.fixed opening :: fs ++ [.fixed ")"]) := by
  have hclosing : Reads [.fixed ")"] := reads_nil.fixed_cons (by decide)
  exact (hfs.append hclosing (.fixed (by decide))).fixed_cons h

theorem reads_separatedBy {separator : String} {parts : List (List Fragment)}
    (hseparator : Separates separator) (h : ∀ part ∈ parts, Reads part) :
    Reads (separatedBy separator parts) := by
  induction parts with
  | nil => exact reads_nil
  | cons part rest ih =>
    have hpart := h part List.mem_cons_self
    have hrest := ih fun part hmem => h part (List.mem_cons_of_mem _ hmem)
    cases rest with
    | nil => exact hpart
    | cons next rest =>
      rw [separatedBy]
      · exact hpart.separated hseparator hrest
      · simp

end Reads
end QueryCriteria.Sql
