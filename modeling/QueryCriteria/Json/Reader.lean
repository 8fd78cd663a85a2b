import QueryCriteria.Json.Document
import QueryCriteria.Json.NumberReading
import QueryCriteria.Text.Hexadecimal

/-!
# Reading JSON texts

Reading a text gives its document. Where the text is not JSON, the document ends with a defect, and
nothing after it is read. A part that is JSON but has no value here becomes a defect of its own, and
reading goes on behind it: a number out of range, a string with half a surrogate pair, and a
container inside more than `maxDepth` others. A key that cannot be read ends the members of its
object.

The reader calls itself once for each character at most, so that a bound on the number of calls is
computed from the text.
-/
namespace QueryCriteria.Json

open Text

/-- How many containers may enclose one another. -/
def maxDepth : Nat := 127

/-- The rest of a text after the blanks that JSON allows between its parts. -/
def skipBlanks (cs : List Char) : List Char :=
  cs.dropWhile fun c => c == ' ' || c == '\n' || c == '\t' || c == '\r'

/-- The character that a backslash and the letter write, other than a code. -/
def unescaped? (c : Char) : Option Char :=
  if c == '\"' || c == '\\' || c == '/' then some c
  else if c == 'b' then some (Char.ofNat 8)
  else if c == 'f' then some (Char.ofNat 12)
  else if c == 'n' then some '\n'
  else if c == 'r' then some '\r'
  else if c == 't' then some '\t'
  else none

/-- One unit of a string: a character, or the code unit that four hexadecimal digits write. -/
inductive StringUnit where
  | char (c : Char)
  | code (n : Nat)

/-- The code unit of four hexadecimal digits. -/
def codeUnit? (a b c d : Char) : Option Nat := do
  return ((← hexValue? a) * 16 + (← hexValue? b)) * 256 + ((← hexValue? c) * 16 + (← hexValue? d))

/-- The units up to the closing quote, and the rest of the text behind it. -/
def scanString : List Char → Option (List StringUnit × List Char)
  | [] => none
  | '\"' :: rest => some ([], rest)
  | '\\' :: 'u' :: a :: b :: c :: d :: rest => do
    let code ← codeUnit? a b c d
    let (units, rest) ← scanString rest
    return (.code code :: units, rest)
  | '\\' :: c :: rest => do
    let plain ← unescaped? c
    let (units, rest) ← scanString rest
    return (.char plain :: units, rest)
  | c :: rest => do
    if c == '\\' || c.toNat < 32 then failure
    let (units, rest) ← scanString rest
    return (.char c :: units, rest)

/-- The characters that the units write; a surrogate code unit needs its partner. -/
def charsOfUnits? : List StringUnit → Option (List Char)
  | [] => some []
  | .char c :: rest => (charsOfUnits? rest).map (c :: ·)
  | .code high :: .code low :: rest =>
    if 0xD800 ≤ high && high ≤ 0xDBFF then
      if 0xDC00 ≤ low && low ≤ 0xDFFF then
        (charsOfUnits? rest).map
          (Char.ofNat (0x10000 + (high - 0xD800) * 0x400 + (low - 0xDC00)) :: ·)
      else none
    else if 0xDC00 ≤ high && high ≤ 0xDFFF then none
    else (charsOfUnits? (.code low :: rest)).map (Char.ofNat high :: ·)
  | .code n :: rest =>
    if 0xD800 ≤ n && n ≤ 0xDFFF then none else (charsOfUnits? rest).map (Char.ofNat n :: ·)

def scanDigits (cs : List Char) : Option (List Char × List Char) :=
  let digits := cs.takeWhile Char.isDigit
  if digits.isEmpty then none else some (digits, cs.dropWhile Char.isDigit)

def scanExponent (cs : List Char) : Option (Option (Bool × List Char) × List Char) :=
  match cs with
  | mark :: rest =>
    if mark == 'e' || mark == 'E' then do
      let (negative, rest) := match rest with
        | '+' :: tail => (false, tail)
        | '-' :: tail => (true, tail)
        | _ => (false, rest)
      let (digits, rest) ← scanDigits rest
      return (some (negative, digits), rest)
    else some (none, cs)
  | [] => some (none, [])

/-- A number without its sign. Its whole digits start with zero only if they are one zero. -/
def scanNumber (negative : Bool) (cs : List Char) : Option (NumberLiteral × List Char) := do
  let (whole, rest) ← scanDigits cs
  if whole.head? == some '0' && whole.length != 1 then failure
  match rest with
  | '.' :: tail =>
    let (fraction, rest) ← scanDigits tail
    let (exponent, rest) ← scanExponent rest
    return (⟨negative, whole, some fraction, exponent⟩, rest)
  | _ =>
    let (exponent, rest) ← scanExponent rest
    return (⟨negative, whole, none, exponent⟩, rest)

/-- A part of a text: its document, and the text behind it unless the text broke off. -/
structure Part where
  document : Document
  rest : Option (List Char)

def Part.broken : Part := ⟨.defect .broken, none⟩

/-- The contents of a container, the defect in which they end, and the text behind the closing
bracket. -/
structure Contents (α : Type) where
  entries : List α
  ending : Option Defect
  rest : Option (List Char)

namespace Contents

variable {α : Type}

def closed (entries : List α) (rest : List Char) : Contents α := ⟨entries, none, some rest⟩

def broken (entries : List α) : Contents α := ⟨entries, some .broken, none⟩

def cons (entry : α) (c : Contents α) : Contents α := { c with entries := entry :: c.entries }

/-- The contents behind a key that cannot be read. They can only be passed over. -/
def behindUnreadable (c : Contents α) : Contents α :=
  ⟨[], some (if c.ending = some .broken then .broken else .unreadable), c.rest⟩

end Contents

def readWord (word : String) (document : Document) (cs : List Char) : Part :=
  if word.toList.isPrefixOf cs then ⟨document, some (cs.drop word.length)⟩ else .broken

/-- A number, whose sign has been read. -/
def readNumber (negative : Bool) (cs : List Char) : Part :=
  match scanNumber negative cs with
  | some (literal, rest) =>
    match literal.toNumber? with
    | some n => ⟨.number n, some rest⟩
    | none => ⟨.defect .unreadable, some rest⟩
  | none => .broken

def readString (cs : List Char) : Part :=
  match scanString cs with
  | some (units, rest) =>
    match charsOfUnits? units with
    | some chars => ⟨.string (String.ofList chars), some rest⟩
    | none => ⟨.defect .unreadable, some rest⟩
  | none => .broken

/-- A key, whose opening quote has been read, unless it is half a surrogate pair; and the text
behind it. -/
def readKey (cs : List Char) : Option (Option String × List Char) := do
  let (units, rest) ← scanString cs
  return ((charsOfUnits? units).map String.ofList, rest)

/-- The contents that start with a member, whose key may be unreadable. -/
def Contents.consMember (key : Option String) (value : Document)
    (c : Contents (String × Document)) : Contents (String × Document) :=
  match key with
  | some key => c.cons (key, value)
  | none => c.behindUnreadable

/-- The part that a container makes; one that is closed inside too many others cannot be read. -/
def containerPart (depth : Nat) (document : Document) (rest : Option (List Char)) : Part :=
  if rest.isSome && maxDepth ≤ depth then ⟨.defect .unreadable, rest⟩ else ⟨document, rest⟩

mutual

/-- The part that starts the text, inside `depth` containers. -/
def readPart : Nat → Nat → List Char → Part
  | 0, _, _ => .broken
  | fuel + 1, depth, cs =>
    match skipBlanks cs with
    | 'n' :: rest => readWord "ull" .null rest
    | 't' :: rest => readWord "rue" (.bool true) rest
    | 'f' :: rest => readWord "alse" (.bool false) rest
    | '\"' :: rest => readString rest
    | '-' :: rest => readNumber true rest
    | '[' :: rest =>
      let contents : Contents Document := match skipBlanks rest with
        | ']' :: tail => .closed [] tail
        | tail => readItems fuel (depth + 1) tail
      containerPart depth (.array contents.entries contents.ending) contents.rest
    | '{' :: rest =>
      let contents : Contents (String × Document) := match skipBlanks rest with
        | '}' :: tail => .closed [] tail
        | tail => readMembers fuel (depth + 1) tail
      containerPart depth (.object contents.entries contents.ending) contents.rest
    | c :: rest => if c.isDigit then readNumber false (c :: rest) else .broken
    | [] => .broken

def readItems : Nat → Nat → List Char → Contents Document
  | 0, _, _ => .broken [.defect .broken]
  | fuel + 1, depth, cs =>
    let item := readPart fuel depth cs
    match item.rest.map skipBlanks with
    | some (']' :: rest) => .closed [item.document] rest
    | some (',' :: rest) => (readItems fuel depth rest).cons item.document
    | _ => .broken [item.document]

def readMembers : Nat → Nat → List Char → Contents (String × Document)
  | 0, _, _ => .broken []
  | fuel + 1, depth, cs =>
    match skipBlanks cs with
    | '\"' :: rest =>
      match readKey rest with
      | none => .broken []
      | some (key, rest) =>
        let value := match skipBlanks rest with
          | ':' :: tail => readPart fuel depth tail
          | _ => .broken
        let others : Contents (String × Document) := match value.rest.map skipBlanks with
          | some ('}' :: rest) => .closed [] rest
          | some (',' :: rest) => readMembers fuel depth rest
          | _ => .broken []
        others.consMember key value.document
    | _ => .broken []

end

/-- A text as a document. It is whole when nothing but blanks stands behind the document. -/
structure TextDocument where
  document : Document
  isWhole : Bool

def readText (text : String) : TextDocument :=
  let cs := text.toList
  let part := readPart (2 * cs.length + 2) 0 cs
  ⟨part.document, (part.rest.map skipBlanks) == some []⟩

/-- The value of a text that is a whole document without defects. -/
def valueOfText? (text : String) : Option Value :=
  let read := readText text
  if read.isWhole then read.document.toValue? else none

end QueryCriteria.Json
