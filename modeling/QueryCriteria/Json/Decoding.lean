import QueryCriteria.Json.Printer
import QueryCriteria.Json.Reader
import QueryCriteria.Text.Quoted

/-!
# Decoding documents

A decoder turns a document into a value of a type, or says what is wrong with it. Where a document
came from has no influence on what it means. It decides a few corners: how the excess items of an
array are reported, and whether a text that stops being JSON is noticed before its shape is.
-/
namespace QueryCriteria.Json

open Text

/-- Where a document came from. -/
inductive Origin where
  /-- A value that was complete before decoding began. -/
  | value
  /-- A text that is decoded while it is read. -/
  | text
  /-- A member that was set aside until the others of its object were read. -/
  | buffer
  /-- A section of the configuration of the host. -/
  | settings
  deriving DecidableEq

/-- Why a document could not be decoded. -/
inductive DecodeError where
  /-- The text is not a JSON document, or not one that can be read. -/
  | malformed
  | invalidType (found expected : String)
  | invalidValue (found expected : String)
  | invalidLength (length : Nat) (expected : String)
  | missingField (name : String)
  | unknownField (name : String) (expected : List String)
  | duplicateField (name : String)
  | unknownVariant (name : String) (expected : List String)
  /-- The document has the right shape, but its type refuses it for the reason given. -/
  | refused (reason : String)
  deriving DecidableEq

def ticked (name : String) : String := "`" ++ name ++ "`"

def tickedNames : List String → String
  | [] => ""
  | [name] => ticked name
  | name :: rest => ticked name ++ ", " ++ tickedNames rest

/-- What a message says about the names that it expected. -/
def expectedNames : List String → String
  | [] => "there are no names"
  | [name] => "expected " ++ ticked name
  | [first, second] => "expected " ++ ticked first ++ " or " ++ ticked second
  | names => "expected one of " ++ tickedNames names

def DecodeError.message : DecodeError → String
  | malformed => "malformed JSON"
  | invalidType found expected => "invalid type: " ++ found ++ ", expected " ++ expected
  | invalidValue found expected => "invalid value: " ++ found ++ ", expected " ++ expected
  | invalidLength length expected =>
    "invalid length " ++ decimal length ++ ", expected " ++ expected
  | missingField name => "missing field " ++ ticked name
  | unknownField name expected => "unknown field " ++ ticked name ++ ", " ++ expectedNames expected
  | duplicateField name => "duplicate field " ++ ticked name
  | unknownVariant name expected =>
    "unknown variant " ++ ticked name ++ ", " ++ expectedNames expected
  | refused reason => reason

/-- What a message says about a document that was found. -/
def Document.found : Document → String
  | .null => "null"
  | .bool b => "boolean " ++ ticked (if b then "true" else "false")
  | .number (.integer n) => "integer " ++ ticked (signedDecimal n)
  | .number (.float x) => "floating point " ++ ticked (x.text .json)
  | .string s => "string " ++ quoted s
  | .array _ _ => "sequence"
  | .object _ _ => "map"
  | .defect _ => ""

/-- A way to read values of a type from documents. -/
abbrev Decoder (α : Type) : Type := Origin → Document → Except DecodeError α

/-- The error for a document that is not of the expected type. -/
def unexpected {α : Type} (expected : String) : Document → Except DecodeError α
  | .defect _ => .error .malformed
  | d => .error (.invalidType d.found expected)

/-- Decodes a text, which must be a whole document. -/
def decodeText {α : Type} (decode : Decoder α) (text : String) : Except DecodeError α := do
  let read := readText text
  let value ← decode .text read.document
  if read.isWhole then return value else .error .malformed

namespace Decode

variable {α : Type}

def bool : Decoder Bool
  | _, .bool b => .ok b
  | _, d => unexpected "a boolean" d

def string : Decoder String
  | _, .string s => .ok s
  | _, d => unexpected "a string" d

/-- Decodes an integer that a range contains. -/
def integer (expected : String) (least greatest : Int) : Decoder Int
  | _, .number (.integer n) =>
    if least ≤ n ∧ n ≤ greatest then .ok n
    else .error (.invalidValue (Document.found (.int n)) expected)
  | _, d => unexpected expected d

def int32 : Decoder Int32 := fun o d =>
  (integer "i32" Int32.minValue.toInt Int32.maxValue.toInt o d).map Int32.ofInt

/-- Decodes a count, which has at most 64 bits. -/
def count : Decoder Nat := fun o d => (integer "usize" 0 (UInt64.size - 1) o d).map Int.toNat

def value : Decoder Value := fun _ d =>
  match d.toValue? with
  | some v => .ok v
  | none => .error .malformed

/-- Decodes a value that may be absent, which null means too. -/
def optional (decode : Decoder α) : Decoder (Option α)
  | _, .null => .ok none
  | o, d => (decode o d).map some

def items (decode : Decoder α) (o : Origin) : List Document → Except DecodeError (List α)
  | [] => .ok []
  | d :: rest => do
    let first ← decode o d
    let others ← items decode o rest
    return first :: others

def list (decode : Decoder α) : Decoder (List α)
  | o, .array ds ending => do
    let decoded ← items decode o ds
    if ending.isNone then return decoded else .error .malformed
  | _, d => unexpected "a sequence" d

/-- Decodes the value of each member in turn, and keeps repeated keys. -/
def members (decode : Decoder α) (o : Origin) :
    List (String × Document) → Except DecodeError (List (String × α))
  | [] => .ok []
  | (key, d) :: rest => do
    let first ← decode o d
    let others ← members decode o rest
    return (key, first) :: others

def entries (expected : String) (decode : Decoder α) : Decoder (List (String × α))
  | o, .object ms ending => do
    let decoded ← members decode o ms
    if ending.isNone then return decoded else .error .malformed
  | _, d => unexpected expected d

/-- The value that a name stands for. -/
def named (names : List String) (ofName? : String → Option α) (name : String) :
    Except DecodeError α :=
  match ofName? name with
  | some a => .ok a
  | none => .error (.unknownVariant name names)

/-- Accepts what may stand beside a name in an object that has no other member. -/
def emptyPayload (o : Origin) (d : Document) : Except DecodeError Unit :=
  match o, d with
  | _, .null => .ok ()
  | .buffer, .object [] _ => .ok ()
  | _, d => unexpected "unit" d

/-- The member of an object that holds a name. Of several members, settings use the one with the
least key. -/
def nameMember (o : Origin) (ms : List (String × Document)) : Option (String × Document) :=
  match o with
  | .settings => (ms.mergeSort fun a b => decide (a.1 ≤ b.1)).head?
  | _ => ms.head?

/-- Whether an object with these members may stand for a name. A text is checked for it only when
the first member has been decoded. -/
def hasOneMember (o : Origin) (ms : List (String × Document)) : Bool :=
  match o with
  | .value | .buffer => ms.length == 1
  | .text | .settings => true

/-- Decodes one of several names, which is written as a text or as the key of an object that holds
nothing else. -/
def oneOf (names : List String) (ofName? : String → Option α) : Decoder α
  | _, .string s => named names ofName? s
  | o, d@(.object ms ending) =>
    if !hasOneMember o ms then .error (.invalidValue d.found "map with a single key")
    else match nameMember o ms with
      | none => .error .malformed
      | some (name, payload) => do
        let a ← named names ofName? name
        emptyPayload o payload
        if o = .text && !(ending.isNone && ms.length == 1) then .error .malformed
        return a
  | .text, _ => .error .malformed
  | _, d => unexpected "string or map" d

variable {decode : Decoder α} {encode : α → Document} {o : Origin}

@[simp] theorem bool_encode (b : Bool) : bool o (.bool b) = .ok b := rfl

@[simp] theorem string_encode (s : String) : string o (.string s) = .ok s := rfl

theorem items_map {as : List α} (h : ∀ a ∈ as, decode o (encode a) = .ok a) :
    items decode o (as.map encode) = .ok as := by
  induction as with
  | nil => rfl
  | cons a rest ih =>
    simp [items, h a (by simp), ih fun b hb => h b (by simp [hb]), bind, Except.bind, pure,
      Except.pure]

theorem list_map {as : List α} (h : ∀ a ∈ as, decode o (encode a) = .ok a) :
    list decode o (.list (as.map encode)) = .ok as := by
  simp [list, items_map h, bind, Except.bind, pure, Except.pure]

theorem members_map {as : List (String × α)} (h : ∀ a ∈ as, decode o (encode a.2) = .ok a.2) :
    members decode o (as.map fun a => (a.1, encode a.2)) = .ok as := by
  induction as with
  | nil => rfl
  | cons a rest ih =>
    simp [members, h a (by simp), ih fun b hb => h b (by simp [hb]), bind, Except.bind, pure,
      Except.pure]

theorem optional_encode {a : α} (hn : encode a ≠ .null) (h : decode o (encode a) = .ok a) :
    optional decode o (encode a) = .ok (some a) := by
  unfold optional
  split
  · rename_i heq
    exact absurd heq hn
  · simp [h, Except.map]

end Decode
end QueryCriteria.Json
