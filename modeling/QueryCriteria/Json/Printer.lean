import QueryCriteria.Binary64.Layout
import QueryCriteria.Json.Document
import QueryCriteria.Text.Hexadecimal

/-!
# Compact JSON text

A document is written without blanks. In a string the quote, the backslash and the controls are
escaped, five controls by a letter and the others by four hexadecimal digits; every other character
stands for itself.
-/
namespace QueryCriteria.Json

open Text

def escapedChar (c : Char) : List Char :=
  if c == '\"' then ['\\', '\"']
  else if c == '\\' then ['\\', '\\']
  else if c == '\n' then ['\\', 'n']
  else if c == '\r' then ['\\', 'r']
  else if c == '\t' then ['\\', 't']
  else if c.toNat == 8 then ['\\', 'b']
  else if c.toNat == 12 then ['\\', 'f']
  else if c.toNat < 32 then ['\\', 'u'] ++ paddedHex 4 c.toNat
  else [c]

def stringText (s : String) : String :=
  String.ofList (['\"'] ++ s.toList.flatMap escapedChar ++ ['\"'])

def Number.text : Number → String
  | .integer n => signedDecimal n
  | .float x => x.text .json

def commaSeparated : List String → String
  | [] => ""
  | [t] => t
  | t :: rest => t ++ "," ++ commaSeparated rest

mutual

/-- The text of a document; a defect has none. -/
def Document.text : Document → String
  | .null => "null"
  | .bool b => if b then "true" else "false"
  | .number n => n.text
  | .string s => stringText s
  | .array items _ => "[" ++ commaSeparated (Document.itemTexts items) ++ "]"
  | .object members _ => "\x7b" ++ commaSeparated (Document.memberTexts members) ++ "\x7d"
  | .defect _ => ""

def Document.itemTexts : List Document → List String
  | [] => []
  | d :: rest => d.text :: Document.itemTexts rest

def Document.memberTexts : List (String × Document) → List String
  | [] => []
  | (key, d) :: rest => (stringText key ++ ":" ++ d.text) :: Document.memberTexts rest

end

def Value.text (v : Value) : String := (Document.ofValue v).text

end QueryCriteria.Json
