import QueryCriteria.Column.Value

/-!
# SQL fragments

A statement is rendered as a list of fragments: fixed text of the language, names, and bound values.
The fragments give the text with placeholders and the list of its values, and also a text in which
the values stand themselves. Names and values reach a text only in quoted form.
-/
namespace QueryCriteria.Sql

open Text

/-- A piece of a statement. -/
inductive Fragment where
  /-- Text that does not depend on any input. -/
  | fixed (text : String)
  | identifier (name : String)
  | value (v : ColumnValue)
  deriving DecidableEq

/-- Characters between two marks, where a mark inside is written twice. -/
def enclosed (mark : Char) (s : String) : String :=
  String.ofList ([mark] ++ s.toList.flatMap (fun c => if c = mark then [c, c] else [c]) ++ [mark])

def identifierText (name : String) : String := enclosed '\"' name

def stringLiteral (s : String) : String := enclosed '\'' s

def literalText : ColumnValue → String
  | .string s => stringLiteral s
  | .integer n => signedDecimal n
  | .unsigned n => decimal n
  | .double x => x.text
  | .bool b => if b then "TRUE" else "FALSE"
  | .uuid u => stringLiteral u.text
  | .dateTime d => stringLiteral d.microsecondText
  | .date d => stringLiteral d.text
  | .time t => stringLiteral t.microsecondText
  | .decimal x => x.text

/-- The text of a fragment with its value in place. -/
def Fragment.inlined : Fragment → String
  | .fixed text => text
  | .identifier name => identifierText name
  | .value v => literalText v

/-- The text of a fragment with a placeholder for its value. -/
def Fragment.prepared : Fragment → String
  | .value _ => "?"
  | f => f.inlined

def inlinedText (fs : List Fragment) : String := String.join (fs.map Fragment.inlined)

def preparedText (fs : List Fragment) : String := String.join (fs.map Fragment.prepared)

def boundValues (fs : List Fragment) : List ColumnValue :=
  fs.filterMap fun
    | .value v => some v
    | _ => none

/-- The fragments of several parts with a fixed text between any two. -/
def separatedBy (separator : String) : List (List Fragment) → List Fragment
  | [] => []
  | [part] => part
  | part :: rest => part ++ .fixed separator :: separatedBy separator rest

end QueryCriteria.Sql
