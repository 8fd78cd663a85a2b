import QueryCriteria.Text.Printable

/-!
# Quoted text

A text inside a diagnostic message stands between double quotes. The quote and the backslash are
escaped by a backslash, five controls have a letter of their own, and every other character that
would not show is written by its code point in hexadecimal digits.
-/
namespace QueryCriteria.Text

/-- The code point in lower case hexadecimal digits, between `\u` and braces. -/
def escapedCode (c : Char) : List Char :=
  ['\\', 'u', '{'] ++ Nat.toDigits 16 c.toNat ++ ['}']

def quotedChar (c : Char) : List Char :=
  if c == '\"' then ['\\', '\"']
  else if c == '\\' then ['\\', '\\']
  else if c == '\n' then ['\\', 'n']
  else if c == '\r' then ['\\', 'r']
  else if c == '\t' then ['\\', 't']
  else if c == Char.ofNat 0 then ['\\', '0']
  else if graphemeExtenders.contains c || unprintable.contains c then escapedCode c
  else [c]

def quoted (s : String) : String :=
  String.ofList (['\"'] ++ s.toList.flatMap quotedChar ++ ['\"'])

end QueryCriteria.Text
