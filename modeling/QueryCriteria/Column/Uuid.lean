import QueryCriteria.Text.Hexadecimal

/-!
# Universally unique identifiers

An identifier has 128 bits. It is written as 32 hexadecimal digits, with hyphens after the eighth,
twelfth, sixteenth and twentieth. Reading also accepts the digits without hyphens, and the hyphened
form between braces or after the prefix of a resource name.
-/
namespace QueryCriteria

open Text

/-- An identifier of 128 bits. -/
structure Uuid where
  bits : BitVec 128
  deriving DecidableEq

namespace Uuid

def ofDigits? (cs : List Char) : Option Uuid :=
  if cs.length = 32 then (natOfHexDigits? cs).map fun n => ⟨BitVec.ofNat 128 n⟩ else none

/-- The digits of a text that has hyphens in the four places. -/
def withoutHyphens? (cs : List Char) : Option (List Char) :=
  let places := [8, 13, 18, 23]
  if cs.length = 36 && places.all fun i => cs[i]? == some '-' then
    some (cs.take 8 ++ (cs.drop 9).take 4 ++ (cs.drop 14).take 4 ++ (cs.drop 19).take 4 ++
      cs.drop 24)
  else none

def resourcePrefix : List Char := "urn:uuid:".toList

/-- The text inside braces or behind the prefix of a resource name. -/
def unwrapped (cs : List Char) : List Char :=
  if cs.length = 38 && cs.head? == some '{' && cs.getLast? == some '}' then (cs.drop 1).take 36
  else if cs.length = 45 && resourcePrefix.isPrefixOf cs then cs.drop resourcePrefix.length
  else cs

def read? (s : String) : Option Uuid :=
  let cs := s.toList
  if cs.length = 32 then ofDigits? cs
  else (withoutHyphens? (unwrapped cs)).bind ofDigits?

def text (u : Uuid) : String :=
  let digits := paddedHex 32 u.bits.toNat
  String.ofList (digits.take 8 ++ '-' :: (digits.drop 8).take 4 ++ '-' :: (digits.drop 12).take 4 ++
    '-' :: (digits.drop 16).take 4 ++ '-' :: digits.drop 20)

end Uuid
end QueryCriteria
