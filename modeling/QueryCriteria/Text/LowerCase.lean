import QueryCriteria.Text.CaseTables

/-!
# Lower case

Lower casing maps each character by itself, with two exceptions of the Unicode standard. The capital
I with a dot becomes two characters, and a capital sigma at the end of a word becomes the final
form of the small letter. A sigma ends a word when the nearest character before it that is not
ignorable is a letter with case, and the nearest one after it is not.
-/
namespace QueryCriteria.Text

/-- The capital sigma, the one letter whose small form depends on its neighbours. -/
def capitalSigma : Char := Char.ofNat 0x3A3

/-- The small forms of one character that stands alone. -/
def lowerChar (c : Char) : List Char :=
  if c.toNat == 0x130 then [Char.ofNat 0x69, Char.ofNat 0x307]
  else match caseRuns.findSome? (·.lower? c.toNat) with
    | some code => [Char.ofNat code]
    | none => [c]

/-- Whether the nearest character that is not ignorable is a letter with case. -/
def meetsCased (cs : List Char) : Bool :=
  match cs.dropWhile caseIgnorable.contains with
  | c :: _ => cased.contains c
  | [] => false

/-- Lower casing of `rest`, where `before` holds the characters already passed, nearest first. -/
def lowerChars (before : List Char) : List Char → List Char
  | [] => []
  | c :: rest =>
    let small :=
      if c == capitalSigma then
        if meetsCased before && !meetsCased rest then [Char.ofNat 0x3C2] else [Char.ofNat 0x3C3]
      else lowerChar c
    small ++ lowerChars (c :: before) rest

def lowerCase (s : String) : String := String.ofList (lowerChars [] s.toList)

end QueryCriteria.Text
