import RecordQuery.Text.Cased
import RecordQuery.Text.CaseIgnorable
import RecordQuery.Text.LowercaseRun

/-!
# Lower case

Names, search texts and the two sides of `contains` are compared in lower case. Two letters need
more than a partner: the dotted capital `İ` becomes an `i` with a dot above, and a capital sigma
becomes `ς` at the end of a word and `σ` elsewhere. A sigma ends a word if the nearest character
before it, marks passed over, is a letter with a case, and the nearest one after it is not.
-/

namespace RecordQuery

/-- Holds if the first character that is no mark is a cased letter. -/
def Text.startsCased (cs : List Char) : Bool :=
  match cs.dropWhile isCaseIgnorable with
  | c :: _ => isCased c
  | [] => false

/-- The lower-case form of a character between the characters before it, nearest first, and the
characters after it. -/
def Text.lowerAt (before : List Char) (c : Char) (after : List Char) : List Char :=
  if c = 'İ' then ['i', '\u0307']
  else if c = 'Σ' then
    if startsCased before && !startsCased after then ['ς'] else ['σ']
  else [lowerChar c]

/-- The lower-case form of a text that follows the characters `before`, nearest first. -/
def Text.lowerAfter (before : List Char) : List Char → List Char
  | [] => []
  | c :: after => lowerAt before c after ++ lowerAfter (c :: before) after

/-- The lower-case form of a text. -/
def Text.lowercase (s : String) : String := String.ofList (lowerAfter [] s.toList)

end RecordQuery
