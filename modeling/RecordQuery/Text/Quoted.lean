import RecordQuery.Number.Hex
import RecordQuery.Text.Extending
import RecordQuery.Text.Unprintable

/-!
# Quoted text

A text between double quotes, on one line and readable. Quotes and backslashes get a backslash, the
common controls get their letter, and characters without a printed form of their own are spelled
out by their code point: those that are unprintable, those that join the character before them, and
the fillers that stand for a missing letter of a Korean syllable.
-/

namespace RecordQuery

/-- Holds of the fillers: letters without a shape. -/
def Text.isFiller (c : Char) : Bool :=
  c = '\u115F' || c = '\u1160' || c = '\u3164' || c = '\uFFA0'

/-- Holds of the two sound marks of halfwidth katakana. They extend the letter before them, but
stand in a column of their own. -/
def Text.isHalfwidthMark (c : Char) : Bool := c = '\uFF9E' || c = '\uFF9F'

/-- Holds of the characters that are spelled out by their code point. -/
def Text.isSpelledOut (c : Char) : Bool :=
  isUnprintable c || isFiller c || (isExtending c && !isHalfwidthMark c)

/-- One character as it stands in quoted text. -/
def Text.quoteChar (c : Char) : List Char :=
  match c with
  | '\x00' => ['\\', '0']
  | '\t' => ['\\', 't']
  | '\n' => ['\\', 'n']
  | '\r' => ['\\', 'r']
  | '"' => ['\\', '"']
  | '\\' => ['\\', '\\']
  | c =>
    if isSpelledOut c then
      ['\\', 'u', '\x7b'] ++ Number.hexDigits c.toNat ++ ['\x7d']
    else [c]

/-- A text between double quotes. -/
def Text.quoted (s : String) : String :=
  String.ofList ('"' :: s.toList.flatMap quoteChar ++ ['"'])

end RecordQuery
