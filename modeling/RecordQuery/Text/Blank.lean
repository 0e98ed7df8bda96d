import RecordQuery.Text.Range

/-!
# White space

A filter that holds white space alone is empty. White space is meant in the wide sense here, as the
Unicode property *White_Space* lists it; between the tokens of a filter only four of these
characters may stand.
-/

namespace RecordQuery

/-- The blocks of white space, in order. -/
def Text.whiteSpaceRanges : Ranges :=
  [(0x9, 0xD), (0x20, 0x20), (0x85, 0x85), (0xA0, 0xA0), (0x1680, 0x1680), (0x2000, 0x200A),
   (0x2028, 0x2029), (0x202F, 0x202F), (0x205F, 0x205F), (0x3000, 0x3000)]

/-- Holds of a character of white space. -/
def Text.isWhiteSpace (c : Char) : Bool := whiteSpaceRanges.has c

/-- Holds of a text with white space alone. -/
def Text.isBlank (s : String) : Bool := s.toList.all isWhiteSpace

end RecordQuery
