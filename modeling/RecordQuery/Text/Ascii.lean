/-!
# Letter case of words

Keywords, operators and the variants of an enumeration are words over the letters a to z, and are
the same word in any case of these letters. Other letters have no case here.
-/

namespace RecordQuery

/-- The letters of a word, those from A to Z made small. -/
def Text.foldCase (s : String) : List Char := s.toList.map Char.toLower

/-- Holds of two words with the same letters in any case. -/
def Text.sameWord (s t : String) : Bool := foldCase s == foldCase t

end RecordQuery
