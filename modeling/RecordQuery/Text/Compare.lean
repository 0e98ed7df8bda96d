import RecordQuery.Text.Lowercase

/-!
# Order of texts, and texts in texts

Texts are ordered as in a dictionary, character by character and by code point, which is also the
order of their bytes. One text is looked for in another whatever the case of the letters.
-/

namespace RecordQuery

/-- The order of two texts. -/
def Text.compare (s t : String) : Ordering := compareOfLessAndEq s t

/-- Holds if `needle` occurs in a list of characters. -/
def Text.occursIn (needle : List Char) : List Char → Bool
  | [] => needle.isEmpty
  | c :: cs => needle.isPrefixOf (c :: cs) || occursIn needle cs

/-- Holds if a text, made lower-case, has `needle` in it, which is lower-case already. -/
def Text.containsFolded (s needle : String) : Bool :=
  occursIn needle.toList (lowercase s).toList

end RecordQuery
