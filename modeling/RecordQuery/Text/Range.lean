/-!
# Blocks of characters

Properties of characters are kept as lists of blocks, each given by its first and last code point.
-/

namespace RecordQuery

/-- Blocks of consecutive code points, each with its first and its last one. -/
abbrev Text.Ranges := List (Nat × Nat)

/-- Holds if one of the blocks has the character. -/
def Text.Ranges.has (ranges : Ranges) (c : Char) : Bool :=
  ranges.any fun block => block.1 ≤ c.toNat && c.toNat ≤ block.2

end RecordQuery
