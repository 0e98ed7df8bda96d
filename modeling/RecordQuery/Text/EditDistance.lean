/-!
# Edit distance

How many single characters have to be inserted, deleted or replaced to turn one text into another.
The distances from every beginning of the second text are kept in one row, and each character of
the first text turns a row into the next.
-/

namespace RecordQuery

/-- The rest of a row of distances, when one more character `c` of the first text is read: `left`
is the entry before it in the new row, and `diagonal` the one before it in the old row. -/
def Text.distanceRow (c : Char) (left diagonal : Nat) : List Char → List Nat → List Nat
  | d :: ds, above :: row =>
    let here := min (min (left + 1) (above + 1)) (diagonal + if c = d then 0 else 1)
    here :: distanceRow c here above ds row
  | _, _ => []

/-- The row after one more character of the first text. -/
def Text.nextDistances (target : List Char) (row : List Nat) (c : Char) : List Nat :=
  match row with
  | first :: rest => (first + 1) :: distanceRow c (first + 1) first target rest
  | [] => []

/-- The least number of insertions, deletions and replacements between two texts. -/
def Text.editDistance (source target : List Char) : Nat :=
  (source.foldl (nextDistances target) (List.range (target.length + 1))).getLastD 0

end RecordQuery
