import RecordQuery.Plan.Resolve
import RecordQuery.Syntax.Parser

/-!
# Sort orders

Records are sorted by the values of some of their fields: by the first key, and where it does not
tell two records apart by the next one. What is missing comes before all values, and an order that
descends is the reverse of one that ascends. Sorting keeps the order of records that no key tells
apart.
-/

namespace RecordQuery

/-! ### Keys -/

/-- A field to sort by. -/
structure SortKey where
  accessor : Accessor
  direction : Direction
  deriving DecidableEq

namespace SortKey

/-- The value of a record to sort by. -/
def value (k : SortKey) (r : Record) : Value := k.accessor.read [.record r]

/-- The order of two records by one key. -/
def compare (k : SortKey) (r s : Record) : Ordering :=
  let ascending := (k.value r).sortCompare (k.value s)
  match k.direction with
  | .ascending => ascending
  | .descending => ascending.swap

/-- The text of a key. -/
def text (k : SortKey) : String := k.accessor.text ++ " " ++ k.direction.text

end SortKey

/-- The keys to sort by, the first one foremost. -/
structure SortOrder where
  keys : List SortKey
  deriving DecidableEq

namespace SortOrder

/-- Holds of an order without keys. -/
def isEmpty (o : SortOrder) : Bool := o.keys.isEmpty

/-- The order of two records: that of the first key that tells them apart. -/
def compare (o : SortOrder) (r s : Record) : Ordering :=
  o.keys.foldr (fun k later => (k.compare r s).then later) .eq

/-- The text of an order. -/
def text (o : SortOrder) : String := ", ".intercalate (o.keys.map SortKey.text)

/-! ### From sort terms to keys -/

/-- The key of a sort term; only plain values can be sorted by. -/
def key (t : PropertyTree) (term : SortTerm) : Except QueryError SortKey := do
  let resolved ← t.walk 0 term.path term.path.text
  if resolved.kind.isPrimitive then return ⟨resolved.accessor, term.direction⟩
  else .error (.unsortable resolved.name)

/-- The order of some sort terms. -/
def compile (t : PropertyTree) (terms : List SortTerm) : Except QueryError SortOrder := do
  return ⟨← terms.mapM (key t)⟩

/-- The order that a text asks for. -/
def ofText (t : PropertyTree) (text : String) : Except QueryError SortOrder := do
  compile t (← SortTerm.listOfText text)

end SortOrder

/-! ### Sorting -/

/-- Puts an element before all that are greater, into a list with the greatest first. -/
def Sorting.insertAfter {α : Type} (compare : α → α → Ordering) (x : α) : List α → List α
  | [] => [x]
  | y :: ys => if compare x y = .lt then y :: insertAfter compare x ys else x :: y :: ys

/-- Sorts a list: each element in turn goes behind all those before it that are not greater. -/
def Sorting.sort {α : Type} (compare : α → α → Ordering) (l : List α) : List α :=
  (l.foldl (fun sorted x => insertAfter compare x sorted) []).reverse

end RecordQuery
