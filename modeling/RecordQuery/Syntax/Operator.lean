import RecordQuery.Text.Ascii

/-!
# Operators and keywords

The words with a meaning of their own in a filter: comparisons, the two ways to join conditions, and
the two quantifiers over a collection. Their letter case does not matter. None of them is reserved,
so a property may bear any of these names.
-/

namespace RecordQuery

/-- How two values are compared. -/
inductive Comparison where
  | eq
  | ne
  | lt
  | lte
  | gt
  | gte
  deriving DecidableEq

namespace Comparison

/-- The word for a comparison. -/
def text : Comparison → String
  | eq => "eq"
  | ne => "ne"
  | lt => "lt"
  | lte => "lte"
  | gt => "gt"
  | gte => "gte"

/-- The sign for a comparison. -/
def symbol : Comparison → String
  | eq => "=="
  | ne => "!="
  | lt => "<"
  | lte => "<="
  | gt => ">"
  | gte => ">="

/-- Holds of the comparisons that need an order. -/
def isOrdering : Comparison → Bool
  | eq => false
  | ne => false
  | _ => true

/-- Holds if a comparison is true of two values in this order. -/
def holds : Comparison → Ordering → Bool
  | eq, o => o == .eq
  | ne, o => o != .eq
  | lt, o => o == .lt
  | lte, o => o != .gt
  | gt, o => o == .gt
  | gte, o => o != .lt

end Comparison

/-- The operator of a node with two sides. -/
inductive Operator where
  /-- Compares a property with a literal. -/
  | compare (c : Comparison)
  /-- Looks for a text in a property. -/
  | contains
  | and
  | or
  /-- Marks a node whose left side says all, and whose right side means nothing. -/
  | complete
  deriving DecidableEq

namespace Operator

/-- The word for an operator. -/
def text : Operator → String
  | compare c => c.text
  | contains => "contains"
  | and => "and"
  | or => "or"
  | complete => ""

/-- The operators between a property and a literal, with their words. -/
def comparisons : List Operator :=
  [compare .eq, compare .ne, contains, compare .lt, compare .lte, compare .gt, compare .gte]

/-- The operator between a property and a literal that a word names. -/
def ofComparisonWord? (word : String) : Option Operator :=
  comparisons.find? fun op => Text.sameWord op.text word

/-- The operator between conditions that a word names. -/
def ofLogicalWord? (word : String) : Option Operator :=
  [and, or].find? fun op => Text.sameWord op.text word

/-- How tightly an operator binds. -/
def precedence : Operator → Nat
  | and => 2
  | or => 1
  | _ => 0

/-- Holds of the operators that need an order. -/
def isOrdering : Operator → Bool
  | compare c => c.isOrdering
  | _ => false

/-- The comparison that an operator makes. -/
def comparison? : Operator → Option Comparison
  | compare c => some c
  | _ => none

end Operator

/-- Which elements of a collection have to satisfy a condition. -/
inductive Quantifier where
  /-- At least one. -/
  | any
  /-- All, of a collection with at least one. -/
  | all
  deriving DecidableEq

namespace Quantifier

/-- The word for a quantifier. -/
def text : Quantifier → String
  | any => "any"
  | all => "all"

/-- The quantifier that a word names. -/
def ofWord? (word : String) : Option Quantifier :=
  [any, all].find? fun q => Text.sameWord q.text word

end Quantifier

end RecordQuery
