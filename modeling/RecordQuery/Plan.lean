import RecordQuery.Syntax.Operator
import RecordQuery.Value

/-!
# Plans

A filter is run as a plan, in which names have become fields and literals have become values of the
kinds of those fields. A plan is tested with one record. Its tests read from numbered bindings: the
record is bound at slot zero, and each quantified condition binds an element at the next slot while
its body is tested.
-/

namespace RecordQuery

/-! ### Accessors -/

/-- The way from a binding to a value: the slot, and the fields from there on. -/
structure Accessor where
  slot : Nat
  path : List String
  deriving DecidableEq

namespace Accessor

/-- What an accessor reads; what is not there is missing. -/
def read (a : Accessor) (bindings : List Value) : Value :=
  a.path.foldl Value.get (bindings[a.slot]?.getD .null)

/-- An accessor one field longer reads that field of what the shorter one reads. -/
theorem read_push (slot : Nat) (path : List String) (name : String) (bindings : List Value) :
    read ⟨slot, path ++ [name]⟩ bindings = (read ⟨slot, path⟩ bindings).get name := by
  simp [read]

/-- The text of an accessor. -/
def text (a : Accessor) : String :=
  "$" ++ toString a.slot ++ String.join (a.path.map ("." ++ ·))

end Accessor

/-! ### Plans -/

/-- A test of a record. -/
inductive Plan where
  /-- Both tests hold. -/
  | and (left right : Plan)
  /-- At least one of two tests holds. -/
  | or (left right : Plan)
  | isNull (a : Accessor)
  | notNull (a : Accessor)
  /-- A field compares with a value of its kind. -/
  | compare (a : Accessor) (comparison : Comparison) (value : Value)
  /-- The lower-case form of a text has the needle in it. -/
  | contains (a : Accessor) (needle : String)
  /-- The day of a date or of an instant compares with a date. -/
  | compareDate (a : Accessor) (comparison : Comparison) (date : Date)
  /-- Some element of a collection satisfies the body. -/
  | any (collection : Accessor) (body : Plan)
  /-- A collection has elements, and all satisfy the body. -/
  | all (collection : Accessor) (body : Plan)

namespace Plan

/-- A plan that first tests whether some fields are there, the foremost first. -/
def guarded (plan : Plan) (guards : List Accessor) : Plan :=
  guards.foldr (fun guard inner => .and (.notNull guard) inner) plan

/-- A test of the elements of a collection. -/
def quantified (quantifier : Quantifier) (collection : Accessor) (body : Plan) : Plan :=
  match quantifier with
  | .any => .any collection body
  | .all => .all collection body

/-- The day of a value that has one. -/
def dateOf? : Value → Option Date
  | .instant t => some t.date
  | .date d => some d
  | _ => none

/-- Holds if the order of two values, where they have one, is what a comparison asks. -/
def holdsFor (comparison : Comparison) : Option Ordering → Bool
  | some o => comparison.holds o
  | none => false

/-- Holds if the bindings pass a test. -/
def holds : Plan → (bindings : List Value) → Bool
  | and l r, b => l.holds b && r.holds b
  | or l r, b => l.holds b || r.holds b
  | isNull a, b => (a.read b).isNull
  | notNull a, b => !(a.read b).isNull
  | compare a comparison value, b => holdsFor comparison ((a.read b).compare? value)
  | contains a needle, b => (a.read b).string?.any fun s => Text.containsFolded s needle
  | compareDate a comparison date, b =>
    holdsFor comparison ((dateOf? (a.read b)).map (·.compare date))
  | any a body, b =>
    match a.read b with
    | .list items => items.any fun item => body.holds (b ++ [item])
    | _ => false
  | all a body, b =>
    match a.read b with
    | .list items => !items.isEmpty && items.all fun item => body.holds (b ++ [item])
    | _ => false

/-- Holds if a record passes a test. -/
def passes (plan : Plan) (r : Record) : Bool := plan.holds [.record r]

/-- The text of a plan. -/
def text : Plan → String
  | and l r => "(" ++ l.text ++ " && " ++ r.text ++ ")"
  | or l r => "(" ++ l.text ++ " || " ++ r.text ++ ")"
  | isNull a => a.text ++ " == null"
  | notNull a => a.text ++ " != null"
  | compare a comparison value => a.text ++ " " ++ comparison.symbol ++ " " ++ value.text
  | contains a needle => a.text ++ ".contains('" ++ needle ++ "')"
  | compareDate a comparison date => a.text ++ ".date " ++ comparison.symbol ++ " " ++ date.text
  | any a body => a.text ++ ".any(" ++ body.text ++ ")"
  | all a body => a.text ++ ".all(" ++ body.text ++ ")"

end Plan

end RecordQuery
