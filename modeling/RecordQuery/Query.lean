import RecordQuery.Options
import RecordQuery.Plan.Compile
import RecordQuery.Sequence

/-!
# Queries

A query is carried out in fixed steps: filter, search, count, sort, skip, take. A step that the
query does not ask for is left out, and the first fault ends the query. The count is taken before
the page is cut. What has been done to the sequence stays done when a later step fails, so a run
gives back the sequence in either case.
-/

namespace RecordQuery

/-- What is asked of a sequence. -/
structure Query where
  filter : Option String := none
  orderBy : Option String := none
  skip : Option Nat := none
  top : Option Nat := none
  count : Bool := false
  search : Option String := none
  deriving DecidableEq

/-- The answer to a query: the records of the page, and how many there are on all pages. -/
structure Page (σ : Type) where
  value : σ
  count : Option Nat

/-- Turns a search text into a test of records, or refuses it. -/
abbrev SearchBinder (ρ : Type) := String → Option (ρ → Bool)

namespace Query

/-- A step of a query, on a sequence that it may change even if a fault ends it. -/
abbrev Step (σ : Type) := ExceptT QueryError (StateM σ)

variable {σ ρ : Type} [Sequence σ ρ]

/-- A text that says something. -/
def nonempty? (text : Option String) : Option String := text.filter (!·.isEmpty)

/-- A number above zero. -/
def positive? (n : Option Nat) : Option Nat := n.filter (0 < ·)

/-- Refuses a page above the greatest one. -/
def checkTop (q : Query) (o : Options) : Except QueryError Unit :=
  match q.top, o.maxTop with
  | some top, some maxTop => if maxTop < top then .error (.topExceedsMaximum top maxTop) else .ok ()
  | _, _ => .ok ()

/-- The plan of a filter. -/
def planOf (tree : PropertyTree) (limit : Nat) (text : String) : Except QueryError Plan := do
  tree.compile limit (← Expr.ofText text)

/-- Filters, if the query does. -/
def runFilter (q : Query) (tree : PropertyTree) (limit : Nat) : Step σ Unit :=
  match nonempty? q.filter with
  | none => pure ()
  | some text => do
    let plan ← planOf tree limit text
    modify (Sequence.filter plan)

/-- Searches, if the query does and there is a way to bind its text. -/
def runSearch (q : Query) (binder : Option (SearchBinder ρ)) : Step σ Unit :=
  match binder, nonempty? q.search with
  | some bind, some text =>
    match bind text with
    | some test => modify (Sequence.search test)
    | none => throw .searchBinding
  | _, _ => pure ()

/-- Counts, if the query asks for it. -/
def runCount (q : Query) : Step σ (Option Nat) :=
  if q.count then do
    let (n, s) := Sequence.count (← get)
    set s
    return some n
  else return none

/-- Sorts, if the query does. -/
def runSort (q : Query) (tree : PropertyTree) : Step σ Unit :=
  match nonempty? q.orderBy with
  | none => pure ()
  | some text => do
    let order ← SortOrder.ofText tree text
    modify (Sequence.sort order)

/-- Skips the records before the page. -/
def runSkip (q : Query) : Step σ Unit :=
  match positive? q.skip with
  | some n => modify (Sequence.skip n)
  | none => pure ()

/-- Cuts the page: as long as the query asks, or else as long as the greatest page. -/
def runTake (q : Query) (o : Options) : Step σ Unit :=
  match positive? q.top <|> o.maxTop with
  | some n => modify (Sequence.take n)
  | none => pure ()

/-- All steps of a query in their order. They give the number of records on all pages, if the query
asks for it. -/
def run (q : Query) (schema : Schema) (o : Options) (binder : Option (SearchBinder ρ)) :
    Step σ (Option Nat) := do
  q.checkTop o
  o.validate
  let tree ← PropertyTree.build schema schema.root o.depth
  q.runFilter tree o.depth
  q.runSearch binder
  let count ← q.runCount
  q.runSort tree
  q.runSkip
  q.runTake o
  return count

/-- Applies a query to a sequence: the count or the fault, and the sequence that is left. -/
def apply (q : Query) (schema : Schema) (o : Options) (binder : Option (SearchBinder ρ)) (s : σ) :
    Except QueryError (Option Nat) × σ :=
  (q.run schema o binder).run s

/-- The page that a query asks for. -/
def page (q : Query) (schema : Schema) (o : Options) (binder : Option (SearchBinder ρ)) (s : σ) :
    Except QueryError (Page σ) :=
  match q.apply schema o binder s with
  | (.ok count, s) => .ok ⟨s, count⟩
  | (.error e, _) => .error e

end Query

end RecordQuery
