import RecordQuery.Number.Digits
import RecordQuery.Query
import RecordQuery.Query.Parameter
import RecordQuery.Text.FormEncoding

/-!
# Queries as query strings

A query is written with the names of its parameters, and read with any of their names. Parameters
that are not known are passed over, and a known one may be given once.
-/

namespace RecordQuery

namespace Query

/-! ### Reading -/

/-- Reads the digits of a number after the number `n`. A character that is no digit is refused
before the number's size is looked at. -/
def readDigits (n : Nat) : List Char → Except ParameterFault Nat
  | [] => .ok n
  | c :: cs =>
    let next := 10 * n + Number.digitValue c
    if !c.isDigit then .error .invalidDigit
    else if Parameter.greatest < next then .error .numberTooLarge
    else readDigits next cs

/-- Reads a number, which may have a plus sign. -/
def readNumber (s : String) : Except ParameterFault Nat :=
  match s.toList with
  | [] => .error .emptyNumber
  | ['+'] => .error .invalidDigit
  | '+' :: cs => readDigits 0 cs
  | cs => readDigits 0 cs

/-- Reads a truth value. -/
def readBool (s : String) : Except ParameterFault Bool :=
  if s = "true" then .ok true
  else if s = "false" then .ok false
  else .error .notBoolean

/-- A query with one more parameter. -/
def withParameter (q : Query) (p : Parameter) (value : String) : Except ParameterFault Query :=
  match p with
  | .filter => .ok { q with filter := some value }
  | .orderBy => .ok { q with orderBy := some value }
  | .skip => do return { q with skip := some (← readNumber value) }
  | .top => do return { q with top := some (← readNumber value) }
  | .count => do return { q with count := ← readBool value }
  | .search => .ok { q with search := some value }

/-- Reads the pairs of a query string after the parameters `seen` have been read. -/
def readPairs (q : Query) (seen : List Parameter) :
    List (String × String) → Except ParameterFault Query
  | [] => .ok q
  | (name, value) :: rest =>
    match Parameter.ofName? name with
    | none => readPairs q seen rest
    | some p =>
      if p ∈ seen then .error (.duplicate p.name)
      else do readPairs (← q.withParameter p value) (p :: seen) rest

/-- The query of a query string. -/
def ofQueryString (s : String) : Except QueryError Query :=
  match readPairs {} [] (FormEncoding.pairs s) with
  | .ok q => .ok q
  | .error fault => .error (.invalidQueryString fault)

/-! ### Writing -/

/-- The parameters that a query has, with their values. It is always written whether to count. -/
def parameters (q : Query) : List (Parameter × String) :=
  List.reduceOption
    [q.filter.map (.filter, ·), q.orderBy.map (.orderBy, ·),
     q.skip.map fun n => (.skip, toString n), q.top.map fun n => (.top, toString n),
     some (.count, if q.count then "true" else "false"), q.search.map (.search, ·)]

/-- The query string of a query. -/
def toQueryString (q : Query) : String :=
  FormEncoding.ofPairs (q.parameters.map fun (p, value) => (p.name, value))

end Query

end RecordQuery
