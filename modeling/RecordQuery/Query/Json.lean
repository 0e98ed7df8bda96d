import RecordQuery.Json.Reader
import RecordQuery.Number.Digits
import RecordQuery.Query
import RecordQuery.Query.Parameter

/-!
# Queries from JSON

A query is read from an object with its parameters as members, under any of their names and each at
most once, or from an array with the values of its parameters in their order, of which the last ones
may be missing. Null stands for a parameter that is not there, but not for whether to count.
-/

namespace RecordQuery

namespace Query

/-- Reads a value that may be null. -/
def jsonOptional? {α : Type} (read : JsonValue → Option α) : JsonValue → Option (Option α)
  | .null => some none
  | v => (read v).map some

/-- Reads a string with a text. -/
def jsonString? : JsonValue → Option String
  | .string text => text
  | _ => none

/-- Reads a whole number without sign, fraction and exponent. -/
def jsonNumber? : JsonValue → Option Nat
  | .number written => (Number.natural? written.toList).filter (· ≤ Parameter.greatest)
  | _ => none

/-- Reads a truth value. -/
def jsonBool? : JsonValue → Option Bool
  | .bool b => some b
  | _ => none

/-- A query with the JSON value of one more parameter. -/
def withJson? (q : Query) (p : Parameter) (v : JsonValue) : Option Query :=
  match p with
  | .filter => (jsonOptional? jsonString? v).map fun x => { q with filter := x }
  | .orderBy => (jsonOptional? jsonString? v).map fun x => { q with orderBy := x }
  | .skip => (jsonOptional? jsonNumber? v).map fun x => { q with skip := x }
  | .top => (jsonOptional? jsonNumber? v).map fun x => { q with top := x }
  | .count => (jsonBool? v).map fun x => { q with count := x }
  | .search => (jsonOptional? jsonString? v).map fun x => { q with search := x }

/-- Reads the members of an object after the parameters `seen` have been read. -/
def ofMembers? (q : Query) (seen : List Parameter) :
    List (Option String × JsonValue) → Option Query
  | [] => some q
  | (none, _) :: _ => none
  | (some name, v) :: rest =>
    match Parameter.ofName? name with
    | none => ofMembers? q seen rest
    | some p =>
      if p ∈ seen then none
      else do ofMembers? (← q.withJson? p v) (p :: seen) rest

/-- Reads the items of an array as the values of parameters. -/
def ofItems? (q : Query) : List Parameter → List JsonValue → Option Query
  | _, [] => some q
  | [], _ :: _ => none
  | p :: ps, v :: vs => do ofItems? (← q.withJson? p v) ps vs

/-- The query of a JSON text. -/
def ofJson? (s : String) : Option Query :=
  match JsonValue.ofText? s with
  | some (.object members) => ofMembers? {} [] members
  | some (.array items) => ofItems? {} Parameter.all items
  | _ => none

end Query

end RecordQuery
