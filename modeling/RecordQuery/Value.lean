import RecordQuery.Calendar.Notation
import RecordQuery.Guid
import RecordQuery.Number.Decimal
import RecordQuery.Number.Shortest
import RecordQuery.Schema.Kind
import RecordQuery.Text.Compare
import RecordQuery.Text.Quoted

/-!
# Values of fields

What a field of a record holds while a query runs. Two values are compared only if they are of one
kind and neither is missing; what is no number has no order either. For sorting there is an order
of all values: what is missing comes first, and values of different kinds count as equal.
-/

namespace RecordQuery

/-- What a field of a record holds. -/
inductive Value where
  | null
  | bool (b : Bool)
  | integer (kind : IntegerKind) (n : Int)
  | single (x : Number.Single)
  | double (x : Number.Double)
  | decimal (x : Number.Decimal)
  | string (s : String)
  | guid (g : Guid)
  | instant (t : Instant)
  | date (d : Date)
  /-- A variant of an enumeration, by its name. -/
  | enum (variant : String)
  /-- A record: its fields with their names. -/
  | record (fields : List (String × Value))
  /-- A collection: its elements in order. -/
  | list (items : List Value)

/-- A record: the values of its fields under their names. -/
abbrev Record := List (String × Value)

namespace Value

/-- Holds of what is missing. -/
def isNull : Value → Bool
  | null => true
  | _ => false

/-- The text of a text value. -/
def string? : Value → Option String
  | string s => some s
  | _ => none

/-- The value of a field of a record; a field that is not there is missing. -/
def get (v : Value) (field : String) : Value :=
  match v with
  | record fields => (fields.lookup field).getD null
  | _ => null

/-! ### Order -/

/-- The order of two values, if they have one. -/
def compare? : Value → Value → Option Ordering
  | bool a, bool b => some (compare a b)
  | integer k a, integer l b => if k = l then some (compare a b) else none
  | single a, single b => a.compare? b
  | double a, double b => a.compare? b
  | decimal a, decimal b => some (a.compare b)
  | string a, string b => some (Text.compare a b)
  | guid a, guid b => some (a.compare b)
  | instant a, instant b => some (a.compare b)
  | date a, date b => some (a.compare b)
  | enum a, enum b => some (Text.compare a b)
  | _, _ => none

/-- The order of two values for sorting. -/
def sortCompare : Value → Value → Ordering
  | null, null => .eq
  | null, _ => .lt
  | _, null => .gt
  | single a, single b => a.totalCompare b
  | double a, double b => a.totalCompare b
  | a, b => (a.compare? b).getD .eq

mutual

/-- Holds of two values that compare equal, of two that are missing, and of two collections with
equal elements. -/
def equal : Value → Value → Bool
  | null, null => true
  | list as, list bs => equalItems as bs
  | a, b => a.compare? b == some .eq

/-- Holds of two collections with equal elements. -/
def equalItems : List Value → List Value → Bool
  | [], [] => true
  | a :: as, b :: bs => equal a b && equalItems as bs
  | _, _ => false

end

/-! ### Text -/

/-- The text of a value. -/
def text : Value → String
  | null => "null"
  | bool b => if b then "true" else "false"
  | integer _ n => Number.integerText n
  | single x => x.text
  | double x => x.text
  | decimal x => x.text
  | string s => "'" ++ s ++ "'"
  | guid g => g.text
  | instant t => t.offsetText
  | date d => d.text
  | enum variant => variant
  | record _ => "\x7b..\x7d"
  | list items => "[" ++ toString items.length ++ " items]"

mutual

/-- The text of a value with its kind, for people who look for faults. -/
def debugText : Value → String
  | null => "Null"
  | bool b => "Bool(" ++ (if b then "true" else "false") ++ ")"
  | integer kind n => kind.text.toUpper ++ "(" ++ Number.integerText n ++ ")"
  | single x => "F32(" ++ x.text ++ ")"
  | double x => "F64(" ++ x.text ++ ")"
  | decimal x => "Decimal(" ++ x.text ++ ")"
  | string s => "String(" ++ Text.quoted s ++ ")"
  | guid g => "Guid(" ++ g.text ++ ")"
  | instant t => "DateTime(" ++ t.offsetText ++ ")"
  | date d => "Date(" ++ d.text ++ ")"
  | enum variant => "Enum(" ++ variant ++ ")"
  | record _ => "Entity(..)"
  | list items => "List([" ++ ", ".intercalate (debugItems items) ++ "])"

/-- The texts of the elements of a collection with their kinds. -/
def debugItems : List Value → List String
  | [] => []
  | v :: vs => debugText v :: debugItems vs

end

end Value

end RecordQuery
