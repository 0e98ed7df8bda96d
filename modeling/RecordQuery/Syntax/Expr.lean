import RecordQuery.Syntax.Operator
import RecordQuery.Number.Decimal
import RecordQuery.Number.Shortest
import RecordQuery.Guid
import RecordQuery.Calendar.Notation

/-!
# Filter expressions

The tree of a filter: properties, literals, nodes with two sides, and quantified conditions on the
elements of a collection. The type holds more trees than a text can give, such as a comparison of
two properties; those have no meaning.
-/

namespace RecordQuery

/-! ### Literals -/

/-- A value as written in a filter. -/
inductive Literal where
  | integer (value : Int64)
  | single (value : Number.Single)
  | decimal (value : Number.Decimal)
  | double (value : Number.Double)
  | string (value : String)
  /-- A bare word: a variant of an enumeration. -/
  | identifier (word : String)
  | boolean (value : Bool)
  | guid (value : Guid)
  | date (value : Date)
  | instant (value : Instant)
  | null
  deriving DecidableEq

namespace Literal

/-- What kind of literal it is, for messages. -/
def kindText : Literal → String
  | integer _ => "integer"
  | single _ => "float"
  | decimal _ => "decimal"
  | double _ => "double"
  | string _ => "string"
  | identifier _ => "identifier"
  | boolean _ => "boolean"
  | guid _ => "guid"
  | date _ => "date"
  | instant _ => "datetime"
  | null => "null"

/-- The text of a literal, with the suffix or the quotes that tell its kind. -/
def text : Literal → String
  | integer n => Number.integerText n.toInt
  | single x => x.text ++ "f"
  | decimal x => x.text ++ "m"
  | double x => x.text ++ "d"
  | string s => "'" ++ s ++ "'"
  | identifier s => s
  | boolean b => if b then "true" else "false"
  | guid g => g.text
  | date d => d.text
  | instant t => t.text
  | null => "null"

/-- A literal as messages name it. -/
def description (l : Literal) : String := l.kindText ++ " " ++ l.text

end Literal

/-! ### Paths -/

/-- A way from a record through its properties: at least one name. -/
structure Path where
  first : String
  rest : List String
  deriving DecidableEq

namespace Path

/-- The names of a path. -/
def segments (p : Path) : List String := p.first :: p.rest

/-- The path with the given names, if there are any. -/
def ofSegments? : List String → Option Path
  | [] => none
  | first :: rest => some ⟨first, rest⟩

/-- The path of a single name. -/
def single (name : String) : Path := ⟨name, []⟩

/-- Holds of a path with one name. -/
def isSingle (p : Path) : Bool := p.rest.isEmpty

/-- The path one name longer. -/
def push (p : Path) (name : String) : Path := ⟨p.first, p.rest ++ [name]⟩

/-- The names of a path with slashes between them. -/
def text (p : Path) : String := "/".intercalate p.segments

end Path

/-! ### Expressions -/

/-- A filter or a part of one. -/
inductive Expr where
  /-- A property or a lambda variable by its name alone. -/
  | name (s : String)
  /-- A property by its path. -/
  | path (p : Path)
  | literal (l : Literal)
  | binary (left : Expr) (operator : Operator) (right : Expr)
  /-- A condition on the elements of a collection, each called `variable` in turn. -/
  | lambda (collection : Path) (quantifier : Quantifier) (parameter : String) (body : Expr)
  deriving DecidableEq

namespace Expr

/-- A quantified condition as a condition of its own. -/
def completed (collection : Path) (quantifier : Quantifier) (parameter : String) (body : Expr) :
    Expr :=
  .binary (.lambda collection quantifier parameter body) .complete (.literal .null)

/-- How deep conditions are nested: a comparison is one deep, joined conditions are one deeper than
the deeper of them, and a quantified condition is one deeper than its body. -/
def depth : Expr → Nat
  | binary l .and r => max l.depth r.depth + 1
  | binary l .or r => max l.depth r.depth + 1
  | binary l .complete _ => l.depth
  | lambda _ _ _ body => body.depth + 1
  | _ => 1

/-- The text of an expression. Joined conditions stand in parentheses, so that no binding strength
is needed to read it. -/
def text : Expr → String
  | name s => s
  | path p => p.text
  | literal l => l.text
  | binary l .complete _ => l.text
  | binary l .and r => "(" ++ l.text ++ " and " ++ r.text ++ ")"
  | binary l .or r => "(" ++ l.text ++ " or " ++ r.text ++ ")"
  | binary l op r => l.text ++ " " ++ op.text ++ " " ++ r.text
  | lambda collection quantifier parameter body =>
    collection.text ++ "/" ++ quantifier.text ++ "(" ++ parameter ++ ": " ++ body.text ++ ")"

end Expr

/-! ### Sort terms -/

/-- Which way a sort key runs. -/
inductive Direction where
  | ascending
  | descending
  deriving DecidableEq

/-- The word for a direction. -/
def Direction.text : Direction → String
  | ascending => "asc"
  | descending => "desc"

/-- A property to sort by. -/
structure SortTerm where
  path : Path
  direction : Direction
  deriving DecidableEq

/-- The text of a sort term. -/
def SortTerm.text (t : SortTerm) : String := t.path.text ++ " " ++ t.direction.text

end RecordQuery
