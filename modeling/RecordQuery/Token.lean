import RecordQuery.Text.Ascii

/-!
# Tokens

The words of a filter or of sort terms: names, literal values, and the four marks of punctuation. A
token keeps its text and the place where it starts, counted in bytes.
-/

namespace RecordQuery

/-- What a token is. -/
inductive Token.Kind where
  /-- The end of the input. -/
  | endOfInput
  /-- A character that starts no token. -/
  | illegal
  /-- A property, a lambda variable, a keyword or an operator. -/
  | name
  /-- A text between single quotes. -/
  | string
  | integer
  /-- A number with the suffix `f`. -/
  | single
  /-- A number with the suffix `m`. -/
  | decimal
  /-- A number with the suffix `d`. -/
  | double
  | date
  | instant
  | guid
  | boolean
  | null
  | openParen
  | closeParen
  | slash
  | colon
  deriving DecidableEq

/-- The name of a kind of token in messages. -/
def Token.Kind.text : Token.Kind → String
  | endOfInput => "end of input"
  | illegal => "illegal"
  | name => "identifier"
  | string => "string"
  | integer => "integer"
  | single => "float"
  | decimal => "decimal"
  | double => "double"
  | date => "date"
  | instant => "datetime"
  | guid => "guid"
  | boolean => "boolean"
  | null => "null"
  | openParen => "'('"
  | closeParen => "')'"
  | slash => "'/'"
  | colon => "':'"

/-- A token: its kind, its text without the quotes of a string, and the byte where it starts. -/
structure Token where
  kind : Token.Kind
  literal : String
  position : Nat
  deriving DecidableEq

/-- A token as messages name it. -/
def Token.text (t : Token) : String :=
  if t.kind = .endOfInput then t.kind.text else t.literal

/-- Holds of a name with the letters of a keyword. -/
def Token.isKeyword (t : Token) (keyword : String) : Bool :=
  t.kind = .name && Text.sameWord t.literal keyword

end RecordQuery
