import RecordQuery.Number.Hex

/-!
# Reading JSON

The value of a JSON text. A text is split into marks, words, numbers and strings first, and values
are read from these. A string may name half of a surrogate pair by an escape; such a string has no
text, but the value it stands in is still a value.
-/

namespace RecordQuery

/-- A JSON value. Numbers are kept as they are written. -/
inductive JsonValue where
  | null
  | bool (b : Bool)
  | number (written : String)
  /-- A string, which has no text if an escape in it names half of a surrogate pair. -/
  | string (text : Option String)
  | array (items : List JsonValue)
  | object (members : List (Option String × JsonValue))

namespace JsonText

/-! ### Strings -/

/-- The number that four digits in base sixteen write. -/
def fourDigits? (a b c d : Char) : Option Nat := Number.ofHex? [a, b, c, d]

/-- The character that a letter after a backslash stands for. -/
def unescape? : Char → Option Char
  | '"' => some '"'
  | '\\' => some '\\'
  | '/' => some '/'
  | 'b' => some '\x08'
  | 'f' => some '\x0c'
  | 'n' => some '\n'
  | 'r' => some '\r'
  | 't' => some '\t'
  | _ => none

/-- The code units that a string names: characters, and numbers given by escapes. -/
inductive Unit where
  | char (c : Char)
  | code (n : Nat)

/-- Reads the rest of a string after its opening quote: its units, and what follows it. -/
def units? : List Char → Option (List Unit × List Char)
  | [] => none
  | '"' :: cs => some ([], cs)
  | '\\' :: 'u' :: a :: b :: c :: d :: cs =>
    match fourDigits? a b c d, units? cs with
    | some n, some (us, rest) => some (.code n :: us, rest)
    | _, _ => none
  | '\\' :: e :: cs =>
    match unescape? e, units? cs with
    | some c, some (us, rest) => some (.char c :: us, rest)
    | _, _ => none
  | c :: cs =>
    if c.toNat < 0x20 || c = '\\' then none
    else (units? cs).map fun (us, rest) => (.char c :: us, rest)

/-- Holds of the first half of a surrogate pair. -/
def isHigh (n : Nat) : Bool := 0xD800 ≤ n && n < 0xDC00

/-- Holds of the second half of a surrogate pair. -/
def isLow (n : Nat) : Bool := 0xDC00 ≤ n && n < 0xE000

/-- The characters of units, if surrogates come in pairs. -/
def chars? : List Unit → Option (List Char)
  | [] => some []
  | .char c :: us => (chars? us).map (c :: ·)
  | .code n :: .code m :: us =>
    if isHigh n then
      if isLow m then
        (chars? us).map (Char.ofNat (0x10000 + 0x400 * (n - 0xD800) + (m - 0xDC00)) :: ·)
      else none
    else if isLow n then none
    else (chars? (.code m :: us)).map (Char.ofNat n :: ·)
  | .code n :: us =>
    if isHigh n || isLow n then none else (chars? us).map (Char.ofNat n :: ·)

/-! ### Numbers -/

/-- Drops a run of digits that has at least one. -/
def dropDigits? (cs : List Char) : Option (List Char) :=
  match cs with
  | c :: _ => if c.isDigit then some (cs.dropWhile Char.isDigit) else none
  | [] => none

/-- Drops a number's fraction, if it has one. -/
def dropFraction? : List Char → Option (List Char)
  | '.' :: cs => dropDigits? cs
  | cs => some cs

/-- Drops a number's exponent, if it has one. -/
def dropExponent? : List Char → Option (List Char)
  | c :: cs =>
    if c = 'e' || c = 'E' then
      match cs with
      | '+' :: ds => dropDigits? ds
      | '-' :: ds => dropDigits? ds
      | ds => dropDigits? ds
    else some (c :: cs)
  | [] => some []

/-- Drops a number. No zero stands before another digit. -/
def dropNumber? (cs : List Char) : Option (List Char) := do
  let unsigned := match cs with
    | '-' :: ds => ds
    | ds => ds
  let rest ← match unsigned with
    | '0' :: c :: ds => if c.isDigit then none else some (c :: ds)
    | ds => dropDigits? ds
  dropExponent? (← dropFraction? rest)

/-! ### Marks -/

/-- What a JSON text is made of. -/
inductive Mark where
  | openArray
  | closeArray
  | openObject
  | closeObject
  | comma
  | colon
  | word (v : JsonValue)
  | number (written : String)
  | string (text : Option String)

/-- Holds of the blanks that may stand between marks. -/
def isGap (c : Char) : Bool := c = ' ' || c = '\t' || c = '\n' || c = '\r'

/-- The words with a value. -/
def words : List (String × JsonValue) :=
  [("null", .null), ("true", .bool true), ("false", .bool false)]

/-- Reads a mark from the front of the text `c :: cs`. -/
def mark? (c : Char) (cs : List Char) : Option (Mark × List Char) :=
  match c with
  | '[' => some (.openArray, cs)
  | ']' => some (.closeArray, cs)
  | '\x7b' => some (.openObject, cs)
  | '\x7d' => some (.closeObject, cs)
  | ',' => some (.comma, cs)
  | ':' => some (.colon, cs)
  | '"' => (units? cs).map fun (us, rest) => (.string ((chars? us).map String.ofList), rest)
  | c =>
    if c = '-' || c.isDigit then
      (dropNumber? (c :: cs)).map fun rest =>
        (.number (String.ofList ((c :: cs).take (cs.length + 1 - rest.length))), rest)
    else
      (words.find? fun w => w.1.toList.isPrefixOf (c :: cs)).map fun w =>
        (.word w.2, (c :: cs).drop w.1.length)

/-- The marks of a text. Every mark takes at least one character, so that as many readings as the
text has characters are enough. -/
def marksWithin : Nat → List Char → Option (List Mark)
  | 0, cs => if (cs.dropWhile isGap).isEmpty then some [] else none
  | fuel + 1, cs =>
    match cs.dropWhile isGap with
    | [] => some []
    | c :: cs =>
      match mark? c cs with
      | none => none
      | some (m, rest) => (marksWithin fuel rest).map (m :: ·)

/-- The marks of a text. -/
def marks? (cs : List Char) : Option (List Mark) := marksWithin cs.length cs

/-! ### Values -/

mutual

/-- Reads a value, nested no deeper than `fuel` allows. -/
def value? : (fuel : Nat) → List Mark → Option (JsonValue × List Mark)
  | 0, _ => none
  | fuel + 1, ms =>
    match ms with
    | .word v :: ms => some (v, ms)
    | .number s :: ms => some (.number s, ms)
    | .string s :: ms => some (.string s, ms)
    | .openArray :: .closeArray :: ms => some (.array [], ms)
    | .openArray :: ms => (items? fuel ms).map fun (vs, rest) => (.array vs, rest)
    | .openObject :: .closeObject :: ms => some (.object [], ms)
    | .openObject :: ms => (members? fuel ms).map fun (vs, rest) => (.object vs, rest)
    | _ => none

/-- Reads the items of an array that has some, with the bracket that closes it. -/
def items? : (fuel : Nat) → List Mark → Option (List JsonValue × List Mark)
  | 0, _ => none
  | fuel + 1, ms =>
    match value? fuel ms with
    | some (v, .comma :: ms) => (items? fuel ms).map fun (vs, rest) => (v :: vs, rest)
    | some (v, .closeArray :: ms) => some ([v], ms)
    | _ => none

/-- Reads the members of an object that has some, with the brace that closes it. -/
def members? : (fuel : Nat) → List Mark → Option (List (Option String × JsonValue) × List Mark)
  | 0, _ => none
  | fuel + 1, ms =>
    match ms with
    | .string key :: .colon :: ms =>
      match value? fuel ms with
      | some (v, .comma :: ms) => (members? fuel ms).map fun (vs, rest) => ((key, v) :: vs, rest)
      | some (v, .closeObject :: ms) => some ([(key, v)], ms)
      | _ => none
    | _ => none

end

end JsonText

/-- The value of a JSON text. Reading goes one step deeper for every item and for every value in it,
so twice the number of marks is deep enough. -/
def JsonValue.ofText? (s : String) : Option JsonValue := do
  let ms ← JsonText.marks? s.toList
  match JsonText.value? (2 * ms.length + 1) ms with
  | some (v, []) => some v
  | _ => none

end RecordQuery
