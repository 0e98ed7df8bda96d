import RecordQuery.Token
import RecordQuery.Text.Ascii
import RecordQuery.Guid
import RecordQuery.Calendar.Notation

/-!
# Splitting a text into tokens

Every text can be split: a character that starts no token is a token of its own, for the parser to
refuse. A word starts with a letter, and a numeral with a digit; both go on as far as their
characters do, and what they are is decided by their whole text. A numeral takes in all that
numbers, guids, dates and instants are written with, their suffixes among it.
-/

namespace RecordQuery

/-! ### Characters -/

/-- Holds of the characters that may stand between tokens. -/
def Lexer.isGap (c : Char) : Bool := c = ' ' || c = '\t' || c = '\n' || c = '\r'

/-- Holds of the characters a word starts with. -/
def Lexer.isLetter (c : Char) : Bool := c.isAlpha || c = '_'

/-- Holds of the characters a word goes on with. -/
def Lexer.isWordChar (c : Char) : Bool := isLetter c || c.isDigit || c = '-' || c = '.'

/-- Holds of the characters a numeral goes on with. -/
def Lexer.isNumeralChar (c : Char) : Bool :=
  (Number.hexValue? c).isSome || "-:.TZ+mMlL".toList.contains c

/-! ### Lexemes -/

/-- What the front of a text is read as: its kind, its text, and the number of characters it takes
after the first. -/
structure Lexeme where
  kind : Token.Kind
  literal : List Char
  extra : Nat

/-- The kind of a whole word. -/
def Lexeme.wordKind (word : List Char) : Token.Kind :=
  let folded := word.map Char.toLower
  if (Guid.ofText? word).isSome then .guid
  else if folded = "null".toList then .null
  else if folded = "true".toList || folded = "false".toList then .boolean
  else .name

/-- The kind of a whole numeral. -/
def Lexeme.numeralKind (numeral : List Char) : Token.Kind :=
  if (Guid.ofText? numeral).isSome then .guid
  else if (Date.ofText? numeral).isSome then .date
  else if (Instant.ofText? numeral).isSome then .instant
  else match numeral.getLast?.map Char.toLower with
    | some 'f' => .single
    | some 'm' => .decimal
    | some 'd' => .double
    | _ => .integer

/-- The lexeme at the front of the text `c :: cs`. A string without its closing quote runs to the
end of the text. -/
def Lexeme.read (c : Char) (cs : List Char) : Lexeme :=
  if c = '(' then ⟨.openParen, [c], 0⟩
  else if c = ')' then ⟨.closeParen, [c], 0⟩
  else if c = '/' then ⟨.slash, [c], 0⟩
  else if c = ':' then ⟨.colon, [c], 0⟩
  else if c = '\'' then
    let content := cs.takeWhile (· != '\'')
    ⟨.string, content, content.length + 1⟩
  else if c.isDigit then
    let more := cs.takeWhile Lexer.isNumeralChar
    ⟨numeralKind (c :: more), c :: more, more.length⟩
  else if Lexer.isLetter c then
    let more := cs.takeWhile Lexer.isWordChar
    ⟨wordKind (c :: more), c :: more, more.length⟩
  else ⟨.illegal, [c], 0⟩

/-! ### Tokens -/

/-- The number of bytes that characters take. -/
def Lexer.byteSize (cs : List Char) : Nat := cs.foldr (fun c n => c.utf8Size + n) 0

/-- What is left of a text, and the number of bytes before it. -/
structure Cursor where
  rest : List Char
  position : Nat

/-- The cursor before a text. -/
def Cursor.start (s : String) : Cursor := ⟨s.toList, 0⟩

/-- The cursor some characters on. -/
def Cursor.advance (k : Cursor) (count : Nat) : Cursor :=
  ⟨k.rest.drop count, k.position + Lexer.byteSize (k.rest.take count)⟩

/-- The cursor after the characters between tokens. -/
def Cursor.skipGaps (k : Cursor) : Cursor := k.advance (k.rest.takeWhile Lexer.isGap).length

/-- The next token, and the cursor after it. At the end of the text this is the end token, again and
again. -/
def Cursor.next (k : Cursor) : Token × Cursor :=
  let k := k.skipGaps
  match k.rest with
  | [] => (⟨.endOfInput, "", k.position⟩, k)
  | c :: cs =>
    let lexeme := Lexeme.read c cs
    (⟨lexeme.kind, String.ofList lexeme.literal, k.position⟩, k.advance (lexeme.extra + 1))

theorem Cursor.length_rest_skipGaps_le (k : Cursor) :
    k.skipGaps.rest.length ≤ k.rest.length := by
  simp [skipGaps, advance]

theorem Cursor.length_rest_next_lt {k : Cursor} (h : k.skipGaps.rest ≠ []) :
    k.next.2.rest.length < k.rest.length := by
  have hle := k.length_rest_skipGaps_le
  unfold next
  match hr : k.skipGaps.rest with
  | [] => exact absurd hr h
  | c :: cs =>
    simp only [advance, hr, List.drop_succ_cons, List.length_drop]
    rw [hr, List.length_cons] at hle
    omega

/-- The tokens from a cursor on, without the end token. -/
def Cursor.tokens (k : Cursor) : List Token :=
  if _ : k.skipGaps.rest = [] then []
  else k.next.1 :: k.next.2.tokens
termination_by k.rest.length
decreasing_by exact Cursor.length_rest_next_lt (by assumption)

/-- The tokens of a text, without the end token. -/
def Token.ofText (s : String) : List Token := (Cursor.start s).tokens

end RecordQuery
