import RecordQuery.Number.Hex

/-!
# Leaves of TOML texts

Blanks, comments, line ends and strings. Each reading function gives what follows what it has read,
strings and names together with their content.
-/

namespace RecordQuery

namespace Toml

/-! ### Between values -/

/-- Holds of blanks within a line. -/
def isBlank (c : Char) : Bool := c = ' ' || c = '\t'

/-- Drops blanks. -/
def dropBlanks (cs : List Char) : List Char := cs.dropWhile isBlank

/-- Holds of the characters that a line may have: all but controls, tabs apart. -/
def isLineChar (c : Char) : Bool := c = '\t' || (' ' ≤ c && c ≤ '~') || '\x7f' < c

/-- Drops the end of a line. -/
def dropLineEnd? : List Char → Option (List Char)
  | '\n' :: cs => some cs
  | '\r' :: '\n' :: cs => some cs
  | _ => none

/-- Drops a comment, if there is one. -/
def dropComment : List Char → List Char
  | '#' :: cs => cs.dropWhile isLineChar
  | cs => cs

/-- Drops what may follow a value on its line: blanks, a comment, and the end of the line or of the
text. -/
def dropTrailing? (cs : List Char) : Option (List Char) :=
  match dropComment (dropBlanks cs) with
  | [] => some []
  | cs => dropLineEnd? cs

/-- Drops blanks, comments and line ends, of which there are no more than `fuel`. -/
def dropLinesWithin : (fuel : Nat) → List Char → Option (List Char)
  | 0, cs => some cs
  | fuel + 1, cs =>
    match dropBlanks cs with
    | '#' :: cs => do dropLinesWithin fuel (← dropLineEnd? (dropComment ('#' :: cs)))
    | cs =>
      match dropLineEnd? cs with
      | some cs => dropLinesWithin fuel cs
      | none => some cs

/-- Drops blanks, comments and line ends; a comment has to end with its line. -/
def dropLines? (cs : List Char) : Option (List Char) := dropLinesWithin (cs.length + 1) cs

/-! ### Strings -/

/-- The character that an escape of a number of digits in base sixteen names. -/
def codeEscape? (width : Nat) (cs : List Char) : Option (Char × List Char) :=
  if cs.length < width then none
  else match Number.ofHex? (cs.take width) with
    | some n => if h : n.isValidChar then some (Char.ofNatAux n h, cs.drop width) else none
    | none => none

/-- Reads an escape after its backslash. -/
def escape? : List Char → Option (Char × List Char)
  | 'b' :: cs => some ('\x08', cs)
  | 't' :: cs => some ('\t', cs)
  | 'n' :: cs => some ('\n', cs)
  | 'f' :: cs => some ('\x0c', cs)
  | 'r' :: cs => some ('\r', cs)
  | '"' :: cs => some ('"', cs)
  | '\\' :: cs => some ('\\', cs)
  | 'u' :: cs => codeEscape? 4 cs
  | 'U' :: cs => codeEscape? 8 cs
  | _ => none

/-- Reads the rest of a string on one line in double quotes, of no more than `fuel` characters. -/
def basicWithin : (fuel : Nat) → List Char → Option (List Char × List Char)
  | 0, _ => none
  | fuel + 1, cs =>
    match cs with
    | '"' :: cs => some ([], cs)
    | '\\' :: cs => do
      let (c, cs) ← escape? cs
      let (content, rest) ← basicWithin fuel cs
      return (c :: content, rest)
    | c :: cs =>
      if isLineChar c then (basicWithin fuel cs).map fun (content, rest) => (c :: content, rest)
      else none
    | [] => none

/-- Reads a string on one line in double quotes, after the opening one. -/
def basic? (cs : List Char) : Option (List Char × List Char) := basicWithin (cs.length + 1) cs

/-- Reads a string on one line in single quotes, after the opening one. -/
def literal? (cs : List Char) : Option (List Char × List Char) :=
  let content := cs.takeWhile fun c => isLineChar c && c != '\''
  match cs.drop content.length with
  | '\'' :: rest => some (content, rest)
  | _ => none

/-- Drops the line end that may follow an opening of three quotes. -/
def dropFirstLineEnd (cs : List Char) : List Char := (dropLineEnd? cs).getD cs

/-- Drops a run of quotes at the end of a string on several lines: three of them close it, and up to
two before those belong to it. -/
def dropClosing? (quote : Char) (cs : List Char) : Option (List Char) :=
  let run := (cs.takeWhile (· == quote)).length
  if run < 3 then none else some (cs.drop (min run 5))

/-- Drops the rest of a string on several lines, of no more than `fuel` characters. In double quotes
a backslash starts an escape, or hides the line end after it and the blanks that follow. -/
def dropMultiline : (fuel : Nat) → (quote : Char) → List Char → Option (List Char)
  | 0, _, _ => none
  | fuel + 1, quote, cs =>
    match dropClosing? quote cs with
    | some rest => some rest
    | none =>
      match cs with
      | [] => none
      | c :: more =>
        if c = '\\' && quote = '"' then
          match escape? more with
          | some (_, rest) => dropMultiline fuel quote rest
          | none => do
            let rest ← dropLineEnd? (dropBlanks more)
            dropMultiline fuel quote (rest.dropWhile fun c => isBlank c)
        else
          match dropLineEnd? cs with
          | some rest => dropMultiline fuel quote rest
          | none => if isLineChar c then dropMultiline fuel quote more else none

/-- Drops a string of any form. -/
def dropString? : List Char → Option (List Char)
  | '"' :: '"' :: '"' :: cs => dropMultiline (cs.length + 1) '"' (dropFirstLineEnd cs)
  | '\'' :: '\'' :: '\'' :: cs => dropMultiline (cs.length + 1) '\'' (dropFirstLineEnd cs)
  | '"' :: cs => (basic? cs).map (·.2)
  | '\'' :: cs => (literal? cs).map (·.2)
  | _ => none

/-! ### Keys -/

/-- Holds of the characters of a bare key. -/
def isBareChar (c : Char) : Bool := c.isAlphanum || c = '-' || c = '_'

/-- Reads one part of a key. -/
def simpleKey? : List Char → Option (String × List Char)
  | '"' :: cs => (basic? cs).map fun (content, rest) => (String.ofList content, rest)
  | '\'' :: cs => (literal? cs).map fun (content, rest) => (String.ofList content, rest)
  | cs =>
    let bare := cs.takeWhile isBareChar
    if bare.isEmpty then none else some (String.ofList bare, cs.drop bare.length)

/-- Reads the parts of a key, with dots between them and with blanks around them. -/
def keyWithin : (fuel : Nat) → List Char → Option (List String × List Char)
  | 0, _ => none
  | fuel + 1, cs => do
    let (first, rest) ← simpleKey? (dropBlanks cs)
    match dropBlanks rest with
    | '.' :: rest =>
      let (more, rest) ← keyWithin fuel rest
      return (first :: more, rest)
    | rest => return ([first], rest)

/-- The most parts of a key, and the most values around a value. -/
def maxNesting : Nat := 79

/-- Reads a key: the parts before the last one, and the last one. -/
def key? (cs : List Char) : Option ((List String × String) × List Char) := do
  let (parts, rest) ← keyWithin (cs.length + 1) cs
  if maxNesting < parts.length then none
  else return ((parts.dropLast, parts.getLastD ""), rest)

end Toml

end RecordQuery
