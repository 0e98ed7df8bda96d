import RecordQuery.Calendar.Date
import RecordQuery.Number.Binary
import RecordQuery.Schema.Kind
import RecordQuery.Toml.Text

/-!
# Numbers and dates in TOML texts

Digits may be divided by underscores, each of them between two digits. A whole number has 64 bits
and may be written in base two, eight, ten or sixteen. Fractional numbers, dates and times are read
for their form, and only what follows them is given.
-/

namespace RecordQuery

namespace Toml

/-! ### Whole numbers -/

/-- Reads further digits and the underscores between them. -/
def moreDigits? (isDigit : Char → Bool) : List Char → Option (List Char × List Char)
  | [] => some ([], [])
  | ['_'] => none
  | '_' :: c :: cs =>
    if isDigit c then (moreDigits? isDigit cs).map fun (ds, rest) => (c :: ds, rest) else none
  | c :: cs =>
    if isDigit c then (moreDigits? isDigit cs).map fun (ds, rest) => (c :: ds, rest)
    else some ([], c :: cs)

/-- Reads at least one digit. -/
def digits? (isDigit : Char → Bool) : List Char → Option (List Char × List Char)
  | c :: cs =>
    if isDigit c then (moreDigits? isDigit cs).map fun (ds, rest) => (c :: ds, rest) else none
  | [] => none

/-- The sign of a number, and what follows it. -/
def sign (cs : List Char) : Bool × List Char :=
  match cs with
  | '-' :: cs => (true, cs)
  | '+' :: cs => (false, cs)
  | cs => (false, cs)

/-- Reads the digits of a number in base ten, in which no zero stands before another digit. -/
def decimalDigits? : List Char → Option (List Char × List Char)
  | '0' :: cs => some (['0'], cs)
  | cs => digits? Char.isDigit cs

/-- Gives a whole number that has 64 bits. -/
def inRange? (n : Int) : Option Int := if IntegerKind.i64.has n then some n else none

/-- Reads the digits of a number in another base, after the mark of the base. -/
def based? (base : Nat) (cs : List Char) : Option (Int × List Char) := do
  let value (c : Char) : Option Nat := (Number.hexValue? c).filter (· < base)
  let (ds, rest) ← digits? (fun c => (value c).isSome) cs
  let n := ds.foldl (fun n c => base * n + (value c).getD 0) 0
  return (← inRange? n, rest)

/-- Reads a whole number. -/
def integer? (cs : List Char) : Option (Int × List Char) :=
  match cs with
  | '0' :: 'x' :: cs => based? 16 cs
  | '0' :: 'o' :: cs => based? 8 cs
  | '0' :: 'b' :: cs => based? 2 cs
  | cs => do
    let (negative, cs) := sign cs
    let (ds, rest) ← decimalDigits? cs
    let n : Int := Number.ofDigits ds
    return (← inRange? (if negative then -n else n), rest)

/-! ### Fractional numbers -/

/-- Reads the exponent of a number, with the letter before it. -/
def exponent? : List Char → Option (List Char × List Char)
  | c :: cs =>
    if c = 'e' || c = 'E' then do
      let (negative, cs) := sign cs
      let (ds, rest) ← digits? Char.isDigit cs
      return ('e' :: if negative then '-' :: ds else ds, rest)
    else none
  | [] => none

/-- Reads the fraction of a number, with the point before it. -/
def fraction? : List Char → Option (List Char × List Char)
  | '.' :: cs => (digits? Char.isDigit cs).map fun (ds, rest) => ('.' :: ds, rest)
  | _ => none

/-- Reads what makes a number fractional: a fraction, an exponent, or both. -/
def fractional? (cs : List Char) : Option (List Char × List Char) :=
  exponent? cs <|> do
    let (f, rest) ← fraction? cs
    match exponent? rest with
    | some (e, rest) => return (f ++ e, rest)
    | none => return (f, rest)

/-- The number of a text in double precision. -/
def double? (cs : List Char) : Option Number.Double := Number.Binary.ofText? cs

/-- Drops a fractional number, which may not be above the finite ones. -/
def dropFloat? (cs : List Char) : Option (List Char) := do
  let (negative, body) := sign cs
  if body.take 3 = "inf".toList || body.take 3 = "nan".toList then return body.drop 3
  let (whole, rest) ← decimalDigits? body
  let (part, rest) ← fractional? rest
  match double? (whole ++ part) with
  | some x => if !negative && !x.isFinite then none else return rest
  | none => none

/-! ### Dates and times -/

/-- Reads a field of digits, no fewer and no more, with a value between bounds. -/
def field? (width least greatest : Nat) (cs : List Char) : Option (Nat × List Char) :=
  let ds := cs.take width
  if ds.length = width && ds.all Char.isDigit then
    let n := Number.ofDigits ds
    if least ≤ n && n ≤ greatest then some (n, cs.drop width) else none
  else none

/-- Drops a character. -/
def dropMark? (c : Char) : List Char → Option (List Char)
  | d :: cs => if d = c then some cs else none
  | [] => none

/-- Drops a date that the calendar has. -/
def dropDate? (cs : List Char) : Option (List Char) := do
  let (year, cs) ← field? 4 0 9999 cs
  let (month, cs) ← field? 2 1 12 (← dropMark? '-' cs)
  let (day, cs) ← field? 2 1 31 (← dropMark? '-' cs)
  if (Date.ofCivil? year month day).isSome then return cs else none

/-- Drops a time of day. -/
def dropTime? (cs : List Char) : Option (List Char) := do
  let (_, cs) ← field? 2 0 23 cs
  let (_, cs) ← field? 2 0 59 (← dropMark? ':' cs)
  let (_, cs) ← field? 2 0 60 (← dropMark? ':' cs)
  match cs with
  | '.' :: c :: cs => if c.isDigit then return cs.dropWhile Char.isDigit else return '.' :: c :: cs
  | cs => return cs

/-- Drops a distance from the universal clock, if there is one. -/
def dropOffset? (cs : List Char) : Option (List Char) :=
  match cs with
  | [] => some []
  | c :: rest =>
    if c = 'Z' || c = 'z' then some rest
    else if c = '+' || c = '-' then do
      let (_, cs) ← field? 2 0 23 rest
      let (_, cs) ← field? 2 0 59 (← dropMark? ':' cs)
      return cs
    else some cs

/-- Drops the time of day after a date, with the letter or the blank between them and a distance
from the universal clock. -/
def dropTimeAfterDate? (cs : List Char) : Option (List Char) := do
  let rest ← dropMark? 'T' cs <|> dropMark? 't' cs <|> dropMark? ' ' cs
  dropOffset? (← dropTime? rest)

/-- Drops a date, a time of day, or both. -/
def dropDateTime? (cs : List Char) : Option (List Char) :=
  match dropDate? cs with
  | some rest => dropTimeAfterDate? rest <|> some rest
  | none => dropTime? cs

/-! ### Numbers and dates -/

/-- Reads a number, a date or a time, and gives the value of a whole number. -/
def number? (cs : List Char) : Option (Option Int × List Char) :=
  (dropDateTime? cs).map (none, ·) <|> (dropFloat? cs).map (none, ·) <|>
    (integer? cs).map fun (n, rest) => (some n, rest)

end Toml

end RecordQuery
