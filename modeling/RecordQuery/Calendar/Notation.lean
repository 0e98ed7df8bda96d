import RecordQuery.Calendar.Instant
import RecordQuery.Number.Digits
import RecordQuery.Number.Power

/-!
# Dates and instants in writing

A date is written as year, month and day with hyphens. An instant adds the letter `T`, the time of
day, a fraction of a second where there is one, and the distance from the universal clock. Read are
the strict form of internet time stamps, in which all fields have their full width, and looser forms
in which fields may be shorter, the seconds and the distance may be missing, and the distance may go
without its colon.
-/

namespace RecordQuery

/-! ### Writing -/

/-- A year: four digits, or a sign and at least four digits where four are not enough. -/
def Date.yearText (year : Int) : List Char :=
  if 0 ≤ year && year ≤ 9999 then Number.padded 4 year.toNat
  else (if year < 0 then '-' else '+') :: Number.padded 4 year.natAbs

/-- Year, month and day of a date with hyphens between them. -/
def Date.chars (d : Date) : List Char :=
  let (year, month, day) := d.civil
  yearText year ++ '-' :: Number.padded 2 month ++ '-' :: Number.padded 2 day

/-- The text of a date. -/
def Date.text (d : Date) : String := String.ofList d.chars

/-- A fraction of a second: three, six or nine digits after a point, or nothing for none. -/
def Instant.fractionText (nanosecond : Nat) : List Char :=
  if nanosecond = 0 then []
  else if nanosecond % 1000000 = 0 then '.' :: Number.padded 3 (nanosecond / 1000000)
  else if nanosecond % 1000 = 0 then '.' :: Number.padded 6 (nanosecond / 1000)
  else '.' :: Number.padded 9 nanosecond

/-- Date and time of day of an instant; a leap second is the second 60. -/
def Instant.chars (t : Instant) : List Char :=
  let leap := 1000000000 ≤ t.nanosecond
  let second := t.second % 60 + if leap then 1 else 0
  t.date.chars ++ 'T' :: Number.padded 2 (t.second / 3600) ++ ':' ::
    Number.padded 2 (t.second / 60 % 60) ++ ':' :: Number.padded 2 second ++
    fractionText (t.nanosecond % 1000000000)

/-- The text of an instant with the letter that stands for the universal clock. -/
def Instant.text (t : Instant) : String := String.ofList (t.chars ++ ['Z'])

/-- The text of an instant with its distance from the universal clock in hours and minutes. -/
def Instant.offsetText (t : Instant) : String := String.ofList (t.chars ++ "+00:00".toList)

/-! ### Reading -/

namespace Notation

/-- A field of `least` to `most` digits, and what follows it. -/
def field? (least most : Nat) (cs : List Char) : Option (Nat × List Char) :=
  let ds := (cs.take most).takeWhile Char.isDigit
  if ds.length < least then none else some (Number.ofDigits ds, cs.drop ds.length)

/-- What follows a given character. -/
def mark? (c : Char) : List Char → Option (List Char)
  | d :: cs => if d = c then some cs else none
  | [] => none

/-- A date whose fields have their full width, or may be shorter. -/
def date? (strict : Bool) (cs : List Char) : Option (Date × List Char) := do
  let (year, cs) ← field? (if strict then 4 else 1) 4 cs
  let (month, cs) ← field? (if strict then 2 else 1) 2 (← mark? '-' cs)
  let (day, cs) ← field? (if strict then 2 else 1) 2 (← mark? '-' cs)
  return (← Date.ofCivil? year month day, cs)

/-- A fraction of a second in nanoseconds, if there is one; digits after the ninth do not count. -/
def fraction? : List Char → Option (Nat × List Char)
  | '.' :: cs =>
    let ds := cs.takeWhile Char.isDigit
    if ds.isEmpty then none
    else
      let kept := ds.take 9
      some (Number.ofDigits kept * Number.tenTo (9 - kept.length), cs.dropWhile Char.isDigit)
  | cs => some (0, cs)

/-- A distance from the universal clock in seconds, `divider` between hours and minutes. -/
def offset? (divider : List Char → Option (List Char)) (cs : List Char) :
    Option (Int × List Char) := do
  let (sign, cs) ← match cs with
    | '+' :: cs => some ((1 : Int), cs)
    | '-' :: cs => some (-1, cs)
    | _ => none
  let (hours, cs) ← field? 2 2 cs
  let (minutes, cs) ← field? 2 2 (← divider cs)
  if hours < 24 && minutes < 60 then
    return (sign * (hours * 3600 + minutes * 60), cs)
  else none

/-- The distance in the strict form: a colon stands in it, or a letter stands for none. -/
def strictOffset? : List Char → Option (Int × List Char)
  | 'Z' :: cs => some (0, cs)
  | 'z' :: cs => some (0, cs)
  | cs => offset? (mark? ':') cs

/-- The distance in the looser form, with any number of colons. -/
def looseOffset? (cs : List Char) : Option (Int × List Char) :=
  offset? (fun cs => some (cs.dropWhile (· == ':'))) cs

/-- Gives a value if nothing is left of the text. -/
def complete? {α : Type} (value : Option α) (rest : List Char) : Option α :=
  if rest.isEmpty then value else none

/-- The strict form of an instant. -/
def strict? (cs : List Char) : Option Instant := do
  let (date, cs) ← date? true cs
  let cs ← mark? 'T' cs <|> mark? 't' cs <|> mark? ' ' cs
  let (hour, cs) ← field? 2 2 cs
  let (minute, cs) ← field? 2 2 (← mark? ':' cs)
  let (second, cs) ← field? 2 2 (← mark? ':' cs)
  let (nanosecond, cs) ← fraction? cs
  let (offset, cs) ← strictOffset? cs
  complete? (Instant.ofClock? date hour minute second nanosecond offset) cs

/-- Date, hour and minute of the looser forms. -/
def looseStart? (cs : List Char) : Option (Date × Nat × Nat × List Char) := do
  let (date, cs) ← date? false cs
  let (hour, cs) ← field? 1 2 (← mark? 'T' cs)
  let (minute, cs) ← field? 1 2 (← mark? ':' cs)
  return (date, hour, minute, cs)

/-- The looser form with seconds; without a distance it is the universal clock's time. -/
def withSeconds? (cs : List Char) : Option Instant := do
  let (date, hour, minute, cs) ← looseStart? cs
  let (second, cs) ← field? 1 2 (← mark? ':' cs)
  let (nanosecond, cs) ← fraction? cs
  let (offset, cs) ← if cs.isEmpty then some (0, cs) else looseOffset? cs
  complete? (Instant.ofClock? date hour minute second nanosecond offset) cs

/-- The looser form without seconds, on the universal clock. -/
def withMinutes? (cs : List Char) : Option Instant := do
  let (date, hour, minute, cs) ← looseStart? cs
  complete? (Instant.ofClock? date hour minute 0 0 0) cs

end Notation

/-- The date of a text of ten characters. -/
def Date.ofText? (cs : List Char) : Option Date :=
  if cs.length = 10 then
    (Notation.date? false cs).bind fun (date, rest) => Notation.complete? (some date) rest
  else none

/-- The instant of a text in any of the forms. -/
def Instant.ofText? (cs : List Char) : Option Instant :=
  Notation.strict? cs <|> Notation.withSeconds? cs <|> Notation.withMinutes? cs

end RecordQuery
