import RecordQuery.Number.Digits
import RecordQuery.Number.Power

/-!
# Binary floating-point numbers

A floating-point number is kept as a sign and a magnitude: exponent and fraction bits read together
as one number, so that greater magnitudes mean greater absolute values, with infinity above all
finite numbers and what is no number above infinity. Real numbers are rounded to the nearest one
of a format, and a number half-way between two goes to the even one.
-/

namespace RecordQuery

/-- The widths of the two fields of a floating-point number. -/
structure Number.Format where
  fractionBits : Nat
  exponentBits : Nat

/-- The format of single precision. -/
def Number.single : Format := ⟨23, 8⟩

/-- The format of double precision. -/
def Number.double : Format := ⟨52, 11⟩

namespace Number.Format

variable (f : Format)

/-- The magnitude of infinity: all exponent bits are set and no fraction bit. -/
def infinity : Nat := (twoTo f.exponentBits - 1) * twoTo f.fractionBits

/-- The magnitude of what is no number: the first fraction bit is set as well. -/
def notANumber : Nat := f.infinity + twoTo (f.fractionBits - 1)

/-- Every finite number is a multiple of `2 ^ (- f.unitBits)`, the least positive one. -/
def unitBits : Nat := twoTo (f.exponentBits - 1) + f.fractionBits - 2

end Number.Format

/-- A floating-point number of a format. -/
structure Number.Binary (f : Format) where
  negative : Bool
  magnitude : Nat
  deriving DecidableEq

/-- A number of single precision. -/
abbrev Number.Single := Binary single

/-- A number of double precision. -/
abbrev Number.Double := Binary double

/-- The quotient `n / d` as the nearest natural number, the even one of two that are as near. -/
def Number.roundHalfEven (n d : Nat) : Nat :=
  let q := n / d
  let r := n % d
  if 2 * r < d then q
  else if d < 2 * r then q + 1
  else q + q % 2

namespace Number.Binary

variable {f : Format}

/-- Holds of what is no number. -/
def isNaN (x : Binary f) : Bool := f.infinity < x.magnitude

/-- Holds of the numbers but the two infinities. -/
def isFinite (x : Binary f) : Bool := x.magnitude < f.infinity

/-- The fraction bits with the leading bit that is not written, of a finite number. -/
def significand (x : Binary f) : Nat :=
  if x.magnitude < twoTo f.fractionBits then x.magnitude
  else twoTo f.fractionBits + x.magnitude % twoTo f.fractionBits

/-- The binary places by which the unit of the last fraction bit lies above the least positive
number. A finite number is `significand * 2 ^ places` of these units. -/
def places (x : Binary f) : Nat := x.magnitude / twoTo f.fractionBits - 1

/-- All bits of the number, the sign foremost. -/
def bits (x : Binary f) : Nat :=
  x.magnitude + if x.negative then twoTo (f.fractionBits + f.exponentBits) else 0

/-! ### Rounding -/

/-- The magnitude nearest to the quotient `n / d`. -/
def magnitudeOf (f : Format) (n d : Nat) : Nat :=
  let scaled := n * twoTo f.unitBits
  let places := (scaled / d).log2 - f.fractionBits
  min (places * twoTo f.fractionBits + roundHalfEven scaled (d * twoTo places)) f.infinity

/-- The number nearest to the quotient `n / d`, or to its negative. -/
def ofRatio (negative : Bool) (n d : Nat) : Binary f := ⟨negative, magnitudeOf f n d⟩

/-- The number nearest to an integer. -/
def ofInt (n : Int) : Binary f := ofRatio (n < 0) n.natAbs 1

/-- The number nearest to `coefficient * 10 ^ exponent`. Far powers of ten need not be computed: a
number with that many places before the point is above every finite one, and one with that many
zeros after the point is nearest to zero. -/
def ofScientific (negative : Bool) (coefficient : Nat) (exponent : Int) : Binary f :=
  let limit : Int := twoTo f.exponentBits
  let magnitude : Int := (digits coefficient).length + exponent
  if coefficient = 0 || magnitude < -limit then ⟨negative, 0⟩
  else if limit < magnitude then ⟨negative, f.infinity⟩
  else if exponent < 0 then ofRatio negative coefficient (tenTo exponent.natAbs)
  else ofRatio negative (coefficient * tenTo exponent.natAbs) 1

/-- The same number in another format, rounded if it does not fit. -/
def convert {g : Format} (x : Binary f) : Binary g :=
  if x.isNaN then ⟨x.negative, g.notANumber⟩
  else if x.isFinite then ofRatio x.negative (x.significand * twoTo x.places) (twoTo f.unitBits)
  else ⟨x.negative, g.infinity⟩

/-! ### Order -/

/-- The place of a number among the others, zeros of both signs at one place; what is no number
has none. -/
def rank? (x : Binary f) : Option Int :=
  if x.isNaN then none else some (if x.negative then -x.magnitude else x.magnitude)

/-- The order of two numbers, if both are. -/
def compare? (x y : Binary f) : Option Ordering :=
  match x.rank?, y.rank? with
  | some a, some b => some (compare a b)
  | _, _ => none

/-- The place of every bit pattern in one total order: negative zero lies before zero, and what is
no number lies beyond the infinities. -/
def totalRank (x : Binary f) : Int := if x.negative then -x.magnitude - 1 else x.magnitude

/-- The total order of bit patterns. -/
def totalCompare (x y : Binary f) : Ordering := compare x.totalRank y.totalRank

/-! ### Reading -/

/-- Holds of two texts that differ at most in the case of the letters a to z. -/
def sameWord (cs : List Char) (word : String) : Bool :=
  cs.map Char.toLower == word.toList

/-- The power of ten that an exponent writes, the letter before it already read. -/
def exponent? : List Char → Option Int
  | '-' :: cs => (natural? cs).map fun n => -(n : Int)
  | '+' :: cs => (natural? cs).map Int.ofNat
  | cs => (natural? cs).map Int.ofNat

/-- The number of a text without its sign: digits, at most one point before, between or after
them, and at most one exponent. -/
def ofUnsigned? (negative : Bool) (cs : List Char) : Option (Binary f) := do
  let whole := cs.takeWhile Char.isDigit
  let afterWhole := cs.dropWhile Char.isDigit
  let (part, rest) := match afterWhole with
    | '.' :: more => (more.takeWhile Char.isDigit, more.dropWhile Char.isDigit)
    | _ => ([], afterWhole)
  if whole.isEmpty && part.isEmpty then none
  let coefficient := ofDigits (whole ++ part)
  match rest with
  | [] => some (ofScientific negative coefficient (-part.length))
  | c :: more =>
    if c.toLower = 'e' then
      (exponent? more).map fun e => ofScientific negative coefficient (e - part.length)
    else none

/-- The number of a text, rounded to the format. Infinity and what is no number go by their names
in any letter case. -/
def ofText? (cs : List Char) : Option (Binary f) :=
  let (negative, body) := match cs with
    | '-' :: more => (true, more)
    | '+' :: more => (false, more)
    | _ => (false, cs)
  if sameWord body "inf" || sameWord body "infinity" then some ⟨negative, f.infinity⟩
  else if sameWord body "nan" then some ⟨negative, f.notANumber⟩
  else ofUnsigned? negative body

end Number.Binary

end RecordQuery
