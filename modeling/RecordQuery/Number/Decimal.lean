import RecordQuery.Number.Digits
import RecordQuery.Number.Power

/-!
# Decimal numbers

A decimal is an integer of 96 bits and a sign over a power of ten, with at most 28 decimal places.
The places are kept: `1.50` stays `1.50`, though it is as great as `1.5`. A text with more digits
than fit is rounded at the first that does not, half up in magnitude, and so is a decimal that an
exponent moves below the last place.
-/

namespace RecordQuery

namespace Number

/-- The greatest coefficient of a decimal. -/
def Decimal.maxCoefficient : Nat := twoTo 96 - 1

/-- The most decimal places. -/
def Decimal.maxScale : Nat := 28

/-- The number `coefficient / 10 ^ scale`. -/
structure Decimal where
  coefficient : Int
  scale : Nat
  deriving DecidableEq

namespace Decimal

/-- An integer as a decimal. -/
def ofInt (n : Int) : Decimal := ⟨n, 0⟩

/-- The order of decimals as numbers, whatever their places. -/
def compare (x y : Decimal) : Ordering :=
  Ord.compare (x.coefficient * tenTo y.scale) (y.coefficient * tenTo x.scale)

/-- The text of a decimal, with all its places. Zero has no sign. -/
def text (x : Decimal) : String :=
  let body := positional x.coefficient.natAbs (-x.scale)
  String.ofList (if x.coefficient < 0 then '-' :: body else body)

/-! ### Reading -/

/-- Rounding at the first digit that does not fit. Where the coefficient has no room for one more,
a decimal place is given up; without a place there is no decimal. -/
def roundUp? (coefficient scale : Nat) : Option (Nat × Nat) :=
  if coefficient < maxCoefficient then some (coefficient + 1, scale)
  else if scale = 0 then none
  else some ((coefficient + 5) / 10, scale - 1)

/-- Coefficient and scale of an unsigned text of digits with at most one point, after `coefficient`
with `scale` places has been read. The first digit that does not fit is rounded away, and only
digits may follow it. -/
def read (coefficient scale : Nat) (pointSeen : Bool) : List Char → Option (Nat × Nat)
  | [] => some (coefficient, scale)
  | c :: cs =>
    if c = '.' && !pointSeen then read coefficient scale true cs
    else if !c.isDigit then none
    else
      let next := 10 * coefficient + digitValue c
      if !pointSeen && maxCoefficient < next then none
      else if pointSeen && (scale = maxScale || maxCoefficient < next) then
        if !cs.all Char.isDigit then none
        else if 5 ≤ digitValue c then roundUp? coefficient scale
        else some (coefficient, scale)
      else read next (if pointSeen then scale + 1 else 0) pointSeen cs

/-- Coefficient and scale of an unsigned text with a digit before its exponent. -/
def mantissa? (cs : List Char) : Option (Nat × Nat) :=
  match cs with
  | '.' :: c :: _ => if c.isDigit then read 0 0 false cs else none
  | c :: _ => if c.isDigit then read 0 0 false cs else none
  | [] => none

/-- The quotient `n / d` as the nearest natural number, the greater one of two that are as near. -/
def roundHalfUp (n d : Nat) : Nat := (2 * n + d) / (2 * d)

/-- The decimal divided by a power of ten. Where that takes more places than there are, the last of
them are rounded away. The power itself is no greater than the most decimal places. -/
def lower? (coefficient scale places : Nat) : Option (Nat × Nat) :=
  if maxScale < places then none
  else if scale + places ≤ maxScale then some (coefficient, scale + places)
  else some (roundHalfUp coefficient (tenTo (scale + places - maxScale)), maxScale)

/-- The decimal multiplied by a power of ten. The power uses up decimal places first; where it does
not end there, it is no greater than the most decimal places. -/
def raise? (coefficient scale places : Nat) : Option (Nat × Nat) :=
  if places ≤ scale then some (coefficient, scale - places)
  else if maxScale < places then none
  else
    let moved := coefficient * tenTo (places - scale)
    if moved ≤ maxCoefficient then some (moved, 0) else none

/-- The decimal moved by an exponent. -/
def shift? (coefficient scale : Nat) (exponent : Int) : Option (Nat × Nat) :=
  if exponent < 0 then lower? coefficient scale exponent.natAbs
  else raise? coefficient scale exponent.natAbs

/-- The power of ten that an exponent writes. -/
def decimalExponent? : List Char → Option Int
  | '-' :: cs => (unsigned? cs).map fun n => -(n : Int)
  | cs => (unsigned? cs).map Int.ofNat
where
  unsigned? : List Char → Option Nat
    | '+' :: cs => natural? cs
    | cs => natural? cs

/-- The decimal of a text: an optional sign, digits with at most one point, and at most one
exponent. -/
def ofText? (cs : List Char) : Option Decimal := do
  let (negative, body) := match cs with
    | '-' :: more => (true, more)
    | '+' :: more => (false, more)
    | _ => (false, cs)
  let isMark (c : Char) : Bool := c.toLower == 'e'
  let (coefficient, scale) ← mantissa? (body.takeWhile (!isMark ·))
  let (coefficient, scale) ← match body.dropWhile (!isMark ·) with
    | [] => some (coefficient, scale)
    | _ :: exponent => do shift? coefficient scale (← decimalExponent? exponent)
  return ⟨if negative then -coefficient else coefficient, scale⟩

end Decimal

end Number

end RecordQuery
