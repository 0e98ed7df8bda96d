import RecordQuery.Number.Binary

/-!
# Shortest decimals

A floating-point number is written with the fewest digits that are read back as the same number;
of several such decimals the nearest is taken, and of two as near the greater. The real numbers
that are read back as `x` form an interval around it, with its ends if the significand is even. A
decimal with few digits is a point of a coarse grid of powers of ten, so the grids are tried from
the coarsest on, and on each only the two points around `x` can be the nearest in the interval.
-/

namespace RecordQuery

namespace Number

/-- The reals that are rounded to one number: `value`, and the ends `low` and `high` of the interval
around it, all over the denominator `denominator`. -/
structure Neighbourhood where
  low : Nat
  value : Nat
  high : Nat
  denominator : Nat
  closed : Bool

/-- Holds if the point `n / d` is rounded to the number. -/
def Neighbourhood.has (i : Neighbourhood) (n d : Nat) : Bool :=
  let point := n * i.denominator
  (i.low * d < point && point < i.high * d) ||
    (i.closed && (point == i.low * d || point == i.high * d))

/-- The interval of a finite number. Below a power of two the next number is nearer by half. -/
def Binary.neighbourhood {f : Format} (x : Binary f) : Neighbourhood :=
  let atPowerOfTwo := x.significand == twoTo f.fractionBits && 0 < x.places
  let scale := twoTo x.places
  { low := (4 * x.significand - if atPowerOfTwo then 1 else 2) * scale
    value := 4 * x.significand * scale
    high := (4 * x.significand + 2) * scale
    denominator := twoTo (f.unitBits + 2)
    closed := x.significand % 2 == 0 }

/-- The point of the grid of multiples of `10 ^ exponent` that is to be written for a number: it
lies in the interval of the number, and no other point of the grid there is nearer. -/
def Neighbourhood.pointOn (i : Neighbourhood) (exponent : Int) : Option Nat :=
  let up := tenTo exponent.toNat
  let down := tenTo (-exponent).toNat
  -- In units of the grid the value is `n / d`.
  let n := i.value * down
  let d := i.denominator * up
  let below := n / d
  let above := below + 1
  let fitsBelow := i.has (below * up) down
  let fitsAbove := i.has (above * up) down
  if fitsBelow && (!fitsAbove || 2 * (n % d) < d) then some below
  else if fitsAbove then some above
  else none

/-- The first grid with a point to write, from the one with spacing `10 ^ exponent` on, trying at
most `fuel` finer ones; then what is nearest below on the last. -/
def Neighbourhood.shortestFrom (i : Neighbourhood) : Nat → Int → Nat × Int
  | 0, exponent =>
    (i.value * tenTo (-exponent).toNat / (i.denominator * tenTo exponent.toNat), exponent)
  | fuel + 1, exponent =>
    match i.pointOn exponent with
    | some n => (n, exponent)
    | none => i.shortestFrom fuel (exponent - 1)

/-- A power of ten above a number, by few places. -/
def Neighbourhood.coarsest (i : Neighbourhood) : Int :=
  ((i.value.log2 : Int) - i.denominator.log2 + 1) * 30103 / 100000 + 2

/-- Digits and power of ten of the shortest decimal for a finite number above zero. The grid of its
last binary place has it exactly, so the grids tried are enough. -/
def Binary.shortest {f : Format} (x : Binary f) : Nat × Int :=
  let i := x.neighbourhood
  i.shortestFrom (f.fractionBits + 8) i.coarsest

/-- The text of a floating-point number: the shortest decimal, without an exponent. -/
def Binary.text {f : Format} (x : Binary f) : String :=
  if x.isNaN then "NaN"
  else
    let body :=
      if !x.isFinite then "inf".toList
      else if x.magnitude = 0 then ['0']
      else positional x.shortest.1 x.shortest.2
    String.ofList (if x.negative then '-' :: body else body)

end Number

end RecordQuery
