/-!
# Decimal digits

Numbers are read from runs of the digits `0` to `9` and written with them, with a point put in or
zeros added behind as the power of ten asks. Only these ten digits count: the digits of other
scripts belong to no number here.
-/

namespace RecordQuery

/-- The value of a digit. -/
def Number.digitValue (c : Char) : Nat := c.toNat - '0'.toNat

/-- The number that a run of digits writes in base ten. -/
def Number.ofDigits (cs : List Char) : Nat := cs.foldl (fun n c => 10 * n + digitValue c) 0

/-- The number a text of digits writes; a text with none, or with anything else in it, writes no
number. -/
def Number.natural? (cs : List Char) : Option Nat :=
  if cs.isEmpty || !cs.all Char.isDigit then none else some (ofDigits cs)

/-- The digits of a number in base ten. -/
def Number.digits (n : Nat) : List Char := Nat.toDigits 10 n

/-- The digits of a number with zeros in front up to a width. -/
def Number.padded (width n : Nat) : List Char :=
  let ds := digits n
  List.replicate (width - ds.length) '0' ++ ds

/-- The number `n * 10 ^ exponent` without an exponent: zeros are added behind, or a point is put
in with at least one digit before it. -/
def Number.positional (n : Nat) (exponent : Int) : List Char :=
  match exponent with
  | .ofNat zeros => digits n ++ List.replicate zeros '0'
  | .negSucc k =>
    let ds := padded (k + 2) n
    ds.take (ds.length - (k + 1)) ++ '.' :: ds.drop (ds.length - (k + 1))

/-- The text of an integer. -/
def Number.integerText (n : Int) : String := toString n

end RecordQuery
