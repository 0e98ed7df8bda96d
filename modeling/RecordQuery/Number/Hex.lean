/-!
# Base sixteen

Bytes, code points and guids are written in base sixteen. Digits above nine are read in either case
and written as small letters.
-/

namespace RecordQuery

/-- The value of a digit in base sixteen. -/
def Number.hexValue? (c : Char) : Option Nat :=
  if c.isDigit then some (c.toNat - '0'.toNat)
  else if 'a' ≤ c && c ≤ 'f' then some (c.toNat - 'a'.toNat + 10)
  else if 'A' ≤ c && c ≤ 'F' then some (c.toNat - 'A'.toNat + 10)
  else none

theorem Number.hexValue?_digitChar : ∀ d < 16, hexValue? (Nat.digitChar d) = some d := by decide

/-- The number that digits in base sixteen write. -/
def Number.ofHex? (cs : List Char) : Option Nat :=
  cs.foldlM (fun n c => (hexValue? c).map (16 * n + ·)) 0

/-- The digits of a number in base sixteen. -/
def Number.hexDigits (n : Nat) : List Char := Nat.toDigits 16 n

/-- The digits of a number in base sixteen, with zeros in front up to a width. -/
def Number.hexPadded (width n : Nat) : List Char :=
  let ds := hexDigits n
  List.replicate (width - ds.length) '0' ++ ds

end RecordQuery
