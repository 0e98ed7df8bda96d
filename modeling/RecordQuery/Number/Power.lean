/-!
# Powers of two and of ten

Numbers are written with powers of ten, and kept in fields whose bounds are powers of two.
-/

namespace RecordQuery

/-- A power of two. -/
def Number.twoTo (exponent : Nat) : Nat := Nat.pow 2 exponent

/-- A power of ten. -/
def Number.tenTo (exponent : Nat) : Nat := Nat.pow 10 exponent

theorem Number.twoTo_pos (exponent : Nat) : 0 < twoTo exponent := Nat.pow_pos (by decide)

theorem Number.tenTo_pos (exponent : Nat) : 0 < tenTo exponent := Nat.pow_pos (by decide)

end RecordQuery
