import RecordQuery.Number.Decimal
import Mathlib.Algebra.Order.Field.Basic
import Mathlib.Data.Rat.Cast.Order
import Mathlib.Order.Compare
import Mathlib.Tactic.Positivity

/-!
# Decimals as rational numbers

A decimal stands for a rational number, of which its places say nothing: decimals are ordered as
these numbers are.
-/

namespace RecordQuery

namespace Number

/-- The order of two integers is that of the rational numbers they are. -/
lemma compares_compare_int (m n : Int) : (Ord.compare m n).Compares (m : ℚ) (n : ℚ) := by
  cases h : Ord.compare m n with
  | lt => exact Int.cast_lt.mpr (Int.compare_eq_lt.mp h)
  | eq => exact congrArg _ (Int.compare_eq_eq.mp h)
  | gt => exact Int.cast_lt.mpr (Int.compare_eq_gt.mp h)

namespace Decimal

/-- The number that a decimal stands for. -/
def toRat (x : Decimal) : ℚ := x.coefficient / 10 ^ x.scale

@[simp] lemma toRat_ofInt (n : Int) : (ofInt n).toRat = n := by
  simp [toRat, ofInt]

lemma cast_tenTo (n : Nat) : ((tenTo n : Int) : ℚ) = 10 ^ n := by
  simp [tenTo]

/-- The order of two decimals is that of their numbers. -/
theorem compares_compare (x y : Decimal) : (x.compare y).Compares x.toRat y.toRat := by
  have hx : (0 : ℚ) < 10 ^ x.scale := by positivity
  have hy : (0 : ℚ) < 10 ^ y.scale := by positivity
  have h : (x.compare y).Compares ((x.coefficient * tenTo y.scale : Int) : ℚ)
      ((y.coefficient * tenTo x.scale : Int) : ℚ) := compares_compare_int _ _
  rw [Int.cast_mul, Int.cast_mul, cast_tenTo, cast_tenTo] at h
  rw [toRat, toRat]
  cases horder : x.compare y with
  | lt => exact (div_lt_div_iff₀ hx hy).mpr (h.eq_lt.mp horder)
  | eq => exact (div_eq_div_iff hx.ne' hy.ne').mpr (h.eq_eq.mp horder)
  | gt => exact (div_lt_div_iff₀ hy hx).mpr (h.eq_gt.mp horder)

end Decimal

end Number

end RecordQuery
