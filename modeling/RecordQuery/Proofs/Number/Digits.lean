import RecordQuery.Number.Digits
import Mathlib.Algebra.Group.Nat.Even
import Mathlib.Tactic.Common

/-!
# Digits are read as they are written

Numbers written in base ten are read back, with zeros in front or without, and with a point between
their digits.
-/

namespace RecordQuery

namespace Number

variable {n width : Nat} {c : Char} {cs ds : List Char}

/-! ### Runs of digits -/

/-- Digits have no case. -/
lemma toLower_of_isDigit (h : c.isDigit) : c.toLower = c := by
  have hrange : 48 ≤ c.toNat ∧ c.toNat ≤ 57 := Char.isDigit_iff_toNat.mp h
  have hval : c.val.toNat = c.toNat := rfl
  have hupper : ¬ (c.val ≥ 65 ∧ c.val ≤ 90) := by
    rw [ge_iff_le, UInt32.le_iff_toNat_le]
    simp only [UInt32.reduceToNat]
    omega
  exact dif_neg hupper

lemma isDigit_of_mem_digits (h : c ∈ digits n) : c.isDigit :=
  Nat.isDigit_of_mem_toDigits (by decide) (by decide) h

lemma digits_ne_nil (n : Nat) : digits n ≠ [] := Nat.toDigits_ne_nil

@[simp] lemma ofDigits_digits (n : Nat) : ofDigits (digits n) = n := Nat.ofDigitChars_ten_toDigits

/-- Digits behind others write what those do, moved by their number, and what they do. -/
lemma ofDigits_append (cs ds : List Char) :
    ofDigits (cs ++ ds) = 10 ^ ds.length * ofDigits cs + ofDigits ds :=
  (Nat.ofDigitChars_append 0).trans Nat.ofDigitChars_eq_ofDigitChars_zero

lemma digitValue_le (h : c.isDigit) : digitValue c ≤ 9 := by
  have hrange : 48 ≤ c.toNat ∧ c.toNat ≤ 57 := Char.isDigit_iff_toNat.mp h
  have hzero : '0'.toNat = 48 := rfl
  rw [digitValue, hzero]
  omega

/-- So many digits write no number greater than nines. -/
lemma ofDigits_lt (h : ∀ c ∈ cs, c.isDigit) : ofDigits cs < 10 ^ cs.length := by
  induction cs with
  | nil => decide
  | cons c cs ih =>
    obtain ⟨hc, hcs⟩ := List.forall_mem_cons.mp h
    have hvalue : ofDigits (c :: cs) = 10 ^ cs.length * ofDigits [c] + ofDigits cs :=
      ofDigits_append [c] cs
    have hdigit : ofDigits [c] ≤ 9 := by simpa [ofDigits] using digitValue_le hc
    have hmul := Nat.mul_le_mul_left (10 ^ cs.length) hdigit
    have hrest := ih hcs
    rw [hvalue, List.length_cons, Nat.pow_succ]
    omega

lemma le_ofDigitChars (cs : List Char) (n : Nat) : n ≤ Nat.ofDigitChars 10 cs n := by
  rw [Nat.ofDigitChars_eq_ofDigitChars_zero]
  exact Nat.le_add_right_of_le (Nat.le_mul_of_pos_left n (Nat.pow_pos (by decide)))

lemma natural?_eq_some (hne : cs ≠ []) (h : ∀ c ∈ cs, c.isDigit) :
    natural? cs = some (ofDigits cs) := by
  simpa [natural?, hne] using h

/-! ### Zeros in front -/

lemma isDigit_of_mem_padded (h : c ∈ padded width n) : c.isDigit := by
  rcases List.mem_append.mp h with hzero | hdigit
  · rw [List.eq_of_mem_replicate hzero]
    decide
  · exact isDigit_of_mem_digits hdigit

@[simp] lemma ofDigits_padded (width n : Nat) : ofDigits (padded width n) = n := by
  have hzeros (k : Nat) : ofDigits (List.replicate k '0') = 0 := Nat.ofDigitChars_replicate_zero
  rw [padded, ofDigits_append, hzeros, ofDigits_digits, Nat.mul_zero, Nat.zero_add]

lemma le_length_padded (width n : Nat) : width ≤ (padded width n).length := by
  rw [padded, List.length_append, List.length_replicate]
  omega

/-- A number that is small enough takes just the width. -/
lemma length_padded (hwidth : 0 < width) (h : n < 10 ^ width) :
    (padded width n).length = width := by
  have hle : (digits n).length ≤ width :=
    (Nat.length_toDigits_le_iff (by decide) hwidth).mpr h
  rw [padded, List.length_append, List.length_replicate]
  omega

/-! ### Points -/

/-- Without an exponent that is greater than zero, the digits of a number stand before and after a
point, at least one of them before it. -/
lemma exists_positional (n scale : Nat) :
    ∃ whole fraction, whole ≠ [] ∧ (∀ c ∈ whole ++ fraction, c.isDigit) ∧
      fraction.length = scale ∧ ofDigits (whole ++ fraction) = n ∧
      positional n (-scale) = whole ++ (if scale = 0 then [] else '.' :: fraction) := by
  cases scale with
  | zero =>
    refine ⟨digits n, [], digits_ne_nil n, ?_, rfl, ?_, rfl⟩
    · intro c hc
      rw [List.append_nil] at hc
      exact isDigit_of_mem_digits hc
    · rw [List.append_nil, ofDigits_digits]
  | succ k =>
    have hlength := le_length_padded (k + 2) n
    refine ⟨(padded (k + 2) n).take ((padded (k + 2) n).length - (k + 1)),
      (padded (k + 2) n).drop ((padded (k + 2) n).length - (k + 1)), ?_, ?_, ?_, ?_, rfl⟩
    · rw [← List.length_pos_iff, List.length_take]
      omega
    · intro c hc
      rw [List.take_append_drop] at hc
      exact isDigit_of_mem_padded hc
    · rw [List.length_drop]
      omega
    · rw [List.take_append_drop, ofDigits_padded]

end Number

end RecordQuery
