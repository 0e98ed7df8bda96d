import RecordQuery.Number.Hex
import Mathlib.Algebra.Group.Nat.Even
import Mathlib.Data.List.Induction
import Mathlib.Tactic.Common

/-!
# Base sixteen is read as it is written

Numbers written in base sixteen are read back, with zeros in front or without.
-/

namespace RecordQuery

namespace Number

variable {n width : Nat} {c : Char} {cs : List Char}

lemma ofHex?_append_singleton (cs : List Char) (c : Char) :
    ofHex? (cs ++ [c]) = (ofHex? cs).bind fun n => (hexValue? c).map (16 * n + ·) := by
  simp [ofHex?, List.foldlM_append]

/-- What holds of the digits in base sixteen can be found out for each of them. -/
lemma forall_hexDigit {P : Char → Prop}
    (h : ∀ n < 128, (hexValue? (Char.ofNat n)).isSome → P (Char.ofNat n))
    (hc : (hexValue? c).isSome) : P c := by
  have hsmall : c.toNat < 128 := by
    rw [hexValue?] at hc
    split_ifs at hc with hdigit hlower hupper
    · have hrange : 48 ≤ c.toNat ∧ c.toNat ≤ 57 := Char.isDigit_iff_toNat.mp hdigit
      omega
    · have hle : c.toNat ≤ 102 := of_decide_eq_true ((Bool.and_eq_true _ _).mp hlower).2
      omega
    · have hle : c.toNat ≤ 70 := of_decide_eq_true ((Bool.and_eq_true _ _).mp hupper).2
      omega
    · cases hc
  have hchar := h c.toNat hsmall
  rw [Char.ofNat_toNat] at hchar
  exact hchar hc

/-- A text with a number has digits only. -/
lemma isSome_hexValue?_of_ofHex? (h : (ofHex? cs).isSome) : ∀ c ∈ cs, (hexValue? c).isSome := by
  induction cs using List.reverseRecOn with
  | nil => simp
  | append_singleton cs c ih =>
    rw [ofHex?_append_singleton] at h
    obtain ⟨m, h⟩ := Option.isSome_iff_exists.mp h
    obtain ⟨n, hn, h⟩ := Option.bind_eq_some_iff.mp h
    obtain ⟨d, hd, -⟩ := Option.map_eq_some_iff.mp h
    intro e he
    rcases List.mem_append.mp he with he | he
    · exact ih (by simp [hn]) e he
    · rw [List.mem_singleton.mp he, hd]
      rfl

/-- A text of digits has a number. -/
lemma isSome_ofHex? (h : ∀ c ∈ cs, (hexValue? c).isSome) : (ofHex? cs).isSome := by
  induction cs using List.reverseRecOn with
  | nil => rfl
  | append_singleton cs c ih =>
    obtain ⟨hcs, hc⟩ := List.forall_mem_append.mp h
    obtain ⟨n, hn⟩ := Option.isSome_iff_exists.mp (ih hcs)
    obtain ⟨d, hd⟩ := Option.isSome_iff_exists.mp (hc c (List.mem_singleton_self c))
    rw [ofHex?_append_singleton, hn, hd]
    rfl

lemma ofHex?_hexDigits (n : Nat) : ofHex? (hexDigits n) = some n := by
  induction n using Nat.strongRecOn with
  | _ n ih =>
    rw [hexDigits, Nat.toDigits_eq_if (by decide)]
    split_ifs with hsmall
    · have h := ofHex?_append_singleton [] (Nat.digitChar n)
      rw [List.nil_append] at h
      rw [h, hexValue?_digitChar n hsmall]
      simp [ofHex?]
    · have hih := ih (n / 16) (by omega)
      rw [hexDigits] at hih
      rw [ofHex?_append_singleton, hih, hexValue?_digitChar _ (Nat.mod_lt n (by decide))]
      simp only [Option.bind_some, Option.map_some, Option.some.injEq]
      omega

/-- Zeros in front do not count. -/
lemma ofHex?_zeros_append (k : Nat) (cs : List Char) :
    ofHex? (List.replicate k '0' ++ cs) = ofHex? cs := by
  induction cs using List.reverseRecOn with
  | nil =>
    rw [List.append_nil]
    induction k with
    | zero => rfl
    | succ k ih =>
      rw [List.replicate_succ', ofHex?_append_singleton, ih]
      rfl
  | append_singleton cs c ih =>
    rw [← List.append_assoc, ofHex?_append_singleton, ofHex?_append_singleton, ih]

@[simp] lemma ofHex?_hexPadded (width n : Nat) : ofHex? (hexPadded width n) = some n := by
  rw [hexPadded, ofHex?_zeros_append, ofHex?_hexDigits]

/-- A number that is small enough takes just the width. -/
lemma length_hexPadded (hwidth : 0 < width) (h : n < 16 ^ width) :
    (hexPadded width n).length = width := by
  have hle : (hexDigits n).length ≤ width :=
    (Nat.length_toDigits_le_iff (by decide) hwidth).mpr h
  rw [hexPadded, List.length_append, List.length_replicate]
  omega

end Number

end RecordQuery
