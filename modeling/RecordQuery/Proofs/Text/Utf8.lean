import RecordQuery.Text.Utf8
import Mathlib.Tactic.Common
import Mathlib.Tactic.IntervalCases

/-!
# Bytes are read as they are written

Of the bytes of characters, with any bytes behind them, the first character is read and all its
bytes are taken. So the bytes of a text are read as that text, also by the reader that refuses
nothing.
-/

namespace RecordQuery

namespace Utf8

variable {n : Nat} {c : Char} {cs : List Char} {bytes : List UInt8}

/-- What a first byte says, by its number. -/
lemma lead?_ofNat (hn : n < 256) :
    lead? (UInt8.ofNat n) =
      if n < 0x80 then some { more := 0, bits := n }
      else if n < 0xC2 then none
      else if n < 0xE0 then some { more := 1, bits := n - 0xC0 }
      else if n = 0xE0 then some { more := 2, bits := 0, least := 0xA0 }
      else if n = 0xED then some { more := 2, bits := 0xD, greatest := 0x9F }
      else if n < 0xF0 then some { more := 2, bits := n - 0xE0 }
      else if n = 0xF0 then some { more := 3, bits := 0, least := 0x90 }
      else if n = 0xF4 then some { more := 3, bits := 4, greatest := 0x8F }
      else if n < 0xF4 then some { more := 3, bits := n - 0xF0 }
      else none := by
  have hnat : (UInt8.ofNat n).toNat = n := UInt8.toNat_ofNat_of_lt' hn
  simp only [lead?, UInt8.lt_iff_toNat_lt, ← UInt8.toNat_inj, hnat, UInt8.reduceToNat]

lemma lead?_one (hn : n < 0x80) : lead? (UInt8.ofNat n) = some { more := 0, bits := n } := by
  rw [lead?_ofNat (by omega), if_pos hn]

lemma lead?_two (hleast : 2 ≤ n) (hgreatest : n < 0x20) :
    lead? (UInt8.ofNat (n + 0xC0)) = some { more := 1, bits := n } := by
  rw [lead?_ofNat (by omega), if_neg (by omega), if_neg (by omega), if_pos (by omega),
    Nat.add_sub_cancel]

lemma lead?_three (hn : n < 0x10) :
    lead? (UInt8.ofNat (n + 0xE0)) =
      some ⟨2, n, if n = 0 then 0xA0 else 0x80, if n = 0xD then 0x9F else 0xBF⟩ := by
  interval_cases n <;> rfl

lemma lead?_four (hn : n ≤ 4) :
    lead? (UInt8.ofNat (n + 0xF0)) =
      some ⟨3, n, if n = 0 then 0x90 else 0x80, if n = 4 then 0x8F else 0xBF⟩ := by
  interval_cases n <;> rfl

/-- A byte that goes on with a character adds its six bits. -/
lemma follow_cons {more bits : Nat} {least greatest : UInt8} (hn : n < 64)
    (hleast : least.toNat ≤ n + 0x80) (hgreatest : n + 0x80 ≤ greatest.toNat) :
    follow (more + 1) bits least greatest (UInt8.ofNat (n + 0x80) :: bytes) =
      ((follow more (64 * bits + n) 0x80 0xBF bytes).1,
        (follow more (64 * bits + n) 0x80 0xBF bytes).2 + 1) := by
  have hnat : (UInt8.ofNat (n + 0x80)).toNat = n + 0x80 :=
    UInt8.toNat_ofNat_of_lt' (show n + 0x80 < 256 by omega)
  rw [follow, if_pos]
  · rw [hnat, Nat.add_sub_cancel]
  · simp only [UInt8.le_iff_toNat_le, hnat, hleast, hgreatest, decide_true, Bool.and_true]

/-- The bytes of a character are read as that character, whatever comes behind them. -/
lemma front_utf8EncodeChar (c : Char) (bytes : List UInt8) :
    ∃ b more, String.utf8EncodeChar c = b :: more ∧
      front b (more ++ bytes) = (some c, more.length) := by
  -- not every number is a character: surrogates are left out
  have hvalid : c.val.toNat < 0xD800 ∨ 0xDFFF < c.val.toNat ∧ c.val.toNat < 0x110000 := c.valid
  have hchar : Char.ofNat c.val.toNat = c := Char.ofNat_toNat c
  unfold String.utf8EncodeChar
  generalize c.val.toNat = v at hvalid hchar
  simp only
  split_ifs with hone htwo hthree
  · refine ⟨_, _, rfl, ?_⟩
    rw [front, lead?_one (by omega)]
    simp [follow, hchar]
  · refine ⟨_, _, rfl, ?_⟩
    have hbits : 64 * (v / 64 % 0x20) + v % 0x40 = v := by omega
    rw [front, lead?_two (by omega) (by omega)]
    simp only [List.cons_append, List.nil_append]
    rw [follow_cons (by omega) (by simp) (by simp; omega), hbits, follow]
    simp [hchar]
  · refine ⟨_, _, rfl, ?_⟩
    have hbits : 64 * (64 * (v / 4096 % 0x10) + v / 64 % 0x40) + v % 0x40 = v := by omega
    rw [front, lead?_three (by omega)]
    simp only [List.cons_append, List.nil_append]
    rw [follow_cons (by omega) (by split_ifs <;> simp; omega) (by split_ifs <;> simp <;> omega),
      follow_cons (by omega) (by simp) (by simp; omega), hbits, follow]
    simp [hchar]
  · refine ⟨_, _, rfl, ?_⟩
    have hbits : 64 * (64 * (64 * (v / 262144 % 0x08) + v / 4096 % 0x40) + v / 64 % 0x40) +
        v % 0x40 = v := by omega
    rw [front, lead?_four (by omega)]
    simp only [List.cons_append, List.nil_append]
    rw [follow_cons (by omega) (by split_ifs <;> simp; omega) (by split_ifs <;> simp <;> omega),
      follow_cons (by omega) (by simp) (by simp; omega),
      follow_cons (by omega) (by simp) (by simp; omega), hbits, follow]
    simp [hchar]

/-- The bytes of a text are read as that text. -/
theorem decodeLossy_encode (cs : List Char) : decodeLossy (encode cs) = cs := by
  induction cs with
  | nil => rw [encode, List.flatMap_nil, decodeLossy]
  | cons c cs ih =>
    obtain ⟨b, more, hc, hfront⟩ := front_utf8EncodeChar c (encode cs)
    have hencode : encode (c :: cs) = b :: (more ++ encode cs) := by
      rw [encode, List.flatMap_cons, hc, List.cons_append, encode]
    rw [hencode, decodeLossy, hfront]
    simp only [Option.getD_some, List.drop_left]
    rw [ih]

end Utf8

end RecordQuery
