import RecordQuery.Proofs.Text.Utf8
import RecordQuery.Text.FormEncoding
import Mathlib.Data.List.TakeWhile

/-!
# Query strings are read as they are written

There are many ways to write a name or a value in a query string: each byte of it may be escaped, in
either case, and most characters need not be. Whichever way the pairs are written, they are read as
these pairs, and writing them is one of the ways.
-/

namespace RecordQuery

namespace FormEncoding

variable {cs piece : List Char} {bs : List UInt8} {name value s : String} {p : String × String}
variable {pieces : List (List Char)} {ps : List (String × String)}

/-! ### Names and values -/

/-- Characters write bytes: a character that is no mark writes its own, a plus sign writes a blank,
and any byte may be escaped. -/
inductive Writes : List Char → List UInt8 → Prop
  | nil : Writes [] []
  | plain {c : Char} {cs : List Char} {bs : List UInt8} (hpercent : c ≠ '%') (hplus : c ≠ '+')
      (h : Writes cs bs) : Writes (c :: cs) (String.utf8EncodeChar c ++ bs)
  | blank {cs : List Char} {bs : List UInt8} (h : Writes cs bs) :
      Writes ('+' :: cs) (' '.toUInt8 :: bs)
  | escaped {high low : Char} {m n : Nat} {cs : List Char} {bs : List UInt8}
      (hhigh : Number.hexValue? high = some m) (hlow : Number.hexValue? low = some n)
      (h : Writes cs bs) : Writes ('%' :: high :: low :: cs) (UInt8.ofNat (16 * m + n) :: bs)

/-- Characters write a text if they write its bytes. -/
def WritesText (cs : List Char) (s : String) : Prop := Writes cs (Utf8.encode s.toList)

lemma decodeBytes_of_writes (h : Writes cs bs) : decodeBytes cs = bs := by
  induction h with
  | nil => rw [decodeBytes]
  | plain hpercent hplus h ih =>
    rw [decodeBytes, ih]
    · rintro high low cs hc
      exact absurd hc hpercent
    · exact hplus
  | blank h ih => rw [decodeBytes, ih]
  | escaped hhigh hlow h ih => simp only [decodeBytes, hhigh, hlow, ih]

lemma decode_of_writesText (h : WritesText cs s) : decode cs = s := by
  rw [decode, decodeBytes_of_writes h, Utf8.decodeLossy_encode, String.ofList_toList]

/-- A text without marks writes itself. -/
lemma writesText_self (hpercent : '%' ∉ s.toList) (hplus : '+' ∉ s.toList) :
    WritesText s.toList s := by
  rw [WritesText]
  generalize s.toList = cs at hpercent hplus ⊢
  induction cs with
  | nil => exact .nil
  | cons c cs ih =>
    rw [List.mem_cons, not_or] at hpercent hplus
    rw [Utf8.encode, List.flatMap_cons]
    exact .plain (Ne.symm hpercent.1) (Ne.symm hplus.1) (ih hpercent.2 hplus.2)

/-- A character that stands for itself has one byte, and so has the blank. -/
lemma utf8EncodeChar_of_isPlain :
    ∀ n < 256, (isPlain (Char.ofNat n) ∨ Char.ofNat n = ' ') →
      String.utf8EncodeChar (Char.ofNat n) = [UInt8.ofNat n] := by
  decide +kernel

lemma hexValue?_hexDigit : ∀ n < 16, Number.hexValue? (hexDigit n) = some n := by decide

/-- A byte as it is written here is written. -/
lemma writes_encodeByte (b : UInt8) (h : Writes cs bs) : Writes (encodeByte b ++ cs) (b :: bs) := by
  have hb : b.toNat < 256 := b.toNat_lt
  have hbyte : UInt8.ofNat b.toNat = b := UInt8.ofNat_toNat
  rw [encodeByte]
  split_ifs with hplain hblank
  · have hencode := utf8EncodeChar_of_isPlain b.toNat hb (.inl hplain)
    have hne {mark : Char} (hmark : isPlain mark = false) : Char.ofNat b.toNat ≠ mark := by
      rintro rfl
      exact Bool.false_ne_true (hmark.symm.trans hplain)
    have hpercent : Char.ofNat b.toNat ≠ '%' := hne rfl
    have hplus : Char.ofNat b.toNat ≠ '+' := hne rfl
    have hwrites := h.plain hpercent hplus
    rwa [hencode, hbyte] at hwrites
  · have hencode := utf8EncodeChar_of_isPlain b.toNat hb (.inr hblank)
    rw [hblank, hbyte] at hencode
    cases hencode
    exact h.blank
  · have hdigits : UInt8.ofNat (16 * (b.toNat / 16) + b.toNat % 16) = b := by
      rw [Nat.div_add_mod, hbyte]
    have hwrites := h.escaped (hexValue?_hexDigit (b.toNat / 16) (by omega))
      (hexValue?_hexDigit (b.toNat % 16) (by omega))
    rwa [hdigits] at hwrites

/-- A text as it is written here is written. -/
lemma writesText_encode (s : String) : WritesText (encode s) s := by
  rw [WritesText, encode]
  induction Utf8.encode s.toList with
  | nil => exact .nil
  | cons b bs ih =>
    rw [List.flatMap_cons]
    exact writes_encodeByte b ih

/-- Names and values are written with few characters. -/
lemma cases_of_mem_encode {c : Char} (h : c ∈ encode s) :
    isPlain c ∨ c = '+' ∨ c = '%' ∨ (Number.hexValue? c).isSome := by
  obtain ⟨b, -, hc⟩ := List.mem_flatMap.mp h
  have hb : b.toNat < 256 := b.toNat_lt
  rw [encodeByte] at hc
  split_ifs at hc with hplain hblank
  · rw [List.mem_singleton.mp hc]
    exact .inl hplain
  · rw [List.mem_singleton.mp hc]
    exact .inr (.inl rfl)
  · simp only [List.mem_cons, List.not_mem_nil, or_false] at hc
    rcases hc with rfl | rfl | rfl
    · exact .inr (.inr (.inl rfl))
    · simp [hexValue?_hexDigit (b.toNat / 16) (by omega)]
    · simp [hexValue?_hexDigit (b.toNat % 16) (by omega)]

/-- No mark that divides pairs is written as part of a name or a value. -/
lemma not_mem_encode {mark : Char} (hplain : isPlain mark = false) (hplus : mark ≠ '+')
    (hpercent : mark ≠ '%') (hdigit : Number.hexValue? mark = none) : mark ∉ encode s := by
  intro h
  rcases cases_of_mem_encode h with h | h | h | h
  · exact Bool.false_ne_true (hplain.symm.trans h)
  · exact hplus h
  · exact hpercent h
  · rw [hdigit] at h
    cases h

/-! ### Pairs -/

/-- Characters write a pair: its name, the mark `=` and its value, in which this mark may occur as
well. If the value is empty, then the name alone does. -/
inductive WritesPair : List Char → String × String → Prop
  | full {cs ds : List Char} {name value : String} (hequals : '=' ∉ cs) (hname : WritesText cs name)
      (hvalue : WritesText ds value) : WritesPair (cs ++ '=' :: ds) (name, value)
  | bare {cs : List Char} {name : String} (hne : cs ≠ []) (hequals : '=' ∉ cs)
      (hname : WritesText cs name) : WritesPair cs (name, "")

lemma WritesPair.ne_nil (h : WritesPair piece p) : piece ≠ [] := by
  cases h with
  | full => simp
  | bare hne => exact hne

lemma pair_of_writesPair (h : WritesPair piece p) : pair piece = p := by
  have hbefore {cs : List Char} (hequals : '=' ∉ cs) : ∀ c ∈ cs, (c != '=') = true := by
    intro c hc
    exact bne_iff_ne.mpr (ne_of_mem_of_not_mem hc hequals)
  cases h with
  | full hequals hname hvalue =>
    rw [pair, List.takeWhile_append_of_pos (hbefore hequals),
      List.dropWhile_append_of_pos (hbefore hequals)]
    simp [decode_of_writesText hname, decode_of_writesText hvalue]
  | bare hne hequals hname =>
    have hempty : decode [] = "" := decode_of_writesText .nil
    rw [pair, List.takeWhile_eq_self_iff.mpr (hbefore hequals),
      List.dropWhile_eq_nil_iff.mpr (hbefore hequals), List.drop_nil, decode_of_writesText hname,
      hempty]

/-- Pieces write pairs in their order. Empty pieces write none. -/
inductive WritesPairs : List (List Char) → List (String × String) → Prop
  | nil : WritesPairs [] []
  | empty {pieces : List (List Char)} {ps : List (String × String)} (h : WritesPairs pieces ps) :
      WritesPairs ([] :: pieces) ps
  | pair {piece : List Char} {p : String × String} {pieces : List (List Char)}
      {ps : List (String × String)} (hmark : '&' ∉ piece) (hp : WritesPair piece p)
      (h : WritesPairs pieces ps) : WritesPairs (piece :: pieces) (p :: ps)

lemma WritesPairs.not_mem (h : WritesPairs pieces ps) : ∀ piece ∈ pieces, '&' ∉ piece := by
  induction h with
  | nil => simp
  | empty _ ih => simpa using ih
  | pair hmark _ _ ih => simpa [hmark] using ih

lemma map_pair_of_writesPairs (h : WritesPairs pieces ps) :
    (pieces.filter (!·.isEmpty)).map pair = ps := by
  induction h with
  | nil => rfl
  | empty _ ih => simpa using ih
  | pair _ hp _ ih =>
    rw [List.filter_cons_of_pos (by simpa using hp.ne_nil), List.map_cons, pair_of_writesPair hp,
      ih]

/-- Names without marks may stand as they are. -/
lemma writesPairs_names (h : ∀ p ∈ ps, '=' ∉ p.1.toList ∧ '%' ∉ p.1.toList ∧ '+' ∉ p.1.toList ∧
      '&' ∉ p.1.toList) :
    WritesPairs (ps.map fun (name, value) => name.toList ++ '=' :: encode value) ps := by
  induction ps with
  | nil => exact .nil
  | cons p ps ih =>
    obtain ⟨⟨hequals, hpercent, hplus, hmark⟩, hps⟩ := List.forall_mem_cons.mp h
    have hvalue : '&' ∉ encode p.2 := not_mem_encode rfl (by decide) (by decide) rfl
    have hname := writesText_self hpercent hplus
    refine .pair ?_ (.full hequals hname (writesText_encode p.2)) (ih hps)
    simp [hmark, hvalue]

/-- A query string writes pairs: pieces that do, with `&` between them and maybe a question mark in
front. A text with none in front does not start with one. -/
def WritesAll (s : String) (ps : List (String × String)) : Prop :=
  ∃ pieces, WritesPairs pieces ps ∧
    (s.toList = '?' :: ['&'].intercalate pieces ∨
      s.toList = ['&'].intercalate pieces ∧ s.toList.head? ≠ some '?')

/-- The pairs of a query string are those that it writes. -/
theorem pairs_of_writesAll (h : WritesAll s ps) : pairs s = ps := by
  obtain ⟨pieces, hpieces, hs⟩ := h
  have hsplit : ((['&'].intercalate pieces).splitOn '&').filter (!·.isEmpty) =
      pieces.filter (!·.isEmpty) := by
    cases pieces with
    | nil => rfl
    | cons piece pieces =>
      rw [List.splitOn_intercalate '&' hpieces.not_mem (List.cons_ne_nil piece pieces)]
  rw [pairs]
  rcases hs with hs | ⟨hs, hmark⟩
  · rw [hs]
    simp only
    rw [hsplit, map_pair_of_writesPairs hpieces]
  · split
    · rename_i hfront
      rw [hfront] at hmark
      exact absurd rfl hmark
    · rw [hs, hsplit, map_pair_of_writesPairs hpieces]

lemma not_mem_intercalate {mark divider : Char} (hdivider : mark ≠ divider)
    (h : ∀ piece ∈ pieces, mark ∉ piece) : mark ∉ [divider].intercalate pieces := by
  induction pieces with
  | nil => simp
  | cons piece pieces ih =>
    obtain ⟨hpiece, hpieces⟩ := List.forall_mem_cons.mp h
    cases pieces with
    | nil => simpa using hpiece
    | cons next pieces =>
      rw [List.intercalate_cons_cons]
      simp [hpiece, hdivider, ih hpieces]

lemma writesPair_encode (name value : String) :
    WritesPair (encode name ++ '=' :: encode value) (name, value) :=
  .full (not_mem_encode rfl (by decide) (by decide) rfl) (writesText_encode name)
    (writesText_encode value)

/-- Pairs as they are written here are written. -/
theorem writesAll_ofPairs (ps : List (String × String)) : WritesAll (ofPairs ps) ps := by
  have hmark {mark : Char} (hplain : isPlain mark = false) (hplus : mark ≠ '+')
      (hpercent : mark ≠ '%') (hequals : mark ≠ '=') (hdigit : Number.hexValue? mark = none)
      (name value : String) : mark ∉ encode name ++ '=' :: encode value := by
    have h (text : String) : mark ∉ encode text := not_mem_encode hplain hplus hpercent hdigit
    simp [h, hequals]
  refine ⟨ps.map fun (name, value) => encode name ++ '=' :: encode value, ?_, .inr ⟨?_, ?_⟩⟩
  · induction ps with
    | nil => exact .nil
    | cons p ps ih =>
      have hp := writesPair_encode p.1 p.2
      exact .pair (hmark rfl (by decide) (by decide) (by decide) rfl p.1 p.2) hp ih
  · rw [ofPairs, String.toList_ofList]
  · rw [ofPairs, String.toList_ofList]
    have hquestion : '?' ∉ ['&'].intercalate
        (ps.map fun (name, value) => encode name ++ '=' :: encode value) := by
      refine not_mem_intercalate (by decide) ?_
      rintro _ hpiece
      obtain ⟨p, -, rfl⟩ := List.mem_map.mp hpiece
      exact hmark rfl (by decide) (by decide) (by decide) rfl p.1 p.2
    exact fun hhead => hquestion (List.mem_of_mem_head? hhead)

end FormEncoding

end RecordQuery
