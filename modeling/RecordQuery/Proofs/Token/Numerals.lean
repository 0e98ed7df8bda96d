import RecordQuery.Proofs.Token.Kinds
import Mathlib.Data.List.Basic

/-!
# Decimal numerals

Digits, with more digits after a point or without them, are one token with the suffix that follows
them, and the suffix gives the token its kind. The suffixes `d` and `f` are digits in base sixteen
too, so that a numeral may also be a guid: it is one if it has as many of these digits as a guid.
-/

namespace RecordQuery

open Lexer

/-! ### Guids in their plain form -/

/-- Holds of the texts of digits in base sixteen that have as many of them as a guid. -/
def Guid.IsPlain (cs : List Char) : Prop :=
  cs.length = 32 ∧ ∀ c ∈ cs, (Number.hexValue? c).isSome

instance : DecidablePred Guid.IsPlain := fun _ => inferInstanceAs (Decidable (_ ∧ _))

lemma Guid.isSome_ofText?_of_isPlain {cs : List Char} (h : IsPlain cs) : (ofText? cs).isSome := by
  obtain ⟨hlength, hdigits⟩ := h
  obtain ⟨n, hn⟩ := Option.isSome_iff_exists.mp (Number.isSome_ofHex? hdigits)
  simp [ofText?, plain?, hlength, hn]

/-! ### Numerals -/

/-- Digits, and the digits after the point. Without any of these there is no point either. -/
structure Numeral where
  whole : List Char
  fraction : List Char
  whole_ne_nil : whole ≠ []
  isDigit_of_mem : ∀ c ∈ whole ++ fraction, c.isDigit

namespace Numeral

/-- The characters of a numeral. -/
def chars (n : Numeral) : List Char :=
  n.whole ++ if n.fraction = [] then [] else '.' :: n.fraction

/-- The suffixes of numerals, each with the kind that it gives to a token. -/
def suffixes : List (List Char × Token.Kind) :=
  [([], .integer), (['l'], .integer), (['L'], .integer), (['f'], .single), (['F'], .single),
    (['m'], .decimal), (['M'], .decimal), (['d'], .double), (['D'], .double)]

/-- The suffixes that are digits in base sixteen. -/
def hexSuffixes : List (List Char) := [['f'], ['F'], ['d'], ['D']]

/-- The kind of the token that a numeral and its suffix make: a guid, or the kind of the suffix. -/
def kindWith (n : Numeral) (suffix : List Char) (kind : Token.Kind) : Token.Kind :=
  if Guid.IsPlain (n.chars ++ suffix) then .guid else kind

variable {n : Numeral} {suffix : List Char} {kind : Token.Kind}

/-! ### Characters -/

lemma isDigit_of_mem_whole {c : Char} (hc : c ∈ n.whole) : c.isDigit :=
  n.isDigit_of_mem c (List.mem_append_left _ hc)

lemma isDigit_of_mem_fraction {c : Char} (hc : c ∈ n.fraction) : c.isDigit :=
  n.isDigit_of_mem c (List.mem_append_right _ hc)

lemma exists_cons (n : Numeral) :
    ∃ c cs, n.chars = c :: cs ∧ c.isDigit ∧ ∀ d ∈ cs, d.isDigit ∨ d = '.' := by
  obtain ⟨c, cs, hwhole⟩ := List.exists_cons_of_ne_nil n.whole_ne_nil
  have hdigit : ∀ d ∈ c :: cs, d.isDigit := by
    rw [← hwhole]
    exact fun _ => isDigit_of_mem_whole
  obtain ⟨hc, hcs⟩ := List.forall_mem_cons.mp hdigit
  refine ⟨c, _, by rw [chars, hwhole, List.cons_append], hc, ?_⟩
  refine List.forall_mem_append.mpr ⟨fun d hd => .inl (hcs d hd), fun d hd => ?_⟩
  split_ifs at hd
  · cases hd
  · rcases List.mem_cons.mp hd with rfl | hd
    · exact .inr rfl
    · exact .inl (isDigit_of_mem_fraction hd)

/-- A numeral ends with a digit. -/
lemma isDigit_of_mem_getLast? {c : Char} (hc : c ∈ n.chars.getLast?) : c.isDigit := by
  rw [chars] at hc
  split_ifs at hc with hfraction
  · rw [List.append_nil] at hc
    exact isDigit_of_mem_whole (List.mem_of_getLast? hc)
  · rw [List.getLast?_append_cons, List.getLast?_cons_of_ne_nil hfraction] at hc
    exact isDigit_of_mem_fraction (List.mem_of_getLast? hc)

lemma isNumeralChar_of_mem_suffix (h : (suffix, kind) ∈ suffixes) :
    ∀ c ∈ suffix, isNumeralChar c ∧ c ≠ '-' := by
  have hall : suffix.all fun c => isNumeralChar c && c != '-' :=
    (by decide : ∀ s ∈ suffixes, s.1.all fun c => isNumeralChar c && c != '-') _ h
  simpa using hall

lemma forall_hexDigit_iff_of_mem_suffixes (h : (suffix, kind) ∈ suffixes) :
    (∀ c ∈ suffix, (Number.hexValue? c).isSome) ↔ suffix = [] ∨ suffix ∈ hexSuffixes := by
  rw [← List.all_eq_true]
  exact (by decide : ∀ s ∈ suffixes, s.1.all (fun c => (Number.hexValue? c).isSome) ↔
    s.1 = [] ∨ s.1 ∈ hexSuffixes) _ h

/-- A numeral makes a guid just if it has no point, and as many digits as the suffix leaves to a
guid. -/
lemma isPlain_iff (h : (suffix, kind) ∈ suffixes) :
    Guid.IsPlain (n.chars ++ suffix) ↔ n.fraction = [] ∧
      (n.whole.length = 32 ∧ suffix = [] ∨ n.whole.length = 31 ∧ suffix ∈ hexSuffixes) := by
  have hlength : ∀ s ∈ hexSuffixes, s.length = 1 := by decide
  rw [Guid.IsPlain, List.forall_mem_append, forall_hexDigit_iff_of_mem_suffixes h, chars]
  by_cases hfraction : n.fraction = []
  · have hwhole : ∀ c ∈ n.whole, (Number.hexValue? c).isSome := fun c hc =>
      Number.isSome_hexValue?_of_isDigit (isDigit_of_mem_whole hc)
    simp only [hfraction, if_true, List.append_nil, List.length_append, true_and]
    constructor
    · rintro ⟨hsum, -, rfl | hsuffix⟩
      · exact .inl ⟨hsum, rfl⟩
      · rw [hlength _ hsuffix] at hsum
        exact .inr ⟨Nat.succ.inj hsum, hsuffix⟩
    · rintro (⟨hsum, rfl⟩ | ⟨hsum, hsuffix⟩)
      · exact ⟨hsum, hwhole, .inl rfl⟩
      · exact ⟨by rw [hsum, hlength _ hsuffix], hwhole, .inr hsuffix⟩
  · have hpoint : ¬ ∀ c ∈ n.whole ++ '.' :: n.fraction, (Number.hexValue? c).isSome := fun hall =>
      absurd (hall '.' (by simp)) (by decide)
    simp only [hfraction, if_false, hpoint, false_and, and_false]

end Numeral

/-! ### Tokens -/

/-- A digit and the characters that go on with it are one token. -/
lemma Cursor.tokens_numeral {c : Char} {cs rest : List Char} (hc : c.isDigit)
    (hcs : ∀ d ∈ cs, isNumeralChar d) (hrest : Ends isNumeralChar rest) (p : Nat) :
    (Cursor.mk (c :: cs ++ rest) p).tokens =
      ⟨Lexeme.numeralKind (c :: cs), String.ofList (c :: cs), p⟩ ::
        (Cursor.mk rest (p + byteSize (c :: cs))).tokens := by
  rw [List.cons_append, tokens_cons_of_not_isGap (isGap_eq_false hc (by decide)),
    Lexeme.read_numeral hc, hrest.takeWhile_eq hcs, ← List.cons_append, ← List.length_cons,
    advance_append]

namespace Numeral

variable {n : Numeral} {suffix : List Char} {kind : Token.Kind}

/-- No date or instant is written without a hyphen, and no other guid than the plain ones. -/
lemma numeralKind_append (h : (suffix, kind) ∈ suffixes) :
    Lexeme.numeralKind (n.chars ++ suffix) = n.kindWith suffix kind := by
  rw [kindWith]
  split_ifs with hplain
  · rw [Lexeme.numeralKind, if_pos (Guid.isSome_ofText?_of_isPlain hplain)]
  · have hlast := fun c (hc : c ∈ n.chars.getLast?) => isDigit_of_mem_getLast? hc
    obtain ⟨c, cs, hchars, hc, hcs⟩ := n.exists_cons
    rw [hchars] at hlast hplain ⊢
    have hhyphen : '-' ∉ c :: (cs ++ suffix) := by
      intro hmem
      rcases List.mem_cons.mp hmem with rfl | hmem
      · cases hc
      · rcases List.mem_append.mp hmem with hmem | hmem
        · exact absurd (hcs _ hmem) (by decide)
        · exact (isNumeralChar_of_mem_suffix h _ hmem).2 rfl
    have hother : (c :: (cs ++ suffix)).length = 32 →
        ∃ d ∈ c :: (cs ++ suffix), Number.hexValue? d = none := by
      intro hlength
      by_contra hnone
      refine hplain ⟨hlength, fun d hd => Option.isSome_iff_ne_none.mpr fun hd' => ?_⟩
      exact hnone ⟨d, hd, hd'⟩
    by_cases hsuffix : suffix = []
    · subst hsuffix
      rw [List.append_nil] at hhyphen hother ⊢
      rw [Lexeme.numeralKind_eq_integer hc hhyphen hother hlast]
      exact ((by decide : ∀ s ∈ suffixes, s.1 = [] → s.2 = .integer) _ h rfl).symm
    · rw [List.cons_append, Lexeme.numeralKind_of_not_mem hc hhyphen hother, ← List.cons_append,
        List.getLast?_append_of_ne_nil _ hsuffix]
      simp only [suffixes, List.mem_cons, List.not_mem_nil, or_false, Prod.mk.injEq, hsuffix,
        false_and, false_or] at h
      rcases h with ⟨rfl, rfl⟩ | ⟨rfl, rfl⟩ | ⟨rfl, rfl⟩ | ⟨rfl, rfl⟩ | ⟨rfl, rfl⟩ | ⟨rfl, rfl⟩ |
        ⟨rfl, rfl⟩ | ⟨rfl, rfl⟩ <;> rfl

/-- A numeral is a token with its suffix, before whatever does not go on with it. -/
lemma tokens_append (h : (suffix, kind) ∈ suffixes) {rest : List Char}
    (hrest : Ends isNumeralChar rest) (p : Nat) :
    (Cursor.mk (n.chars ++ suffix ++ rest) p).tokens =
      ⟨n.kindWith suffix kind, String.ofList (n.chars ++ suffix), p⟩ ::
        (Cursor.mk rest (p + byteSize (n.chars ++ suffix))).tokens := by
  rw [← numeralKind_append h]
  obtain ⟨c, cs, hchars, hc, hcs⟩ := n.exists_cons
  have hmore : ∀ d ∈ cs ++ suffix, isNumeralChar d := by
    refine List.forall_mem_append.mpr ⟨fun d hd => ?_, fun d hd => ?_⟩
    · rcases hcs d hd with hd | rfl
      · exact isNumeralChar_of_isDigit hd
      · decide
    · exact (isNumeralChar_of_mem_suffix h d hd).1
  rw [hchars, List.cons_append]
  exact Cursor.tokens_numeral hc hmore hrest p

/-- A numeral and its suffix are one token, alone and before whatever does not go on with it. The
suffix tells the kind of the token, unless there are as many digits in base sixteen as a guid has,
which are thirty-two digits with no suffix, or thirty-one with a suffix that is such a digit too. -/
theorem ofText_chars_append (n : Numeral) (h : (suffix, kind) ∈ suffixes) :
    Token.ofText (String.ofList (n.chars ++ suffix)) =
        [⟨n.kindWith suffix kind, String.ofList (n.chars ++ suffix), 0⟩] ∧
      (∀ rest p, Ends isNumeralChar rest → (Cursor.mk (n.chars ++ suffix ++ rest) p).tokens =
        ⟨n.kindWith suffix kind, String.ofList (n.chars ++ suffix), p⟩ ::
          (Cursor.mk rest (p + byteSize (n.chars ++ suffix))).tokens) ∧
      (Guid.IsPlain (n.chars ++ suffix) ↔ n.fraction = [] ∧
        (n.whole.length = 32 ∧ suffix = [] ∨ n.whole.length = 31 ∧ suffix ∈ hexSuffixes)) := by
  refine ⟨?_, fun rest p hrest => tokens_append h hrest p, isPlain_iff h⟩
  have halone : (Cursor.mk (n.chars ++ suffix ++ []) 0).tokens = _ := tokens_append h .nil 0
  rw [List.append_nil, Cursor.tokens_nil] at halone
  rw [Token.ofText, Cursor.start, String.toList_ofList, halone]

/-- Thirty-one digits. -/
def ones : Numeral := ⟨List.replicate 31 '1', [], by decide, by simp⟩

/-- With one more digit in base sixteen behind them these digits are a guid, although the last one
would make a floating point number of any other numeral. -/
theorem ofText_ones_append :
    (['d'], .double) ∈ suffixes ∧ Guid.IsPlain (ones.chars ++ ['d']) ∧
      Token.ofText "1111111111111111111111111111111d" =
        [⟨.guid, "1111111111111111111111111111111d", 0⟩] := by
  have hsuffix : (['d'], .double) ∈ suffixes := by decide
  obtain ⟨htoken, -, hplain⟩ := ofText_chars_append ones hsuffix
  have hguid : Guid.IsPlain (ones.chars ++ ['d']) := hplain.mpr ⟨rfl, .inr ⟨rfl, by decide⟩⟩
  rw [kindWith, if_pos hguid] at htoken
  exact ⟨hsuffix, hguid, htoken⟩

end Numeral

end RecordQuery
