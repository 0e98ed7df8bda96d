import RecordQuery.Proofs.Number.Decimal
import RecordQuery.Proofs.Syntax.Shape
import RecordQuery.Proofs.Token.Kinds

/-!
# Literals are read as they are written

The literal of a token is read back from its text, as the same value and by a token of the same
kind. Binary floating point numbers are left out, and so are instants in years that have no four
digits.
-/

namespace RecordQuery

open Lexer Number

/-- A name that is the text of a token is read as one. -/
lemma Token.Spells.isName {name : String} (h : Spells IsLexed name) :
    Lexer.isName name.toList := by
  obtain ⟨t, ht, hkind, rfl⟩ := h
  cases ht with
  | mark hmark =>
    simp only at hkind
    subst hkind
    exact absurd hmark (by decide)
  | string => cases hkind
  | @numeral c cs =>
    have hmem := Lexeme.numeralKind_mem (c :: cs)
    simp only at hkind
    rw [hkind] at hmem
    exact absurd hmem (by decide)
  | word hc hcs => simpa [Lexer.isName, hc] using ⟨hcs, hkind⟩

namespace Literal

/-- Holds of the literals whose texts are read back: all but binary floating point numbers, and
instants only in years of four digits. -/
def reprints : Literal → Bool
  | single _ => false
  | double _ => false
  | instant t => 0 ≤ t.date.civil.1 && t.date.civil.1 ≤ 9999
  | _ => true

/-- The text of a literal is a token of a kind that stands for it, before whatever does not go on
with it. -/
def IsSpelled (l : Literal) (kind : Token.Kind) : Prop :=
  SplitsBefore (Ends goesOn) l.text.toList fun ts =>
    ∃ t, ts = [t] ∧ t.kind = kind ∧ Parser.literal? t = some l

variable {l : Literal} {kind : Token.Kind} {c : Char} {cs : List Char}

/-! ### Words and strings -/

lemma isSpelled_of_splitsBefore {R : List Char → Prop} {literal : String}
    (h : SplitsBefore R l.text.toList fun ts => ∃ p, ts = [⟨kind, literal, p⟩])
    (hR : ∀ rest, Ends goesOn rest → R rest)
    (hl : ∀ p, Parser.literal? ⟨kind, literal, p⟩ = some l) : l.IsSpelled kind := by
  apply (h.restrict hR).mono
  rintro _ ⟨p, rfl⟩
  exact ⟨_, rfl, rfl, hl p⟩

lemma isSpelled_of_word (htext : l.text.toList = c :: cs) (hc : isLetter c)
    (hcs : ∀ d ∈ cs, isWordChar d) (hkind : Lexeme.wordKind (c :: cs) = kind)
    (hl : ∀ p, Parser.literal? ⟨kind, String.ofList (c :: cs), p⟩ = some l) : l.IsSpelled kind := by
  apply isSpelled_of_splitsBefore _ (fun _ => Ends.isWordChar) hl
  rw [htext, ← hkind]
  exact splitsBefore_word hc hcs

lemma isSpelled_of_numeral (htext : l.text.toList = c :: cs) (hc : c.isDigit)
    (hcs : ∀ d ∈ cs, isNumeralChar d) (hkind : Lexeme.numeralKind (c :: cs) = kind)
    (hl : ∀ p, Parser.literal? ⟨kind, String.ofList (c :: cs), p⟩ = some l) : l.IsSpelled kind := by
  apply isSpelled_of_splitsBefore _ (fun _ => Ends.isNumeralChar) hl
  rw [htext, ← hkind]
  exact splitsBefore_numeral hc hcs

lemma isSpelled_string (h : '\'' ∉ cs) : (string (String.ofList cs)).IsSpelled .string := by
  have htext : (string (String.ofList cs)).text.toList = '\'' :: (cs ++ ['\'']) := by
    simp [text]
  apply isSpelled_of_splitsBefore _ (fun _ => id) fun _ => rfl
  rw [htext]
  exact (splits_string h).before

lemma isSpelled_identifier (hc : isLetter c) (hcs : ∀ d ∈ cs, isWordChar d)
    (hkind : Lexeme.wordKind (c :: cs) = .name) :
    (identifier (String.ofList (c :: cs))).IsSpelled .name :=
  isSpelled_of_word String.toList_ofList hc hcs hkind fun _ => rfl

lemma isSpelled_null : null.IsSpelled .null := by
  have htext : null.text.toList = ['n', 'u', 'l', 'l'] := by decide
  exact isSpelled_of_word htext (by decide) (List.all_eq_true.mp (by decide)) (by decide)
    fun _ => rfl

lemma isSpelled_boolean (b : Bool) : (boolean b).IsSpelled .boolean := by
  cases b with
  | false =>
    have htext : (boolean false).text.toList = ['f', 'a', 'l', 's', 'e'] := by decide
    have hword : Text.sameWord (String.ofList ['f', 'a', 'l', 's', 'e']) "true" = false := by decide
    exact isSpelled_of_word htext (by decide) (List.all_eq_true.mp (by decide)) (by decide)
      fun _ => congrArg (some ∘ boolean) hword
  | true =>
    have htext : (boolean true).text.toList = ['t', 'r', 'u', 'e'] := by decide
    have hword : Text.sameWord (String.ofList ['t', 'r', 'u', 'e']) "true" = true := by decide
    exact isSpelled_of_word htext (by decide) (List.all_eq_true.mp (by decide)) (by decide)
      fun _ => congrArg (some ∘ boolean) hword

/-! ### Numbers -/

/-- The digits of a number are a numeral for an integer. -/
lemma numeralKind_digits {n : Nat} (hn : n < 2 ^ 63) (hdigits : digits n = c :: cs) :
    Lexeme.numeralKind (c :: cs) = .integer := by
  have hdigit : ∀ d ∈ c :: cs, d.isDigit := by
    rw [← hdigits]
    exact fun _ => isDigit_of_mem_digits
  have hhyphen : '-' ∉ c :: cs := fun hmem => absurd (hdigit _ hmem) (by decide)
  have hlength : (c :: cs).length ≤ 19 := by
    rw [← hdigits]
    exact (Nat.length_toDigits_le_iff (by decide) (by decide)).mpr (by omega)
  exact Lexeme.numeralKind_eq_integer (hdigit c List.mem_cons_self) hhyphen (by omega)
    fun d hd => hdigit d (List.mem_of_getLast? hd)

lemma stripSuffix_eq_self {suffix : Char} (hcs : ∀ d ∈ cs, d.isDigit)
    (hsuffix : suffix.isDigit = false ∧ suffix.toUpper.isDigit = false) :
    Parser.stripSuffix suffix cs = cs := by
  have hlast {m : Char} (hm : m.isDigit = false) : cs.getLast? ≠ some m := by
    intro h
    rw [hcs m (List.mem_of_getLast? h)] at hm
    cases hm
  simp [Parser.stripSuffix, hlast hsuffix.1, hlast hsuffix.2]

lemma integer?_digits {n : Nat} (hn : n < 2 ^ 63) :
    Parser.integer? (digits n) = some (Int64.ofNat n) := by
  have hread : natural? (digits n) = some n := by
    rw [natural?_eq_some (digits_ne_nil n) fun _ => isDigit_of_mem_digits, ofDigits_digits]
  have hleast : IntegerKind.i64.least = -9223372036854775808 := by decide
  have hgreatest : IntegerKind.i64.greatest = 9223372036854775807 := by decide
  have hhas : IntegerKind.i64.has n := by
    rw [IntegerKind.has, hleast, hgreatest, Bool.and_eq_true, decide_eq_true_eq, decide_eq_true_eq]
    omega
  rw [Parser.integer?, hread]
  simp only [hhas, if_true]

lemma isSpelled_integer {n : Nat} (hn : n < 2 ^ 63) :
    (integer (Int64.ofNat n)).IsSpelled .integer := by
  obtain ⟨c, cs, hcons⟩ := List.exists_cons_of_ne_nil (digits_ne_nil n)
  have hdigit : ∀ d ∈ c :: cs, d.isDigit := by
    rw [← hcons]
    exact fun _ => isDigit_of_mem_digits
  have htext : (integer (Int64.ofNat n)).text.toList = c :: cs := by
    have hstring : toString (n : Int) = String.ofList (digits n) := Nat.toString_eq_ofList_toDigits
    rw [text, integerText, Int64.toInt_ofNat_of_lt hn, hstring, String.toList_ofList, hcons]
  obtain ⟨hc, hcs⟩ := List.forall_mem_cons.mp hdigit
  refine isSpelled_of_numeral htext hc (fun d hd => isNumeralChar_of_isDigit (hcs d hd))
    (numeralKind_digits hn hcons) fun p => ?_
  have hvalue : Parser.integer? (Parser.stripSuffix 'l' (c :: cs)) = some (Int64.ofNat n) := by
    rw [stripSuffix_eq_self hdigit (by decide), ← hcons, integer?_digits hn]
  simp [Parser.literal?, hvalue]

lemma isSpelled_decimal {x : Decimal} (h : x.Fits) (hx : 0 ≤ x.coefficient) :
    (decimal x).IsSpelled .decimal := by
  obtain ⟨c, cs, hcons, hc, hcs⟩ :=
    Decimal.exists_cons_positional x.coefficient.natAbs x.scale
  have hread := Decimal.ofText?_text h
  have hnumber : x.text.toList = c :: cs := by
    rw [Decimal.text, String.toList_ofList, if_neg (Int.not_lt.mpr hx), hcons]
  have htext : (decimal x).text.toList = c :: (cs ++ ['m']) := by
    simp [text, hnumber]
  rw [hnumber] at hread
  have hhyphen : '-' ∉ c :: (cs ++ ['m']) := by
    intro hmem
    rcases List.mem_cons.mp hmem with rfl | hmem
    · cases hc
    · rcases List.mem_append.mp hmem with hmem | hmem
      · exact absurd (hcs _ hmem) (by decide)
      · exact absurd hmem (by decide)
  have hkind : Lexeme.numeralKind (c :: (cs ++ ['m'])) = .decimal := by
    rw [Lexeme.numeralKind_of_not_mem hc hhyphen fun _ => ⟨'m', by simp, by decide⟩,
      ← List.cons_append, List.getLast?_concat]
    rfl
  have hnumeral : ∀ d ∈ cs ++ ['m'], isNumeralChar d := by
    refine List.forall_mem_append.mpr ⟨fun d hd => ?_, by simp; decide⟩
    rcases hcs d hd with hd | rfl
    · exact isNumeralChar_of_isDigit hd
    · decide
  have hsuffix : Parser.stripSuffix 'm' (c :: (cs ++ ['m'])) = c :: cs := by
    rw [← List.cons_append, Parser.stripSuffix, List.getLast?_concat, List.dropLast_concat]
    rfl
  refine isSpelled_of_numeral htext hc hnumeral hkind fun p => ?_
  simp [Parser.literal?, hsuffix, hread]

/-! ### Guids, dates and instants -/

lemma isSpelled_guid (g : Guid) : (guid g).IsSpelled .guid := by
  obtain ⟨c, cs, htext, hc, hcs⟩ := g.exists_cons_text
  have hread := g.ofText?_text
  rw [htext] at hread
  have hmore : ∀ d ∈ cs, isWordChar d ∧ isNumeralChar d := by
    intro d hd
    rcases hcs d hd with hd | rfl
    · exact forall_hexDigit (P := fun d => isWordChar d ∧ isNumeralChar d) (by decide) hd
    · decide
  have hstart : c.isDigit ∨ isLetter c :=
    forall_hexDigit (P := fun c => c.isDigit ∨ isLetter c) (by decide) hc
  have hvalue (p : Nat) :
      Parser.literal? ⟨.guid, String.ofList (c :: cs), p⟩ = some (guid g) := by
    simp [Parser.literal?, hread]
  rcases hstart with hdigit | hletter
  · refine isSpelled_of_numeral htext hdigit (fun d hd => (hmore d hd).2) ?_ hvalue
    simp [Lexeme.numeralKind, hread]
  · refine isSpelled_of_word htext hletter (fun d hd => (hmore d hd).1) ?_ hvalue
    simp [Lexeme.wordKind, hread]

lemma isSpelled_date {d : Date} (hyear : 0 ≤ d.civil.1 ∧ d.civil.1 ≤ 9999) :
    (date d).IsSpelled .date := by
  have hkind := Lexeme.numeralKind_date hyear
  have hread := Date.ofText?_text hyear
  obtain ⟨c, cs, hchars, hc, hcs⟩ := Date.exists_cons_chars hyear
  have htext : d.text.toList = c :: cs := by
    rw [Date.text, String.toList_ofList, hchars]
  have hnumeral : ∀ e ∈ cs, isNumeralChar e := by
    intro e he
    rcases hcs e he with he | rfl
    · exact isNumeralChar_of_isDigit he
    · decide
  rw [htext] at hkind hread
  refine isSpelled_of_numeral htext hc hnumeral hkind fun p => ?_
  simp [Parser.literal?, hread]

lemma isSpelled_instant {t : Instant} (hyear : 0 ≤ t.date.civil.1 ∧ t.date.civil.1 ≤ 9999)
    (h : t.IsRegular) : (instant t).IsSpelled .instant := by
  have hkind := Lexeme.numeralKind_instant hyear h
  have hread := Instant.ofText?_text hyear h
  obtain ⟨c, cs, hchars, hc, hcs⟩ := Date.exists_cons_chars hyear
  obtain ⟨rest, hrest, -, -, hmore⟩ := t.exists_toList_text
  have htext : t.text.toList = c :: (cs ++ rest) := by
    rw [hrest, hchars, List.cons_append]
  have hnumeral : ∀ e ∈ cs ++ rest, isNumeralChar e := by
    refine List.forall_mem_append.mpr ⟨fun e he => ?_, fun e he => ?_⟩
    · rcases hcs e he with he | rfl
      · exact isNumeralChar_of_isDigit he
      · decide
    · rcases hmore e he with he | he
      · exact isNumeralChar_of_isDigit he
      · exact List.all_eq_true.mp (by decide : ['T', ':', '.', 'Z'].all isNumeralChar) e he
  rw [htext] at hkind hread
  refine isSpelled_of_numeral htext hc hnumeral hkind fun p => ?_
  simp [Parser.literal?, hread]

/-! ### Literals of tokens -/

lemma isSpelled_of_word_literal? {p : Nat} (hc : isLetter c) (hcs : ∀ d ∈ cs, isWordChar d)
    (h : Parser.literal? ⟨Lexeme.wordKind (c :: cs), String.ofList (c :: cs), p⟩ = some l) :
    l.IsSpelled (Lexeme.wordKind (c :: cs)) := by
  have hmem := Lexeme.wordKind_mem (c :: cs)
  simp only [List.mem_cons, List.not_mem_nil, or_false] at hmem
  rcases hmem with hkind | hkind | hkind | hkind <;> rw [hkind] at h ⊢
  · obtain ⟨g, -, rfl⟩ := Option.map_eq_some_iff.mp h
    exact isSpelled_guid g
  · cases h
    exact isSpelled_null
  · cases h
    exact isSpelled_boolean _
  · cases h
    exact isSpelled_identifier hc hcs hkind

lemma head?_stripSuffix {suffix m : Char}
    (h : (Parser.stripSuffix suffix (c :: cs)).head? = some m) : m = c := by
  rw [Parser.stripSuffix] at h
  split_ifs at h
  · cases cs with
    | nil => cases h
    | cons d cs => exact (Option.some.inj h).symm
  · exact (Option.some.inj h).symm

lemma exists_of_integer? {i : Int64} (h : Parser.integer? cs = some i) :
    ∃ n, n < 2 ^ 63 ∧ i = Int64.ofNat n := by
  have hgreatest : IntegerKind.i64.greatest = 9223372036854775807 := by decide
  rw [Parser.integer?] at h
  split at h
  · rename_i n _
    split_ifs at h with hhas
    cases h
    rw [IntegerKind.has, hgreatest, Bool.and_eq_true, decide_eq_true_eq, decide_eq_true_eq] at hhas
    exact ⟨n, by omega, rfl⟩
  · cases h

lemma isSpelled_of_numeral_literal? {p : Nat} (hc : c.isDigit)
    (h : Parser.literal? ⟨Lexeme.numeralKind (c :: cs), String.ofList (c :: cs), p⟩ = some l)
    (hl : l.reprints) : l.IsSpelled (Lexeme.numeralKind (c :: cs)) := by
  have hmem := Lexeme.numeralKind_mem (c :: cs)
  simp only [List.mem_cons, List.not_mem_nil, or_false] at hmem
  rcases hmem with hkind | hkind | hkind | hkind | hkind | hkind | hkind <;> rw [hkind] at h ⊢
  · obtain ⟨g, -, rfl⟩ := Option.map_eq_some_iff.mp h
    exact isSpelled_guid g
  · obtain ⟨d, hd, rfl⟩ := Option.map_eq_some_iff.mp h
    exact isSpelled_date (Date.cases_of_ofText? hd).1
  · obtain ⟨t, ht, rfl⟩ := Option.map_eq_some_iff.mp h
    simp only [reprints, Bool.and_eq_true, decide_eq_true_eq] at hl
    exact isSpelled_instant hl (Instant.cases_of_ofText? ht).1
  · obtain ⟨x, -, rfl⟩ := Option.map_eq_some_iff.mp h
    cases hl
  · obtain ⟨x, hx, rfl⟩ := Option.map_eq_some_iff.mp h
    obtain ⟨hfits, hsign⟩ := Decimal.fits_of_ofText? hx
    refine isSpelled_decimal hfits (hsign fun hminus => ?_)
    rw [String.toList_ofList] at hminus
    rw [← head?_stripSuffix hminus] at hc
    cases hc
  · obtain ⟨x, -, rfl⟩ := Option.map_eq_some_iff.mp h
    cases hl
  · obtain ⟨i, hi, rfl⟩ := Option.map_eq_some_iff.mp h
    obtain ⟨n, hn, rfl⟩ := exists_of_integer? hi
    exact isSpelled_integer hn

/-- What a token of a text stands for is read back from the text of the literal, by a token of the
same kind. -/
lemma isSpelled_of_literal? {t : Token} (ht : t.IsLexed) (h : Parser.literal? t = some l)
    (hl : l.reprints) : l.IsSpelled t.kind := by
  cases ht with
  | mark hmark =>
    simp only [List.mem_cons, List.not_mem_nil, or_false] at hmark
    rcases hmark with rfl | rfl | rfl | rfl | rfl <;> cases h
  | string hquote =>
    cases h
    exact isSpelled_string hquote
  | numeral hc hcs => exact isSpelled_of_numeral_literal? hc h hl
  | word hc hcs => exact isSpelled_of_word_literal? hc hcs h

end Literal

end RecordQuery
