import RecordQuery.Proofs.Calendar.Notation
import RecordQuery.Proofs.Guid
import RecordQuery.Proofs.Token.Pieces

/-!
# Kinds of tokens

What the kind of a token tells about its text, and which texts are numerals of each kind.
-/

namespace RecordQuery

open Lexer

/-! ### Tokens of a text -/

/-- The tokens that texts are split into: marks, strings, numerals and words. -/
inductive Token.IsLexed : Token → Prop
  | mark {kind : Kind} {literal : String} {p : Nat}
      (h : kind ∈ [Kind.openParen, .closeParen, .slash, .colon, .illegal]) :
      IsLexed ⟨kind, literal, p⟩
  | string {cs : List Char} {p : Nat} (h : '\'' ∉ cs) : IsLexed ⟨.string, String.ofList cs, p⟩
  | numeral {c : Char} {cs : List Char} {p : Nat} (hc : c.isDigit)
      (hcs : ∀ d ∈ cs, isNumeralChar d) :
      IsLexed ⟨Lexeme.numeralKind (c :: cs), String.ofList (c :: cs), p⟩
  | word {c : Char} {cs : List Char} {p : Nat} (hc : isLetter c) (hcs : ∀ d ∈ cs, isWordChar d) :
      IsLexed ⟨Lexeme.wordKind (c :: cs), String.ofList (c :: cs), p⟩

lemma Lexeme.isLexed (c : Char) (cs : List Char) (p : Nat) :
    Token.IsLexed ⟨(read c cs).kind, String.ofList (read c cs).literal, p⟩ := by
  simp only [read]
  split_ifs with _ _ _ _ _ hdigit hletter
  · exact .mark (by simp)
  · exact .mark (by simp)
  · exact .mark (by simp)
  · exact .mark (by simp)
  · refine .string fun hmem => ?_
    exact absurd (List.mem_takeWhile_imp hmem) (by decide)
  · exact .numeral hdigit fun _ => List.mem_takeWhile_imp
  · exact .word hletter fun _ => List.mem_takeWhile_imp
  · exact .mark (by simp)

lemma Cursor.isLexed_of_mem_tokens {k : Cursor} {t : Token} (ht : t ∈ k.tokens) : t.IsLexed := by
  induction k using Cursor.tokens.induct with
  | case1 k hend =>
    rw [tokens, dif_pos hend] at ht
    cases ht
  | case2 k hend ih =>
    rw [tokens, dif_neg hend] at ht
    rcases List.mem_cons.mp ht with rfl | ht
    · obtain ⟨c, cs, hrest⟩ := List.exists_cons_of_ne_nil hend
      simp only [next, hrest]
      exact Lexeme.isLexed c cs _
    · exact ih ht

namespace Lexeme

lemma wordKind_mem (word : List Char) : wordKind word ∈ [.guid, .null, .boolean, .name] := by
  simp only [wordKind]
  split_ifs <;> decide

lemma numeralKind_mem (numeral : List Char) :
    numeralKind numeral ∈ [.guid, .date, .instant, .single, .decimal, .double, .integer] := by
  rw [numeralKind]
  split_ifs
  · decide
  · decide
  · decide
  · split <;> decide

end Lexeme

/-! ### Characters of numerals -/

lemma Lexer.isNumeralChar_of_isDigit {c : Char} (h : c.isDigit) : isNumeralChar c := by
  simp [isNumeralChar, Number.hexValue?, h]

lemma Number.isSome_hexValue?_of_isDigit {c : Char} (h : c.isDigit) : (hexValue? c).isSome := by
  simp [hexValue?, h]

/-! ### Kinds of numerals -/

namespace Lexeme

variable {c : Char} {cs : List Char}

/-- Without a hyphen a numeral is a number, unless it has only digits in base sixteen, as many as a
guid has. -/
lemma numeralKind_of_not_mem (hc : c.isDigit) (hhyphen : '-' ∉ c :: cs)
    (hplain : (c :: cs).length = 32 → ∃ d ∈ c :: cs, Number.hexValue? d = none) :
    numeralKind (c :: cs) = match (c :: cs).getLast?.map Char.toLower with
      | some 'f' => .single
      | some 'm' => .decimal
      | some 'd' => .double
      | _ => .integer := by
  have hguid : Guid.ofText? (c :: cs) = none := by
    refine Guid.ofText?_eq_none (Number.isSome_hexValue?_of_isDigit hc) hplain fun h => ?_
    exact hhyphen (List.mem_of_getElem? h)
  have hdate : Date.ofText? (c :: cs) = none := by
    rw [Option.eq_none_iff_forall_ne_some]
    exact fun d h => hhyphen (Date.cases_of_ofText? h).2
  have hinstant : Instant.ofText? (c :: cs) = none := by
    rw [Option.eq_none_iff_forall_ne_some]
    exact fun t h => hhyphen (Instant.cases_of_ofText? h).2
  rw [numeralKind, hguid, hdate, hinstant]
  rfl

/-- Without a suffix such a numeral is an integer. -/
lemma numeralKind_eq_integer (hc : c.isDigit) (hhyphen : '-' ∉ c :: cs)
    (hplain : (c :: cs).length = 32 → ∃ d ∈ c :: cs, Number.hexValue? d = none)
    (hlast : ∀ d ∈ (c :: cs).getLast?, d.isDigit) : numeralKind (c :: cs) = .integer := by
  have hdigit := hlast _ (List.getLast?_eq_some_getLast (List.cons_ne_nil c cs))
  rw [numeralKind_of_not_mem hc hhyphen hplain,
    List.getLast?_eq_some_getLast (List.cons_ne_nil c cs), Option.map_some,
    Number.toLower_of_isDigit hdigit]
  split
  case h_4 => rfl
  all_goals
    rename_i heq
    rw [Option.some.inj heq] at hdigit
    cases hdigit

/-- A text that begins with a date is no guid, unless it has just as many characters. -/
lemma ofText?_guid_eq_none {d : Date} {rest : List Char}
    (hyear : 0 ≤ d.civil.1 ∧ d.civil.1 ≤ 9999) (hlength : rest.length ≠ 22) :
    Guid.ofText? (d.chars ++ rest) = none := by
  obtain ⟨ys, ms, ds, hchars, hys, hms, hds, hydigit, -, hddigit⟩ := Date.exists_chars hyear
  cases ys with
  | nil => cases hys
  | cons c ys =>
    rw [List.length_cons, Nat.add_right_cancel_iff] at hys
    simp only [hchars, List.cons_append, List.append_assoc]
    refine Guid.ofText?_eq_none (Number.isSome_hexValue?_of_isDigit (hydigit c (by simp))) ?_ ?_
    · intro h
      simp only [List.length_append, List.length_cons] at h
      omega
    · -- the ninth character is the first digit of the day
      intro h
      simp [List.getElem?_append, hys, hms, hds] at h
      have hdigit := hddigit _ (List.getElem_mem (hds ▸ Nat.zero_lt_two))
      rw [h] at hdigit
      cases hdigit

lemma numeralKind_date {d : Date} (hyear : 0 ≤ d.civil.1 ∧ d.civil.1 ≤ 9999) :
    numeralKind d.text.toList = .date := by
  have hguid : Guid.ofText? (d.chars ++ []) = none := ofText?_guid_eq_none hyear (by decide)
  have hdate := Date.ofText?_text hyear
  rw [Date.text, String.toList_ofList] at hdate ⊢
  rw [List.append_nil] at hguid
  rw [numeralKind, hguid, hdate]
  rfl

lemma numeralKind_instant {t : Instant} (hyear : 0 ≤ t.date.civil.1 ∧ t.date.civil.1 ≤ 9999)
    (h : t.IsRegular) : numeralKind t.text.toList = .instant := by
  obtain ⟨rest, htext, hpos, hlt, -⟩ := t.exists_toList_text
  have hguid : Guid.ofText? t.text.toList = none := by
    rw [htext]
    exact ofText?_guid_eq_none hyear (by omega)
  have hdate : Date.ofText? t.text.toList = none := by
    have hlength : t.text.toList.length ≠ 10 := by
      rw [htext, List.length_append, Date.length_chars hyear]
      omega
    rw [Date.ofText?, if_neg hlength]
  rw [numeralKind, hguid, hdate, Instant.ofText?_text hyear h]
  rfl

end Lexeme

end RecordQuery
