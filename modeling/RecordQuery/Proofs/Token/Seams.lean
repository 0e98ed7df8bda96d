import Mathlib.Algebra.Group.Even
import Mathlib.Algebra.Group.Nat.Even
import Mathlib.Data.List.TakeWhile
import RecordQuery.Proofs.Token.Pieces

/-!
# Texts beside each other

Quotes come in pairs in a text that leaves no string open. Such a text has the same tokens wherever
it stands, if what comes after it does not go on with its last word or numeral: only their places
change.
-/

namespace RecordQuery

open Lexer

/-! ### One lexeme -/

namespace Lexeme

variable {c : Char} {cs rest : List Char}

/-- A quote at the front of a text whose quotes come in pairs is followed by another one. -/
lemma mem_of_even_count (hquotes : Even ((c :: cs).count '\'')) (hc : c = '\'') : '\'' ∈ cs := by
  subst hc
  by_contra hnone
  rw [List.count_cons_self, List.count_eq_zero.mpr hnone] at hquotes
  exact absurd hquotes (by decide)

/-- What comes after a text with no open string does not change the lexeme at its front. -/
lemma read_append (hclosed : c = '\'' → '\'' ∈ cs) (hrest : Ends goesOn rest) :
    read c (cs ++ rest) = read c cs := by
  by_cases hquote : c = '\''
  · obtain ⟨content, more, rfl, hcontent⟩ := List.eq_append_cons_of_mem (hclosed hquote)
    rw [hquote, List.append_assoc, List.cons_append, read_string hcontent, read_string hcontent]
  · simp only [read, hquote, if_false, hrest.isWordChar.takeWhile_append,
      hrest.isNumeralChar.takeWhile_append]

/-- A lexeme of a text with no open string takes no more than the text, and its quotes in pairs. -/
lemma extra_le_and_even_count (hclosed : c = '\'' → '\'' ∈ cs) :
    (read c cs).extra ≤ cs.length ∧
      Even (((c :: cs).take ((read c cs).extra + 1)).count '\'') := by
  by_cases hquote : c = '\''
  · obtain ⟨content, more, rfl, hcontent⟩ := List.eq_append_cons_of_mem (hclosed hquote)
    have hcount : content.count '\'' = 0 := List.count_eq_zero.mpr hcontent
    rw [hquote, read_string hcontent]
    constructor
    · simp
    · have htwo :
          (('\'' :: (content ++ '\'' :: more)).take (content.length + 1 + 1)).count '\'' = 2 := by
        simp [List.take_append, List.take_of_length_le, hcount]
      rw [htwo]
      decide
  · have hrun {goesOn : Char → Bool} (hgoesOn : goesOn '\'' = false) :
        (cs.takeWhile goesOn).length ≤ cs.length ∧
          Even (((c :: cs).take ((cs.takeWhile goesOn).length + 1)).count '\'') := by
      have hfront := List.takeWhile_prefix goesOn (l := cs)
      have hnone : '\'' ∉ cs.takeWhile goesOn := by
        intro hmem
        rw [List.mem_takeWhile_imp hmem] at hgoesOn
        cases hgoesOn
      refine ⟨hfront.length_le, ?_⟩
      rw [List.take_succ_cons, ← List.prefix_iff_eq_take.mp hfront, List.count_cons_of_ne hquote,
        List.count_eq_zero.mpr hnone]
      exact Even.zero
    have hsingle : 0 ≤ cs.length ∧ Even (((c :: cs).take (0 + 1)).count '\'') := by
      simp [List.count_cons_of_ne hquote]
    simp only [read, hquote, if_false]
    split_ifs
    · exact hsingle
    · exact hsingle
    · exact hsingle
    · exact hsingle
    · exact hrun (by decide)
    · exact hrun (by decide)
    · exact hsingle

/-- Behind the first lexeme of a text its quotes come in pairs again. -/
lemma even_count_drop (hquotes : Even ((c :: cs).count '\'')) :
    Even ((cs.drop (read c cs).extra).count '\'') := by
  obtain ⟨-, hlexeme⟩ := extra_le_and_even_count (mem_of_even_count hquotes)
  rw [← List.take_append_drop ((read c cs).extra + 1) (c :: cs), List.count_append,
    Nat.even_add] at hquotes
  exact hquotes.mp hlexeme

end Lexeme

/-! ### All tokens -/

/-- A token some bytes further on. -/
def Token.shift (bytes : Nat) (t : Token) : Token := { t with position := t.position + bytes }

lemma Lexer.byteSize_append (cs ds : List Char) :
    byteSize (cs ++ ds) = byteSize cs + byteSize ds := by
  induction cs with
  | nil => simp [byteSize]
  | cons c cs ih =>
    simp only [byteSize, List.cons_append, List.foldr_cons] at ih ⊢
    omega

/-- The cursor after some of the front of a text. -/
lemma Cursor.advance_append_of_le {cs rest : List Char} {n : Nat} (h : n ≤ cs.length) (p : Nat) :
    (Cursor.mk (cs ++ rest) p).advance n = ⟨cs.drop n ++ rest, p + byteSize (cs.take n)⟩ := by
  rw [advance, List.take_append_of_le_length h, List.drop_append_of_le_length h]

/-- A text with no open string has its tokens wherever it stands before what does not go on with
them. -/
lemma Cursor.tokens_append {cs rest : List Char} (hquotes : Even (cs.count '\''))
    (hrest : Ends goesOn rest) (p bytes : Nat) :
    (Cursor.mk (cs ++ rest) (p + bytes)).tokens =
      (Cursor.mk cs p).tokens.map (Token.shift bytes) ++
        (Cursor.mk rest (p + bytes + byteSize cs)).tokens := by
  induction hlength : cs.length using Nat.strongRecOn generalizing cs p with
  | _ n ih =>
    cases cs with
    | nil => simp [byteSize]
    | cons c cs =>
      by_cases hgap : isGap c
      · have hquote : c ≠ '\'' := by
          rintro rfl
          exact absurd hgap (by decide)
        rw [List.count_cons_of_ne hquote] at hquotes
        have hshift : p + bytes + c.utf8Size = p + c.utf8Size + bytes := by omega
        have hsize : p + bytes + byteSize (c :: cs) = p + c.utf8Size + bytes + byteSize cs := by
          simp only [byteSize, List.foldr_cons]
          omega
        rw [List.cons_append, tokens_cons_of_isGap hgap, tokens_cons_of_isGap hgap, hshift, hsize]
        exact ih cs.length (by simp [← hlength]) hquotes _ rfl
      · rw [Bool.not_eq_true] at hgap
        have hclosed := Lexeme.mem_of_even_count hquotes
        have hleft := Lexeme.even_count_drop hquotes
        have hextra := (Lexeme.extra_le_and_even_count hclosed).1
        rw [List.cons_append, tokens_cons_of_not_isGap hgap, tokens_cons_of_not_isGap hgap,
          Lexeme.read_append hclosed hrest, ← List.cons_append]
        generalize Lexeme.read c cs = lexeme at hleft hextra
        -- the lexeme ends within the text, so that what comes after the text is left whole
        have hfront : lexeme.extra + 1 ≤ (c :: cs).length := Nat.succ_le_succ hextra
        have hsize : byteSize (c :: cs) =
            byteSize ((c :: cs).take (lexeme.extra + 1)) + byteSize (cs.drop lexeme.extra) := by
          rw [← byteSize_append]
          simp
        have hstart : p + bytes + byteSize ((c :: cs).take (lexeme.extra + 1)) =
            p + byteSize ((c :: cs).take (lexeme.extra + 1)) + bytes := by omega
        have hshorter : (cs.drop lexeme.extra).length < n := by
          rw [← hlength, List.length_drop, List.length_cons]
          omega
        rw [advance_append_of_le hfront, advance, List.drop_succ_cons, hstart,
          ih _ hshorter hleft _ rfl, hsize, ← hstart, ← Nat.add_assoc]
        rfl

/-- A text with no open string is a piece of every text in which nothing goes on with it. -/
lemma Lexer.splitsBefore_closed {cs : List Char} (hquotes : Even (cs.count '\'')) :
    SplitsBefore (Ends goesOn) cs fun ts =>
      ∃ bytes, ts = (Cursor.mk cs 0).tokens.map (Token.shift bytes) := by
  intro rest p hrest
  have htokens := Cursor.tokens_append hquotes hrest 0 p
  rw [Nat.zero_add] at htokens
  exact ⟨_, _, htokens, p, rfl⟩

end RecordQuery
