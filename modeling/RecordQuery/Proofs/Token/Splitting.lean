import RecordQuery.Token.Lexer
import Mathlib.Tactic.Common

/-!
# Splitting texts piece by piece

The tokens of a text are worked out from its front on: a gap is passed over, and any other character
starts a token. A text that ends where one of its tokens does has its own tokens wherever it stands.
-/

namespace RecordQuery

namespace Cursor

variable {c : Char} {cs rest : List Char} {p : Nat}

@[simp] lemma tokens_nil : (Cursor.mk [] p).tokens = [] := by
  rw [tokens]
  simp [skipGaps, advance]

lemma skipGaps_cons_of_isGap (hc : Lexer.isGap c) :
    (Cursor.mk (c :: cs) p).skipGaps = (Cursor.mk cs (p + c.utf8Size)).skipGaps := by
  simp [skipGaps, advance, hc, Lexer.byteSize, Nat.add_assoc]

lemma skipGaps_cons_of_not_isGap (hc : Lexer.isGap c = false) :
    (Cursor.mk (c :: cs) p).skipGaps = ⟨c :: cs, p⟩ := by
  simp [skipGaps, advance, hc, Lexer.byteSize]

/-- A gap belongs to no token. -/
lemma tokens_cons_of_isGap (hc : Lexer.isGap c) :
    (Cursor.mk (c :: cs) p).tokens = (Cursor.mk cs (p + c.utf8Size)).tokens := by
  rw [tokens]
  conv_rhs => rw [tokens]
  simp only [next, skipGaps_cons_of_isGap hc]

/-- All other characters start the token that is read there. -/
lemma tokens_cons_of_not_isGap (hc : Lexer.isGap c = false) :
    (Cursor.mk (c :: cs) p).tokens =
      ⟨(Lexeme.read c cs).kind, String.ofList (Lexeme.read c cs).literal, p⟩ ::
        ((Cursor.mk (c :: cs) p).advance ((Lexeme.read c cs).extra + 1)).tokens := by
  rw [tokens]
  simp [next, skipGaps_cons_of_not_isGap hc]

end Cursor

/-! ### Texts with tokens of their own -/

/-- A text has tokens of its own, with some property, whatever comes before and after it. -/
def Lexer.Splits (cs : List Char) (P : List Token → Prop) : Prop :=
  ∀ rest p, ∃ ts q, (Cursor.mk (cs ++ rest) p).tokens = ts ++ (Cursor.mk rest q).tokens ∧ P ts

namespace Lexer.Splits

variable {cs ds : List Char} {P Q : List Token → Prop}

lemma mono (h : Splits cs P) (hPQ : ∀ ts, P ts → Q ts) : Splits cs Q := by
  intro rest p
  obtain ⟨ts, q, hts, hP⟩ := h rest p
  exact ⟨ts, q, hts, hPQ ts hP⟩

lemma append (hc : Splits cs P) (hd : Splits ds Q) {R : List Token → Prop}
    (h : ∀ ts us, P ts → Q us → R (ts ++ us)) : Splits (cs ++ ds) R := by
  intro rest p
  obtain ⟨ts, q, hts, hP⟩ := hc (ds ++ rest) p
  obtain ⟨us, r, hus, hQ⟩ := hd rest q
  refine ⟨ts ++ us, r, ?_, h ts us hP hQ⟩
  rw [List.append_assoc, hts, hus, List.append_assoc]

/-- Such a text alone has these tokens. -/
lemma ofText (h : Splits cs P) : P (Token.ofText (String.ofList cs)) := by
  obtain ⟨ts, q, hts, hP⟩ := h [] 0
  rw [List.append_nil, Cursor.tokens_nil, List.append_nil] at hts
  rwa [Token.ofText, Cursor.start, String.toList_ofList, hts]

end Lexer.Splits

end RecordQuery
