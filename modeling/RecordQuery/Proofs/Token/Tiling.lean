import RecordQuery.Proofs.Syntax.Faults
import RecordQuery.Proofs.Token.Kinds
import RecordQuery.Proofs.Token.Seams

/-!
# Tokens tile their text

The tokens of a text lie in it one after the other, each from the byte on where it says that it
starts, with nothing but gaps around them: no character is left out, and none is read twice. Asked
again and again, the lexer gives these tokens and then the end token for ever.
-/

namespace RecordQuery

open Lexer

/-! ### How a token is written -/

/-- A token is written with some characters before what comes after it: with its literal, or with
that between quotes if it is a string. A string that runs to the end of the text may lack the
closing quote. -/
inductive Token.WrittenAs (t : Token) : List Char → List Char → Prop
  | plain {rest : List Char} (hkind : t.kind ≠ .string) (hliteral : t.literal.toList ≠ []) :
      WrittenAs t t.literal.toList rest
  | quoted {rest : List Char} (hkind : t.kind = .string) (hliteral : '\'' ∉ t.literal.toList) :
      WrittenAs t ('\'' :: (t.literal.toList ++ ['\''])) rest
  | unclosed (hkind : t.kind = .string) (hliteral : '\'' ∉ t.literal.toList) :
      WrittenAs t ('\'' :: t.literal.toList) []

namespace Token.WrittenAs

variable {cs rest span : List Char} {p : Nat}

lemma ne_nil {t : Token} (h : t.WrittenAs span rest) : span ≠ [] := by
  cases h with
  | plain _ hliteral => exact hliteral
  | quoted => simp
  | unclosed => simp

lemma plain_ofList {kind : Kind} (hkind : kind ≠ .string) (hcs : cs ≠ []) :
    WrittenAs ⟨kind, String.ofList cs, p⟩ cs rest := by
  have hwritten : WrittenAs ⟨kind, String.ofList cs, p⟩ (String.ofList cs).toList rest :=
    .plain hkind (by simpa using hcs)
  rwa [String.toList_ofList] at hwritten

lemma quoted_ofList (hcs : '\'' ∉ cs) :
    WrittenAs ⟨.string, String.ofList cs, p⟩ ('\'' :: (cs ++ ['\''])) rest := by
  have hwritten : WrittenAs ⟨.string, String.ofList cs, p⟩
      ('\'' :: ((String.ofList cs).toList ++ ['\''])) rest := .quoted rfl (by simpa using hcs)
  rwa [String.toList_ofList] at hwritten

lemma unclosed_ofList (hcs : '\'' ∉ cs) :
    WrittenAs ⟨.string, String.ofList cs, p⟩ ('\'' :: cs) [] := by
  have hwritten : WrittenAs ⟨.string, String.ofList cs, p⟩
      ('\'' :: (String.ofList cs).toList) [] := .unclosed rfl (by simpa using hcs)
  rwa [String.toList_ofList] at hwritten

end Token.WrittenAs

namespace Lexeme

/-- A lexeme is written with the characters that it takes. -/
lemma writtenAs_read (c : Char) (cs : List Char) (p : Nat) :
    Token.WrittenAs ⟨(read c cs).kind, String.ofList (read c cs).literal, p⟩
      ((c :: cs).take ((read c cs).extra + 1)) (cs.drop (read c cs).extra) := by
  have hplain (kind : Token.Kind) (more : List Char) {rest : List Char} (hkind : kind ≠ .string)
      (hmore : cs.take more.length = more) :
      Token.WrittenAs ⟨kind, String.ofList (c :: more), p⟩ ((c :: cs).take (more.length + 1))
        rest := by
    rw [List.take_succ_cons, hmore]
    exact .plain_ofList hkind (List.cons_ne_nil c more)
  have hrun (goesOn : Char → Bool) :
      cs.take (cs.takeWhile goesOn).length = cs.takeWhile goesOn :=
    (List.prefix_iff_eq_take.mp (List.takeWhile_prefix goesOn)).symm
  by_cases hquote : c = '\''
  · subst hquote
    by_cases hclosed : '\'' ∈ cs
    · obtain ⟨content, more, rfl, hcontent⟩ := List.eq_append_cons_of_mem hclosed
      rw [read_string hcontent]
      have hspan : ('\'' :: (content ++ '\'' :: more)).take (content.length + 1 + 1) =
          '\'' :: (content ++ ['\'']) := by
        simp [List.take_append, List.take_of_length_le]
      rw [hspan]
      exact .quoted_ofList hcontent
    · have hall : cs.takeWhile (· != '\'') = cs := by
        rw [List.takeWhile_eq_self_iff]
        intro d hd
        rw [bne_iff_ne]
        rintro rfl
        exact hclosed hd
      have hread : read '\'' cs = ⟨.string, cs, cs.length + 1⟩ := by simp [read, hall]
      have hspan : ('\'' :: cs).take (cs.length + 1 + 1) = '\'' :: cs := by
        simp [List.take_of_length_le]
      rw [hread, hspan, List.drop_of_length_le (Nat.le_succ _)]
      exact .unclosed_ofList hclosed
  · simp only [read, hquote, if_false]
    split_ifs
    · exact hplain .openParen [] (by decide) rfl
    · exact hplain .closeParen [] (by decide) rfl
    · exact hplain .slash [] (by decide) rfl
    · exact hplain .colon [] (by decide) rfl
    · exact hplain _ _ (ne_of_mem_of_not_mem (numeralKind_mem _) (by decide)) (hrun _)
    · exact hplain _ _ (ne_of_mem_of_not_mem (wordKind_mem _) (by decide)) (hrun _)
    · exact hplain .illegal [] (by decide) rfl

end Lexeme

/-! ### Tiles -/

/-- Some tokens tile a text that begins at a byte: gaps apart, the text is what they are written
with, and each of them starts where it says. -/
inductive Lexer.Tiles : Nat → List Char → List Token → Prop
  | nil {p : Nat} : Tiles p [] []
  | gap {p : Nat} {c : Char} {cs : List Char} {ts : List Token} (hc : isGap c)
      (h : Tiles (p + c.utf8Size) cs ts) : Tiles p (c :: cs) ts
  | token {t : Token} {span rest : List Char} {ts : List Token} (ht : t.WrittenAs span rest)
      (h : Tiles (t.position + byteSize span) rest ts) : Tiles t.position (span ++ rest) (t :: ts)

lemma Cursor.tiles_tokens (cs : List Char) (p : Nat) : Tiles p cs (Cursor.mk cs p).tokens := by
  induction hlength : cs.length using Nat.strongRecOn generalizing cs p with
  | _ n ih =>
    cases cs with
    | nil =>
      rw [tokens_nil]
      exact .nil
    | cons c cs =>
      by_cases hgap : isGap c
      · rw [tokens_cons_of_isGap hgap]
        exact .gap hgap (ih cs.length (by simp [← hlength]) _ _ rfl)
      · rw [Bool.not_eq_true] at hgap
        rw [tokens_cons_of_not_isGap hgap, advance, List.drop_succ_cons]
        have hwritten := Lexeme.writtenAs_read c cs p
        generalize Lexeme.read c cs = lexeme at hwritten
        have hshorter : (cs.drop lexeme.extra).length < n := by
          rw [← hlength, List.length_drop, List.length_cons]
          omega
        have htiles := Tiles.token hwritten (ih _ hshorter _ _ rfl)
        rwa [← List.drop_succ_cons (a := c), List.take_append_drop] at htiles

namespace Lexer

variable {p : Nat} {cs : List Char} {ts : List Token}

lemma byteSize_pos (h : cs ≠ []) : 0 < byteSize cs := by
  cases cs with
  | nil => exact absurd rfl h
  | cons c cs =>
    have hpos := c.utf8Size_pos
    simp only [byteSize, List.foldr_cons]
    omega

lemma Tiles.position_le (h : Tiles p cs ts) : ∀ t ∈ ts, p ≤ t.position := by
  induction h with
  | nil => simp
  | gap _ _ ih => exact fun t ht => Nat.le_trans (Nat.le_add_right _ _) (ih t ht)
  | token _ _ ih =>
    intro u hu
    rcases List.mem_cons.mp hu with rfl | hu
    · exact Nat.le_refl _
    · exact Nat.le_trans (Nat.le_add_right _ _) (ih u hu)

/-- As no token is written with nothing, each starts behind the one before it. -/
lemma Tiles.pairwise (h : Tiles p cs ts) : ts.Pairwise fun t u => t.position < u.position := by
  induction h with
  | nil => exact .nil
  | gap _ _ ih => exact ih
  | token ht h ih =>
    refine .cons (fun u hu => ?_) ih
    have hpos := byteSize_pos ht.ne_nil
    have hle := h.position_le u hu
    omega

/-- Each token stands in the text at its byte, between what comes before it and after it. -/
lemma Tiles.exists_of_mem (h : Tiles p cs ts) {t : Token} (ht : t ∈ ts) :
    ∃ before span rest, cs = before ++ (span ++ rest) ∧ t.position = p + byteSize before ∧
      t.WrittenAs span rest := by
  induction h with
  | nil => cases ht
  | @gap p c cs ts hc h ih =>
    obtain ⟨before, span, rest, rfl, hposition, hwritten⟩ := ih ht
    refine ⟨c :: before, span, rest, rfl, ?_, hwritten⟩
    rw [hposition, byteSize, byteSize, List.foldr_cons, Nat.add_assoc]
  | @token u span rest ts hu h ih =>
    rcases List.mem_cons.mp ht with rfl | ht
    · exact ⟨[], span, rest, rfl, rfl, hu⟩
    · obtain ⟨before, span', rest', rfl, hposition, hwritten⟩ := ih ht
      refine ⟨span ++ before, span', rest', by simp, ?_, hwritten⟩
      rw [hposition, byteSize_append, Nat.add_assoc]

end Lexer

/-! ### Calls of the lexer -/

namespace Cursor

variable {k : Cursor}

/-- The cursor after so many tokens have been taken. -/
def after (k : Cursor) : Nat → Cursor
  | 0 => k
  | n + 1 => k.next.2.after n

/-- The byte where the text ends. -/
def finish (k : Cursor) : Nat := k.position + byteSize k.rest

/-- Taking characters leaves the end of the text where it is. -/
lemma finish_advance (k : Cursor) (count : Nat) : (k.advance count).finish = k.finish := by
  rw [finish, finish, advance, Nat.add_assoc, ← byteSize_append, List.take_append_drop]

lemma finish_next (k : Cursor) : k.next.2.finish = k.finish := by
  unfold next
  match hrest : k.skipGaps.rest with
  | [] => simp only [hrest]; exact finish_advance k _
  | c :: cs =>
    simp only [hrest]
    rw [finish_advance]
    exact finish_advance k _

/-- At the end of the text the end token is next, and nothing changes. -/
lemma next_of_end (h : k.skipGaps.rest = []) :
    k.next = (⟨.endOfInput, "", k.finish⟩, ⟨[], k.finish⟩) := by
  have hposition : k.skipGaps.position = k.finish := by
    have hfinish := k.finish_advance (k.rest.takeWhile isGap).length
    rw [← hfinish, ← skipGaps, finish, h]
    rfl
  have hcursor : k.skipGaps = ⟨[], k.finish⟩ := by rw [← h, ← hposition]
  simp only [next, hcursor]

lemma tokens_of_ne_end (h : k.skipGaps.rest ≠ []) : k.tokens = k.next.1 :: k.next.2.tokens := by
  rw [tokens, dif_neg h]

/-- The lexer gives the tokens of the text one after the other, and after them the end token at
every call. -/
lemma next_after (k : Cursor) (n : Nat) :
    (k.after n).next.1 = k.tokens[n]?.getD ⟨.endOfInput, "", k.finish⟩ := by
  induction n generalizing k with
  | zero =>
    by_cases hend : k.skipGaps.rest = []
    · simp [after, next_of_end hend, tokens, hend]
    · simp [after, tokens_of_ne_end hend]
  | succ n ih =>
    rw [after, ih, finish_next]
    by_cases hend : k.skipGaps.rest = []
    · simp [next_of_end hend, tokens, hend]
    · simp [tokens_of_ne_end hend]

end Cursor

/-! ### Texts -/

lemma Lexer.byteSize_toList (s : String) : byteSize s.toList = s.utf8ByteSize := by
  have hlist (cs : List Char) : byteSize cs = (String.ofList cs).utf8ByteSize := by
    induction cs with
    | nil => rfl
    | cons c cs ih =>
      have hcons : String.ofList (c :: cs) = String.singleton c ++ String.ofList cs := by
        rw [String.singleton_eq_ofList, ← String.ofList_append, List.singleton_append]
      rw [hcons, String.utf8ByteSize_append, String.utf8ByteSize_singleton, ← ih]
      rfl
  rw [hlist, String.ofList_toList]

namespace Token

variable {s : String}

lemma tiles_ofText (s : String) : Tiles 0 s.toList (ofText s) := Cursor.tiles_tokens s.toList 0

lemma kind_ne_endOfInput {t : Token} (ht : t ∈ ofText s) : t.kind ≠ .endOfInput := by
  cases Cursor.isLexed_of_mem_tokens ht with
  | mark hmark => exact ne_of_mem_of_not_mem hmark (by decide)
  | string => exact nofun
  | numeral => exact ne_of_mem_of_not_mem (Lexeme.numeralKind_mem _) (by decide)
  | word => exact ne_of_mem_of_not_mem (Lexeme.wordKind_mem _) (by decide)

/-- The calls of the lexer give the tokens of a text, of which there are finitely many, and after
them again and again the end token, which stands where the text ends. The tokens tile the text, one
behind the other. So a fault that points at a token points at the front of a character, where the
token is written. -/
theorem tiled_ofText (s : String) :
    (∀ n, ((Cursor.start s).after n).next.1 =
      (ofText s)[n]?.getD ⟨.endOfInput, "", s.utf8ByteSize⟩) ∧
    (∀ t ∈ ofText s, t.kind ≠ .endOfInput) ∧
    Tiles 0 s.toList (ofText s) ∧
    (ofText s).Pairwise (fun t u => t.position < u.position) ∧
    ∀ text position, Expr.ofText s = .error (.unexpectedToken text position) →
      ∃ t ∈ ofText s, t.text = text ∧ t.position = position ∧
        ∃ before span rest, s.toList = before ++ (span ++ rest) ∧ byteSize before = position ∧
          t.WrittenAs span rest := by
  have htiles := tiles_ofText s
  refine ⟨fun n => ?_, fun t => kind_ne_endOfInput, htiles, htiles.pairwise, ?_⟩
  · have hfinish : (Cursor.start s).finish = s.utf8ByteSize := by
      rw [Cursor.finish, Cursor.start, byteSize_toList, Nat.zero_add]
    rw [Cursor.next_after, hfinish, ofText]
  · intro text position hfault
    obtain ⟨t, ht, htext, rfl⟩ := (Expr.failsOn_ofText s _ hfault).exists_token _ _ rfl
    obtain ⟨before, span, rest, hs, hposition, hwritten⟩ := htiles.exists_of_mem ht
    exact ⟨t, ht, htext, rfl, before, span, rest, hs, by omega, hwritten⟩

end Token

end RecordQuery
