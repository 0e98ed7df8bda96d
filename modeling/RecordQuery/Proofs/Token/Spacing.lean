import RecordQuery.Proofs.Syntax.Grammar
import RecordQuery.Proofs.Token.Kinds

/-!
# Tokens with single blanks between them

A token may be written again by its own text, that of a string between quotes. Before a blank or the
end of the text it is read from there as it was, wherever it stood before. So the tokens of a text,
written one after the other with single blanks between them, are those of the new text, but for
their places.
-/

namespace RecordQuery

open Lexer

namespace Token

/-- The text that a token is written with, a string between quotes. -/
def spelling (t : Token) : String :=
  if t.kind = .string then "'" ++ t.literal ++ "'" else t.literal

/-- The tokens of a text with single blanks between them. -/
def spaced (s : String) : String := " ".intercalate ((ofText s).map spelling)

/-- The spelling of a token is read as one with its content, before whatever does not go on with
it. -/
def IsRespelled (t : Token) : Prop :=
  SplitsBefore (Ends goesOn) t.spelling.toList fun ts => ts.map content = [t.content]

end Token

open Token

variable {kind : Token.Kind} {c : Char} {cs : List Char} {p : Nat}

/-! ### One token -/

lemma Lexer.SplitsBefore.isRespelled {R : List Char → Prop} (hkind : kind ≠ .string)
    (h : SplitsBefore R cs fun ts => ∃ q, ts = [⟨kind, String.ofList cs, q⟩])
    (hR : ∀ rest, Ends goesOn rest → R rest) :
    Token.IsRespelled ⟨kind, String.ofList cs, p⟩ := by
  rw [IsRespelled, spelling, if_neg hkind, String.toList_ofList]
  apply (h.restrict hR).mono
  rintro _ ⟨q, rfl⟩
  rfl

lemma Lexer.Splits.isRespelled (hkind : kind ≠ .string)
    (h : Splits cs fun ts => ∃ q, ts = [⟨kind, String.ofList cs, q⟩]) :
    Token.IsRespelled ⟨kind, String.ofList cs, p⟩ :=
  SplitsBefore.isRespelled hkind h.before fun _ => id

lemma Token.isRespelled_string (h : '\'' ∉ cs) : IsRespelled ⟨.string, String.ofList cs, p⟩ := by
  have htext : spelling ⟨.string, String.ofList cs, p⟩ =
      String.ofList ('\'' :: (cs ++ ['\''])) := by
    apply String.toList_inj.mp
    simp [spelling]
  rw [IsRespelled, htext, String.toList_ofList]
  apply (splits_string h).before.mono
  rintro _ ⟨q, rfl⟩
  rfl

/-- What a lexeme is depends on nothing but its own characters, and on these wherever they stand. -/
lemma Lexeme.isRespelled (hgap : isGap c = false) (cs : List Char) (p : Nat) :
    Token.IsRespelled ⟨(read c cs).kind, String.ofList (read c cs).literal, p⟩ := by
  simp only [read]
  split_ifs with hopen hclose hslash hcolon hquote hdigit hletter
  · subst hopen
    exact splits_openParen.isRespelled (by decide)
  · subst hclose
    exact splits_closeParen.isRespelled (by decide)
  · subst hslash
    exact splits_slash.isRespelled (by decide)
  · subst hcolon
    exact splits_colon.isRespelled (by decide)
  · refine isRespelled_string fun hmem => ?_
    exact absurd (List.mem_takeWhile_imp hmem) (by decide)
  · exact (splitsBefore_numeral hdigit fun _ => List.mem_takeWhile_imp).isRespelled
      (ne_of_mem_of_not_mem (numeralKind_mem _) (by decide)) fun _ => Ends.isNumeralChar
  · exact (splitsBefore_word hletter fun _ => List.mem_takeWhile_imp).isRespelled
      (ne_of_mem_of_not_mem (wordKind_mem _) (by decide)) fun _ => Ends.isWordChar
  · have hread (rest : List Char) : read c rest = ⟨.illegal, [c], 0⟩ := by
      simp [read, hopen, hclose, hslash, hcolon, hquote, hdigit, hletter]
    exact (splits_mark hgap hread).isRespelled (by decide : Token.Kind.illegal ≠ .string)

/-- No gap is left at the front of a text after the gaps there. -/
lemma Cursor.isGap_of_skipGaps {k : Cursor} (h : k.skipGaps.rest = c :: cs) : isGap c = false := by
  obtain ⟨rest, p⟩ := k
  induction rest generalizing p with
  | nil =>
    simp [skipGaps, advance] at h
  | cons d rest ih =>
    by_cases hgap : isGap d
    · rw [skipGaps_cons_of_isGap hgap] at h
      exact ih _ h
    · rw [Bool.not_eq_true] at hgap
      rw [skipGaps_cons_of_not_isGap hgap] at h
      cases h
      exact hgap

lemma Cursor.isRespelled_of_mem_tokens {k : Cursor} {t : Token} (ht : t ∈ k.tokens) :
    t.IsRespelled := by
  induction k using Cursor.tokens.induct with
  | case1 k hend =>
    rw [tokens, dif_pos hend] at ht
    cases ht
  | case2 k hend ih =>
    rw [tokens, dif_neg hend] at ht
    rcases List.mem_cons.mp ht with rfl | ht
    · obtain ⟨c, cs, hrest⟩ := List.exists_cons_of_ne_nil hend
      simp only [next, hrest]
      exact Lexeme.isRespelled (isGap_of_skipGaps hrest) cs _
    · exact ih ht

/-! ### All tokens -/

/-- Between two tokens a blank is enough. -/
lemma Token.splitsBefore_intercalate {ts : List Token} (h : ∀ t ∈ ts, t.IsRespelled) :
    SplitsBefore (Ends goesOn) (" ".intercalate (ts.map spelling)).toList fun us =>
      us.map content = ts.map content := by
  induction ts with
  | nil => exact fun rest q _ => ⟨[], q, rfl, rfl⟩
  | cons t ts ih =>
    obtain ⟨ht, hts⟩ := List.forall_mem_cons.mp h
    cases ts with
    | nil =>
      rw [List.map_singleton, String.intercalate_singleton]
      exact ht
    | cons u ts =>
      have hblank : Splits [' '] fun ts => ts = [] := splits_gap (by decide)
      have hmore : SplitsBefore (Ends goesOn)
          ([' '] ++ (" ".intercalate ((u :: ts).map spelling)).toList) fun us =>
            us.map content = (u :: ts).map content := by
        apply (ih hts).after_splits hblank
        rintro _ us rfl hus
        exact hus
      have htext : (" ".intercalate ((t :: u :: ts).map spelling)).toList =
          t.spelling.toList ++ ([' '] ++ (" ".intercalate ((u :: ts).map spelling)).toList) := by
        simp
      rw [htext]
      apply ht.append hmore
      · intro rest _
        exact Ends.cons_iff.mpr (by decide)
      · intro us vs hus hvs
        rw [List.map_append, hus, hvs]
        rfl

/-- With single blanks between them the tokens of a text are the same, but for their places. -/
theorem Token.map_content_ofText_spaced (s : String) :
    (ofText (spaced s)).map content = (ofText s).map content := by
  have hpiece := splitsBefore_intercalate fun t => Cursor.isRespelled_of_mem_tokens (t := t)
    (k := Cursor.start s)
  rw [spaced, ← String.ofList_toList (s := " ".intercalate _)]
  exact hpiece.ofText Ends.nil

end RecordQuery
