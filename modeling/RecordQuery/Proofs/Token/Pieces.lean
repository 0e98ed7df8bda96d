import RecordQuery.Proofs.Token.Splitting

/-!
# Pieces of texts

A word or a numeral goes on as far as its characters do, so that what comes after it decides where
it ends. A piece of text has tokens of its own before whatever does not go on with its last one.
-/

namespace RecordQuery

/-- The cursor after all of the front of a text. -/
lemma Cursor.advance_append (cs rest : List Char) (p : Nat) :
    (Cursor.mk (cs ++ rest) p).advance cs.length = ⟨rest, p + Lexer.byteSize cs⟩ := by
  simp [advance]

/-! ### Where a run of characters ends -/

/-- A text does not go on with characters of some kind. -/
def Lexer.Ends (goesOn : Char → Bool) (rest : List Char) : Prop :=
  ∀ c ∈ rest.head?, goesOn c = false

namespace Lexer.Ends

variable {goesOn more : Char → Bool} {cs rest : List Char} {c : Char}

@[simp] lemma nil : Ends goesOn [] := by
  simp [Ends]

@[simp] lemma cons_iff : Ends goesOn (c :: rest) ↔ goesOn c = false := by
  simp [Ends]

lemma mono (h : Ends more rest) (hmore : ∀ c, goesOn c → more c) : Ends goesOn rest := by
  intro c hc
  have hfalse := h c hc
  rw [Bool.eq_false_iff] at hfalse ⊢
  exact fun hgoesOn => hfalse (hmore c hgoesOn)

/-- A run of characters ends at the latest where the text does not go on with them. -/
lemma takeWhile_append (h : Ends goesOn rest) :
    (cs ++ rest).takeWhile goesOn = cs.takeWhile goesOn := by
  have hrest : rest.takeWhile goesOn = [] := by
    cases rest with
    | nil => rfl
    | cons c rest => simp [cons_iff.mp h]
  rw [List.takeWhile_append, hrest, List.append_nil]
  split_ifs with hlength
  · exact ((List.takeWhile_prefix goesOn).eq_of_length hlength).symm
  · rfl

/-- A run of characters ends where the text does not go on with them. -/
lemma takeWhile_eq (h : Ends goesOn rest) (hcs : ∀ c ∈ cs, goesOn c) :
    (cs ++ rest).takeWhile goesOn = cs := by
  have hrest : ([] ++ rest).takeWhile goesOn = [] := h.takeWhile_append
  rw [List.takeWhile_append_of_pos hcs, ← List.nil_append rest, hrest, List.append_nil]

end Lexer.Ends

/-! ### What is read at the front of a text -/

namespace Lexer

variable {c : Char} {cs : List Char}

/-- Characters that go on with a word or with a numeral. -/
def goesOn (c : Char) : Bool := isWordChar c || isNumeralChar c

lemma Ends.isWordChar {rest : List Char} (h : Ends goesOn rest) : Ends isWordChar rest :=
  h.mono fun d hd => by simp [goesOn, hd]

lemma Ends.isNumeralChar {rest : List Char} (h : Ends goesOn rest) : Ends isNumeralChar rest :=
  h.mono fun d hd => by simp [goesOn, hd]

lemma toNat_of_isLetter (h : isLetter c) :
    65 ≤ c.toNat ∧ c.toNat ≤ 90 ∨ 97 ≤ c.toNat ∧ c.toNat ≤ 122 ∨ c.toNat = 95 := by
  rcases (Bool.or_eq_true _ _).mp h with halpha | hunderscore
  · rcases (Bool.or_eq_true _ _).mp halpha with hupper | hlower
    · exact .inl (of_decide_eq_true hupper)
    · obtain ⟨hfrom, hto⟩ := (Bool.and_eq_true _ _).mp hlower
      exact .inr (.inl ⟨of_decide_eq_true hfrom, of_decide_eq_true hto⟩)
  · rw [of_decide_eq_true hunderscore]
    decide

lemma isDigit_of_isLetter (h : isLetter c) : c.isDigit = false := by
  rw [Bool.eq_false_iff]
  intro hdigit
  have hrange : 48 ≤ c.toNat ∧ c.toNat ≤ 57 := Char.isDigit_iff_toNat.mp hdigit
  have hletter := toNat_of_isLetter h
  omega

/-- Neither gaps nor marks are letters or digits. -/
lemma ne_of_class {p : Char → Bool} {m : Char} (h : p c) (hm : p m = false) : c ≠ m := by
  rintro rfl
  rw [h] at hm
  cases hm

lemma isGap_eq_false {p : Char → Bool} (h : p c)
    (hgaps : [' ', '\t', '\n', '\r'].any p = false) : isGap c = false := by
  simp only [List.any_cons, Bool.or_eq_false_iff] at hgaps
  obtain ⟨hblank, htab, hfeed, hreturn, -⟩ := hgaps
  simp [isGap, ne_of_class h hblank, ne_of_class h htab, ne_of_class h hfeed,
    ne_of_class h hreturn]

end Lexer

namespace Lexeme

open Lexer

variable {c : Char} {cs content more : List Char}

/-- A letter starts a word. -/
lemma read_word (h : isLetter c) :
    read c cs = ⟨wordKind (c :: cs.takeWhile isWordChar), c :: cs.takeWhile isWordChar,
      (cs.takeWhile isWordChar).length⟩ := by
  have hmark {m : Char} (hm : isLetter m = false) : c ≠ m := ne_of_class h hm
  simp [read, h, isDigit_of_isLetter h, hmark (m := '(') (by decide), hmark (m := ')') (by decide),
    hmark (m := '/') (by decide), hmark (m := ':') (by decide), hmark (m := '\'') (by decide)]

/-- A digit starts a numeral. -/
lemma read_numeral (h : c.isDigit) :
    read c cs = ⟨numeralKind (c :: cs.takeWhile isNumeralChar), c :: cs.takeWhile isNumeralChar,
      (cs.takeWhile isNumeralChar).length⟩ := by
  have hmark {m : Char} (hm : m.isDigit = false) : c ≠ m := ne_of_class h hm
  simp [read, h, hmark (m := '(') (by decide), hmark (m := ')') (by decide),
    hmark (m := '/') (by decide), hmark (m := ':') (by decide), hmark (m := '\'') (by decide)]

/-- A string is closed by the next quote. -/
lemma read_string (h : '\'' ∉ content) :
    read '\'' (content ++ '\'' :: more) = ⟨.string, content, content.length + 1⟩ := by
  have hcontent : (content ++ '\'' :: more).takeWhile (· != '\'') = content := by
    apply Ends.takeWhile_eq
    · simp
    · intro d hd
      rw [bne_iff_ne]
      rintro rfl
      exact h hd
  simp [read, hcontent]

end Lexeme

/-! ### Pieces -/

/-- A text has tokens of its own, with some property, whatever comes before it, and after it what
may come there. -/
def Lexer.SplitsBefore (R : List Char → Prop) (cs : List Char) (P : List Token → Prop) : Prop :=
  ∀ rest p, R rest →
    ∃ ts q, (Cursor.mk (cs ++ rest) p).tokens = ts ++ (Cursor.mk rest q).tokens ∧ P ts

namespace Lexer

variable {cs ds : List Char} {P Q W : List Token → Prop} {R S : List Char → Prop} {c : Char}

lemma Splits.before (h : Splits cs P) : SplitsBefore R cs P := fun rest p _ => h rest p

namespace SplitsBefore

lemma mono (h : SplitsBefore R cs P) (hPQ : ∀ ts, P ts → Q ts) : SplitsBefore R cs Q := by
  intro rest p hrest
  obtain ⟨ts, q, hts, hP⟩ := h rest p hrest
  exact ⟨ts, q, hts, hPQ ts hP⟩

lemma restrict (h : SplitsBefore R cs P) (hSR : ∀ rest, S rest → R rest) : SplitsBefore S cs P :=
  fun rest p hrest => h rest p (hSR rest hrest)

/-- One piece may stand before another one that may come there. -/
lemma append (hc : SplitsBefore R cs P) (hd : SplitsBefore S ds Q)
    (hseam : ∀ rest, S rest → R (ds ++ rest)) (h : ∀ ts us, P ts → Q us → W (ts ++ us)) :
    SplitsBefore S (cs ++ ds) W := by
  intro rest p hrest
  obtain ⟨ts, q, hts, hP⟩ := hc (ds ++ rest) p (hseam rest hrest)
  obtain ⟨us, r, hus, hQ⟩ := hd rest q hrest
  refine ⟨ts ++ us, r, ?_, h ts us hP hQ⟩
  rw [List.append_assoc, hts, hus, List.append_assoc]

/-- A piece and a text that may come after it have tokens of their own, whatever comes then. -/
lemma splits_append (hc : SplitsBefore R cs P) (hd : Splits ds Q) (hseam : ∀ rest, R (ds ++ rest))
    (h : ∀ ts us, P ts → Q us → W (ts ++ us)) : Splits (cs ++ ds) W := by
  intro rest p
  exact hc.append (S := fun _ => True) hd.before (fun rest _ => hseam rest) h rest p trivial

/-- What may stand before everything may stand before a piece. -/
lemma after_splits (hd : SplitsBefore S ds Q) (hc : Splits cs P)
    (h : ∀ ts us, P ts → Q us → W (ts ++ us)) : SplitsBefore S (cs ++ ds) W :=
  SplitsBefore.append (R := fun _ => True) hc.before hd (fun _ _ => trivial) h

/-- A piece before the end of the text is all of it. -/
lemma ofText (h : SplitsBefore R cs P) (hR : R []) : P (Token.ofText (String.ofList cs)) := by
  obtain ⟨ts, q, hts, hP⟩ := h [] 0 hR
  rw [List.append_nil, Cursor.tokens_nil, List.append_nil] at hts
  rwa [Token.ofText, Cursor.start, String.toList_ofList, hts]

end SplitsBefore

/-- A piece that is read as one lexeme is one token. -/
lemma splitsBefore_lexeme {kind : Token.Kind} {literal : List Char} (hgap : isGap c = false)
    (hread : ∀ rest, R rest → Lexeme.read c (cs ++ rest) = ⟨kind, literal, cs.length⟩) :
    SplitsBefore R (c :: cs) fun ts => ∃ p, ts = [⟨kind, String.ofList literal, p⟩] := by
  intro rest p hrest
  refine ⟨_, p + byteSize (c :: cs), ?_, p, rfl⟩
  rw [List.cons_append, Cursor.tokens_cons_of_not_isGap hgap, hread rest hrest,
    ← List.cons_append, ← List.length_cons, Cursor.advance_append]
  rfl

lemma splits_gap (hgap : isGap c) : Splits [c] fun ts => ts = [] := by
  intro rest p
  exact ⟨[], _, Cursor.tokens_cons_of_isGap hgap, rfl⟩

/-- A mark is a token whatever comes after it. -/
lemma splits_mark {kind : Token.Kind} (hgap : isGap c = false)
    (hread : ∀ rest, Lexeme.read c rest = ⟨kind, [c], 0⟩) :
    Splits [c] fun ts => ∃ p, ts = [⟨kind, String.ofList [c], p⟩] := by
  have hpiece : SplitsBefore (fun _ => True) [c] fun ts =>
      ∃ p, ts = [⟨kind, String.ofList [c], p⟩] :=
    splitsBefore_lexeme hgap fun rest _ => hread rest
  exact fun rest p => hpiece rest p trivial

lemma splits_openParen : Splits ['('] fun ts => ∃ p, ts = [⟨.openParen, "(", p⟩] :=
  splits_mark (by decide) fun rest => by simp [Lexeme.read]

lemma splits_closeParen : Splits [')'] fun ts => ∃ p, ts = [⟨.closeParen, ")", p⟩] :=
  splits_mark (by decide) fun rest => by simp [Lexeme.read]

lemma splits_slash : Splits ['/'] fun ts => ∃ p, ts = [⟨.slash, "/", p⟩] :=
  splits_mark (by decide) fun rest => by simp [Lexeme.read]

lemma splits_colon : Splits [':'] fun ts => ∃ p, ts = [⟨.colon, ":", p⟩] :=
  splits_mark (by decide) fun rest => by simp [Lexeme.read]

/-- A text between quotes is a token whatever comes after it. -/
lemma splits_string (hcs : '\'' ∉ cs) : Splits ('\'' :: (cs ++ ['\''])) fun ts => ∃ p,
    ts = [⟨.string, String.ofList cs, p⟩] := by
  have hread (rest : List Char) :
      Lexeme.read '\'' (cs ++ ['\''] ++ rest) = ⟨.string, cs, (cs ++ ['\'']).length⟩ := by
    rw [List.append_assoc, List.singleton_append, Lexeme.read_string hcs, List.length_append]
    rfl
  have hpiece : SplitsBefore (fun _ => True) ('\'' :: (cs ++ ['\''])) fun ts =>
      ∃ p, ts = [⟨.string, String.ofList cs, p⟩] :=
    splitsBefore_lexeme (by decide) fun rest _ => hread rest
  exact fun rest p => hpiece rest p trivial

/-- A word is a name or what else it may be as a whole. -/
lemma splitsBefore_word (hc : isLetter c) (hcs : ∀ d ∈ cs, isWordChar d) :
    SplitsBefore (Ends isWordChar) (c :: cs) fun ts => ∃ p,
      ts = [⟨Lexeme.wordKind (c :: cs), String.ofList (c :: cs), p⟩] :=
  splitsBefore_lexeme (isGap_eq_false hc (by decide)) fun rest hrest => by
    rw [Lexeme.read_word hc, hrest.takeWhile_eq hcs]

lemma splitsBefore_numeral (hc : c.isDigit) (hcs : ∀ d ∈ cs, isNumeralChar d) :
    SplitsBefore (Ends isNumeralChar) (c :: cs) fun ts => ∃ p,
      ts = [⟨Lexeme.numeralKind (c :: cs), String.ofList (c :: cs), p⟩] :=
  splitsBefore_lexeme (isGap_eq_false hc (by decide)) fun rest hrest => by
    rw [Lexeme.read_numeral hc, hrest.takeWhile_eq hcs]

/-! ### Names -/

/-- Holds of the words that are names. -/
def isName : List Char → Bool
  | [] => false
  | c :: cs => isLetter c && cs.all isWordChar && Lexeme.wordKind (c :: cs) == .name

lemma splitsBefore_name (h : isName cs) : SplitsBefore (Ends isWordChar) cs fun ts => ∃ p,
    ts = [⟨.name, String.ofList cs, p⟩] := by
  cases cs with
  | nil => cases h
  | cons c cs =>
    simp only [isName, Bool.and_eq_true, beq_iff_eq, List.all_eq_true] at h
    obtain ⟨⟨hc, hcs⟩, hkind⟩ := h
    have hpiece := splitsBefore_word hc hcs
    rwa [hkind] at hpiece

/-- A name and a mark are two tokens whatever comes before and after them. -/
lemma splits_name_append {kind : Token.Kind} {literal : String} (h : isName cs)
    (hc : Splits [c] fun ts => ∃ p, ts = [⟨kind, literal, p⟩]) (hend : isWordChar c = false) :
    Splits (cs ++ [c]) fun ts =>
      ∃ p q, ts = [⟨.name, String.ofList cs, p⟩, ⟨kind, literal, q⟩] := by
  apply (splitsBefore_name h).splits_append hc
  · intro rest
    exact Ends.cons_iff.mpr hend
  · rintro _ _ ⟨p, rfl⟩ ⟨q, rfl⟩
    exact ⟨p, q, rfl⟩

/-- A keyword between blanks is a token whatever comes before and after it. -/
lemma splits_keyword {word : String} (h : isName word.toList) :
    Splits (' ' :: (word.toList ++ [' '])) fun ts => ∃ t, ts = [t] ∧ t.isKeyword word := by
  have hblank : Splits [' '] fun ts => ts = [] := splits_gap (by decide)
  have hword : Splits (word.toList ++ [' ']) fun ts => ∃ t, ts = [t] ∧ t.isKeyword word := by
    apply (splitsBefore_name h).splits_append hblank
    · intro rest
      exact Ends.cons_iff.mpr (by decide)
    · rintro _ _ ⟨p, rfl⟩ rfl
      exact ⟨_, rfl, by simp [Token.isKeyword, Text.sameWord]⟩
  apply hblank.append hword
  rintro _ ts rfl hts
  exact hts

/-- A piece before a closing parenthesis. -/
lemma SplitsBefore.closed (h : SplitsBefore (Ends goesOn) cs P) : Splits (cs ++ [')']) fun ts =>
    ∃ us p, ts = us ++ [⟨.closeParen, ")", p⟩] ∧ P us := by
  apply h.splits_append splits_closeParen
  · intro rest
    exact Ends.cons_iff.mpr (by decide)
  · rintro us _ hus ⟨p, rfl⟩
    exact ⟨us, p, rfl, hus⟩

end Lexer

end RecordQuery
