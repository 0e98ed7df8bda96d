import RecordQuery.Proofs.Syntax.Recognition
import RecordQuery.Proofs.Token.Splitting

/-!
# How deep accepted filters are

The parser limits the levels of nesting, and the depth of conditions where it joins them. A
quantified condition is one deeper than its body and is not checked again. So the limit holds for
all that is inside the outermost quantified conditions, and these come on top of it.
-/

namespace RecordQuery

/-! ### Shells and cores -/

namespace Expr

/-- What is left of a condition without the quantified conditions around all of it. -/
def core : Expr → Expr
  | binary l .complete _ => l.core
  | lambda _ _ _ body => body.core
  | e => e

/-- The number of quantified conditions around all of a condition. -/
def wraps : Expr → Nat
  | binary l .complete _ => l.wraps
  | lambda _ _ _ body => body.wraps + 1
  | _ => 0

@[simp] lemma core_completed (c : Path) (q : Quantifier) (parameter : String) (body : Expr) :
    (completed c q parameter body).core = body.core := rfl

@[simp] lemma wraps_completed (c : Path) (q : Quantifier) (parameter : String) (body : Expr) :
    (completed c q parameter body).wraps = body.wraps + 1 := rfl

lemma depth_pos (e : Expr) : 0 < e.depth := by
  induction e with
  | binary l o r ihl =>
    cases o with
    | complete => exact ihl
    | _ => simp [depth]
  | _ => simp [depth]

lemma depth_eq_core_add_wraps (e : Expr) : e.depth = e.core.depth + e.wraps := by
  induction e with
  | binary l o r ihl =>
    cases o with
    | complete => exact ihl
    | _ => rfl
  | lambda c q parameter body ih =>
    simp only [depth, core, wraps, ih]
    omega
  | _ => rfl

/-- What so many levels allow for: joined conditions take two of them, and any other core one. -/
structure FitsLevels (levels : Nat) (e : Expr) : Prop where
  depth_core_le : e.core.depth ≤ Parser.maxDepth
  wraps_add_le : e.wraps + min 2 e.core.depth ≤ levels

namespace FitsLevels

variable {levels : Nat} {e l r : Expr} {o : Operator}

lemma succ (h : e.FitsLevels levels) : e.FitsLevels (levels + 1) where
  depth_core_le := h.depth_core_le
  wraps_add_le := Nat.le_succ_of_le h.wraps_add_le

lemma completed (h : e.FitsLevels levels) (c : Path) (q : Quantifier) (parameter : String) :
    (completed c q parameter e).FitsLevels (levels + 1) where
  depth_core_le := h.depth_core_le
  wraps_add_le := by
    have hwraps := h.wraps_add_le
    rw [wraps_completed, core_completed]
    omega

lemma comparison (ho : o ∈ Operator.comparisons) : (binary l o r).FitsLevels (levels + 1) := by
  have hcore : (binary l o r).core.depth = 1 ∧ (binary l o r).wraps = 0 := by
    cases o with
    | compare c => exact ⟨rfl, rfl⟩
    | contains => exact ⟨rfl, rfl⟩
    | _ => exact absurd ho (by decide)
  constructor
  · rw [hcore.1]
    decide
  · rw [hcore.1, hcore.2]
    omega

/-- The right side has been read on a level of its own, so there are two. -/
lemma joined (hr : r.FitsLevels levels) (ho : o ∈ Operator.joints)
    (hdepth : (binary l o r).depth ≤ Parser.maxDepth) :
    (binary l o r).FitsLevels (levels + 1) := by
  have hcore : (binary l o r).core = binary l o r ∧ (binary l o r).wraps = 0 := by
    rcases Operator.precedence_of_mem_joints ho with ⟨rfl, -⟩ | ⟨rfl, -⟩ <;> exact ⟨rfl, rfl⟩
  have hlevels : 1 ≤ levels := by
    have hpos := r.core.depth_pos
    have hwraps := hr.wraps_add_le
    omega
  constructor
  · rw [hcore.1]
    exact hdepth
  · rw [hcore.2]
    omega

end FitsLevels

end Expr

/-! ### What the parser reads within so many levels -/

namespace Parser

variable {ts us rest : List Token} {e left : Expr} {inner : Reader} {levels strength : Nat}

/-- What joining one more condition keeps, a chain keeps. -/
lemma Reads.chain_induction {P : Expr → Prop} (h : Reads (chain inner strength left ts) e rest)
    (hleft : P left)
    (hjoin : ∀ {left right : Expr} {o : Operator} {us more : List Token}, P left →
      o ∈ Operator.joints → Reads (inner o.precedence us) right more →
      (Expr.binary left o right).depth ≤ maxDepth → P (.binary left o right)) : P e := by
  induction hlength : ts.length using Nat.strongRecOn generalizing left ts with
  | _ n ih =>
    rcases reads_chain_cases h with
      ⟨-, rfl, -⟩ | ⟨t, us, o, right, mid, rfl, ho, -, hright, hdepth, h, hshorter⟩
    · exact hleft
    · have hjoint := (logical?_eq_some_iff.mp ho).1
      exact ih mid.length (hlength ▸ hshorter) h (hjoin hleft hjoint hright hdepth) rfl

/-- A reader reads only what so many levels allow for. -/
def Reader.Within (inner : Reader) (levels : Nat) : Prop :=
  ∀ (strength : Nat) (ts : List Token) (e : Expr) (rest : List Token),
    Reads (inner strength ts) e rest → e.FitsLevels levels

lemma fitsLevels_of_reads_condition (hinner : inner.Within levels) {first : String}
    (h : Reads (condition inner first ts) e rest) : e.FitsLevels (levels + 1) := by
  rcases reads_condition_iff.mp h with ⟨p, us, -, h⟩ | ⟨p, q, us, -, h⟩
  · obtain ⟨word, value, o, l, -, ho, -, -, rfl⟩ := reads_comparison_iff.mp h
    exact .comparison (comparison?_eq_some_iff.mp ho).1
  · obtain ⟨parameter, colon, _, body, closing, -, -, -, hbody, -, rfl⟩ := reads_lambda_iff.mp h
    exact (hinner _ _ _ _ hbody).completed p q parameter.literal

lemma fitsLevels_of_reads_term (hinner : inner.Within levels)
    (h : Reads (term inner ts) e rest) : e.FitsLevels (levels + 1) := by
  obtain ⟨t, us, -, ⟨-, h⟩ | ⟨-, h⟩⟩ := reads_term_iff.mp h
  · obtain ⟨closing, -, h⟩ := reads_group_iff.mp h
    exact (hinner _ _ _ _ h).succ
  · exact fitsLevels_of_reads_condition hinner h

lemma within_expression (levels : Nat) : Reader.Within (expression levels) levels := by
  induction levels with
  | zero =>
    intro strength ts e rest h
    exact absurd h not_reads_error
  | succ levels ih =>
    intro strength ts e rest h
    obtain ⟨first, mid, hterm, hchain⟩ := reads_expression_iff.mp h
    -- the first term has this level to itself; every other one is read a level below
    apply hchain.chain_induction
    · exact fitsLevels_of_reads_term ih hterm
    · intro left right o us more _ ho hright hdepth
      exact .joined (ih _ _ _ _ hright) ho hdepth

end Parser

namespace Expr

lemma fitsLevels_of_ofText {s : String} {e : Expr} (h : ofText s = .ok e) :
    e.FitsLevels Parser.maxDepth :=
  Parser.within_expression _ _ _ _ _ (ofText_eq_ok_iff_reads.mp h)

end Expr

/-! ### The deepest filters -/

namespace Expr

/-- A clause of a property called `b`. -/
def clause : Expr := .binary (.name "b") (.compare .eq) (.literal (.string ""))

/-- A clause with so many more joined to it. -/
def conjunction : Nat → Expr
  | 0 => clause
  | n + 1 => .binary (conjunction n) .and clause

/-- A condition inside so many quantified ones. -/
def nested (e : Expr) : Nat → Expr
  | 0 => e
  | k + 1 => .completed ⟨"a", []⟩ .any "x" (nested e k)

def clauseText : List Char := "b eq ''".toList

def conjunctionText : Nat → List Char
  | 0 => clauseText
  | n + 1 => conjunctionText n ++ (" and ".toList ++ clauseText)

def nestedText (cs : List Char) : Nat → List Char
  | 0 => cs
  | k + 1 => "a/any(x:".toList ++ (nestedText cs k ++ ")".toList)

lemma depth_conjunction (n : Nat) : (conjunction n).depth = n + 1 := by
  induction n with
  | zero => rfl
  | succ n ih =>
    have hclause : clause.depth = 1 := rfl
    rw [conjunction, depth, ih, hclause]
    omega

lemma depth_nested (e : Expr) (k : Nat) : (nested e k).depth = e.depth + k := by
  induction k with
  | zero => rfl
  | succ k ih =>
    change (nested e k).depth + 1 = e.depth + (k + 1)
    rw [ih, Nat.add_assoc]

end Expr

namespace Parser

open Lexer RecordQuery.Expr

variable {ts us rest more : List Token} {e : Expr} {inner : Reader} {levels : Nat}

lemma splits_clauseText : Splits clauseText fun ts =>
    ∃ p q r, ts = [⟨.name, "b", p⟩, ⟨.name, "eq", q⟩, ⟨.string, "", r⟩] := by
  intro rest p
  have hname : Lexeme.wordKind ['b'] = .name := by decide
  have hword : Lexeme.wordKind ['e', 'q'] = .name := by decide
  refine ⟨_, p + 7, ?_, p, p + 2, p + 5, rfl⟩
  change Cursor.tokens ⟨"b eq ''".toList ++ rest, p⟩ = _
  simp [Cursor.tokens_cons_of_isGap, Cursor.tokens_cons_of_not_isGap, Cursor.advance,
    Lexeme.read, isGap, isLetter, isWordChar, byteSize, hname, hword]
  exact ⟨rfl, rfl, rfl⟩

lemma splits_and : Splits " and ".toList fun ts => ∃ p, ts = [⟨.name, "and", p⟩] := by
  intro rest p
  have hword : Lexeme.wordKind ['a', 'n', 'd'] = .name := by decide
  refine ⟨_, p + 5, ?_, p + 1, rfl⟩
  simp [Cursor.tokens_cons_of_isGap, Cursor.tokens_cons_of_not_isGap, Cursor.advance, Lexeme.read,
    isGap, isLetter, isWordChar, byteSize, hword]
  exact ⟨rfl, rfl⟩

lemma splits_opening : Splits "a/any(x:".toList fun ts =>
    ∃ p q r s t u, ts = [⟨.name, "a", p⟩, ⟨.slash, "/", q⟩, ⟨.name, "any", r⟩,
      ⟨.openParen, "(", s⟩, ⟨.name, "x", t⟩, ⟨.colon, ":", u⟩] := by
  intro rest p
  have hname : Lexeme.wordKind ['a'] = .name := by decide
  have hword : Lexeme.wordKind ['a', 'n', 'y'] = .name := by decide
  have hparameter : Lexeme.wordKind ['x'] = .name := by decide
  refine ⟨_, p + 8, ?_, p, p + 1, p + 2, p + 5, p + 6, p + 7, rfl⟩
  simp [Cursor.tokens_cons_of_not_isGap, Cursor.advance, Lexeme.read, isGap, isLetter, isWordChar,
    byteSize, hname, hword, hparameter]
  exact ⟨rfl, rfl, rfl, rfl, rfl, rfl⟩

lemma splits_closing : Splits ")".toList fun ts => ∃ p, ts = [⟨.closeParen, ")", p⟩] := by
  intro rest p
  refine ⟨_, p + 1, ?_, p, rfl⟩
  simp [Cursor.tokens_cons_of_not_isGap, Cursor.advance, Lexeme.read, isGap, byteSize]
  rfl

lemma isKeyword_self (word : String) (p : Nat) : (Token.mk .name word p).isKeyword word := by
  simp [Token.isKeyword, Text.sameWord]

/-- Some tokens are read as a clause, whatever comes after them. -/
def IsClause (ts : List Token) : Prop :=
  ∀ (inner : Reader) (rest : List Token), Reads (term inner (ts ++ rest)) clause rest

/-- Some tokens are read as a condition to which more conditions may be joined. -/
def Starts (e : Expr) (ts : List Token) : Prop :=
  ∀ (levels : Nat) (more : List Token) (whole : Expr) (rest : List Token),
    Reads (chain (expression (levels + 1)) 0 e more) whole rest →
      Reads (expression (levels + 2) 0 (ts ++ more)) whole rest

/-- Some tokens are read within so many levels as a condition to which nothing is joined. -/
def IsWhole (levels : Nat) (e : Expr) (ts : List Token) : Prop :=
  ∀ rest, Stops 0 rest → Reads (expression levels 0 (ts ++ rest)) e rest

lemma splits_isClause : Splits clauseText IsClause := by
  apply splits_clauseText.mono
  rintro _ ⟨p, q, r, rfl⟩ inner rest
  have hsubject : Reads (subject (.single "b") (⟨.name, "eq", q⟩ :: ⟨.string, "", r⟩ :: rest))
      (.property ⟨"b", []⟩) (⟨.name, "eq", q⟩ :: ⟨.string, "", r⟩ :: rest) :=
    reads_subject_property .nil rfl
  have hcomparison : Reads (comparison (property ⟨"b", []⟩)
      (⟨.name, "eq", q⟩ :: ⟨.string, "", r⟩ :: rest)) clause rest := by
    refine reads_comparison_iff.mpr ⟨_, _, .compare .eq, .string "", rfl, ?_, ?_, rfl, rfl⟩
    · exact comparison?_eq_some_iff.mpr ⟨by decide, isKeyword_self "eq" q⟩
    · simp [Operator.Takes, Operator.isOrdering, Comparison.isOrdering]
  exact reads_term_iff.mpr
    ⟨_, _, rfl, .inr ⟨rfl, reads_condition_iff.mpr (.inl ⟨_, _, hsubject, hcomparison⟩)⟩⟩

lemma IsClause.starts (hts : IsClause ts) : Starts clause ts := by
  intro levels more whole rest h
  exact reads_expression_iff.mpr ⟨clause, more, hts _ more, h⟩

/-- Nothing binds tighter than `and`, so that its right side is the next clause alone. -/
lemma IsClause.reads_right (hts : IsClause ts) (more : List Token) :
    Reads (expression (levels + 1) 2 (ts ++ more)) clause more := by
  have hstops : Stops 2 more := by
    intro t ht o ho
    rcases Operator.precedence_of_mem_joints (logical?_eq_some_iff.mp ho).1 with h | h <;> omega
  refine reads_expression_iff.mpr ⟨clause, more, hts _ more, ?_⟩
  rw [chain_of_stops hstops, reads_ok_iff]
  exact ⟨rfl, rfl⟩

lemma Starts.join (hts : Starts e ts) (hus : IsClause us) {joint : Token}
    (hjoint : logical? joint = some .and) (hdepth : e.depth < maxDepth) :
    Starts (.binary e .and clause) (ts ++ joint :: us) := by
  intro levels more whole rest h
  rw [List.append_assoc]
  apply hts
  refine (reads_chain_cons_iff hjoint (by decide)).mpr ⟨clause, more, hus.reads_right more, ?_, h⟩
  have hclause : clause.depth = 1 := rfl
  have hpos := e.depth_pos
  rw [Expr.depth, hclause]
  omega

lemma Starts.isWhole (hts : Starts e ts) : IsWhole (levels + 2) e ts := by
  intro rest hrest
  apply hts
  rw [chain_of_stops hrest, reads_ok_iff]
  exact ⟨rfl, rfl⟩

/-- A quantified condition takes one level more than its body. -/
lemma IsWhole.completed (hts : IsWhole levels e ts) (p q r s t u v : Nat) :
    IsWhole (levels + 1) (.completed ⟨"a", []⟩ .any "x" e)
      ([⟨.name, "a", p⟩, ⟨.slash, "/", q⟩, ⟨.name, "any", r⟩, ⟨.openParen, "(", s⟩, ⟨.name, "x", t⟩,
        ⟨.colon, ":", u⟩] ++ (ts ++ [⟨.closeParen, ")", v⟩])) := by
  intro rest hrest
  have hbody := hts (⟨.closeParen, ")", v⟩ :: rest) (stops_closing rfl)
  have hsubject : Reads (subject (.single "a") (⟨.slash, "/", q⟩ :: ⟨.name, "any", r⟩ ::
      ⟨.openParen, "(", s⟩ :: ⟨.name, "x", t⟩ :: ⟨.colon, ":", u⟩ ::
        (ts ++ ⟨.closeParen, ")", v⟩ :: rest))) (.collection ⟨"a", []⟩ .any)
      (⟨.name, "x", t⟩ :: ⟨.colon, ":", u⟩ :: (ts ++ ⟨.closeParen, ")", v⟩ :: rest)) :=
    reads_subject_collection .nil rfl (isKeyword_self "any" r) rfl
  have hlambda : Reads (lambda (expression levels) ⟨"a", []⟩ .any
      (⟨.name, "x", t⟩ :: ⟨.colon, ":", u⟩ :: (ts ++ ⟨.closeParen, ")", v⟩ :: rest)))
      (.completed ⟨"a", []⟩ .any "x" e) rest :=
    reads_lambda_iff.mpr ⟨_, _, _, e, _, rfl, rfl, rfl, hbody, rfl, rfl⟩
  have hcondition := reads_condition_iff.mpr (.inr ⟨_, _, _, hsubject, hlambda⟩)
  rw [List.append_assoc, List.append_assoc]
  refine reads_expression_iff.mpr
    ⟨_, rest, reads_term_iff.mpr ⟨_, _, rfl, .inr ⟨rfl, hcondition⟩⟩, ?_⟩
  rw [chain_of_stops hrest, reads_ok_iff]
  exact ⟨rfl, rfl⟩

lemma splits_conjunction {n : Nat} (hn : n < maxDepth) :
    Splits (conjunctionText n) (Starts (conjunction n)) := by
  induction n with
  | zero => exact splits_isClause.mono fun _ => IsClause.starts
  | succ n ih =>
    have hlink : Splits (" and ".toList ++ clauseText) fun ts =>
        ∃ joint us, ts = joint :: us ∧ logical? joint = some .and ∧ IsClause us := by
      apply splits_and.append splits_isClause
      rintro _ us ⟨p, rfl⟩ hus
      have hword : logical? ⟨.name, "and", p⟩ = some .and :=
        logical?_eq_some_iff.mpr ⟨by decide, isKeyword_self "and" p⟩
      exact ⟨_, us, rfl, hword, hus⟩
    apply (ih (by omega)).append hlink
    rintro ts _ hts ⟨joint, us, rfl, hjoint, hus⟩
    refine hts.join hus hjoint ?_
    rw [depth_conjunction]
    exact hn

lemma splits_nested {cs : List Char} (h : Splits cs (IsWhole levels e)) (k : Nat) :
    Splits (nestedText cs k) (IsWhole (levels + k) (nested e k)) := by
  induction k with
  | zero => exact h
  | succ k ih =>
    have hbody : Splits (nestedText cs k ++ ")".toList) fun ts =>
        ∃ us p, ts = us ++ [⟨.closeParen, ")", p⟩] ∧ IsWhole (levels + k) (nested e k) us := by
      apply ih.append splits_closing
      rintro us _ hus ⟨p, rfl⟩
      exact ⟨us, p, rfl, hus⟩
    apply splits_opening.append hbody
    rintro _ _ ⟨p, q, r, s, t, u, rfl⟩ ⟨us, v, rfl, hus⟩
    exact hus.completed p q r s t u v

end Parser

/-! ### Filters -/

namespace Expr

/-- As many quantified conditions as there are levels but two may stand around conditions joined as
deep as the limit. -/
lemma ofText_nested {k n : Nat} (hk : k + 2 ≤ Parser.maxDepth) (hn : n < Parser.maxDepth) :
    ofText (String.ofList (nestedText (conjunctionText n) k)) = .ok (nested (conjunction n) k) := by
  obtain ⟨levels, hlevels⟩ := Nat.exists_eq_add_of_le' hk
  have hcore : Lexer.Splits (conjunctionText n) (Parser.IsWhole (levels + 2) (conjunction n)) :=
    (Parser.splits_conjunction hn).mono fun _ h => h.isWhole
  have hread := (Parser.splits_nested hcore k).ofText [] (by simp [Parser.Stops])
  rw [List.append_nil, Nat.add_assoc, Nat.add_comm 2 k, ← hlevels] at hread
  exact ofText_eq_ok_iff_reads.mpr hread

/-- Without the quantified conditions around all of it, an accepted filter is no deeper than the
limit, and there are fewer of these than levels. -/
theorem depth_le_of_ofText {s : String} {e : Expr} (h : ofText s = .ok e) :
    e.depth = e.core.depth + e.wraps ∧ e.core.depth ≤ Parser.maxDepth ∧
      e.wraps + min 2 e.core.depth ≤ Parser.maxDepth ∧ e.depth ≤ 2 * Parser.maxDepth - 2 := by
  obtain ⟨hcore, hwraps⟩ := fitsLevels_of_ofText h
  have hdepth := e.depth_eq_core_add_wraps
  have hlimit : Parser.maxDepth = 100 := rfl
  refine ⟨hdepth, hcore, hwraps, ?_⟩
  omega

/-- The deepest filter that is accepted is nearly twice as deep as the limit. -/
theorem depth_deepest :
    ofText (String.ofList (nestedText (conjunctionText 99) 98)) = .ok (nested (conjunction 99) 98) ∧
      (nested (conjunction 99) 98).depth = 198 ∧
      (nested (conjunction 99) 98).depth ≤ 2 * Parser.maxDepth - 2 := by
  have hread := ofText_nested (k := 98) (n := 99) (by decide) (by decide)
  obtain ⟨-, -, -, hle⟩ := depth_le_of_ofText hread
  refine ⟨hread, ?_, hle⟩
  rw [depth_nested, depth_conjunction]

/-- A quantified condition on joined conditions as deep as the limit is accepted, though deeper. -/
theorem not_depth_le_maxDepth :
    ofText (String.ofList (nestedText (conjunctionText 99) 1)) = .ok (nested (conjunction 99) 1) ∧
      ¬ (nested (conjunction 99) 1).depth ≤ Parser.maxDepth := by
  refine ⟨ofText_nested (by decide) (by decide), ?_⟩
  rw [depth_nested, depth_conjunction]
  decide

end Expr

end RecordQuery
