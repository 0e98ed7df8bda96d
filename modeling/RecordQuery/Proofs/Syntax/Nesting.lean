import RecordQuery.Proofs.Syntax.Bracketed
import RecordQuery.Proofs.Syntax.Depth
import RecordQuery.Proofs.Token.Pieces

/-!
# Filters that are nested too deeply

A term stands inside of so many groups, quantified conditions and right sides of joined conditions,
and nothing else decides on what level the parser comes to it: not the terms before it, however many
they are. What the grammar derives is refused if there is a term on a level too many or a joined
condition that is too deep, and is read otherwise.
-/

namespace RecordQuery

/-! ### Joined conditions of a tree -/

/-- The joined conditions of an expression. -/
def Expr.junctions : Expr → List Expr
  | binary l .and r => binary l .and r :: (l.junctions ++ r.junctions)
  | binary l .or r => binary l .or r :: (l.junctions ++ r.junctions)
  | binary l .complete _ => l.junctions
  | lambda _ _ _ body => body.junctions
  | _ => []

lemma Expr.junctions_joined {l r : Expr} {o : Operator} (ho : o ∈ Operator.joints) :
    (binary l o r).junctions = binary l o r :: (l.junctions ++ r.junctions) := by
  rcases Operator.precedence_of_mem_joints ho with ⟨rfl, -⟩ | ⟨rfl, -⟩ <;> rfl

lemma Expr.junctions_comparison {l r : Expr} {o : Operator} (ho : o ∈ Operator.comparisons) :
    (binary l o r).junctions = [] := by
  cases o with
  | compare c => rfl
  | contains => rfl
  | _ => exact absurd ho (by decide)

/-- No joined condition of the expression is too deep. -/
def Expr.IsShallow (e : Expr) : Prop := ∀ f ∈ e.junctions, f.depth ≤ Parser.maxDepth

lemma Expr.isShallow_joined_iff {l r : Expr} {o : Operator} (ho : o ∈ Operator.joints) :
    (binary l o r).IsShallow ↔
      (binary l o r).depth ≤ Parser.maxDepth ∧ l.IsShallow ∧ r.IsShallow := by
  simp only [IsShallow, junctions_joined ho, List.forall_mem_cons, List.forall_mem_append]

/-! ### What is written is read -/

namespace Bracketed

open RecordQuery.Parser

variable {w : Bracketed} {ts us more rest : List Token} {e : Expr} {levels strength : Nat}

/-- So many levels below its own are enough for an expression. -/
structure Fits (levels : Nat) (w : Bracketed) : Prop where
  nesting_le : w.nesting ≤ levels
  isShallow : w.tree.IsShallow

lemma fits_iff : w.Fits levels ↔ w.nesting ≤ levels ∧ w.tree.IsShallow :=
  ⟨fun ⟨hnesting, hshallow⟩ => ⟨hnesting, hshallow⟩,
    fun ⟨hnesting, hshallow⟩ => ⟨hnesting, hshallow⟩⟩

lemma fits_joined_iff {l r : Bracketed} {o : Operator} (ho : o ∈ Operator.joints) :
    (joined l o r).Fits levels ↔ l.Fits levels ∧ (∃ below, levels = below + 1 ∧ r.Fits below) ∧
      (Expr.binary l.tree o r.tree).depth ≤ maxDepth := by
  constructor
  · rintro ⟨hnesting, hshallow⟩
    obtain ⟨hdepth, hl, hr⟩ := (Expr.isShallow_joined_iff ho).mp hshallow
    rw [nesting, Nat.max_le] at hnesting
    obtain ⟨hlnesting, hrnesting⟩ := hnesting
    cases levels with
    | zero => exact absurd hrnesting (Nat.not_succ_le_zero _)
    | succ below =>
      exact ⟨⟨hlnesting, hl⟩, ⟨below, rfl, Nat.le_of_succ_le_succ hrnesting, hr⟩, hdepth⟩
  · rintro ⟨⟨hlnesting, hl⟩, ⟨below, rfl, hrnesting, hr⟩, hdepth⟩
    refine ⟨?_, (Expr.isShallow_joined_iff ho).mpr ⟨hdepth, hl, hr⟩⟩
    rw [nesting, Nat.max_le]
    exact ⟨hlnesting, Nat.succ_le_succ hrnesting⟩

lemma fits_group_iff : (group w).Fits levels ↔ ∃ below, levels = below + 1 ∧ w.Fits below := by
  constructor
  · rintro ⟨hnesting, hshallow⟩
    cases levels with
    | zero => exact absurd hnesting (Nat.not_succ_le_zero _)
    | succ below => exact ⟨below, rfl, Nat.le_of_succ_le_succ hnesting, hshallow⟩
  · rintro ⟨below, rfl, hnesting, hshallow⟩
    exact ⟨Nat.succ_le_succ hnesting, hshallow⟩

/-- A quantified condition takes the same levels as a group. -/
lemma fits_lambda_iff {c : Path} {q : Quantifier} {parameter : String} :
    (lambda c q parameter w).Fits levels ↔ (group w).Fits levels :=
  ⟨fun ⟨hnesting, hshallow⟩ => ⟨hnesting, hshallow⟩,
    fun ⟨hnesting, hshallow⟩ => ⟨hnesting, hshallow⟩⟩

/-- An expression that holds together more tightly than some strength is read at it if there are
enough levels, and then what is joined to it is. -/
def IsRead (w : Bracketed) (ts : List Token) : Prop :=
  ∀ (levels strength : Nat) (more : List Token) (e : Expr) (rest : List Token),
    strength < w.precedence → Stops w.precedence more →
      (Reads (expression (levels + 1) strength (ts ++ more)) e rest ↔
        w.Fits levels ∧ Reads (chain (expression levels) strength w.tree more) e rest)

/-- A term is read as such. -/
lemma isRead_of_reads_term (h : ∀ (levels : Nat) (more : List Token) (e : Expr) (rest : List Token),
    Reads (term (expression levels) (ts ++ more)) e rest ↔
      w.Fits levels ∧ e = w.tree ∧ rest = more) : w.IsRead ts := by
  intro levels strength more e rest _ _
  rw [reads_expression_iff]
  constructor
  · rintro ⟨_, _, hterm, hchain⟩
    obtain ⟨hfits, rfl, rfl⟩ := (h _ _ _ _).mp hterm
    exact ⟨hfits, hchain⟩
  · rintro ⟨hfits, hchain⟩
    exact ⟨w.tree, more, (h _ _ _ _).mpr ⟨hfits, rfl, rfl⟩, hchain⟩

/-- Where nothing more can be joined to it, an expression alone is read on a level below. -/
lemma IsRead.reads_iff (h : w.IsRead ts) (hstrength : strength < w.precedence)
    (hmore : Stops strength more) :
    Reads (expression levels strength (ts ++ more)) e rest ↔
      (∃ below, levels = below + 1 ∧ w.Fits below) ∧ e = w.tree ∧ rest = more := by
  cases levels with
  | zero =>
    have hnone : ¬ Reads (expression 0 strength (ts ++ more)) e rest := not_reads_error
    simp [hnone]
  | succ levels =>
    rw [h levels strength more e rest hstrength (hmore.mono (Nat.le_of_lt hstrength)),
      reads_chain_of_stops_iff hmore]
    simp

/-- Inside of parentheses an expression takes the levels of the group. -/
lemma IsRead.reads_closing_iff (h : w.IsRead ts) (hpos : 0 < w.precedence)
    {closing closing' : Token} (hclosing : closing.kind = .closeParen) :
    Reads (expression levels 0 (ts ++ closing :: more)) e (closing' :: rest) ↔
      (group w).Fits levels ∧ e = w.tree ∧ closing' = closing ∧ rest = more := by
  rw [h.reads_iff hpos (stops_closing hclosing), ← fits_group_iff, List.cons.injEq]

lemma isRead_comparison {name word value : Token} {ns : List String} {o : Operator} {l : Literal}
    (hname : name.kind = .name) (hnames : Names ns us) (ho : o ∈ Operator.comparisons)
    (hword : word.isKeyword o.text) (htakes : o.Takes value.kind)
    (hvalue : literal? value = some l) :
    IsRead (.comparison ⟨name.literal, ns⟩ o l) (name :: (us ++ [word, value])) := by
  apply isRead_of_reads_term
  intro levels more e rest
  have hfits : Fits levels (.comparison ⟨name.literal, ns⟩ o l) :=
    ⟨Nat.zero_le _, by simp [tree, Expr.IsShallow, Expr.junctions_comparison ho]⟩
  have hread : Reads (term (expression levels) (name :: (us ++ [word, value]) ++ more))
      (tree (.comparison ⟨name.literal, ns⟩ o l)) more := by
    have hall : name :: (us ++ [word, value]) ++ more =
        name :: (us ++ word :: (value :: more)) := by
      simp
    rw [hall]
    exact reads_term_iff.mpr ⟨_, _, rfl,
      .inr ⟨hname, reads_condition_comparison hnames ho hword htakes hvalue⟩⟩
  constructor
  · exact fun h => ⟨hfits, hread.unique h⟩
  · rintro ⟨-, rfl, rfl⟩
    exact hread

lemma IsRead.group (h : w.IsRead ts) (hpos : 0 < w.precedence) {opening closing : Token}
    (hopening : opening.kind = .openParen) (hclosing : closing.kind = .closeParen) :
    IsRead (.group w) (opening :: (ts ++ [closing])) := by
  apply isRead_of_reads_term
  intro levels more e rest
  rw [List.cons_append, List.append_assoc, List.singleton_append]
  simp only [reads_term_iff, reads_group_iff]
  constructor
  · rintro ⟨_, _, heq, ⟨-, closing', -, hread⟩ | ⟨hname, -⟩⟩
    · cases heq
      obtain ⟨hfits, rfl, -, rfl⟩ := (h.reads_closing_iff hpos hclosing).mp hread
      exact ⟨hfits, rfl, rfl⟩
    · cases heq
      cases hopening.symm.trans hname
  · rintro ⟨hfits, rfl, rfl⟩
    exact ⟨opening, _, rfl, .inl ⟨hopening, closing, hclosing,
      (h.reads_closing_iff hpos hclosing).mpr ⟨hfits, rfl, rfl, rfl⟩⟩⟩

lemma IsRead.lambda (h : w.IsRead ts) (hpos : 0 < w.precedence)
    {name slash word opening parameter colon closing : Token} {ns : List String} {q : Quantifier}
    (hname : name.kind = .name) (hnames : Names ns us) (hslash : slash.kind = .slash)
    (hword : word.isKeyword q.text) (hopening : opening.kind = .openParen)
    (hparameter : parameter.kind = .name) (hcolon : colon.kind = .colon)
    (hclosing : closing.kind = .closeParen) :
    IsRead (.lambda ⟨name.literal, ns⟩ q parameter.literal w)
      (name :: (us ++ slash :: word :: opening :: parameter :: colon :: (ts ++ [closing]))) := by
  apply isRead_of_reads_term
  intro levels more e rest
  have hall : name :: (us ++ slash :: word :: opening :: parameter :: colon ::
      (ts ++ [closing])) ++ more =
        name :: (us ++ slash :: word :: opening ::
          (parameter :: colon :: (ts ++ closing :: more))) := by
    simp
  have hterm : Reads (term (expression levels) (name :: (us ++ slash :: word :: opening ::
      (parameter :: colon :: (ts ++ closing :: more))))) e rest ↔
        Reads (Parser.lambda (expression levels) ⟨name.literal, ns⟩ q
          (parameter :: colon :: (ts ++ closing :: more))) e rest := by
    rw [← reads_condition_collection_iff (reads_subject_collection hnames hslash hword hopening),
      reads_term_iff]
    simp [hname]
  rw [hall, hterm, reads_lambda_iff, fits_lambda_iff]
  constructor
  · rintro ⟨_, _, _, body, closing', heq, -, -, hread, -, rfl⟩
    cases heq
    obtain ⟨hfits, rfl, -, rfl⟩ := (h.reads_closing_iff hpos hclosing).mp hread
    exact ⟨hfits, rfl, rfl⟩
  · rintro ⟨hfits, rfl, rfl⟩
    exact ⟨parameter, colon, _, w.tree, closing, rfl, hparameter, hcolon,
      (h.reads_closing_iff hpos hclosing).mpr ⟨hfits, rfl, rfl, rfl⟩, hclosing, rfl⟩

/-- The left side is read on the level of the whole, the right side on one below, and after it the
depth is looked at. -/
lemma IsRead.joined {l r : Bracketed} (hl : l.IsRead ts) (hr : r.IsRead us) {joint : Token}
    {o : Operator} (hleft : o.precedence ≤ l.precedence) (ho : o ∈ Operator.joints)
    (hjoint : joint.isKeyword o.text) (hright : o.precedence < r.precedence) :
    IsRead (.joined l o r) (ts ++ joint :: us) := by
  intro levels strength more e rest hstrength hmore
  have hlogical : logical? joint = some o := logical?_eq_some_iff.mpr ⟨ho, hjoint⟩
  have hstops : Stops l.precedence (joint :: (us ++ more)) := by
    intro t ht o' ho'
    cases ht
    cases hlogical.symm.trans ho'
    exact hleft
  rw [List.append_assoc, List.cons_append,
    hl levels strength _ e rest (Nat.lt_of_lt_of_le hstrength hleft) hstops,
    reads_chain_cons_iff hlogical hstrength, fits_joined_iff ho]
  simp only [hr.reads_iff hright hmore]
  constructor
  · rintro ⟨hfits, _, _, ⟨hbelow, rfl, rfl⟩, hdepth, hchain⟩
    exact ⟨⟨hfits, hbelow, hdepth⟩, hchain⟩
  · rintro ⟨⟨hfits, hbelow, hdepth⟩, hchain⟩
    exact ⟨hfits, _, _, ⟨hbelow, rfl, rfl⟩, hdepth, hchain⟩

lemma Written.isRead (h : w.Written ts) : w.IsRead ts := by
  induction h with
  | comparison hname hnames ho hword htakes hvalue =>
    exact isRead_comparison hname hnames ho hword htakes hvalue
  | lambda hname hnames hslash hword hopening hparameter hcolon h hclosing ih =>
    exact ih.lambda h.precedence_pos hname hnames hslash hword hopening hparameter hcolon hclosing
  | group hopening h hclosing ih => exact ih.group h.precedence_pos hopening hclosing
  | joined _ hleft ho hjoint _ hright ihl ihr => exact ihl.joined ihr hleft ho hjoint hright

end Bracketed

/-! ### Filters -/

namespace Expr

variable {s : String} {e : Expr}

/-- A text is accepted if it is written as an expression that there are enough levels for. -/
lemma ofText_eq_ok_iff_of_written {w : Bracketed} (hw : w.Written (Token.ofText s)) :
    ofText s = .ok e ↔ w.Fits (Parser.maxDepth - 1) ∧ e = w.tree := by
  have hread : Parser.Reads (Parser.expression Parser.maxDepth 0 (Token.ofText s ++ [])) e [] ↔
      (∃ below, Parser.maxDepth = below + 1 ∧ w.Fits below) ∧ e = w.tree ∧ [] = [] :=
    hw.isRead.reads_iff hw.precedence_pos (by simp [Parser.Stops])
  rw [List.append_nil] at hread
  rw [ofText_eq_ok_iff_reads, hread]
  simp [Parser.maxDepth]

/-- What the grammar derives is written in some way, with parentheses or without. However it is,
there are too many levels if and only if some term of it stands inside of a hundred groups,
quantified conditions and right sides of joined conditions or more, or some joined condition in its
tree is deeper than a hundred; otherwise the tree is read. -/
theorem ofText_eq_nestingTooDeep_iff (h : Derives .expression e (Token.ofText s)) :
    (∃ w : Bracketed, w.tree = e ∧ w.Written (Token.ofText s)) ∧
      ∀ w : Bracketed, w.tree = e → w.Written (Token.ofText s) →
        (ofText s = .error (.nestingTooDeep Parser.maxDepth) ↔
          (∃ n, Parser.maxDepth ≤ n ∧ w.HasTermInside n) ∨
            ∃ f ∈ e.junctions, Parser.maxDepth < f.depth) ∧
        (ofText s ≠ .error (.nestingTooDeep Parser.maxDepth) → ofText s = .ok e) := by
  constructor
  · obtain ⟨w, htree, hw, -⟩ := Bracketed.exists_of_derives h
    exact ⟨w, htree, hw⟩
  · rintro w rfl hw
    have hcases := ofText_of_derives h
    refine ⟨?_, hcases.resolve_left⟩
    have herror : ofText s = .error (.nestingTooDeep Parser.maxDepth) ↔ ofText s ≠ .ok w.tree :=
      ⟨fun herror => by simp [herror], hcases.resolve_right⟩
    have hfits : ofText s = .ok w.tree ↔ w.Fits (Parser.maxDepth - 1) := by
      simp [ofText_eq_ok_iff_of_written hw]
    rw [herror, Ne, hfits, Bracketed.fits_iff, not_and_or, ← Bracketed.le_nesting_iff]
    refine or_congr ?_ ?_
    · rw [Nat.not_le]
      exact Iff.rfl
    · simp [IsShallow]

/-- The text of a clause in so many parentheses. -/
def groupedText : Nat → List Char
  | 0 => clauseText
  | n + 1 => '(' :: (groupedText n ++ [')'])

end Expr

namespace Bracketed

open Lexer RecordQuery.Expr

/-- A clause in so many parentheses. -/
def grouped : Nat → Bracketed
  | 0 => .comparison ⟨"b", []⟩ (.compare .eq) (.string "")
  | n + 1 => .group (grouped n)

lemma tree_grouped (n : Nat) : (grouped n).tree = clause := by
  induction n with
  | zero => rfl
  | succ n ih => exact ih

lemma nesting_grouped (n : Nat) : (grouped n).nesting = n := by
  induction n with
  | zero => rfl
  | succ n ih => exact congrArg (· + 1) ih

lemma splits_groupedText (n : Nat) : Splits (groupedText n) fun ts =>
    Derives .expression clause ts ∧ (grouped n).Written ts := by
  have hterm {ts : List Token} (h : Derives .term clause ts) : Derives .expression clause ts := by
    have hwhole : Derives .expression (clause.joined []) (ts ++ Link.all []) :=
      .expression h (by simp) (by simp)
    rwa [Link.all_nil, List.append_nil] at hwhole
  induction n with
  | zero =>
    apply Parser.splits_clauseText.mono
    rintro _ ⟨p, q, r, rfl⟩
    have hname : (⟨.name, "b", p⟩ : Token).kind = .name := rfl
    have hword := Parser.isKeyword_self "eq" q
    have htakes : (Operator.compare .eq).Takes .string := by
      simp [Operator.Takes, Operator.isOrdering, Comparison.isOrdering]
    have hvalue : Parser.literal? ⟨.string, "", r⟩ = some (.string "") := rfl
    exact ⟨hterm (.comparison hname .nil (by decide) hword htakes hvalue),
      .comparison hname .nil (by decide) hword htakes hvalue⟩
  | succ n ih =>
    have hclosed : Splits (groupedText n ++ [')']) fun ts => ∃ us q,
        ts = us ++ [⟨.closeParen, ")", q⟩] ∧ Derives .expression clause us ∧
          (grouped n).Written us := by
      apply ih.append splits_closeParen
      rintro us _ hus ⟨q, rfl⟩
      exact ⟨us, q, rfl, hus⟩
    apply splits_openParen.append hclosed
    rintro _ _ ⟨p, rfl⟩ ⟨us, q, rfl, hderives, hwritten⟩
    exact ⟨hterm (.group rfl hderives rfl), .group rfl hwritten rfl⟩

end Bracketed

namespace Expr

/-- Ninety-nine pairs of parentheses are read, one more is not. -/
theorem ofText_groupedText :
    Derives .expression clause (Token.ofText (String.ofList (groupedText 100))) ∧
      ofText (String.ofList (groupedText 100)) = .error (.nestingTooDeep Parser.maxDepth) ∧
      ofText (String.ofList (groupedText 99)) = .ok clause := by
  obtain ⟨hhundred, hwritten⟩ := (Bracketed.splits_groupedText 100).ofText
  obtain ⟨hfewer, hwritten'⟩ := (Bracketed.splits_groupedText 99).ofText
  refine ⟨hhundred, ?_, ?_⟩
  · obtain ⟨-, hlimit⟩ := ofText_eq_nestingTooDeep_iff hhundred
    refine (hlimit _ (Bracketed.tree_grouped 100) hwritten).1.mpr (.inl ?_)
    rw [← Bracketed.le_nesting_iff, Bracketed.nesting_grouped]
    exact Nat.le_refl _
  · obtain ⟨-, hlimit⟩ := ofText_eq_nestingTooDeep_iff hfewer
    obtain ⟨hiff, hread⟩ := hlimit _ (Bracketed.tree_grouped 99) hwritten'
    refine hread fun herror => ?_
    rcases hiff.mp herror with hnested | ⟨f, hf, -⟩
    · rw [← Bracketed.le_nesting_iff, Bracketed.nesting_grouped] at hnested
      exact absurd hnested (by decide)
    · cases hf

end Expr

end RecordQuery
