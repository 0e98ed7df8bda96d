import RecordQuery.Proofs.Syntax.Depth
import RecordQuery.Proofs.Syntax.Literals

/-!
# Filters are read as they are written

The text of a filter is read as the same filter. It has parentheses around all joined conditions,
which take levels of nesting that the filter need not have had where it was first read, so this is
said of filters that are half as deep as the levels allow.
-/

namespace RecordQuery

/-! ### Terms and their levels -/

namespace Parser

variable {e l r body : Expr} {o : Operator} {ts us rest : List Token} {k levels strength : Nat}
  {ns : List String}

/-- Some tokens are read as a term wherever there are so many levels. -/
def ReadsTerm (k : Nat) (e : Expr) (ts : List Token) : Prop :=
  ∀ levels, k ≤ levels → ∀ rest, Reads (term (expression levels) (ts ++ rest)) e rest

/-- Some tokens are read as a quantified condition, after its opening parenthesis, wherever there
are so many levels. -/
def ReadsLambda (k : Nat) (c : Path) (q : Quantifier) (e : Expr) (ts : List Token) : Prop :=
  ∀ levels, k ≤ levels → ∀ rest, Reads (lambda (expression levels) c q (ts ++ rest)) e rest

namespace ReadsTerm

lemma mono {k' : Nat} (h : ReadsTerm k e ts) (hk : k ≤ k') : ReadsTerm k' e ts :=
  fun levels hlevels => h levels (Nat.le_trans hk hlevels)

/-- A term to which nothing is joined is an expression. -/
lemma expression (h : ReadsTerm k e ts) (hlevels : k ≤ levels) (hrest : Stops strength rest) :
    Reads (expression (levels + 1) strength (ts ++ rest)) e rest := by
  refine reads_expression_iff.mpr ⟨e, rest, h levels hlevels rest, ?_⟩
  rw [chain_of_stops hrest, reads_ok_iff]
  exact ⟨rfl, rfl⟩

lemma comparison {name word value : Token} {lit : Literal} (hname : name.kind = .name)
    (hnames : Names ns us) (ho : o ∈ Operator.comparisons) (hword : word.isKeyword o.text)
    (htakes : o.Takes value.kind) (hvalue : literal? value = some lit) :
    ReadsTerm 0 (.binary (property ⟨name.literal, ns⟩) o (.literal lit))
      (name :: (us ++ [word, value])) := by
  intro levels _ rest
  have hkind := (Token.isKeyword_iff.mp hword).1
  have hall : name :: (us ++ [word, value]) ++ rest = name :: (us ++ word :: value :: rest) := by
    simp
  rw [hall]
  refine reads_term_iff.mpr ⟨name, _, rfl, .inr ⟨hname, reads_condition_iff.mpr (.inl ⟨_, _,
    reads_subject_property hnames hkind, reads_comparison_iff.mpr ?_⟩)⟩⟩
  exact ⟨word, value, o, lit, rfl, comparison?_eq_some_iff.mpr ⟨ho, hword⟩, htakes, hvalue, rfl⟩

/-- A quantified condition takes a level more than its body. -/
lemma lambda {parameter colon closing : Token} (h : ReadsTerm k body ts)
    (hparameter : parameter.kind = .name) (hcolon : colon.kind = .colon)
    (hclosing : closing.kind = .closeParen) (c : Path) (q : Quantifier) :
    ReadsLambda (k + 1) c q (.completed c q parameter.literal body)
      (parameter :: colon :: (ts ++ [closing])) := by
  intro levels hlevels rest
  obtain ⟨below, rfl⟩ := Nat.exists_eq_add_of_le' (Nat.le_trans (Nat.le_add_left 1 k) hlevels)
  have hread : Reads (Parser.expression (below + 1) 0 (ts ++ closing :: rest)) body
      (closing :: rest) :=
    h.expression (Nat.le_of_succ_le_succ hlevels) (stops_closing hclosing)
  have hall : parameter :: colon :: (ts ++ [closing]) ++ rest =
      parameter :: colon :: (ts ++ closing :: rest) := by
    simp
  rw [hall]
  exact reads_lambda_iff.mpr
    ⟨parameter, colon, _, body, closing, rfl, hparameter, hcolon, hread, hclosing, rfl⟩

/-- A collection stands before its quantified condition. -/
lemma of_lambda {name slash word opening : Token} {q : Quantifier} (hname : name.kind = .name)
    (hnames : Names ns us) (hslash : slash.kind = .slash) (hword : word.isKeyword q.text)
    (hopening : opening.kind = .openParen) (h : ReadsLambda k ⟨name.literal, ns⟩ q e ts) :
    ReadsTerm k e (name :: (us ++ slash :: word :: opening :: ts)) := by
  intro levels hlevels rest
  have hall : name :: (us ++ slash :: word :: opening :: ts) ++ rest =
      name :: (us ++ slash :: word :: opening :: (ts ++ rest)) := by
    simp
  rw [hall]
  exact reads_term_iff.mpr ⟨name, _, rfl, .inr ⟨hname, reads_condition_iff.mpr (.inr ⟨_, _, _,
    reads_subject_collection hnames hslash hword hopening, h levels hlevels rest⟩)⟩⟩

/-- Joined conditions in parentheses take a level for these, and one for the right side. -/
lemma joined {opening joint closing : Token} (hopening : opening.kind = .openParen)
    (hl : ReadsTerm k l ts) (ho : o ∈ Operator.joints) (hjoint : joint.isKeyword o.text)
    (hr : ReadsTerm k r us) (hclosing : closing.kind = .closeParen)
    (hdepth : (Expr.binary l o r).depth ≤ maxDepth) :
    ReadsTerm (k + 2) (.binary l o r) (opening :: (ts ++ joint :: (us ++ [closing]))) := by
  intro levels hlevels rest
  obtain ⟨below, rfl⟩ := Nat.exists_eq_add_of_le' (Nat.le_trans (Nat.le_add_left 2 k) hlevels)
  have hbelow : k ≤ below := Nat.le_of_add_le_add_right hlevels
  have hstops {strength : Nat} : Stops strength (closing :: rest) := stops_closing hclosing
  have hright : Reads (Parser.expression (below + 1) o.precedence (us ++ closing :: rest)) r
      (closing :: rest) := hr.expression hbelow hstops
  have hprecedence : 0 < o.precedence := by
    rcases Operator.precedence_of_mem_joints ho with h | h <;> omega
  have hchain : Reads (chain (Parser.expression (below + 1)) 0 l
      (joint :: (us ++ closing :: rest))) (.binary l o r) (closing :: rest) := by
    refine (reads_chain_cons_iff (logical?_eq_some_iff.mpr ⟨ho, hjoint⟩) hprecedence).mpr
      ⟨r, closing :: rest, hright, hdepth, ?_⟩
    rw [chain_of_stops hstops, reads_ok_iff]
    exact ⟨rfl, rfl⟩
  have hall : opening :: (ts ++ joint :: (us ++ [closing])) ++ rest =
      opening :: (ts ++ joint :: (us ++ closing :: rest)) := by
    simp
  rw [hall]
  exact reads_term_iff.mpr ⟨opening, _, rfl, .inl ⟨hopening, reads_group_iff.mpr ⟨closing, hclosing,
    reads_expression_iff.mpr ⟨l, _, hl (below + 1) (Nat.le_succ_of_le hbelow) _, hchain⟩⟩⟩⟩

end ReadsTerm

end Parser

/-! ### Pieces of the text -/

open Lexer

lemma Path.text_cons (first next : String) (rest : List String) :
    (Path.mk first (next :: rest)).text = first ++ "/" ++ (Path.mk next rest).text :=
  String.intercalate_cons_cons

lemma Path.text_nil (first : String) : (Path.mk first []).text = first := rfl

/-- A path is its names with slashes between them. -/
lemma Path.splitsBefore_text {first : String} {rest : List String}
    (h : ∀ name ∈ first :: rest, isName name.toList) :
    SplitsBefore (Ends isWordChar) (Path.mk first rest).text.toList fun ts =>
      ∃ name us, ts = name :: us ∧ name.kind = .name ∧ name.literal = first ∧ Names rest us := by
  induction rest generalizing first with
  | nil =>
    rw [text_nil]
    apply (splitsBefore_name (h first List.mem_cons_self)).mono
    rintro _ ⟨p, rfl⟩
    exact ⟨_, [], rfl, rfl, String.ofList_toList, .nil⟩
  | cons next rest ih =>
    obtain ⟨hfirst, hrest⟩ := List.forall_mem_cons.mp h
    have hmore : SplitsBefore (Ends isWordChar) (['/'] ++ (Path.mk next rest).text.toList) fun ts =>
        Names (next :: rest) ts := by
      apply (ih hrest).after_splits splits_slash
      rintro _ _ ⟨p, rfl⟩ ⟨name, us, rfl, hname, rfl, hus⟩
      exact .cons rfl hname hus
    have hpath : (Path.mk first (next :: rest)).text.toList =
        first.toList ++ (['/'] ++ (Path.mk next rest).text.toList) := by
      simp [text_cons]
    rw [hpath]
    apply (splitsBefore_name hfirst).append hmore
    · intro rest _
      exact Ends.cons_iff.mpr (by decide)
    · rintro _ us ⟨p, rfl⟩ hus
      exact ⟨_, us, rfl, rfl, String.ofList_toList, hus⟩

namespace Expr

/-- The literals of a filter. -/
def literals : Expr → List Literal
  | literal l => [l]
  | binary l _ r => l.literals ++ r.literals
  | lambda _ _ _ body => body.literals
  | _ => []

variable {e l r body : Expr} {o : Operator} {k : Nat}

lemma text_property (p : Path) : (Parser.property p).text = p.text := by
  obtain ⟨first, rest⟩ := p
  cases rest with
  | nil => rfl
  | cons next rest => rfl

lemma text_comparison (ho : o ∈ Operator.comparisons) (p : Path) (lit : Literal) :
    (binary (Parser.property p) o (.literal lit)).text =
      p.text ++ " " ++ o.text ++ " " ++ lit.text := by
  have htext : (binary (Parser.property p) o (.literal lit)).text =
      (Parser.property p).text ++ " " ++ o.text ++ " " ++ (literal lit).text := by
    cases o with
    | compare c => rfl
    | contains => rfl
    | _ => exact absurd ho (by decide)
  rw [htext, text_property, text]

lemma text_completed (c : Path) (q : Quantifier) (parameter : String) (body : Expr) :
    (completed c q parameter body).text =
      c.text ++ "/" ++ q.text ++ "(" ++ parameter ++ ": " ++ body.text ++ ")" := rfl

lemma text_joined (ho : o ∈ Operator.joints) :
    (binary l o r).text = "(" ++ l.text ++ " " ++ o.text ++ " " ++ r.text ++ ")" := by
  apply String.toList_inj.mp
  rcases Operator.precedence_of_mem_joints ho with ⟨rfl, -⟩ | ⟨rfl, -⟩ <;>
    simp [text, Operator.text]

/-- The text of a comparison. -/
lemma splitsBefore_comparison {p : Path} {lit : Literal} {kind : Token.Kind}
    (hp : ∀ name ∈ p.segments, isName name.toList) (ho : o ∈ Operator.comparisons)
    (htakes : o.Takes kind) (hlit : lit.IsSpelled kind) :
    SplitsBefore (Ends goesOn) (binary (Parser.property p) o (.literal lit)).text.toList
      (Parser.ReadsTerm 0 (.binary (Parser.property p) o (.literal lit))) := by
  have hname : isName o.text.toList :=
    (by decide : ∀ o ∈ Operator.comparisons, isName o.text.toList) o ho
  have hright : SplitsBefore (Ends goesOn) (' ' :: (o.text.toList ++ [' ']) ++ lit.text.toList)
      fun ts => ∃ word value, ts = [word, value] ∧ word.isKeyword o.text ∧
        value.kind = kind ∧ Parser.literal? value = some lit := by
    apply hlit.after_splits (splits_keyword hname)
    rintro _ _ ⟨word, rfl, hword⟩ ⟨value, rfl, hkind, hvalue⟩
    exact ⟨word, value, rfl, hword, hkind, hvalue⟩
  have htext : (binary (Parser.property p) o (.literal lit)).text.toList =
      p.text.toList ++ (' ' :: (o.text.toList ++ [' ']) ++ lit.text.toList) := by
    simp [text_comparison ho]
  rw [htext]
  apply (Path.splitsBefore_text hp).append hright
  · intro rest _
    exact Ends.cons_iff.mpr (by decide)
  · rintro _ _ ⟨name, us, rfl, hname, hfirst, hus⟩ ⟨word, value, rfl, hword, rfl, hvalue⟩
    obtain ⟨first, rest⟩ := p
    simp only at hfirst hus
    rw [← hfirst]
    exact .comparison hname hus ho hword htakes hvalue

/-- The text of a quantified condition. -/
lemma splitsBefore_completed {c : Path} {q : Quantifier} {parameter : String}
    (hc : ∀ name ∈ c.segments, isName name.toList) (hparameter : isName parameter.toList)
    (hbody : SplitsBefore (Ends goesOn) body.text.toList (Parser.ReadsTerm k body)) :
    SplitsBefore (Ends goesOn) (completed c q parameter body).text.toList
      (Parser.ReadsTerm (k + 1) (completed c q parameter body)) := by
  have hq : isName q.text.toList := by
    cases q <;> decide
  have hgap : Splits ([' '] ++ (body.text.toList ++ [')'])) fun ts => ∃ us p,
      ts = us ++ [⟨.closeParen, ")", p⟩] ∧ Parser.ReadsTerm k body us := by
    apply (splits_gap (by decide)).append hbody.closed
    rintro _ us rfl hus
    exact hus
  have hlambda : Splits (parameter.toList ++ [':'] ++ ([' '] ++ (body.text.toList ++ [')'])))
      (Parser.ReadsLambda (k + 1) c q (completed c q parameter body)) := by
    apply (splits_name_append hparameter splits_colon (by decide)).append hgap
    rintro _ _ ⟨p, r, rfl⟩ ⟨us, t, rfl, hus⟩
    rw [String.ofList_toList]
    exact hus.lambda rfl rfl rfl c q
  have hopening : Splits (q.text.toList ++ ['('] ++ (parameter.toList ++ [':'] ++
      ([' '] ++ (body.text.toList ++ [')'])))) fun ts => ∃ word opening us,
        ts = word :: opening :: us ∧ word.isKeyword q.text ∧ opening.kind = .openParen ∧
          Parser.ReadsLambda (k + 1) c q (completed c q parameter body) us := by
    apply (splits_name_append hq splits_openParen (by decide)).append hlambda
    rintro _ us ⟨p, r, rfl⟩ hus
    exact ⟨_, _, us, rfl, by simp [Token.isKeyword, Text.sameWord], rfl, hus⟩
  have hquantified : Splits (['/'] ++ (q.text.toList ++ ['('] ++ (parameter.toList ++ [':'] ++
      ([' '] ++ (body.text.toList ++ [')']))))) fun ts => ∃ slash word opening us,
        ts = slash :: word :: opening :: us ∧ slash.kind = .slash ∧ word.isKeyword q.text ∧
          opening.kind = .openParen ∧
          Parser.ReadsLambda (k + 1) c q (completed c q parameter body) us := by
    apply splits_slash.append hopening
    rintro _ _ ⟨p, rfl⟩ ⟨word, opening, us, rfl, hword, hkind, hus⟩
    exact ⟨_, word, opening, us, rfl, rfl, hword, hkind, hus⟩
  have htext : (completed c q parameter body).text.toList = c.text.toList ++
      (['/'] ++ (q.text.toList ++ ['('] ++ (parameter.toList ++ [':'] ++
        ([' '] ++ (body.text.toList ++ [')']))))) := by
    simp [text_completed]
  rw [htext]
  apply (Path.splitsBefore_text hc).append hquantified.before
  · intro rest _
    exact Ends.cons_iff.mpr (by decide)
  · rintro _ _ ⟨name, us, rfl, hname, hfirst, hus⟩
      ⟨slash, word, opening, ts, rfl, hslash, hword, hkind, hts⟩
    obtain ⟨first, rest⟩ := c
    simp only at hfirst hus
    subst hfirst
    exact .of_lambda hname hus hslash hword hkind hts

/-- The text of joined conditions. -/
lemma splitsBefore_joined (ho : o ∈ Operator.joints)
    (hl : SplitsBefore (Ends goesOn) l.text.toList (Parser.ReadsTerm k l))
    (hr : SplitsBefore (Ends goesOn) r.text.toList (Parser.ReadsTerm k r))
    (hdepth : (binary l o r).depth ≤ Parser.maxDepth) :
    SplitsBefore (Ends goesOn) (binary l o r).text.toList
      (Parser.ReadsTerm (k + 2) (binary l o r)) := by
  have hright : Splits (' ' :: (o.text.toList ++ [' ']) ++ (r.text.toList ++ [')'])) fun ts =>
      ∃ joint us p, ts = joint :: (us ++ [⟨.closeParen, ")", p⟩]) ∧ joint.isKeyword o.text ∧
        Parser.ReadsTerm k r us := by
    have hname := (by decide : ∀ o ∈ Operator.joints, isName o.text.toList) o ho
    apply (splits_keyword hname).append hr.closed
    rintro _ _ ⟨joint, rfl, hjoint⟩ ⟨us, p, rfl, hus⟩
    exact ⟨joint, us, p, rfl, hjoint, hus⟩
  have hcontent : Splits (l.text.toList ++ (' ' :: (o.text.toList ++ [' ']) ++
      (r.text.toList ++ [')']))) fun ts => ∃ us joint vs p,
        ts = us ++ joint :: (vs ++ [⟨.closeParen, ")", p⟩]) ∧ Parser.ReadsTerm k l us ∧
          joint.isKeyword o.text ∧ Parser.ReadsTerm k r vs := by
    apply hl.splits_append hright
    · intro rest
      exact Ends.cons_iff.mpr (by decide)
    · rintro us _ hus ⟨joint, vs, p, rfl, hjoint, hvs⟩
      exact ⟨us, joint, vs, p, rfl, hus, hjoint, hvs⟩
  have htext : (binary l o r).text.toList = ['('] ++ (l.text.toList ++
      (' ' :: (o.text.toList ++ [' ']) ++ (r.text.toList ++ [')']))) := by
    simp [text_joined ho]
  rw [htext]
  apply Splits.before
  apply splits_openParen.append hcontent
  rintro _ _ ⟨p, rfl⟩ ⟨us, joint, vs, q, rfl, hus, hjoint, hvs⟩
  exact hus.joined rfl ho hjoint hvs rfl hdepth

/-! ### Filters -/

lemma depth_comparison (ho : o ∈ Operator.comparisons) : (binary l o r).depth = 1 := by
  cases o with
  | compare c => rfl
  | contains => rfl
  | _ => exact absurd ho (by decide)

lemma depth_joined (ho : o ∈ Operator.joints) :
    (binary l o r).depth = max l.depth r.depth + 1 := by
  rcases Operator.precedence_of_mem_joints ho with ⟨rfl, -⟩ | ⟨rfl, -⟩ <;> rfl

/-- A filter that is made of the tokens of a text is a term where it is written, within two levels
for each one that it is deep. -/
lemma splitsBefore_text (h : e.MadeOf Token.IsLexed) (hliterals : ∀ x ∈ e.literals, x.reprints)
    (hdepth : e.depth ≤ Parser.maxDepth) :
    SplitsBefore (Ends goesOn) e.text.toList (Parser.ReadsTerm (2 * (e.depth - 1)) e) := by
  induction h with
  | comparison hp ho htakes hvalue hT =>
    have hspelled := Literal.isSpelled_of_literal? hT hvalue
      (hliterals _ (List.mem_append_right _ List.mem_cons_self))
    rw [depth_comparison ho]
    exact splitsBefore_comparison (fun name hname => (hp name hname).isName) ho
      htakes hspelled
  | @completed c q parameter body hc hparameter h ih =>
    have hpos := body.depth_pos
    have hcompleted : (completed c q parameter body).depth = body.depth + 1 := rfl
    have hbody := ih (fun x hx => hliterals x (List.mem_append_left _ hx)) (by omega)
    apply (splitsBefore_completed (fun name hname => (hc name hname).isName)
      hparameter.isName hbody).mono
    intro ts hts
    exact hts.mono (by omega)
  | @joined o l r ho hl hr ihl ihr =>
    rw [depth_joined ho] at hdepth ⊢
    have hlpos := l.depth_pos
    have hleft := ihl (fun x hx => hliterals x (List.mem_append_left _ hx)) (by omega)
    have hright := ihr (fun x hx => hliterals x (List.mem_append_right _ hx)) (by omega)
    have hl' : SplitsBefore (Ends goesOn) l.text.toList
        (Parser.ReadsTerm (2 * (max l.depth r.depth - 1)) l) :=
      hleft.mono fun ts hts => hts.mono (by omega)
    have hr' : SplitsBefore (Ends goesOn) r.text.toList
        (Parser.ReadsTerm (2 * (max l.depth r.depth - 1)) r) :=
      hright.mono fun ts hts => hts.mono (by omega)
    apply (splitsBefore_joined ho hl' hr' (by rw [depth_joined ho]; omega)).mono
    intro ts hts
    exact hts.mono (by omega)

/-- An accepted filter that is at most half as deep as there are levels is read from its own text,
if it has no binary floating point number and its instants are in years of four digits. -/
theorem ofText_text {s : String} (h : ofText s = .ok e) (hdepth : e.depth ≤ 50)
    (hliterals : ∀ x ∈ e.literals, x.reprints) : ofText e.text = .ok e := by
  have hlimit : Parser.maxDepth = 99 + 1 := rfl
  have hmade : e.MadeOf Token.IsLexed :=
    (derives_of_ofText h).madeOf fun _ => Cursor.isLexed_of_mem_tokens
  have hterm := (splitsBefore_text hmade hliterals (by omega)).ofText .nil
  rw [String.ofList_toList] at hterm
  have hread : Parser.Reads (Parser.expression (99 + 1) 0 (Token.ofText e.text ++ [])) e [] :=
    hterm.expression (by omega) (by simp [Parser.Stops])
  rw [List.append_nil] at hread
  exact ofText_eq_ok_iff_reads.mpr hread

/-- A filter with literals that may be written in more than one way, among them a leap second by
clocks that are ahead. -/
def variedText : String :=
  "id eq 3F2504E0-4F89-11D3-9A0C-0305E82C3301 OR q/Any(t: t lt 2016-12-31T23:59:60.5+05:30 and " ++
    "p ne 01.50M and n eq NULL)"

/-- The tree of the filter. -/
def variedTree : Expr :=
  .binary
    (.binary (.name "id") (.compare .eq) (.literal (.guid ⟨0x3F2504E04F8911D39A0C0305E82C3301⟩)))
    .or
    (.completed ⟨"q", []⟩ .any "t"
      (.binary
        (.binary
          (.binary (.name "t") (.compare .lt)
            (.literal (.instant ⟨⟨17166⟩, 66599, 1500000000, by decide, by decide⟩)))
          .and
          (.binary (.name "p") (.compare .ne) (.literal (.decimal ⟨150, 2⟩))))
        .and
        (.binary (.name "n") (.compare .eq) (.literal .null))))

/-- However its literals are written, the filter is read again from its text. -/
theorem ofText_text_varied :
    ofText variedText = .ok variedTree ∧ variedTree.depth ≤ 50 ∧
      (∀ x ∈ variedTree.literals, x.reprints) ∧ ofText variedTree.text = .ok variedTree := by
  have hread : ofText variedText = .ok variedTree :=
    Outcome.eq_ok_of_toOption (by decide +kernel)
  have hdepth : variedTree.depth ≤ 50 := by decide
  have hliterals : ∀ x ∈ variedTree.literals, x.reprints := by decide +kernel
  exact ⟨hread, hdepth, hliterals, ofText_text hread hdepth hliterals⟩

end Expr

end RecordQuery
