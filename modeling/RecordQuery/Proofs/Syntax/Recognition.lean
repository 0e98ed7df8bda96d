import RecordQuery.Proofs.Syntax.Reading
import Mathlib.Data.List.TakeWhile

/-!
# The parser recognizes the grammar

Filters are read from left to right, and a condition takes with it what is joined to it by an
operator that binds tighter. What is read this way is derived by the grammar, and everything that
the grammar derives is read, unless there are too many levels.
-/

namespace RecordQuery

namespace Parser

variable {ts us rest : List Token} {e left : Expr} {inner : Reader} {strength : Nat}
variable {links : List Link}

/-! ### Where chains stop -/

lemma Stops.mono {bound : Nat} (h : Stops strength ts) (hle : strength ≤ bound) :
    Stops bound ts :=
  fun t ht o ho => Nat.le_trans (h t ht o ho) hle

lemma logical?_joint {x : Link} (h : x.IsJoined) : logical? x.joint = some x.operator :=
  logical?_eq_some_iff.mpr h

/-- Chains stop before links of which the first one does not bind tighter. -/
lemma stops_all_append_iff (hlinks : ∀ x ∈ links, x.IsJoined) :
    Stops strength (Link.all links ++ rest) ↔
      (∀ x ∈ links.head?, x.operator.precedence ≤ strength) ∧
        (links = [] → Stops strength rest) := by
  cases links with
  | nil => simp
  | cons x links =>
    have hx := logical?_joint (hlinks x List.mem_cons_self)
    simp [Stops, hx]

/-! ### What is read is derived -/

/-- The links of a chain: derived conditions, joined by operators that bind tighter than a
strength. -/
structure Chained (strength : Nat) (links : List Link) : Prop where
  joined : ∀ x ∈ links, x.IsJoined
  derived : ∀ x ∈ links, Derives .term x.term x.tokens
  tighter : ∀ x ∈ links, strength < x.operator.precedence

/-- A reader reads a derived condition and the links of a chain after it. -/
def Reader.IsSound (inner : Reader) : Prop :=
  ∀ (strength : Nat) (ts : List Token) (e : Expr) (rest : List Token),
    Reads (inner strength ts) e rest → ∃ first us links, ts = us ++ (Link.all links ++ rest) ∧
      Derives .term first us ∧ Chained strength links ∧ Stops strength rest ∧ e = first.joined links

/-- At no strength an expression is read. -/
lemma Reader.IsSound.derives (hinner : inner.IsSound) (h : Reads (inner 0 ts) e rest) :
    ∃ us, ts = us ++ rest ∧ Derives .expression e us := by
  obtain ⟨first, us, links, rfl, hfirst, hlinks, -, rfl⟩ := hinner _ _ _ _ h
  exact ⟨us ++ Link.all links, by simp, .expression hfirst hlinks.joined hlinks.derived⟩

lemma derives_of_reads_group (hinner : inner.IsSound) {opening : Token}
    (hopening : opening.kind = .openParen) (h : Reads (group inner ts) e rest) :
    ∃ us, opening :: ts = us ++ rest ∧ Derives .term e us := by
  obtain ⟨closing, hclosing, h⟩ := reads_group_iff.mp h
  obtain ⟨us, rfl, hus⟩ := hinner.derives h
  exact ⟨opening :: (us ++ [closing]), by simp, .group hopening hus hclosing⟩

lemma derives_of_reads_condition (hinner : inner.IsSound) {name : Token}
    (hname : name.kind = .name) (h : Reads (condition inner name.literal ts) e rest) :
    ∃ us, name :: ts = us ++ rest ∧ Derives .term e us := by
  rcases reads_condition_iff.mp h with ⟨p, mid, hsubject, h⟩ | ⟨p, q, mid, hsubject, h⟩
  · obtain ⟨ns, us, hnames, ⟨rfl, hp⟩ | ⟨_, _, _, _, -, -, -, -, hp⟩⟩ :=
      names_of_reads_subject hsubject
    · cases hp
      obtain ⟨word, value, o, l, rfl, ho, htakes, hvalue, rfl⟩ := reads_comparison_iff.mp h
      obtain ⟨ho, hword⟩ := comparison?_eq_some_iff.mp ho
      exact ⟨name :: (us ++ [word, value]), by simp,
        .comparison hname hnames ho hword htakes hvalue⟩
    · cases hp
  · obtain ⟨ns, us, hnames, hcases⟩ := names_of_reads_subject hsubject
    rcases hcases with ⟨-, hp⟩ | ⟨slash, word, opening, _, rfl, hslash, hword, hopening, hp⟩
    · cases hp
    · cases hp
      obtain ⟨parameter, colon, _, body, closing, rfl, hparameter, hcolon, hread, hclosing, rfl⟩ :=
        reads_lambda_iff.mp h
      obtain ⟨vs, rfl, hbody⟩ := hinner.derives hread
      exact ⟨name :: (us ++ slash :: word :: opening :: parameter :: colon :: (vs ++ [closing])),
        by simp, .lambda hname hnames hslash hword hopening hparameter hcolon hbody hclosing⟩

lemma derives_of_reads_term (hinner : inner.IsSound) (h : Reads (term inner ts) e rest) :
    ∃ us, ts = us ++ rest ∧ Derives .term e us := by
  obtain ⟨t, us, rfl, ⟨ht, h⟩ | ⟨ht, h⟩⟩ := reads_term_iff.mp h
  · exact derives_of_reads_group hinner ht h
  · exact derives_of_reads_condition hinner ht h

/-- A chain reads links that bind tighter than its strength, and joins them. -/
lemma chained_of_reads_chain (hinner : inner.IsSound)
    (h : Reads (chain inner strength left ts) e rest) :
    ∃ links, ts = Link.all links ++ rest ∧ Chained strength links ∧ Stops strength rest ∧
      e = left.joined links := by
  induction hlength : ts.length using Nat.strongRecOn generalizing left ts with
  | _ n ih =>
    rcases reads_chain_cases h with
      ⟨hstops, rfl, rfl⟩ | ⟨t, us, o, right, mid, rfl, ho, hstrength, hright, -, h, hshorter⟩
    · exact ⟨[], rfl, ⟨by simp, by simp, by simp⟩, hstops, rfl⟩
    · -- the next token joins a condition by an operator `o` that binds tighter
      obtain ⟨first, us, tight, rfl, hfirst, htight, hmid, rfl⟩ := hinner _ _ _ _ hright
      obtain ⟨more, rfl, hmore, hrest, rfl⟩ := ih mid.length (hlength ▸ hshorter) h rfl
      have hx : Link.IsJoined ⟨t, o, us, first⟩ := logical?_eq_some_iff.mp ho
      refine ⟨⟨t, o, us, first⟩ :: (tight ++ more), by simp, ⟨?_, ?_, ?_⟩, hrest, ?_⟩
      · simp only [List.forall_mem_cons, List.forall_mem_append]
        exact ⟨hx, htight.joined, hmore.joined⟩
      · simp only [List.forall_mem_cons, List.forall_mem_append]
        exact ⟨hfirst, htight.derived, hmore.derived⟩
      · simp only [List.forall_mem_cons, List.forall_mem_append]
        exact ⟨hstrength, fun y hy => Nat.lt_trans hstrength (htight.tighter y hy), hmore.tighter⟩
      · exact (Expr.joined_cons hx.1 (fun y hy => (htight.joined y hy).1) htight.tighter
          ((stops_all_append_iff hmore.joined).mp hmid).1 left).symm

/-- At every level what is read is derived. -/
lemma isSound_expression (levels : Nat) : Reader.IsSound (expression levels) := by
  induction levels with
  | zero =>
    intro strength ts e rest h
    exact absurd h not_reads_error
  | succ levels ih =>
    intro strength ts e rest h
    obtain ⟨first, mid, hterm, hchain⟩ := reads_expression_iff.mp h
    obtain ⟨us, rfl, hfirst⟩ := derives_of_reads_term ih hterm
    obtain ⟨links, rfl, hlinks, hrest, rfl⟩ := chained_of_reads_chain ih hchain
    exact ⟨first, us, links, rfl, hfirst, hlinks, hrest, rfl⟩

/-! ### What is derived is found -/

/-- A phrase is found wherever it stands, but for an expression nothing may be joined after it. -/
def IsFound : Phrase → Expr → List Token → Prop
  | .term, e, us => ∀ levels rest, Finds (term (expression levels) (us ++ rest)) e rest
  | .expression, e, us =>
    ∀ levels rest, Stops 0 rest → Finds (expression levels 0 (us ++ rest)) e rest

/-- Nothing is joined after a closing parenthesis. -/
lemma stops_closing {closing : Token} (h : closing.kind = .closeParen) :
    Stops strength (closing :: rest) := by
  intro t ht o ho
  cases ht
  simp [logical?, h] at ho

/-- An expression is found if its chain is. -/
lemma finds_expression_of_isFound {first : Expr} (hfirst : IsFound .term first us)
    (hchain : ∀ levels, Finds (chain (expression levels) strength first ts) e rest) (levels : Nat) :
    Finds (expression levels strength (us ++ ts)) e rest := by
  cases levels with
  | zero => exact .inl rfl
  | succ levels => exact finds_expression (hfirst levels ts) (hchain levels)

/-- Links are split where the first one does not bind tighter than a strength. -/
lemma exists_split (links : List Link) (bound : Nat) :
    ∃ tight more, links = tight ++ more ∧ (∀ x ∈ tight, bound < x.operator.precedence) ∧
      ∀ x ∈ more.head?, x.operator.precedence ≤ bound := by
  refine ⟨links.takeWhile (bound < ·.operator.precedence),
    links.dropWhile (bound < ·.operator.precedence), List.takeWhile_append_dropWhile.symm, ?_, ?_⟩
  · intro x hx
    simpa using List.mem_takeWhile_imp hx
  · intro x hx
    have hhead := List.head?_dropWhile_not (bound < ·.operator.precedence) links
    rw [hx] at hhead
    simpa using hhead

/-- A chain finds all links that bind tighter than its strength. -/
lemma finds_chain (levels : Nat) (hjoined : ∀ x ∈ links, x.IsJoined)
    (hfound : ∀ x ∈ links, IsFound .term x.term x.tokens)
    (htighter : ∀ x ∈ links, strength < x.operator.precedence) (hrest : Stops strength rest) :
    Finds (chain (expression levels) strength left (Link.all links ++ rest))
      (left.joined links) rest := by
  induction hlength : links.length using Nat.strongRecOn
    generalizing links levels strength left rest with
  | _ n ih =>
    cases links with
    | nil =>
      rw [Link.all_nil, List.nil_append, chain_of_stops hrest]
      exact .inr (reads_ok_iff.mpr ⟨rfl, rfl⟩)
    | cons x links =>
      -- the right side of `x` takes the links that bind tighter, and the chain goes on after them
      obtain ⟨tight, more, rfl, htight, hmore⟩ := exists_split links x.operator.precedence
      simp only [List.length_cons, List.length_append] at hlength
      obtain ⟨hx, hjoined⟩ := List.forall_mem_cons.mp hjoined
      obtain ⟨hxfound, hfound⟩ := List.forall_mem_cons.mp hfound
      obtain ⟨hxtighter, htighter⟩ := List.forall_mem_cons.mp htighter
      obtain ⟨hjoined₁, hjoined₂⟩ := List.forall_mem_append.mp hjoined
      obtain ⟨hfound₁, hfound₂⟩ := List.forall_mem_append.mp hfound
      obtain ⟨-, htighter₂⟩ := List.forall_mem_append.mp htighter
      have hstops : Stops x.operator.precedence (Link.all more ++ rest) :=
        (stops_all_append_iff hjoined₂).mpr
          ⟨hmore, fun _ => hrest.mono (Nat.le_of_lt hxtighter)⟩
      have hright : Finds (expression levels x.operator.precedence
          (x.tokens ++ (Link.all tight ++ (Link.all more ++ rest))))
          (x.term.joined tight) (Link.all more ++ rest) :=
        finds_expression_of_isFound hxfound (fun levels =>
          ih tight.length (by omega) levels hjoined₁ hfound₁ htight hstops rfl) levels
      have hchain : Finds (chain (expression levels) strength
          (.binary left x.operator (x.term.joined tight)) (Link.all more ++ rest))
          (left.joined (x :: (tight ++ more))) rest := by
        rw [Expr.joined_cons hx.1 (fun y hy => (hjoined₁ y hy).1) htight hmore]
        exact ih more.length (by omega) levels hjoined₂ hfound₂ htighter₂ hrest rfl
      have hall : Link.all (x :: (tight ++ more)) ++ rest =
          x.joint :: (x.tokens ++ (Link.all tight ++ (Link.all more ++ rest))) := by
        simp
      rw [hall]
      exact finds_chain_cons (logical?_joint hx) hxtighter hright hchain

/-- The parser finds what the grammar derives. -/
lemma isFound_of_derives {p : Phrase} (h : Derives p e us) : IsFound p e us := by
  induction h with
  | @group opening closing e ts hopening h hclosing ih =>
    intro levels rest
    rw [List.cons_append, List.append_assoc]
    exact finds_term_group hopening
      (finds_group hclosing (ih levels (closing :: rest) (stops_closing hclosing)))
  | @lambda name slash word opening parameter colon closing ns q body us ts hname hnames hslash
      hword hopening hparameter hcolon h hclosing ih =>
    intro levels rest
    have hbody := ih levels (closing :: rest) (stops_closing hclosing)
    have hall : name :: (us ++ slash :: word :: opening :: parameter :: colon ::
        (ts ++ [closing])) ++ rest =
          name :: (us ++ slash :: word :: opening ::
            (parameter :: colon :: (ts ++ closing :: rest))) := by
      simp
    rw [hall]
    exact finds_term_condition hname
      (finds_condition (reads_subject_collection hnames hslash hword hopening)
        (finds_lambda hparameter hcolon hclosing hbody))
  | @comparison name word value ns o l us hname hnames ho hword htakes hvalue =>
    intro levels rest
    have hall : name :: (us ++ [word, value]) ++ rest =
        name :: (us ++ word :: (value :: rest)) := by
      simp
    rw [hall]
    exact finds_term_condition hname
      (.inr (reads_condition_comparison hnames ho hword htakes hvalue))
  | @expression e ts links h hjoined hlinks ih ihlinks =>
    intro levels rest hrest
    have htighter : ∀ x ∈ links, 0 < x.operator.precedence := by
      intro x hx
      rcases Operator.precedence_of_mem_joints (hjoined x hx).1 with h | h <;> omega
    rw [List.append_assoc]
    exact finds_expression_of_isFound ih
      (fun levels => finds_chain levels hjoined ihlinks htighter hrest) levels

end Parser

/-! ### Blank texts -/

lemma Text.not_isWhiteSpace {c : Char} (hspace : 0x20 < c.toNat) (hdelete : c.toNat < 0x7F) :
    isWhiteSpace c = false := by
  simp [isWhiteSpace, whiteSpaceRanges, Ranges.has]
  omega

/-- White space starts no token. -/
lemma Lexeme.kind_read_of_isWhiteSpace {c : Char} (h : Text.isWhiteSpace c) (cs : List Char) :
    (Lexeme.read c cs).kind = .illegal := by
  have houtside : ¬ (0x20 < c.toNat ∧ c.toNat < 0x7F) := by
    rintro ⟨hspace, hdelete⟩
    rw [Text.not_isWhiteSpace hspace hdelete] at h
    exact Bool.false_ne_true h
  have hmark {m : Char} (hm : 0x20 < m.toNat ∧ m.toNat < 0x7F) : c ≠ m := by
    rintro rfl
    exact houtside hm
  have hdigit : c.isDigit = false := by
    rw [Bool.eq_false_iff]
    intro hc
    have hrange : 48 ≤ c.toNat ∧ c.toNat ≤ 57 := Char.isDigit_iff_toNat.mp hc
    exact houtside (by omega)
  have halpha : c.isAlpha = false := by
    rw [Bool.eq_false_iff]
    intro hc
    rcases (Bool.or_eq_true _ _).mp hc with hupper | hlower
    · have hrange : 65 ≤ c.toNat ∧ c.toNat ≤ 90 := of_decide_eq_true hupper
      exact houtside (by omega)
    · obtain ⟨hfrom, hto⟩ := (Bool.and_eq_true _ _).mp hlower
      have hleast : 97 ≤ c.toNat := of_decide_eq_true hfrom
      have hgreatest : c.toNat ≤ 122 := of_decide_eq_true hto
      exact houtside (by omega)
  simp [read, Lexer.isLetter, hmark, hdigit, halpha]

/-- A blank text has no tokens, or an illegal one first. -/
lemma Token.kind_of_isBlank {s : String} (h : Text.isBlank s) :
    ∀ t ∈ (Token.ofText s).head?, t.kind = .illegal := by
  intro t ht
  rw [Token.ofText, Cursor.tokens] at ht
  split_ifs at ht with hend
  · cases ht
  · cases hrest : (Cursor.start s).skipGaps.rest with
    | nil => exact absurd hrest hend
    | cons c cs =>
      have hc : c ∈ s.toList := by
        have hmem : c ∈ (Cursor.start s).skipGaps.rest := hrest ▸ List.mem_cons_self
        exact List.mem_of_mem_drop hmem
      have hspace : Text.isWhiteSpace c := List.all_eq_true.mp h c hc
      have ht : t = (Cursor.start s).next.1 := by simpa [eq_comm] using ht
      rw [ht, Cursor.next]
      simp only [hrest]
      exact Lexeme.kind_read_of_isWhiteSpace hspace cs

lemma Derives.not_isBlank {p : Phrase} {e : Expr} {s : String} (h : Derives p e (Token.ofText s)) :
    Text.isBlank s = false := by
  rw [Bool.eq_false_iff]
  intro hblank
  obtain ⟨t, us, hts, ht⟩ := h.exists_cons
  have hillegal := Token.kind_of_isBlank hblank t (by rw [hts]; rfl)
  rcases ht with ht | ht <;> cases ht.symm.trans hillegal

/-! ### Filters -/

namespace Expr

variable {s : String} {e : Expr}

/-- What all tokens are read as is derived from all of them. -/
lemma derives_of_reads {ts : List Token}
    (h : Parser.Reads (Parser.expression Parser.maxDepth 0 ts) e []) :
    Derives .expression e ts := by
  obtain ⟨us, hus, hderives⟩ := (Parser.isSound_expression Parser.maxDepth).derives h
  have hall : us = ts := by simpa using hus.symm
  rwa [hall] at hderives

/-- A text is accepted if all its tokens are read. -/
lemma ofText_eq_ok_iff_reads :
    ofText s = .ok e ↔
      Parser.Reads (Parser.expression Parser.maxDepth 0 (Token.ofText s)) e [] := by
  constructor
  · intro h
    rw [ofText] at h
    split_ifs at h
    obtain ⟨whole, hwhole, h⟩ := Outcome.bind_eq_ok_iff.mp h
    cases hrest : whole.rest with
    | cons t us => simp [hrest] at h
    | nil =>
      simp only [hrest] at h
      cases h
      exact ⟨whole, hwhole, rfl, hrest⟩
  · intro h
    have hblank := (derives_of_reads h).not_isBlank
    obtain ⟨whole, hwhole, rfl, hrest⟩ := h
    rw [ofText, if_neg (by simp [hblank]), hwhole]
    simp [bind, Except.bind, hrest]

lemma derives_of_ofText (h : ofText s = .ok e) : Derives .expression e (Token.ofText s) :=
  derives_of_reads (ofText_eq_ok_iff_reads.mp h)

lemma ofText_of_derives (h : Derives .expression e (Token.ofText s)) :
    ofText s = .error (.nestingTooDeep Parser.maxDepth) ∨ ofText s = .ok e := by
  have hfound := Parser.isFound_of_derives h Parser.maxDepth [] (by simp [Parser.Stops])
  rw [List.append_nil] at hfound
  rw [ofText, if_neg (by simp [h.not_isBlank])]
  rcases hfound with herror | ⟨whole, hwhole, rfl, hrest⟩
  · left
    rw [herror]
    rfl
  · right
    rw [hwhole]
    simp [bind, Except.bind, hrest]

/-- Unless there are too many levels, the parser accepts exactly the texts whose tokens the grammar
derives, with the tree of the derivation; texts with an illegal token are not among these. -/
theorem ofText_eq_ok_iff_derives (h : ofText s ≠ .error (.nestingTooDeep Parser.maxDepth)) :
    (∀ e, ofText s = .ok e ↔ Derives .expression e (Token.ofText s)) ∧
      ((∃ t ∈ Token.ofText s, t.kind = .illegal) → ∀ e, ofText s ≠ .ok e) := by
  constructor
  · intro e
    constructor
    · exact derives_of_ofText
    · intro he
      exact (ofText_of_derives he).resolve_left h
  · rintro ⟨t, ht, hillegal⟩ e he
    exact (derives_of_ofText he).kind_ne_illegal t ht hillegal

/-- A filter with fields that are called like operators and quantifiers. -/
def wordText : String := "any eq and Or (all/ANY(x: x/or contains 'a')) and eq lt 2"

/-- The tree of the filter. -/
def wordTree : Expr :=
  .binary (.binary (.name "any") (.compare .eq) (.literal (.identifier "and"))) .or
    (.binary
      (.completed ⟨"all", []⟩ .any "x"
        (.binary (.path ⟨"x", ["or"]⟩) .contains (.literal (.string "a"))))
      .and
      (.binary (.name "eq") (.compare .lt) (.literal (.integer 2))))

lemma ofText_wordText : ofText wordText = .ok wordTree :=
  Outcome.eq_ok_of_toOption (by decide +kernel)

/-- Words join, compare and quantify only where the grammar has such words. -/
theorem derives_wordTree :
    ofText wordText ≠ .error (.nestingTooDeep Parser.maxDepth) ∧
      Derives .expression wordTree (Token.ofText wordText) := by
  have hread : ofText wordText ≠ .error (.nestingTooDeep Parser.maxDepth) := by
    simp [ofText_wordText]
  exact ⟨hread, ((ofText_eq_ok_iff_derives hread).1 wordTree).mp ofText_wordText⟩

end Expr

end RecordQuery
