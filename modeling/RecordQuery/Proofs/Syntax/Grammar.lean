import RecordQuery.Syntax.Parser
import Mathlib.Tactic.Common

/-!
# The grammar of filters

The grammar as rules on lists of tokens, with the tree that each derivation gives. Nothing is said
here about levels of nesting or about the order in which tokens are looked at.
-/

namespace RecordQuery

/-! ### Words -/

lemma Text.sameWord_comm (s t : String) : sameWord s t = sameWord t s := Bool.beq_comm

lemma Text.sameWord_trans {s t u : String} (hst : sameWord s t) (htu : sameWord t u) :
    sameWord s u := by
  simp only [sameWord, beq_iff_eq] at hst htu ⊢
  exact hst.trans htu

/-- Among words that differ in more than letter case, a search finds the one that is meant. -/
lemma Text.find?_sameWord {α : Type} {text : α → String} {l : List α} {word : String} {a : α}
    (hl : ∀ a ∈ l, ∀ b ∈ l, sameWord (text a) (text b) → a = b) :
    l.find? (fun a => sameWord (text a) word) = some a ↔ a ∈ l ∧ sameWord (text a) word := by
  constructor
  · intro h
    have hword := List.find?_some h
    exact ⟨List.mem_of_find?_eq_some h, hword⟩
  · rintro ⟨ha, hword⟩
    have hsome : (l.find? fun a => sameWord (text a) word).isSome :=
      List.find?_isSome.mpr ⟨a, ha, hword⟩
    obtain ⟨b, hb⟩ := Option.isSome_iff_exists.mp hsome
    have hbword := List.find?_some hb
    rw [sameWord_comm] at hbword
    rw [hb, hl a ha b (List.mem_of_find?_eq_some hb) (sameWord_trans hword hbword)]

/-- The operators that join conditions. -/
def Operator.joints : List Operator := [and, or]

lemma Token.isKeyword_iff {t : Token} {word : String} :
    t.isKeyword word ↔ t.kind = .name ∧ Text.sameWord word t.literal := by
  rw [isKeyword, Text.sameWord_comm]
  simp

/-- What a token is, without its place. -/
def Token.content (t : Token) : Kind × String := (t.kind, t.literal)

section

variable {t u : Token} (h : u.content = t.content)

include h

lemma Token.kind_eq_of_content : u.kind = t.kind := congrArg Prod.fst h

lemma Token.literal_eq_of_content : u.literal = t.literal := congrArg Prod.snd h

lemma Token.isKeyword_of_content (word : String) : u.isKeyword word = t.isKeyword word := by
  rw [isKeyword, isKeyword, kind_eq_of_content h, literal_eq_of_content h]

lemma Parser.literal?_of_content : literal? u = literal? t := by
  unfold literal?
  rw [Token.kind_eq_of_content h, Token.literal_eq_of_content h]

end

lemma Parser.comparison?_eq_some_iff {t : Token} {o : Operator} :
    comparison? t = some o ↔ o ∈ Operator.comparisons ∧ t.isKeyword o.text := by
  have hfind : Operator.comparisons.find? (fun o => Text.sameWord o.text t.literal) = some o ↔
      o ∈ Operator.comparisons ∧ Text.sameWord o.text t.literal :=
    Text.find?_sameWord (by decide)
  rw [comparison?, Token.isKeyword_iff]
  split_ifs with hname
  · rw [Operator.ofComparisonWord?, hfind]
    simp [hname]
  · simp [hname]

lemma Parser.logical?_eq_some_iff {t : Token} {o : Operator} :
    logical? t = some o ↔ o ∈ Operator.joints ∧ t.isKeyword o.text := by
  have hfind : Operator.joints.find? (fun o => Text.sameWord o.text t.literal) = some o ↔
      o ∈ Operator.joints ∧ Text.sameWord o.text t.literal :=
    Text.find?_sameWord (by decide)
  rw [logical?, Token.isKeyword_iff]
  split_ifs with hname
  · rw [Operator.ofLogicalWord?, ← Operator.joints, hfind]
    simp [hname]
  · simp [hname]

lemma Quantifier.ofWord?_eq_some_iff {word : String} {q : Quantifier} :
    ofWord? word = some q ↔ Text.sameWord q.text word := by
  have hfind : [any, all].find? (fun q => Text.sameWord q.text word) = some q ↔
      q ∈ [any, all] ∧ Text.sameWord q.text word :=
    Text.find?_sameWord (by decide)
  rw [ofWord?, hfind]
  cases q <;> simp

/-! ### Joined conditions -/

/-- A condition that is joined to the ones before it: the word that joins it, with its operator,
and the tokens of the condition, with its tree. -/
structure Link where
  joint : Token
  operator : Operator
  tokens : List Token
  term : Expr

/-- The tokens of some links. -/
def Link.all (links : List Link) : List Token := links.flatMap fun x => x.joint :: x.tokens

/-- Holds if the word of a link is that of its operator. -/
def Link.IsJoined (x : Link) : Prop :=
  x.operator ∈ Operator.joints ∧ x.joint.isKeyword x.operator.text

/-- A condition and the links after it, put together as far as they are joined by `and`: the first
such group, and the groups after it. -/
def Expr.conjunctions (left : Expr) : List Link → Expr × List Expr
  | [] => (left, [])
  | x :: links =>
    if x.operator = .and then conjunctions (.binary left .and x.term) links
    else
      let groups := conjunctions x.term links
      (left, groups.1 :: groups.2)

/-- The tree of a condition and the links after it: groups joined by `and`, joined by `or`, both
from the left on. -/
def Expr.joined (left : Expr) (links : List Link) : Expr :=
  let groups := left.conjunctions links
  groups.2.foldl (fun l r => .binary l .or r) groups.1

@[simp] lemma Link.all_nil : all [] = [] := rfl

@[simp] lemma Link.all_cons (x : Link) (links : List Link) :
    all (x :: links) = x.joint :: (x.tokens ++ all links) := by
  simp [all]

@[simp] lemma Link.all_append (links more : List Link) :
    all (links ++ more) = all links ++ all more := by
  simp [all]

/-- Links by `and` belong to the group that they follow. -/
lemma Expr.conjunctions_append {links more : List Link} (h : ∀ x ∈ links, x.operator = .and)
    (e : Expr) : e.conjunctions (links ++ more) = (e.joined links).conjunctions more := by
  induction links generalizing e with
  | nil => rfl
  | cons x links ih =>
    obtain ⟨hx, hlinks⟩ := List.forall_mem_cons.mp h
    rw [List.cons_append, conjunctions, if_pos hx, ih hlinks, joined, joined, conjunctions,
      if_pos hx]

lemma Operator.precedence_of_mem_joints {o : Operator} (h : o ∈ joints) :
    o = .and ∧ o.precedence = 2 ∨ o = .or ∧ o.precedence = 1 := by
  simp only [joints, List.mem_cons, List.not_mem_nil, or_false] at h
  rcases h with rfl | rfl
  · exact .inl ⟨rfl, rfl⟩
  · exact .inr ⟨rfl, rfl⟩

/-- A link takes with it the links after it that bind tighter; those after them, of which the first
does not, are joined to the whole. -/
lemma Expr.joined_cons {x : Link} {links more : List Link} (hx : x.operator ∈ Operator.joints)
    (hjoints : ∀ y ∈ links, y.operator ∈ Operator.joints)
    (hlinks : ∀ y ∈ links, x.operator.precedence < y.operator.precedence)
    (hmore : ∀ y ∈ more.head?, y.operator.precedence ≤ x.operator.precedence) (e : Expr) :
    e.joined (x :: (links ++ more)) =
      (Expr.binary e x.operator (x.term.joined links)).joined more := by
  rcases Operator.precedence_of_mem_joints hx with ⟨hand, hx⟩ | ⟨hor, hx⟩
  · -- nothing binds tighter than `and`
    cases links with
    | nil => simp [joined, conjunctions, hand]
    | cons y links =>
      obtain ⟨hy, -⟩ := List.forall_mem_cons.mp hlinks
      obtain ⟨hyjoint, -⟩ := List.forall_mem_cons.mp hjoints
      rcases Operator.precedence_of_mem_joints hyjoint with h | h <;> omega
  · have hands : ∀ y ∈ links, y.operator = .and := by
      intro y hy
      have hlt := hlinks y hy
      rcases Operator.precedence_of_mem_joints (hjoints y hy) with h | h
      · exact h.1
      · omega
    have hgroups : e.conjunctions (x :: (links ++ more)) =
        (e, ((x.term.joined links).conjunctions more).1 ::
          ((x.term.joined links).conjunctions more).2) := by
      simp [conjunctions, hor, conjunctions_append hands]
    rw [joined, hgroups, hor]
    cases more with
    | nil => rfl
    | cons y more =>
      have hy : y.operator ≠ .and := by
        intro hand
        have hle := hmore y rfl
        rw [hx, hand] at hle
        exact absurd hle (by decide)
      simp [joined, conjunctions, hy]

/-! ### Derivations -/

/-- Further names of a path, each after a slash. -/
inductive Names : List String → List Token → Prop
  | nil : Names [] []
  | cons {slash name : Token} {ns : List String} {ts : List Token} (hslash : slash.kind = .slash)
      (hname : name.kind = .name) (h : Names ns ts) :
      Names (name.literal :: ns) (slash :: name :: ts)

lemma Names.kind_ne_illegal {ns : List String} {ts : List Token} (h : Names ns ts) :
    ∀ t ∈ ts, t.kind ≠ .illegal := by
  induction h with
  | nil => simp
  | cons hslash hname _ ih => simpa [hslash, hname] using ih

/-- Tokens of the same content are the same names. -/
lemma Names.of_content {ns : List String} {ts us : List Token} (h : Names ns ts)
    (hus : us.map Token.content = ts.map Token.content) : Names ns us := by
  induction h generalizing us with
  | nil =>
    rw [List.map_eq_nil_iff.mp hus]
    exact .nil
  | cons hslash hname _ ih =>
    simp only [List.map_cons, List.map_eq_cons_iff] at hus
    obtain ⟨slash', _, rfl, hslash', name', us, rfl, hname', hus⟩ := hus
    rw [← Token.literal_eq_of_content hname']
    exact .cons ((Token.kind_eq_of_content hslash').trans hslash)
      ((Token.kind_eq_of_content hname').trans hname) (ih hus)

/-- Holds if an operator can stand before a value of a kind. -/
def Operator.Takes (o : Operator) (k : Token.Kind) : Prop :=
  (o = .contains → k = .string) ∧ (o.isOrdering → Parser.isOrdered k)

/-- The phrases of the grammar. -/
inductive Phrase where
  | term
  | expression

/-- The tokens of a phrase with a tree. -/
inductive Derives : Phrase → Expr → List Token → Prop
  | group {opening closing : Token} {e : Expr} {ts : List Token}
      (hopening : opening.kind = .openParen) (h : Derives .expression e ts)
      (hclosing : closing.kind = .closeParen) :
      Derives .term e (opening :: (ts ++ [closing]))
  | lambda {name slash word opening parameter colon closing : Token} {ns : List String}
      {q : Quantifier} {body : Expr} {us ts : List Token} (hname : name.kind = .name)
      (hnames : Names ns us) (hslash : slash.kind = .slash) (hword : word.isKeyword q.text)
      (hopening : opening.kind = .openParen) (hparameter : parameter.kind = .name)
      (hcolon : colon.kind = .colon) (h : Derives .expression body ts)
      (hclosing : closing.kind = .closeParen) :
      Derives .term (.completed ⟨name.literal, ns⟩ q parameter.literal body)
        (name :: (us ++ slash :: word :: opening :: parameter :: colon :: (ts ++ [closing])))
  | comparison {name word value : Token} {ns : List String} {o : Operator} {l : Literal}
      {us : List Token} (hname : name.kind = .name) (hnames : Names ns us)
      (ho : o ∈ Operator.comparisons) (hword : word.isKeyword o.text) (htakes : o.Takes value.kind)
      (hvalue : Parser.literal? value = some l) :
      Derives .term (.binary (Parser.property ⟨name.literal, ns⟩) o (.literal l))
        (name :: (us ++ [word, value]))
  | expression {e : Expr} {ts : List Token} {links : List Link} (h : Derives .term e ts)
      (hjoined : ∀ x ∈ links, x.IsJoined) (hlinks : ∀ x ∈ links, Derives .term x.term x.tokens) :
      Derives .expression (e.joined links) (ts ++ Link.all links)

namespace Derives

variable {p : Phrase} {e : Expr} {ts : List Token}

/-- A phrase starts with a parenthesis or a name. -/
lemma exists_cons (h : Derives p e ts) :
    ∃ t us, ts = t :: us ∧ (t.kind = .openParen ∨ t.kind = .name) := by
  induction h with
  | group hopening => exact ⟨_, _, rfl, .inl hopening⟩
  | lambda hname => exact ⟨_, _, rfl, .inr hname⟩
  | comparison hname => exact ⟨_, _, rfl, .inr hname⟩
  | expression _ _ _ ih =>
    obtain ⟨t, us, rfl, ht⟩ := ih
    exact ⟨t, us ++ _, rfl, ht⟩

/-- No phrase has an illegal token. -/
lemma kind_ne_illegal (h : Derives p e ts) : ∀ t ∈ ts, t.kind ≠ .illegal := by
  induction h with
  | group hopening _ hclosing ih =>
    simp only [List.forall_mem_cons, List.forall_mem_append, List.not_mem_nil, false_implies,
      implies_true, and_true]
    exact ⟨by simp [hopening], ih, by simp [hclosing]⟩
  | lambda hname hnames hslash hword hopening hparameter hcolon _ hclosing ih =>
    have hword := (Token.isKeyword_iff.mp hword).1
    simp only [List.forall_mem_cons, List.forall_mem_append, List.not_mem_nil, false_implies,
      implies_true, and_true]
    exact ⟨by simp [hname], hnames.kind_ne_illegal, by simp [hslash], by simp [hword],
      by simp [hopening], by simp [hparameter], by simp [hcolon], ih, by simp [hclosing]⟩
  | comparison hname hnames _ hword _ hvalue =>
    have hword := (Token.isKeyword_iff.mp hword).1
    simp only [List.forall_mem_cons, List.forall_mem_append, List.not_mem_nil, false_implies,
      implies_true, and_true]
    refine ⟨by simp [hname], hnames.kind_ne_illegal, by simp [hword], ?_⟩
    intro hillegal
    simp [Parser.literal?, hillegal] at hvalue
  | expression _ hjoined _ ih ihlinks =>
    intro t ht
    rcases List.mem_append.mp ht with ht | ht
    · exact ih t ht
    · obtain ⟨x, hx, ht⟩ := List.mem_flatMap.mp ht
      rcases List.mem_cons.mp ht with rfl | ht
      · simp [(Token.isKeyword_iff.mp (hjoined x hx).2).1]
      · exact ihlinks x hx t ht

end Derives

end RecordQuery
