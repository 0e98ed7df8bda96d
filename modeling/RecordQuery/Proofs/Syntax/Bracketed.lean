import RecordQuery.Proofs.Syntax.Recognition

/-!
# Expressions with their parentheses

The tree of a filter tells nothing of its parentheses. Here an expression is taken as it is written,
with them. All that the grammar derives is written in such a way.
-/

namespace RecordQuery

/-- An expression as it is written: with its groups, that is with its parentheses. -/
inductive Bracketed where
  | comparison (p : Path) (o : Operator) (l : Literal)
  | lambda (collection : Path) (q : Quantifier) (parameter : String) (body : Bracketed)
  | group (content : Bracketed)
  | joined (left : Bracketed) (o : Operator) (right : Bracketed)
  deriving DecidableEq

namespace Bracketed

/-- The expression without its groups. -/
def tree : Bracketed → Expr
  | comparison p o l => .binary (Parser.property p) o (.literal l)
  | lambda collection q parameter body => .completed collection q parameter body.tree
  | group content => content.tree
  | joined left o right => .binary left.tree o right.tree

/-- How tightly an expression holds together: a term more tightly than all that is joined. -/
def precedence : Bracketed → Nat
  | joined _ o _ => o.precedence
  | _ => 3

/-- A term of the expression stands inside of so many groups, quantified conditions and right sides
of joined conditions, taken together. -/
inductive HasTermInside : Bracketed → Nat → Prop
  | comparison (p : Path) (o : Operator) (l : Literal) : HasTermInside (.comparison p o l) 0
  | lambda (collection : Path) (q : Quantifier) (parameter : String) (body : Bracketed) :
      HasTermInside (.lambda collection q parameter body) 0
  | body {body : Bracketed} {n : Nat} (collection : Path) (q : Quantifier) (parameter : String)
      (h : HasTermInside body n) : HasTermInside (.lambda collection q parameter body) (n + 1)
  | group {content : Bracketed} {n : Nat} (h : HasTermInside content n) :
      HasTermInside (.group content) (n + 1)
  | left {left : Bracketed} {n : Nat} (o : Operator) (right : Bracketed)
      (h : HasTermInside left n) : HasTermInside (.joined left o right) n
  | right {right : Bracketed} {n : Nat} (left : Bracketed) (o : Operator)
      (h : HasTermInside right n) : HasTermInside (.joined left o right) (n + 1)

/-- Inside of how much the innermost term stands. -/
def nesting : Bracketed → Nat
  | comparison _ _ _ => 0
  | lambda _ _ _ body => body.nesting + 1
  | group content => content.nesting + 1
  | joined left _ right => max left.nesting (right.nesting + 1)

variable {w : Bracketed} {n : Nat}

lemma HasTermInside.le_nesting (h : w.HasTermInside n) : n ≤ w.nesting := by
  induction h with
  | comparison | lambda => exact Nat.zero_le _
  | body _ _ _ _ ih | group _ ih => exact Nat.succ_le_succ ih
  | left _ _ _ ih => exact Nat.le_trans ih (Nat.le_max_left _ _)
  | right _ _ _ ih => exact Nat.le_trans (Nat.succ_le_succ ih) (Nat.le_max_right _ _)

lemma hasTermInside_nesting (w : Bracketed) : w.HasTermInside w.nesting := by
  induction w with
  | comparison p o l => exact .comparison p o l
  | lambda collection q parameter body ih => exact .body collection q parameter ih
  | group content ih => exact .group ih
  | joined left o right ihl ihr =>
    rcases le_total left.nesting (right.nesting + 1) with hle | hle
    · rw [nesting, max_eq_right hle]
      exact .right left o ihr
    · rw [nesting, max_eq_left hle]
      exact .left o right ihl

lemma le_nesting_iff : n ≤ w.nesting ↔ ∃ m, n ≤ m ∧ w.HasTermInside m :=
  ⟨fun h => ⟨w.nesting, h, w.hasTermInside_nesting⟩, fun ⟨_, hm, h⟩ => hm.trans h.le_nesting⟩

/-- An expression is written with some tokens. The left side of a joined condition holds together no
less tightly than its operator, and the right side more tightly. -/
inductive Written : Bracketed → List Token → Prop
  | comparison {name word value : Token} {ns : List String} {o : Operator} {l : Literal}
      {us : List Token} (hname : name.kind = .name) (hnames : Names ns us)
      (ho : o ∈ Operator.comparisons) (hword : word.isKeyword o.text) (htakes : o.Takes value.kind)
      (hvalue : Parser.literal? value = some l) :
      Written (.comparison ⟨name.literal, ns⟩ o l) (name :: (us ++ [word, value]))
  | lambda {name slash word opening parameter colon closing : Token} {ns : List String}
      {q : Quantifier} {body : Bracketed} {us ts : List Token} (hname : name.kind = .name)
      (hnames : Names ns us) (hslash : slash.kind = .slash) (hword : word.isKeyword q.text)
      (hopening : opening.kind = .openParen) (hparameter : parameter.kind = .name)
      (hcolon : colon.kind = .colon) (h : Written body ts) (hclosing : closing.kind = .closeParen) :
      Written (.lambda ⟨name.literal, ns⟩ q parameter.literal body)
        (name :: (us ++ slash :: word :: opening :: parameter :: colon :: (ts ++ [closing])))
  | group {opening closing : Token} {content : Bracketed} {ts : List Token}
      (hopening : opening.kind = .openParen) (h : Written content ts)
      (hclosing : closing.kind = .closeParen) :
      Written (.group content) (opening :: (ts ++ [closing]))
  | joined {joint : Token} {left right : Bracketed} {o : Operator} {ts us : List Token}
      (hl : Written left ts) (hleft : o.precedence ≤ left.precedence) (ho : o ∈ Operator.joints)
      (hjoint : joint.isKeyword o.text) (hr : Written right us)
      (hright : o.precedence < right.precedence) :
      Written (.joined left o right) (ts ++ joint :: us)

lemma Written.precedence_pos {ts : List Token} (h : w.Written ts) : 0 < w.precedence := by
  cases h with
  | joined _ _ ho =>
    rw [precedence]
    rcases Operator.precedence_of_mem_joints ho with h | h <;> omega
  | _ => exact Nat.succ_pos _

/-! ### What is derived is written -/

/-- A condition and its links are written as they are joined. -/
lemma Written.exists_joined {links : List Link} (hw : w.Written ts)
    (hjoined : ∀ x ∈ links, x.IsJoined)
    (hterms : ∀ x ∈ links, ∃ v : Bracketed, v.tree = x.term ∧ v.Written x.tokens ∧
      v.precedence = 3)
    (hhead : ∀ x ∈ links.head?, x.operator.precedence ≤ w.precedence)
    (hstrength : strength < w.precedence)
    (htighter : ∀ x ∈ links, strength < x.operator.precedence) :
    ∃ v : Bracketed, v.tree = w.tree.joined links ∧ v.Written (ts ++ Link.all links) ∧
      strength < v.precedence := by
  induction hlength : links.length using Nat.strongRecOn
    generalizing links w ts strength with
  | _ n ih =>
    cases links with
    | nil => exact ⟨w, rfl, by simpa using hw, hstrength⟩
    | cons x links =>
      -- the right side of `x` takes the links that bind tighter, and the others are joined to both
      obtain ⟨tight, more, rfl, htight, hmore⟩ := Parser.exists_split links x.operator.precedence
      simp only [List.length_cons, List.length_append] at hlength
      obtain ⟨hx, hjoined⟩ := List.forall_mem_cons.mp hjoined
      obtain ⟨⟨v, hv, hvwritten, hvterm⟩, hterms⟩ := List.forall_mem_cons.mp hterms
      obtain ⟨hxtighter, htighter⟩ := List.forall_mem_cons.mp htighter
      obtain ⟨hjoined₁, hjoined₂⟩ := List.forall_mem_append.mp hjoined
      obtain ⟨hterms₁, hterms₂⟩ := List.forall_mem_append.mp hterms
      obtain ⟨-, htighter₂⟩ := List.forall_mem_append.mp htighter
      have hterm (o : Operator) (ho : o ∈ Operator.joints) : o.precedence < v.precedence := by
        rcases Operator.precedence_of_mem_joints ho with h | h <;> omega
      have hfirst : ∀ y ∈ tight.head?, y.operator.precedence ≤ v.precedence := fun y hy =>
        Nat.le_of_lt (hterm _ (hjoined₁ y (List.mem_of_mem_head? hy)).1)
      obtain ⟨right, hright, hrwritten, hrprecedence⟩ := ih tight.length (by omega) hvwritten
        hjoined₁ hterms₁ hfirst (hterm _ hx.1) htight rfl
      have hboth : Written (.joined w x.operator right)
          (ts ++ x.joint :: (x.tokens ++ Link.all tight)) :=
        .joined hw (hhead x rfl) hx.1 hx.2 hrwritten hrprecedence
      obtain ⟨whole, hwhole, hwritten, hprecedence⟩ := ih more.length (by omega) hboth
        hjoined₂ hterms₂ hmore hxtighter htighter₂ rfl
      refine ⟨whole, ?_, ?_, hprecedence⟩
      · rw [hwhole, tree, hright, hv,
          Expr.joined_cons hx.1 (fun y hy => (hjoined₁ y hy).1) htight hmore]
      · simpa using hwritten

/-- What the grammar derives is written in some way; a term holds together most tightly. -/
lemma exists_of_derives {p : Phrase} (h : Derives p e ts) :
    ∃ w : Bracketed, w.tree = e ∧ w.Written ts ∧ (p = .term → w.precedence = 3) := by
  induction h with
  | group hopening _ hclosing ih =>
    obtain ⟨w, rfl, hw, -⟩ := ih
    exact ⟨.group w, rfl, .group hopening hw hclosing, fun _ => rfl⟩
  | lambda hname hnames hslash hword hopening hparameter hcolon _ hclosing ih =>
    obtain ⟨w, rfl, hw, -⟩ := ih
    exact ⟨_, rfl, .lambda hname hnames hslash hword hopening hparameter hcolon hw hclosing,
      fun _ => rfl⟩
  | comparison hname hnames ho hword htakes hvalue =>
    exact ⟨_, rfl, .comparison hname hnames ho hword htakes hvalue, fun _ => rfl⟩
  | @expression e ts links _ hjoined _ ih ihlinks =>
    obtain ⟨w, rfl, hw, hprecedence⟩ := ih
    have hterms : ∀ x ∈ links, ∃ v : Bracketed, v.tree = x.term ∧ v.Written x.tokens ∧
        v.precedence = 3 := by
      intro x hx
      obtain ⟨v, hv, hwritten, hterm⟩ := ihlinks x hx
      exact ⟨v, hv, hwritten, hterm rfl⟩
    have hjoint (x : Link) (hx : x ∈ links) :
        0 < x.operator.precedence ∧ x.operator.precedence ≤ w.precedence := by
      rw [hprecedence rfl]
      rcases Operator.precedence_of_mem_joints (hjoined x hx).1 with h | h <;> omega
    obtain ⟨whole, hwhole, hwritten, -⟩ := hw.exists_joined hjoined hterms
      (fun x hx => (hjoint x (List.mem_of_mem_head? hx)).2) hw.precedence_pos
      fun x hx => (hjoint x hx).1
    exact ⟨whole, hwhole, hwritten, nofun⟩

end Bracketed

end RecordQuery
