import RecordQuery.Proofs.Syntax.Grammar

/-!
# The trees of filters

Which trees the grammar gives, whatever order their tokens stand in: comparisons of a property with
the literal of a token, quantified conditions, and conditions joined by two operators. All names and
literals in them are those of tokens.
-/

namespace RecordQuery

/-! ### Joined conditions -/

namespace Expr

variable {P : Expr → Prop} {left : Expr} {links : List Link}

lemma conjunctions_induction (hand : ∀ l r, P l → P r → P (.binary l .and r)) (hleft : P left)
    (hlinks : ∀ x ∈ links, P x.term) :
    P (left.conjunctions links).1 ∧ ∀ e ∈ (left.conjunctions links).2, P e := by
  induction links generalizing left with
  | nil => exact ⟨hleft, by simp [conjunctions]⟩
  | cons x links ih =>
    obtain ⟨hx, hlinks⟩ := List.forall_mem_cons.mp hlinks
    rw [conjunctions]
    split_ifs
    · exact ih (hand _ _ hleft hx) hlinks
    · obtain ⟨hfirst, hrest⟩ := ih hx hlinks
      exact ⟨hleft, List.forall_mem_cons.mpr ⟨hfirst, hrest⟩⟩

/-- What holds of conditions and is kept when two are joined holds of all of them joined. -/
lemma joined_induction (hand : ∀ l r, P l → P r → P (.binary l .and r))
    (hor : ∀ l r, P l → P r → P (.binary l .or r)) (hleft : P left)
    (hlinks : ∀ x ∈ links, P x.term) : P (left.joined links) := by
  obtain ⟨hfirst, hrest⟩ := conjunctions_induction hand hleft hlinks
  rw [joined]
  generalize (left.conjunctions links).1 = first at hfirst
  generalize (left.conjunctions links).2 = groups at hrest
  induction groups generalizing first with
  | nil => exact hfirst
  | cons e groups ih =>
    obtain ⟨he, hrest⟩ := List.forall_mem_cons.mp hrest
    exact ih _ (hor _ _ hfirst he) hrest

end Expr

/-! ### Trees made of tokens -/

/-- A name is that of a token with some property. -/
def Token.Spells (T : Token → Prop) (name : String) : Prop :=
  ∃ t, T t ∧ t.kind = .name ∧ t.literal = name

/-- The trees that the grammar gives, of tokens with some property. -/
inductive Expr.MadeOf (T : Token → Prop) : Expr → Prop
  | comparison {p : Path} {o : Operator} {value : Token} {l : Literal}
      (hp : ∀ name ∈ p.segments, Token.Spells T name) (ho : o ∈ Operator.comparisons)
      (htakes : o.Takes value.kind) (hvalue : Parser.literal? value = some l) (hT : T value) :
      MadeOf T (.binary (Parser.property p) o (.literal l))
  | completed {collection : Path} {q : Quantifier} {parameter : String} {body : Expr}
      (hcollection : ∀ name ∈ collection.segments, Token.Spells T name)
      (hparameter : Token.Spells T parameter) (h : MadeOf T body) :
      MadeOf T (.completed collection q parameter body)
  | joined {o : Operator} {l r : Expr} (ho : o ∈ Operator.joints) (hl : MadeOf T l)
      (hr : MadeOf T r) : MadeOf T (.binary l o r)

variable {T : Token → Prop} {ts : List Token}

lemma Names.forall_spells {ns : List String} (h : Names ns ts) (hT : ∀ t ∈ ts, T t) :
    ∀ name ∈ ns, Token.Spells T name := by
  induction h with
  | nil => simp
  | cons hslash hname h ih =>
    simp only [List.forall_mem_cons] at hT ⊢
    exact ⟨⟨_, hT.2.1, hname, rfl⟩, ih hT.2.2⟩

/-- A derived tree is made of its tokens. -/
lemma Derives.madeOf {p : Phrase} {e : Expr} (h : Derives p e ts) (hT : ∀ t ∈ ts, T t) :
    e.MadeOf T := by
  induction h with
  | group _ _ _ ih =>
    simp only [List.forall_mem_cons, List.forall_mem_append] at hT
    exact ih hT.2.1
  | lambda hname hnames _ _ _ hparameter _ _ _ ih =>
    simp only [List.forall_mem_cons, List.forall_mem_append] at hT
    obtain ⟨hTname, hTnames, -, -, -, hTparameter, -, hTbody, -⟩ := hT
    exact .completed
      (List.forall_mem_cons.mpr ⟨⟨_, hTname, hname, rfl⟩, hnames.forall_spells hTnames⟩)
      ⟨_, hTparameter, hparameter, rfl⟩ (ih hTbody)
  | comparison hname hnames ho _ htakes hvalue =>
    simp only [List.forall_mem_cons, List.forall_mem_append] at hT
    obtain ⟨hTname, hTnames, -, hTvalue, -⟩ := hT
    exact .comparison
      (List.forall_mem_cons.mpr ⟨⟨_, hTname, hname, rfl⟩, hnames.forall_spells hTnames⟩)
      ho htakes hvalue hTvalue
  | expression _ _ _ ih ihlinks =>
    obtain ⟨hTterm, hTlinks⟩ := List.forall_mem_append.mp hT
    refine Expr.joined_induction (fun l r => .joined (by decide)) (fun l r => .joined (by decide))
      (ih hTterm) fun x hx => ihlinks x hx fun t ht => hTlinks t ?_
    exact List.mem_flatMap.mpr ⟨x, hx, List.mem_cons_of_mem _ ht⟩

/-! ### Operators and their literals -/

/-- The literal of a text token is a text, and only the token for null gives null. -/
lemma Parser.literal?_cases {t : Token} {l : Literal} (h : literal? t = some l) :
    (t.kind = .string → l = .string t.literal) ∧ (l = .null → t.kind = .null) := by
  unfold literal? at h
  cases hkind : t.kind <;> simp_all
  all_goals
    first
    | (subst h; simp)
    | (obtain ⟨v, -, rfl⟩ := h; simp)

/-- Texts are looked for, and null is only compared by whether it is there. -/
lemma Operator.Takes.literal {o : Operator} {t : Token} {l : Literal} (h : o.Takes t.kind)
    (ho : o ∈ comparisons) (hl : Parser.literal? t = some l) :
    (o = .contains → ∃ s, l = .string s) ∧ (l = .null → o = .compare .eq ∨ o = .compare .ne) := by
  obtain ⟨hstring, hnull⟩ := Parser.literal?_cases hl
  refine ⟨fun hcontains => ⟨_, hstring (h.1 hcontains)⟩, fun hl => ?_⟩
  have hkind := hnull hl
  simp only [Takes, hkind] at h
  simp only [comparisons, List.mem_cons, List.not_mem_nil, or_false] at ho
  rcases ho with rfl | rfl | rfl | rfl | rfl | rfl | rfl <;>
    simp_all [isOrdering, Comparison.isOrdering, Parser.isOrdered]

end RecordQuery
