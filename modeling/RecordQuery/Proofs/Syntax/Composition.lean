import RecordQuery.Proofs.Plan.Rules
import RecordQuery.Proofs.Syntax.Recognition
import RecordQuery.Proofs.Token.Seams

/-!
# Joining the texts of filters

Two filters are joined by writing their texts in parentheses with an operator between them. Where a
text leaves no string open, nothing in it reaches beyond its parentheses: the joined text is read as
the two trees joined by the operator, unless that nests too deeply.
-/

namespace RecordQuery

open Lexer

/-! ### Derivations elsewhere -/

/-- The links of a condition matter by their operators and trees only. -/
lemma Expr.joined_map {f : Link → Link} (hoperator : ∀ x, (f x).operator = x.operator)
    (hterm : ∀ x, (f x).term = x.term) (links : List Link) (e : Expr) :
    e.joined (links.map f) = e.joined links := by
  have hconjunctions (e : Expr) : e.conjunctions (links.map f) = e.conjunctions links := by
    induction links generalizing e with
    | nil => rfl
    | cons x links ih => simp only [List.map_cons, conjunctions, hoperator, hterm, ih]
  rw [joined, joined, hconjunctions]

/-- Where its tokens stand does not matter to a derivation. -/
lemma Derives.map {f : Token → Token} (hf : ∀ t, (f t).content = t.content) {p : Phrase}
    {e : Expr} {ts : List Token} (h : Derives p e ts) : Derives p e (ts.map f) := by
  have hkind (t : Token) : (f t).kind = t.kind := Token.kind_eq_of_content (hf t)
  have hkeyword (t : Token) (word : String) : (f t).isKeyword word = t.isKeyword word :=
    Token.isKeyword_of_content (hf t) word
  have hnames' {ns : List String} {us : List Token} (h : Names ns us) : Names ns (us.map f) :=
    h.of_content (by rw [List.map_map]; exact List.map_congr_left fun t _ => hf t)
  induction h with
  | group hopening h hclosing ih =>
    rw [List.map_cons, List.map_append]
    exact .group (by rwa [hkind]) ih (by rwa [hkind])
  | @lambda name slash word opening parameter colon closing ns q body us ts hname hnames hslash
      hword hopening hparameter hcolon h hclosing ih =>
    simp only [List.map_cons, List.map_append, List.map_nil]
    rw [← Token.literal_eq_of_content (hf name), ← Token.literal_eq_of_content (hf parameter)]
    exact .lambda (by rwa [hkind]) (hnames' hnames) (by rwa [hkind]) (by rwa [hkeyword])
      (by rwa [hkind]) (by rwa [hkind]) (by rwa [hkind]) ih (by rwa [hkind])
  | @comparison name word value ns o l us hname hnames ho hword htakes hvalue =>
    simp only [List.map_cons, List.map_append, List.map_nil]
    rw [← Token.literal_eq_of_content (hf name)]
    exact .comparison (by rwa [hkind]) (hnames' hnames) ho (by rwa [hkeyword]) (by rwa [hkind])
      (by rwa [Parser.literal?_of_content (hf value)])
  | @expression e ts links h hjoined hlinks ih ihlinks =>
    let g (x : Link) : Link := ⟨f x.joint, x.operator, x.tokens.map f, x.term⟩
    have hall : (Link.all links).map f = Link.all (links.map g) := by
      simp [Link.all, List.map_flatMap, List.flatMap_map, g]
    have htree : e.joined (links.map g) = e.joined links := by
      apply Expr.joined_map <;> exact fun _ => rfl
    rw [List.map_append, hall, ← htree]
    refine .expression ih ?_ ?_
    · intro y hy
      obtain ⟨x, hx, rfl⟩ := List.mem_map.mp hy
      obtain ⟨ho, hword⟩ := hjoined x hx
      exact ⟨ho, by rwa [hkeyword]⟩
    · intro y hy
      obtain ⟨x, hx, rfl⟩ := List.mem_map.mp hy
      exact ihlinks x hx

/-! ### Filters in parentheses -/

/-- The text of two filters joined by an operator. -/
def Expr.joinedText (a : String) (o : Operator) (b : String) : String :=
  "(" ++ a ++ ") " ++ o.text ++ " (" ++ b ++ ")"

/-- What an operator makes of the answers of two filters. -/
def Operator.combine (o : Operator) (a b : Bool) : Bool := if o = .and then a && b else a || b

namespace Expr

variable {a b s : String} {l r e : Expr} {o : Operator}

/-- A filter in parentheses is one term, whatever stands before and after them. -/
lemma splits_parenthesized (h : ofText s = .ok e) (hquotes : Even (s.toList.count '\'')) :
    Splits ('(' :: (s.toList ++ [')'])) (Derives .term e) := by
  have hcontent : SplitsBefore (Ends goesOn) s.toList (Derives .expression e) := by
    apply (splitsBefore_closed hquotes).mono
    rintro _ ⟨bytes, rfl⟩
    exact Derives.map (f := Token.shift bytes) (fun _ => rfl) (derives_of_ofText h)
  apply splits_openParen.append hcontent.closed
  rintro _ _ ⟨p, rfl⟩ ⟨us, q, rfl, hus⟩
  exact .group rfl hus rfl

/-- Two filters in parentheses with an operator between them derive the two trees joined by it. -/
lemma derives_joinedText (ho : o ∈ Operator.joints) (hl : ofText a = .ok l)
    (hr : ofText b = .ok r) (ha : Even (a.toList.count '\'')) (hb : Even (b.toList.count '\'')) :
    Derives .expression (.binary l o r) (Token.ofText (joinedText a o b)) := by
  have hright : Splits (' ' :: (o.text.toList ++ [' ']) ++ '(' :: (b.toList ++ [')']))
      fun ts => ∃ t us, ts = t :: us ∧ t.isKeyword o.text ∧ Derives .term r us := by
    have hname := (by decide : ∀ o ∈ Operator.joints, isName o.text.toList) o ho
    apply (splits_keyword hname).append (splits_parenthesized hr hb)
    rintro _ us ⟨t, rfl, ht⟩ hus
    exact ⟨t, us, rfl, ht, hus⟩
  have hwhole : Splits ('(' :: (a.toList ++ [')']) ++
      (' ' :: (o.text.toList ++ [' ']) ++ '(' :: (b.toList ++ [')'])))
      (Derives .expression (.binary l o r)) := by
    apply (splits_parenthesized hl ha).append hright
    rintro ts _ hts ⟨t, us, rfl, ht, hus⟩
    have htree : l.joined [⟨t, o, us, r⟩] = .binary l o r := by
      rcases Operator.precedence_of_mem_joints ho with ⟨rfl, -⟩ | ⟨rfl, -⟩ <;> rfl
    have hlinks : Link.all [⟨t, o, us, r⟩] = t :: us := by simp
    rw [← htree, ← hlinks]
    exact .expression hts (by simp [Link.IsJoined, ho, ht]) (by simpa using hus)
  have htext : String.ofList ('(' :: (a.toList ++ [')']) ++
      (' ' :: (o.text.toList ++ [' ']) ++ '(' :: (b.toList ++ [')']))) = joinedText a o b := by
    apply String.toList_inj.mp
    simp [joinedText]
  rw [← htext]
  exact hwhole.ofText

/-- A plan for each side of joined conditions gives one for them. -/
lemma compile_joined {t : PropertyTree} {limit : Nat} {p q : Plan} (ho : o ∈ Operator.joints)
    (hp : t.compile limit l = .ok p) (hq : t.compile limit r = .ok q) :
    ∃ whole, t.compile limit (.binary l o r) = .ok whole ∧
      ∀ record, whole.passes record = o.combine (p.passes record) (q.passes record) := by
  rw [PropertyTree.compile] at hp hq
  rcases Operator.precedence_of_mem_joints ho with ⟨rfl, -⟩ | ⟨rfl, -⟩
  · refine ⟨.and p q, ?_, fun _ => rfl⟩
    exact (compile_junction hp hq).1
  · refine ⟨.or p q, ?_, fun _ => rfl⟩
    exact (compile_junction hp hq).2

/-- Filters that leave no string open are joined by their texts: unless that nests too deeply, the
joined text is read as their trees joined by the operator, and where both compile, so does it, to a
plan that a record passes if the operator combines the answers of their plans so. -/
theorem ofText_joinedText (ho : o ∈ Operator.joints) (hl : ofText a = .ok l)
    (hr : ofText b = .ok r) (ha : Even (a.toList.count '\'')) (hb : Even (b.toList.count '\'')) :
    ofText (joinedText a o b) = .error (.nestingTooDeep Parser.maxDepth) ∨
      ofText (joinedText a o b) = .ok (.binary l o r) ∧
        ∀ (t : PropertyTree) (limit : Nat) (p q : Plan), t.compile limit l = .ok p →
          t.compile limit r = .ok q →
            ∃ whole, t.compile limit (.binary l o r) = .ok whole ∧
              ∀ record, whole.passes record = o.combine (p.passes record) (q.passes record) := by
  rcases ofText_of_derives (derives_joinedText ho hl hr ha hb) with herror | hok
  · exact .inl herror
  · exact .inr ⟨hok, fun t limit p q => compile_joined ho⟩

/-- A filter with parentheses and an operator inside a string. -/
def quotedText : String := "a eq ') or (b eq ' or c lt 2"

/-- The tree of the filter. -/
def quotedTree : Expr :=
  .binary (.binary (.name "a") (.compare .eq) (.literal (.string ") or (b eq "))) .or
    (.binary (.name "c") (.compare .lt) (.literal (.integer 2)))

/-- Neither the alternatives of a filter nor the parentheses in its strings reach beyond it. -/
theorem ofText_joinedText_quoted :
    ofText (joinedText quotedText .and wordText) = .ok (.binary quotedTree .and wordTree) ∧
      ∀ (t : PropertyTree) (limit : Nat) (p q : Plan), t.compile limit quotedTree = .ok p →
        t.compile limit wordTree = .ok q →
          ∃ whole, t.compile limit (.binary quotedTree .and wordTree) = .ok whole ∧
            ∀ record, whole.passes record = (p.passes record && q.passes record) := by
  have hquoted : ofText quotedText = .ok quotedTree :=
    Outcome.eq_ok_of_toOption (by decide +kernel)
  have hread : ofText (joinedText quotedText .and wordText) =
      .ok (.binary quotedTree .and wordTree) :=
    Outcome.eq_ok_of_toOption (by decide +kernel)
  exact (ofText_joinedText (o := .and) (by decide) hquoted ofText_wordText (by decide)
    (by decide)).resolve_left (by simp [hread])

end Expr

end RecordQuery
