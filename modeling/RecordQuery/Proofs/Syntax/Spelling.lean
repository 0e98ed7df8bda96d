import RecordQuery.Proofs.Syntax.Recognition
import RecordQuery.Proofs.Text.LetterCase
import Mathlib.Data.List.Forall2

/-!
# Filters spelled in another letter case

Keywords, names and bare words may be written in any letter case. Two texts whose tokens differ in
no more than that are read alike: one is accepted if the other is, and their trees differ in the
letter case of names at most. Some names can be kept from differing, as those of variables have to
be.
-/

namespace RecordQuery

variable {kept : List String}

/-! ### Words -/

/-- Two words have the same letters in any case, and are the same word if a kept one has these
letters. -/
structure Text.Alike (kept : List String) (s t : String) : Prop where
  same : Text.sameWord s t
  eq_of_kept : ∀ x ∈ kept, Text.sameWord x s → s = t

namespace Text.Alike

variable {s t : String}

lemma refl (s : String) : Alike kept s s := ⟨beq_self_eq_true _, fun _ _ _ => rfl⟩

lemma symm (h : Alike kept s t) : Alike kept t s where
  same := by
    rw [sameWord_comm]
    exact h.same
  eq_of_kept := by
    intro x hx hxt
    have hts : Text.sameWord t s := by
      rw [sameWord_comm]
      exact h.same
    exact (h.eq_of_kept x hx (sameWord_trans hxt hts)).symm

lemma eq_of_mem (h : Alike kept s t) (hs : s ∈ kept) : s = t :=
  h.eq_of_kept s hs (beq_self_eq_true _)

end Text.Alike

/-! ### Trees -/

/-- Two literals are the same or bare words with the same letters. -/
inductive Literal.Alike : Literal → Literal → Prop
  | refl (l : Literal) : Alike l l
  | identifier {s t : String} (h : Text.sameWord s t) : Alike (.identifier s) (.identifier t)

/-- Two paths go through names that are alike. -/
structure Path.Alike (kept : List String) (p q : Path) : Prop where
  first : Text.Alike kept p.first q.first
  rest : List.Forall₂ (Text.Alike kept) p.rest q.rest

namespace Path.Alike

variable {p q : Path}

lemma refl (p : Path) : Alike kept p p :=
  ⟨.refl p.first, List.forall₂_same.mpr fun s _ => .refl s⟩

lemma push (h : p.Alike kept q) {s t : String} (hst : Text.Alike kept s t) :
    (p.push s).Alike kept (q.push t) :=
  ⟨h.first, List.rel_append h.rest (.cons hst .nil)⟩

end Path.Alike

/-- Two expressions differ in the letter case of names and bare words only, and not in that of kept
names. -/
inductive Expr.Alike (kept : List String) : Expr → Expr → Prop
  | name {s t : String} (h : Text.Alike kept s t) : Alike kept (.name s) (.name t)
  | path {p q : Path} (h : p.Alike kept q) : Alike kept (.path p) (.path q)
  | literal {l m : Literal} (h : l.Alike m) : Alike kept (.literal l) (.literal m)
  | binary {l r l' r' : Expr} (hl : Alike kept l l') (o : Operator) (hr : Alike kept r r') :
      Alike kept (.binary l o r) (.binary l' o r')
  | lambda {c d : Path} {x y : String} {body body' : Expr} (hc : c.Alike kept d) (q : Quantifier)
      (hx : Text.Alike kept x y) (h : Alike kept body body') :
      Alike kept (.lambda c q x body) (.lambda d q y body')

namespace Expr.Alike

variable {e f : Expr}

lemma refl (e : Expr) : Alike kept e e := by
  induction e with
  | name s => exact .name (.refl s)
  | path p => exact .path (.refl p)
  | literal l => exact .literal (.refl l)
  | binary l o r ihl ihr => exact .binary ihl o ihr
  | lambda c q x body ih => exact .lambda (.refl c) q (.refl x) ih

lemma depth_eq (h : e.Alike kept f) : e.depth = f.depth := by
  induction h with
  | binary _ o _ ihl ihr => cases o <;> simp [depth, ihl, ihr]
  | lambda _ _ _ _ ih => simp [depth, ih]
  | _ => rfl

lemma completed {c d : Path} {x y : String} (hc : c.Alike kept d) (q : Quantifier)
    (hx : Text.Alike kept x y) (h : e.Alike kept f) :
    (completed c q x e).Alike kept (completed d q y f) :=
  .binary (.lambda hc q hx h) .complete (.refl _)

lemma property {p q : Path} (h : p.Alike kept q) :
    (Parser.property p).Alike kept (Parser.property q) := by
  have hsingle : p.isSingle = q.isSingle := by
    obtain ⟨first, rest⟩ := p
    obtain ⟨first', rest'⟩ := q
    obtain ⟨-, hrest⟩ := h
    cases hrest <;> rfl
  rw [Parser.property, Parser.property, hsingle]
  split_ifs
  · exact .name h.first
  · exact .path h

end Expr.Alike

/-! ### Tokens -/

/-- Holds of the kinds of tokens whose letter case does not matter. -/
def Token.Kind.isWord : Token.Kind → Bool
  | .name | .boolean | .null => true
  | _ => false

/-- Two tokens are of one kind and have the same text, that of words in any letter case. Where they
stand does not matter. -/
structure Token.SameButCase (t u : Token) : Prop where
  kind_eq : t.kind = u.kind
  literal : if t.kind.isWord then Text.sameWord t.literal u.literal else t.literal = u.literal

/-- Two tokens have the same text but for letter case, and names with the letters of a kept one have
even that. -/
structure Token.Alike (kept : List String) (t u : Token) : Prop extends Token.SameButCase t u where
  eq_of_kept : t.kind = .name → ∀ x ∈ kept, Text.sameWord x t.literal → t.literal = u.literal

namespace Token

variable {t u : Token}

lemma SameButCase.sameWord (h : t.SameButCase u) : Text.sameWord t.literal u.literal := by
  have hliteral := h.literal
  split_ifs at hliteral
  · exact hliteral
  · rw [hliteral]
    exact beq_self_eq_true _

lemma SameButCase.symm (h : t.SameButCase u) : u.SameButCase t where
  kind_eq := h.kind_eq.symm
  literal := by
    have hliteral := h.literal
    rw [h.kind_eq] at hliteral
    split_ifs at hliteral ⊢
    · rw [Text.sameWord_comm]
      exact hliteral
    · exact hliteral.symm

instance : DecidableRel SameButCase := fun t u =>
  decidable_of_iff (t.kind = u.kind ∧
      if t.kind.isWord then Text.sameWord t.literal u.literal = true else t.literal = u.literal)
    ⟨fun ⟨hkind, hliteral⟩ => ⟨hkind, hliteral⟩, fun ⟨hkind, hliteral⟩ => ⟨hkind, hliteral⟩⟩

namespace Alike

lemma name (h : t.Alike kept u) (hname : t.kind = .name) : Text.Alike kept t.literal u.literal :=
  ⟨h.sameWord, h.eq_of_kept hname⟩

lemma symm (h : t.Alike kept u) : u.Alike kept t where
  toSameButCase := h.toSameButCase.symm
  eq_of_kept := fun hname => (h.name (h.kind_eq.trans hname)).symm.eq_of_kept

/-- Which keyword a token is does not depend on its letter case. -/
lemma isKeyword_eq (h : t.Alike kept u) (word : String) : t.isKeyword word = u.isKeyword word := by
  have hfold := Text.foldCase_eq_of_sameWord h.sameWord
  rw [isKeyword, isKeyword, h.kind_eq, Text.sameWord, Text.sameWord, hfold]

lemma literal? (h : t.Alike kept u) {l : Literal} (hl : Parser.literal? t = some l) :
    ∃ m, Parser.literal? u = some m ∧ l.Alike m := by
  have hliteral := h.literal
  split_ifs at hliteral with hword
  · have hfold := Text.foldCase_eq_of_sameWord hliteral
    unfold Parser.literal? at hl ⊢
    rw [← h.kind_eq]
    cases hkind : t.kind with
    | name =>
      simp only [hkind] at hl
      cases hl
      exact ⟨_, rfl, .identifier hliteral⟩
    | boolean =>
      simp only [hkind, Text.sameWord, hfold] at hl
      exact ⟨l, hl, .refl l⟩
    | null =>
      simp only [hkind] at hl
      exact ⟨l, hl, .refl l⟩
    | _ => simp [hkind, Kind.isWord] at hword
  · have heq : Parser.literal? t = Parser.literal? u := by
      unfold Parser.literal?
      rw [h.kind_eq, hliteral]
    exact ⟨l, heq ▸ hl, .refl l⟩

end Alike

end Token

/-! ### Reading -/

namespace Parser

variable {α β : Type} {ts us : List Token} {inner : Reader}

lemma comparison?_alike {t u : Token} (h : t.Alike kept u) : comparison? t = comparison? u := by
  apply Option.ext
  intro o
  rw [comparison?_eq_some_iff, comparison?_eq_some_iff, h.isKeyword_eq]

lemma logical?_alike {t u : Token} (h : t.Alike kept u) : logical? t = logical? u := by
  apply Option.ext
  intro o
  rw [logical?_eq_some_iff, logical?_eq_some_iff, h.isKeyword_eq]

/-- What is read from some tokens is read from others up to a relation, and what is left is
alike. -/
def Follows (kept : List String) (R : α → β → Prop) (x : Except QueryError (Parsed α ts))
    (y : Except QueryError (Parsed β us)) : Prop :=
  ∀ v rest, Reads x v rest →
    ∃ w more, Reads y w more ∧ R v w ∧ List.Forall₂ (Token.Alike kept) rest more

/-- A reader reads alike tokens as alike expressions. -/
def Reader.IgnoresCase (kept : List String) (inner : Reader) : Prop :=
  ∀ strength ts us, List.Forall₂ (Token.Alike kept) ts us →
    Follows kept (Expr.Alike kept) (inner strength ts) (inner strength us)

lemma follows_comparison {left left' : Expr} (hleft : left.Alike kept left')
    (h : List.Forall₂ (Token.Alike kept) ts us) :
    Follows kept (Expr.Alike kept) (comparison left ts) (comparison left' us) := by
  intro e rest hreads
  obtain ⟨word, value, o, l, rfl, ho, htakes, hl, rfl⟩ := reads_comparison_iff.mp hreads
  cases h with
  | cons hword h =>
    cases h with
    | cons hvalue hrest =>
      obtain ⟨m, hm, hlm⟩ := hvalue.literal? hl
      rw [comparison?_alike hword] at ho
      rw [hvalue.kind_eq] at htakes
      exact ⟨_, _, reads_comparison_iff.mpr ⟨_, _, o, m, rfl, ho, htakes, hm, rfl⟩,
        .binary hleft o (.literal hlm), hrest⟩

/-- Two beginnings of conditions go through names that are alike, to the same quantifier if to
any. -/
inductive Subject.Alike (kept : List String) : Subject → Subject → Prop
  | property {p q : Path} (h : p.Alike kept q) : Alike kept (.property p) (.property q)
  | collection {p q : Path} (h : p.Alike kept q) (quantifier : Quantifier) :
      Alike kept (.collection p quantifier) (.collection q quantifier)

lemma quantifier?_alike {t u : Token} (h : t.Alike kept u)
    (hts : List.Forall₂ (Token.Alike kept) ts us) : quantifier? t ts = quantifier? u us := by
  have hfold := Text.foldCase_eq_of_sameWord h.sameWord
  cases hts with
  | nil => rfl
  | cons hopening _ =>
    simp only [quantifier?, hopening.kind_eq, Quantifier.ofWord?, Text.sameWord, hfold]

lemma follows_ok {R : α → β → Prop} {p : Parsed α ts} {q : Parsed β us} (hvalue : R p.value q.value)
    (hrest : List.Forall₂ (Token.Alike kept) p.rest q.rest) :
    Follows kept R (.ok p) (.ok q) := by
  intro v rest hreads
  obtain ⟨rfl, rfl⟩ := reads_ok_iff.mp hreads
  exact ⟨q.value, q.rest, reads_ok_iff.mpr ⟨rfl, rfl⟩, hvalue, hrest⟩

lemma follows_error {R : α → β → Prop} {e : QueryError} {y : Except QueryError (Parsed β us)} :
    Follows kept R (.error e : Except QueryError (Parsed α ts)) y :=
  fun _ _ hreads => absurd hreads not_reads_error

lemma follows_weaken {R : α → β → Prop} {ts' us' : List Token}
    {x : Except QueryError (Parsed α ts')} {y : Except QueryError (Parsed β us')}
    (hts : ts'.length ≤ ts.length) (hus : us'.length ≤ us.length) (h : Follows kept R x y) :
    Follows kept R (x >>= fun p => pure (p.weaken hts)) (y >>= fun p => pure (p.weaken hus)) := by
  intro v rest hreads
  obtain ⟨w, more, hw, hR, hmore⟩ := h v rest ((reads_weaken_iff hts).mp hreads)
  exact ⟨w, more, (reads_weaken_iff hus).mpr hw, hR, hmore⟩

lemma follows_subject {p q : Path} (hp : p.Alike kept q)
    (h : List.Forall₂ (Token.Alike kept) ts us) :
    Follows kept (Subject.Alike kept) (subject p ts) (subject q us) := by
  induction hlength : ts.length using Nat.strongRecOn generalizing p q ts us with
  | _ n ih =>
    cases h with
    | nil => exact follows_ok (.property hp) .nil
    | cons ht h =>
      cases h with
      | nil =>
        rw [subject, subject, ht.kind_eq]
        split_ifs
        · exact follows_error
        · exact follows_ok (.property hp) (.cons ht .nil)
      | @cons name name' ts us hname h =>
        rw [subject, subject, ht.kind_eq, hname.kind_eq, quantifier?_alike hname h]
        split_ifs with hslash hkind
        · exact follows_ok (.property hp) (.cons ht (.cons hname h))
        · exact follows_error
        · cases quantifier? name' us with
          | some quantifier =>
            exact follows_ok (.collection hp quantifier) (by simpa using List.forall₂_drop 1 h)
          | none =>
            have hmore := hname.name (hname.kind_eq.trans (not_not.mp hkind))
            have hlt : ts.length < n := by
              rw [← hlength, List.length_cons, List.length_cons]
              omega
            exact follows_weaken _ _ (ih _ hlt (hp.push hmore) h rfl)

lemma follows_lambda (hinner : inner.IgnoresCase kept) {c d : Path} (hc : c.Alike kept d)
    (q : Quantifier) (h : List.Forall₂ (Token.Alike kept) ts us) :
    Follows kept (Expr.Alike kept) (lambda inner c q ts) (lambda inner d q us) := by
  intro e rest hreads
  obtain ⟨parameter, colon, _, body, closing, rfl, hname, hcolon, hbody, hclosing, rfl⟩ :=
    reads_lambda_iff.mp hreads
  cases h with
  | cons hparameter h =>
    cases h with
    | cons hcolons h =>
      obtain ⟨body', more, hbody', halike, hmore⟩ := hinner 0 _ _ h body _ hbody
      cases hmore with
      | cons hclosings hmore =>
        rw [hcolons.kind_eq] at hcolon
        rw [hclosings.kind_eq] at hclosing
        exact ⟨_, _, reads_lambda_iff.mpr ⟨_, _, _, body', _, rfl,
          hparameter.kind_eq ▸ hname, hcolon, hbody', hclosing, rfl⟩,
          .completed hc q (hparameter.name hname) halike, hmore⟩

lemma follows_condition (hinner : inner.IgnoresCase kept) {first first' : String}
    (hfirst : Text.Alike kept first first') (h : List.Forall₂ (Token.Alike kept) ts us) :
    Follows kept (Expr.Alike kept) (condition inner first ts) (condition inner first' us) := by
  have hsingle : (Path.single first).Alike kept (Path.single first') := ⟨hfirst, .nil⟩
  intro e rest hreads
  rcases reads_condition_iff.mp hreads with ⟨p, mid, hsubject, h'⟩ | ⟨p, q, mid, hsubject, h'⟩
  · obtain ⟨_, mid', hsubject', ⟨hp⟩, hmid⟩ := follows_subject hsingle h _ _ hsubject
    obtain ⟨e', more, he', halike, hmore⟩ := follows_comparison (.property hp) hmid _ _ h'
    exact ⟨e', more, reads_condition_iff.mpr (.inl ⟨_, mid', hsubject', he'⟩), halike, hmore⟩
  · obtain ⟨_, mid', hsubject', hcollection, hmid⟩ := follows_subject hsingle h _ _ hsubject
    cases hcollection with
    | collection hp =>
      obtain ⟨e', more, he', halike, hmore⟩ := follows_lambda hinner hp q hmid _ _ h'
      exact ⟨e', more, reads_condition_iff.mpr (.inr ⟨_, q, mid', hsubject', he'⟩), halike, hmore⟩

lemma follows_group (hinner : inner.IgnoresCase kept) (h : List.Forall₂ (Token.Alike kept) ts us) :
    Follows kept (Expr.Alike kept) (group inner ts) (group inner us) := by
  intro e rest hreads
  obtain ⟨closing, hclosing, hcontent⟩ := reads_group_iff.mp hreads
  obtain ⟨e', more, he', halike, hmore⟩ := hinner 0 _ _ h e _ hcontent
  cases hmore with
  | cons hclosings hmore =>
    exact ⟨e', _, reads_group_iff.mpr ⟨_, hclosings.kind_eq ▸ hclosing, he'⟩, halike, hmore⟩

lemma follows_term (hinner : inner.IgnoresCase kept) (h : List.Forall₂ (Token.Alike kept) ts us) :
    Follows kept (Expr.Alike kept) (term inner ts) (term inner us) := by
  intro e rest hreads
  obtain ⟨t, mid, rfl, hcases⟩ := reads_term_iff.mp hreads
  cases h with
  | @cons _ u _ mid' ht h =>
    rcases hcases with ⟨hopening, h'⟩ | ⟨hname, h'⟩
    · obtain ⟨e', more, he', halike, hmore⟩ := follows_group hinner h _ _ h'
      exact ⟨e', more, reads_term_iff.mpr ⟨u, mid', rfl, .inl ⟨ht.kind_eq ▸ hopening, he'⟩⟩, halike,
        hmore⟩
    · obtain ⟨e', more, he', halike, hmore⟩ := follows_condition hinner (ht.name hname) h _ _ h'
      exact ⟨e', more, reads_term_iff.mpr ⟨u, mid', rfl, .inr ⟨ht.kind_eq ▸ hname, he'⟩⟩, halike,
        hmore⟩

lemma Stops.alike {strength : Nat} (hstops : Stops strength ts)
    (h : List.Forall₂ (Token.Alike kept) ts us) : Stops strength us := by
  cases h with
  | nil => exact hstops
  | cons ht _ =>
    intro u hu o ho
    cases hu
    exact hstops _ rfl o (logical?_alike ht ▸ ho)

/-- Alike conditions are joined alike, one after the other. -/
lemma follows_chain (hinner : inner.IgnoresCase kept) {strength : Nat} {left left' : Expr}
    (hleft : left.Alike kept left') (h : List.Forall₂ (Token.Alike kept) ts us) :
    Follows kept (Expr.Alike kept) (chain inner strength left ts)
      (chain inner strength left' us) := by
  intro e rest hreads
  induction hlength : ts.length using Nat.strongRecOn generalizing left left' ts us with
  | _ n ih =>
    rcases reads_chain_cases hreads with
      ⟨hstops, rfl, rfl⟩ | ⟨t, mid, o, right, more, rfl, ho, hbinds, hright, hdepth, hchain, hlt⟩
    · have hchain : Reads (chain inner strength left' us) left' us := by
        simp [chain_of_stops (hstops.alike h)]
      exact ⟨left', us, hchain, hleft, h⟩
    · cases h with
      | cons ht h =>
        obtain ⟨right', more', hright', hrights, hmore⟩ := hinner _ _ _ h _ _ hright
        have hjoined : (Expr.binary left o right).Alike kept (.binary left' o right') :=
          .binary hleft o hrights
        obtain ⟨e', rest', he', halike, hrest⟩ :=
          ih _ (hlength ▸ hlt) hjoined hmore hchain rfl
        rw [logical?_alike ht] at ho
        rw [hjoined.depth_eq] at hdepth
        exact ⟨e', rest',
          (reads_chain_cons_iff ho hbinds).mpr ⟨right', more', hright', hdepth, he'⟩, halike, hrest⟩

theorem ignoresCase_expression (levels : Nat) : Reader.IgnoresCase kept (expression levels) := by
  induction levels with
  | zero => exact fun _ _ _ _ => follows_error
  | succ levels ih =>
    intro strength ts us h e rest hreads
    obtain ⟨first, mid, hterm, hchain⟩ := reads_expression_iff.mp hreads
    obtain ⟨first', mid', hterm', hfirst, hmid⟩ := follows_term ih h _ _ hterm
    obtain ⟨e', more, hchain', halike, hmore⟩ := follows_chain ih hfirst hmid _ _ hchain
    exact ⟨e', more, reads_expression_iff.mpr ⟨first', mid', hterm', hchain'⟩, halike, hmore⟩

end Parser

/-- Texts whose tokens are alike are read as alike expressions. -/
theorem Expr.exists_alike_of_ofText {a b : String} {e : Expr}
    (h : List.Forall₂ (Token.Alike kept) (Token.ofText a) (Token.ofText b))
    (ha : ofText a = .ok e) : ∃ f, ofText b = .ok f ∧ e.Alike kept f := by
  obtain ⟨f, _, hf, halike, hrest⟩ :=
    Parser.ignoresCase_expression _ _ _ _ h e [] (ofText_eq_ok_iff_reads.mp ha)
  cases hrest
  exact ⟨f, ofText_eq_ok_iff_reads.mpr hf, halike⟩

end RecordQuery
