import RecordQuery.Proofs.Syntax.Nesting
import RecordQuery.Proofs.Token.Spacing

/-!
# Layout

Where tokens stand tells nothing but where to point a fault. Texts whose tokens have the same
content are read alike: as filters they are accepted with the same tree, and as sort terms they have
the same outcome. So all gaps in a text may be taken away, and single blanks put between its tokens.
-/

namespace RecordQuery

open Token (content)

variable {ts us : List Token}

/-! ### Filters -/

/-- An expression is written with any tokens of the same content. -/
lemma Bracketed.Written.of_content {w : Bracketed} (h : w.Written ts)
    (hus : us.map content = ts.map content) : w.Written us := by
  induction h generalizing us with
  | comparison hname hnames ho hword htakes hvalue =>
    simp only [List.map_cons, List.map_append, List.map_eq_cons_iff, List.map_eq_append_iff] at hus
    obtain ⟨name', _, rfl, hname', vs, _, rfl, hvs, word', _, rfl, hword', value', _, rfl, hvalue',
      hnil⟩ := hus
    rw [List.map_eq_nil_iff.mp hnil, ← Token.literal_eq_of_content hname']
    exact .comparison ((Token.kind_eq_of_content hname').trans hname) (hnames.of_content hvs) ho
      ((Token.isKeyword_of_content hword' _).trans hword)
      ((Token.kind_eq_of_content hvalue').symm ▸ htakes)
      ((Parser.literal?_of_content hvalue').trans hvalue)
  | lambda hname hnames hslash hword hopening hparameter hcolon _ hclosing ih =>
    simp only [List.map_cons, List.map_append, List.map_eq_cons_iff, List.map_eq_append_iff] at hus
    obtain ⟨name', _, rfl, hname', vs, _, rfl, hvs, slash', _, rfl, hslash', word', _, rfl, hword',
      opening', _, rfl, hopening', parameter', _, rfl, hparameter', colon', _, rfl, hcolon', ws, _,
      rfl, hws, closing', _, rfl, hclosing', hnil⟩ := hus
    rw [List.map_eq_nil_iff.mp hnil, ← Token.literal_eq_of_content hname',
      ← Token.literal_eq_of_content hparameter']
    exact .lambda ((Token.kind_eq_of_content hname').trans hname) (hnames.of_content hvs)
      ((Token.kind_eq_of_content hslash').trans hslash)
      ((Token.isKeyword_of_content hword' _).trans hword)
      ((Token.kind_eq_of_content hopening').trans hopening)
      ((Token.kind_eq_of_content hparameter').trans hparameter)
      ((Token.kind_eq_of_content hcolon').trans hcolon) (ih hws)
      ((Token.kind_eq_of_content hclosing').trans hclosing)
  | group hopening _ hclosing ih =>
    simp only [List.map_cons, List.map_append, List.map_eq_cons_iff, List.map_eq_append_iff] at hus
    obtain ⟨opening', _, rfl, hopening', vs, _, rfl, hvs, closing', _, rfl, hclosing', hnil⟩ := hus
    rw [List.map_eq_nil_iff.mp hnil]
    exact .group ((Token.kind_eq_of_content hopening').trans hopening) (ih hvs)
      ((Token.kind_eq_of_content hclosing').trans hclosing)
  | joined _ hleft ho hjoint _ hright ihl ihr =>
    simp only [List.map_cons, List.map_append, List.map_eq_cons_iff, List.map_eq_append_iff] at hus
    obtain ⟨vs, _, rfl, hvs, joint', ws, rfl, hjoint', hws⟩ := hus
    exact .joined (ihl hvs) hleft ho ((Token.isKeyword_of_content hjoint' _).trans hjoint)
      (ihr hws) hright

/-- A text is accepted with the tree of any text whose tokens have the same content. -/
lemma Expr.ofText_eq_ok_of_content {a b : String} {e : Expr}
    (h : (Token.ofText b).map content = (Token.ofText a).map content) (ha : ofText a = .ok e) :
    ofText b = .ok e := by
  obtain ⟨w, rfl, hw, -⟩ := Bracketed.exists_of_derives (derives_of_ofText ha)
  obtain ⟨hfits, -⟩ := (ofText_eq_ok_iff_of_written hw).mp ha
  exact (ofText_eq_ok_iff_of_written (hw.of_content h)).mpr ⟨hfits, rfl⟩

/-! ### Sort terms -/

namespace Parser

/-- Two readings fail with the same fault, or give the same value and leave the same content. -/
inductive Mirrors {α : Type} :
    Except QueryError (Parsed α ts) → Except QueryError (Parsed α us) → Prop
  | error (fault : QueryError) : Mirrors (.error fault) (.error fault)
  | ok {p : Parsed α ts} {q : Parsed α us} (hvalue : p.value = q.value)
      (hrest : p.rest.map content = q.rest.map content) : Mirrors (.ok p) (.ok q)

lemma Mirrors.weaken {α : Type} {ts' us' : List Token} {x : Except QueryError (Parsed α ts')}
    {y : Except QueryError (Parsed α us')} (hts : ts'.length ≤ ts.length)
    (hus : us'.length ≤ us.length) (h : Mirrors x y) :
    Mirrors (x >>= fun p => pure (p.weaken hts)) (y >>= fun p => pure (p.weaken hus)) := by
  cases h with
  | error fault => exact .error fault
  | ok hvalue hrest => exact .ok hvalue hrest

lemma mirrors_path (p : Path) (h : ts.map content = us.map content) :
    Mirrors (path p ts) (path p us) := by
  induction hlength : ts.length using Nat.strongRecOn generalizing p ts us with
  | _ n ih =>
    match ts, us, h with
    | [], [], _ => exact .ok rfl rfl
    | [t], [u], h =>
      have htu : t.content = u.content := (List.cons.inj h).1
      rw [path, path, Token.kind_eq_of_content htu]
      split_ifs
      · exact .error _
      · exact .ok rfl h
    | t :: name :: ts, u :: name' :: us, h =>
      have htu : t.content = u.content := (List.cons.inj h).1
      have hname : name.content = name'.content := (List.cons.inj (List.cons.inj h).2).1
      have hmore : ts.map content = us.map content := (List.cons.inj (List.cons.inj h).2).2
      rw [path, path, Token.kind_eq_of_content htu, Token.kind_eq_of_content hname,
        Token.literal_eq_of_content hname]
      split_ifs
      · exact .ok rfl h
      · exact .error _
      · have hshorter : ts.length < n := by
          rw [← hlength, List.length_cons, List.length_cons]
          omega
        exact (ih _ hshorter _ hmore rfl).weaken _ _
    | [_], _ :: _ :: _, h => simp at h
    | _ :: _ :: _, [_], h => simp at h

lemma direction_of_content (h : ts.map content = us.map content) :
    (direction ts).value = (direction us).value ∧
      (direction ts).rest.map content = (direction us).rest.map content := by
  match ts, us, h with
  | [], [], _ => exact ⟨rfl, rfl⟩
  | t :: ts, u :: us, h =>
    have htu : t.content = u.content := (List.cons.inj h).1
    have hmore : ts.map content = us.map content := (List.cons.inj h).2
    rw [direction, direction, Token.isKeyword_of_content htu, Token.isKeyword_of_content htu]
    split_ifs
    · exact ⟨rfl, hmore⟩
    · exact ⟨rfl, hmore⟩
    · exact ⟨rfl, h⟩

lemma sortTerms_of_content (h : ts.map content = us.map content) :
    sortTerms ts = sortTerms us := by
  induction hlength : ts.length using Nat.strongRecOn generalizing ts us with
  | _ n ih =>
    match ts, us, h with
    | [], [], _ => rfl
    | t :: ts, u :: us, h =>
      have htu : t.content = u.content := (List.cons.inj h).1
      have hmore : ts.map content = us.map content := (List.cons.inj h).2
      rw [sortTerms, sortTerms, Token.kind_eq_of_content htu, Token.literal_eq_of_content htu]
      split_ifs
      · exact ih ts.length (by simp [← hlength]) hmore rfl
      · have hpath := mirrors_path (.single u.literal) hmore
        generalize path (.single u.literal) ts = x at hpath
        generalize path (.single u.literal) us = y at hpath
        cases hpath with
        | error fault => rfl
        | @ok p q hvalue hrest =>
          obtain ⟨hdirection, hleft⟩ := direction_of_content hrest
          have hshorter : (direction p.rest).rest.length < n := by
            have hle := (direction p.rest).rest_le
            have hle' := p.rest_le
            rw [← hlength, List.length_cons]
            omega
          have hrec := ih _ hshorter hleft rfl
          simp only [bind, Except.bind, hvalue, hdirection, hrec]

end Parser

/-- With single blanks between its tokens, strings between quotes, a text has the same tokens but
for their places. It is accepted as a filter if it was before, with the same tree, and as sort terms
it has the same outcome. -/
theorem Token.spaced_alike (s : String) :
    (ofText (spaced s)).map content = (ofText s).map content ∧
      (∀ e, Expr.ofText (spaced s) = .ok e ↔ Expr.ofText s = .ok e) ∧
      SortTerm.listOfText (spaced s) = SortTerm.listOfText s := by
  have hcontent := map_content_ofText_spaced s
  refine ⟨hcontent, fun e => ⟨?_, ?_⟩, ?_⟩
  · exact Expr.ofText_eq_ok_of_content hcontent.symm
  · exact Expr.ofText_eq_ok_of_content hcontent
  · exact Parser.sortTerms_of_content hcontent

example : Token.spaced "a\t/ b ne'c" = "a / b ne 'c'" := by decide +kernel

end RecordQuery
