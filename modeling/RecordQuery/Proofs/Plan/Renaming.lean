import RecordQuery.Proofs.Plan.Stability

/-!
# Names of variables

How a quantified condition calls its elements does not matter. The variable may get any name that
nothing else goes by, together with the references that mean it: those inside the condition but not
inside of another one that takes the same name for its own elements. The path to such a condition's
collection stands outside of it still.

Two expressions are compared under the names that the variables around them have in each, pair by
pair and the innermost one first.
-/

namespace RecordQuery

open Outcome

/-! ### Renaming -/

/-- A name, with `y` for `x`. -/
def Variable.rename (x y name : String) : String := if name = x then y else name

/-- A path that starts at the variable `x`, with `y` for it. -/
def Path.rename (x y : String) (p : Path) : Path := ⟨Variable.rename x y p.first, p.rest⟩

/-- An expression with `y` for the variable that it calls `x`. Where a condition has a variable `x`
of its own, only the path to its collection means the other one. -/
def Expr.rename (x y : String) : Expr → Expr
  | name s => name (Variable.rename x y s)
  | path p => path (p.rename x y)
  | literal l => literal l
  | binary l o r => binary (l.rename x y) o (r.rename x y)
  | lambda collection q parameter body =>
    lambda (collection.rename x y) q parameter
      (if parameter = x then body else body.rename x y)

/-- The second expression is the first one with `y` for the variable of one quantified condition. -/
inductive Expr.RenamesVariable (y : String) : Expr → Expr → Prop
  | here (collection : Path) (q : Quantifier) (x : String) (body : Expr) :
      RenamesVariable y (.lambda collection q x body) (.lambda collection q y (body.rename x y))
  | left {l l' : Expr} (h : RenamesVariable y l l') (o : Operator) (r : Expr) :
      RenamesVariable y (.binary l o r) (.binary l' o r)
  | right {r r' : Expr} (l : Expr) (o : Operator) (h : RenamesVariable y r r') :
      RenamesVariable y (.binary l o r) (.binary l o r')
  | body {body body' : Expr} (collection : Path) (q : Quantifier) (x : String)
      (h : RenamesVariable y body body') :
      RenamesVariable y (.lambda collection q x body) (.lambda collection q x body')

/-- The names in an expression that a variable could be mistaken for: those of its variables, those
that stand alone and the first ones of paths. -/
def Expr.leadingNames : Expr → List String
  | name s => [s]
  | path p => [p.first]
  | literal _ => []
  | binary l _ r => l.leadingNames ++ r.leadingNames
  | lambda collection _ parameter body => collection.first :: parameter :: body.leadingNames

/-! ### Expressions under two names for each variable -/

/-- Two names mean the same: variables at the same place or, if they are no variables, one name. -/
def Variable.Matches : List (String × String) → String → String → Prop
  | [], a, b => a = b
  | (x, y) :: bound, a, b => x = a ∧ y = b ∨ x ≠ a ∧ y ≠ b ∧ Matches bound a b

/-- Two paths start at what is the same, and go on alike. -/
structure Path.Matches (bound : List (String × String)) (p q : Path) : Prop where
  first : Variable.Matches bound p.first q.first
  rest_eq : p.rest = q.rest

/-- Two expressions differ in the names of variables only. -/
inductive Expr.AlphaEquiv : List (String × String) → Expr → Expr → Prop
  | name {bound : List (String × String)} {s t : String} (h : Variable.Matches bound s t) :
      AlphaEquiv bound (.name s) (.name t)
  | path {bound : List (String × String)} {p q : Path} (h : p.Matches bound q) :
      AlphaEquiv bound (.path p) (.path q)
  | literal {bound : List (String × String)} (l : Literal) :
      AlphaEquiv bound (.literal l) (.literal l)
  | binary {bound : List (String × String)} {l r l' r' : Expr} (hl : AlphaEquiv bound l l')
      (o : Operator) (hr : AlphaEquiv bound r r') :
      AlphaEquiv bound (.binary l o r) (.binary l' o r')
  | lambda {bound : List (String × String)} {c d : Path} {x y : String} {body body' : Expr}
      (hc : c.Matches bound d) (q : Quantifier) (h : AlphaEquiv ((x, y) :: bound) body body') :
      AlphaEquiv bound (.lambda c q x body) (.lambda d q y body')

variable {bound : List (String × String)} {x y : String} {e f : Expr}

lemma Variable.Matches.symm {a b : String} (h : Matches bound a b) :
    Matches (bound.map Prod.swap) b a := by
  induction bound with
  | nil => exact Eq.symm h
  | cons names bound ih =>
    rcases h with ⟨hx, hy⟩ | ⟨hx, hy, h⟩
    · exact .inl ⟨hy, hx⟩
    · exact .inr ⟨hy, hx, ih h⟩

lemma Path.Matches.symm {p q : Path} (h : p.Matches bound q) :
    q.Matches (bound.map Prod.swap) p :=
  ⟨h.first.symm, h.rest_eq.symm⟩

lemma Expr.AlphaEquiv.symm (h : AlphaEquiv bound e f) :
    AlphaEquiv (bound.map Prod.swap) f e := by
  induction h with
  | name h => exact .name h.symm
  | path h => exact .path h.symm
  | literal l => exact .literal l
  | binary _ o _ ihl ihr => exact .binary ihl o ihr
  | lambda hc q _ ih => exact .lambda hc.symm q ih

/-- One more variable of the same name in both expressions matches itself, and so does every name
that did before. -/
lemma Variable.matches_cons_self {a b : String} (x : String) (h : Matches bound a b)
    (hx : a ≠ b → x ≠ a ∧ x ≠ b) : Matches ((x, x) :: bound) a b := by
  by_cases hab : a = b
  · subst hab
    by_cases hxa : x = a
    · exact .inl ⟨hxa, hxa⟩
    · exact .inr ⟨hxa, hxa, h⟩
  · exact .inr ⟨(hx hab).1, (hx hab).2, h⟩

namespace Expr

lemma alphaEquiv_self (h : ∀ a ∈ e.leadingNames, Variable.Matches bound a a) :
    e.AlphaEquiv bound e := by
  induction e generalizing bound with
  | name s => exact .name (h s List.mem_cons_self)
  | path p => exact .path ⟨h p.first List.mem_cons_self, rfl⟩
  | literal l => exact .literal l
  | binary l o r ihl ihr =>
    obtain ⟨hl, hr⟩ := List.forall_mem_append.mp h
    exact .binary (ihl hl) o (ihr hr)
  | lambda collection q parameter body ih =>
    obtain ⟨hcollection, -, hbody⟩ := by simpa only [leadingNames, List.forall_mem_cons] using h
    refine .lambda ⟨hcollection, rfl⟩ q (ih fun a ha => ?_)
    exact Variable.matches_cons_self parameter (hbody a ha) fun hne => absurd rfl hne

/-- Renaming leaves an expression the same but for the names of variables, if it does so to each
name alone. -/
lemma alphaEquiv_rename (hy : y ∉ e.leadingNames)
    (h : ∀ a ∈ e.leadingNames, Variable.Matches bound a (Variable.rename x y a)) :
    e.AlphaEquiv bound (e.rename x y) := by
  induction e generalizing bound with
  | name s => exact .name (h s List.mem_cons_self)
  | path p => exact .path ⟨h p.first List.mem_cons_self, rfl⟩
  | literal l => exact .literal l
  | binary l o r ihl ihr =>
    obtain ⟨hyl, hyr⟩ := not_or.mp (mt List.mem_append.mpr hy)
    obtain ⟨hl, hr⟩ := List.forall_mem_append.mp h
    exact .binary (ihl hyl hl) o (ihr hyr hr)
  | lambda collection q parameter body ih =>
    obtain ⟨hcollection, -, hbody⟩ := by simpa only [leadingNames, List.forall_mem_cons] using h
    simp only [leadingNames, List.mem_cons, not_or] at hy
    obtain ⟨-, hparameter, hybody⟩ := hy
    have hpath : collection.Matches bound (collection.rename x y) := ⟨hcollection, rfl⟩
    refine .lambda hpath q ?_
    split_ifs with hx
    · -- the body means the variable of this condition by `x`
      subst hx
      refine alphaEquiv_self fun a ha => ?_
      by_cases ha' : parameter = a
      · exact .inl ⟨ha', ha'⟩
      · have hmatches := hbody a ha
        rw [Variable.rename, if_neg fun haa => ha' haa.symm] at hmatches
        exact .inr ⟨ha', ha', hmatches⟩
    · refine ih hybody fun a ha => Variable.matches_cons_self parameter (hbody a ha) fun hne => ?_
      -- only `x` changes, and neither `x` nor `y` is the variable of this condition
      have hax : a = x := by
        by_contra hax
        exact hne (if_neg hax).symm
      rw [Variable.rename, if_pos hax, hax]
      exact ⟨hx, fun hpy => hparameter hpy.symm⟩

/-- A variable that gets a new name leaves the expression the same but for that. -/
lemma RenamesVariable.alphaEquiv (h : e.RenamesVariable y f) (hy : y ∉ e.leadingNames)
    (hbound : ∀ a ∈ e.leadingNames, Variable.Matches bound a a) : e.AlphaEquiv bound f := by
  induction h generalizing bound with
  | here collection q x body =>
    obtain ⟨hcollection, -, hbody⟩ := by
      simpa only [leadingNames, List.forall_mem_cons] using hbound
    simp only [leadingNames, List.mem_cons, not_or] at hy
    obtain ⟨-, -, hybody⟩ := hy
    refine .lambda ⟨hcollection, rfl⟩ q (alphaEquiv_rename hybody fun a ha => ?_)
    by_cases hax : a = x
    · exact .inl ⟨hax.symm, (if_pos hax).symm⟩
    · rw [Variable.rename, if_neg hax]
      exact .inr ⟨fun hxa => hax hxa.symm, fun hya => hybody (hya ▸ ha), hbody a ha⟩
  | left _ o r ih =>
    obtain ⟨hyl, -⟩ := not_or.mp (mt List.mem_append.mpr hy)
    obtain ⟨hl, hr⟩ := List.forall_mem_append.mp hbound
    exact .binary (ih hyl hl) o (alphaEquiv_self hr)
  | right l o _ ih =>
    obtain ⟨-, hyr⟩ := not_or.mp (mt List.mem_append.mpr hy)
    obtain ⟨hl, hr⟩ := List.forall_mem_append.mp hbound
    exact .binary (alphaEquiv_self hl) o (ih hyr hr)
  | body collection q x _ ih =>
    obtain ⟨hcollection, -, hbody⟩ := by
      simpa only [leadingNames, List.forall_mem_cons] using hbound
    simp only [leadingNames, List.mem_cons, not_or] at hy
    obtain ⟨-, -, hybody⟩ := hy
    refine .lambda ⟨hcollection, rfl⟩ q (ih hybody fun a ha => ?_)
    exact Variable.matches_cons_self x (hbody a ha) fun hne => absurd rfl hne

end Expr

/-! ### Contexts under two names for each variable -/

/-- Two lists of variables differ in their names only, which are the given ones. -/
inductive Scope.Called : List (String × String) → List Scope → List Scope → Prop
  | nil : Called [] [] []
  | cons {bound : List (String × String)} {ss ts : List Scope} (x y : String) (slot : Nat)
      (element : Kind) (tree : Option PropertyTree) (h : Called bound ss ts) :
      Called ((x, y) :: bound) (⟨x, slot, element, tree⟩ :: ss) (⟨y, slot, element, tree⟩ :: ts)

lemma Scope.Called.length_eq {ss ts : List Scope} (h : Called bound ss ts) :
    ss.length = ts.length := by
  induction h with
  | nil => rfl
  | cons _ _ _ _ _ _ ih => exact congrArg (· + 1) ih

/-- Names that mean the same find variables that differ in their names only, or none. -/
lemma Scope.Called.find? {ss ts : List Scope} (h : Called bound ss ts) {a b : String}
    (hab : Variable.Matches bound a b) :
    (∃ s, ss.find? (·.parameter == a) = some s ∧
        ts.find? (·.parameter == b) = some { s with parameter := b }) ∨
      ss.find? (·.parameter == a) = none ∧ ts.find? (·.parameter == b) = none ∧ a = b := by
  induction h with
  | nil => exact .inr ⟨rfl, rfl, hab⟩
  | cons x y slot element tree _ ih =>
    rcases hab with ⟨rfl, rfl⟩ | ⟨hx, hy, hab⟩
    · exact .inl ⟨⟨x, slot, element, tree⟩, by simp, by simp⟩
    · rw [List.find?_cons_of_neg (by simpa using hx), List.find?_cons_of_neg (by simpa using hy)]
      exact ih hab

/-- Two contexts differ in the names of their variables only. -/
structure Context.Called (bound : List (String × String)) (c d : Context) : Prop where
  root_eq : c.root = d.root
  scopes : Scope.Called bound c.scopes d.scopes

namespace Context.Called

variable {c d : Context}

lemma push (h : c.Called bound d) (x y : String) (element : Kind) (tree : Option PropertyTree) :
    (c.push x element tree).Called ((x, y) :: bound) (d.push y element tree) where
  root_eq := h.root_eq
  scopes := by
    rw [Context.push, Context.push, h.scopes.length_eq]
    exact .cons x y _ element tree h.scopes

/-- Along the same names one walk leads where another one does, however the path is written. -/
lemma exists_walkFrom {t : PropertyTree} {slot : Nat} {passed : List String}
    {written first : String} {rest : List String} {r : Resolved}
    (h : t.walkFrom slot passed written first rest = .ok r) (written' : String) :
    ∃ r', t.walkFrom slot passed written' first rest = .ok r' ∧ r.Alike r' := by
  have hself : t.Deepens t := ⟨rfl, rfl, rfl, Nat.le_refl _⟩
  have hrest : List.Forall₂ (Text.Alike []) rest rest := List.forall₂_same.mpr fun s _ => .refl s
  exact hself.walkFrom (.refl first) hrest r h

/-- Paths that start at the same mean the same. -/
theorem resolve (h : c.Called bound d) {p q : Path} (hpq : p.Matches bound q) :
    Carries Resolved.Alike (c.resolve p) (d.resolve q) := by
  intro r hr
  have hfind : (∃ s, c.scope? p.first = some s ∧
        d.scope? q.first = some { s with parameter := q.first }) ∨
      c.scope? p.first = none ∧ d.scope? q.first = none ∧ p.first = q.first :=
    h.scopes.find? hpq.first
  have hrest := hpq.rest_eq
  rcases hfind with ⟨s, hs, hs'⟩ | ⟨hs, hs', hfirst⟩
  · cases resolves_of_resolve hr with
    | element hfound hp hplain =>
      cases hs.symm.trans hfound
      exact ⟨_, resolve_of_resolves (.element hs' (hrest ▸ hp) hplain), rfl, rfl, rfl⟩
    | member hfound hp ht hr =>
      cases hs.symm.trans hfound
      obtain ⟨r', hr', halike⟩ := exists_walkFrom hr q.text
      exact ⟨r', resolve_of_resolves (.member hs' (hrest ▸ hp) ht hr'), halike⟩
    | innermost hnone => cases hs.symm.trans hnone
    | root hnone => cases hs.symm.trans hnone
  · cases resolves_of_resolve hr with
    | element hfound => cases hs.symm.trans hfound
    | member hfound => cases hs.symm.trans hfound
    | innermost _ hp hc ht hr =>
      obtain ⟨r', hr', halike⟩ := exists_walkFrom hr q.text
      have hscopes := h.scopes
      rw [hc] at hscopes
      cases hd : d.scopes with
      | nil => rw [hd] at hscopes; cases hscopes
      | cons s' outer =>
        rw [hd] at hscopes
        cases hscopes with
        | cons x y slot element tree _ =>
          exact ⟨r', resolve_of_resolves
            (.innermost hs' (hrest ▸ hp) hd ht (hfirst ▸ hr')), halike⟩
    | root _ hp hr =>
      obtain ⟨r', hr', halike⟩ := exists_walkFrom hr q.text
      have hq : q.rest ≠ [] ∨ d.scopes = [] := by
        rw [← hrest, ← List.length_eq_zero_iff, ← h.scopes.length_eq, List.length_eq_zero_iff]
        exact hp
      rw [h.root_eq, hrest, hfirst] at hr'
      exact ⟨r', resolve_of_resolves (.root hs' hq hr'), halike⟩

end Context.Called

/-! ### Compiling -/

namespace Expr.AlphaEquiv

variable {c d : Context} {limit : Nat}

lemma subject (h : e.AlphaEquiv bound f) : Carries (Path.Matches bound) e.subject f.subject := by
  cases h with
  | name h => exact Carries.ok_iff.mpr ⟨h, rfl⟩
  | path h => exact Carries.ok_iff.mpr h
  | _ => exact Carries.error _

lemma comparison {l r l' r' : Expr} (hl : l.AlphaEquiv bound l') (hr : r.AlphaEquiv bound r')
    (hc : c.Called bound d) (operator : Operator) :
    Carries Eq
      (do
        let resolved ← c.resolve (← l.subject)
        match r with
        | .literal value => resolved.plan operator value
        | r => .error (.invalidValueType r.text))
      (do
        let resolved ← d.resolve (← l'.subject)
        match r' with
        | .literal value => resolved.plan operator value
        | r' => .error (.invalidValueType r'.text)) := by
  refine hl.subject.bind fun p q hpq => (hc.resolve hpq).bind fun r s hrs => ?_
  cases hr with
  | literal l => exact hrs.plan (.refl l) operator
  | _ => exact Carries.error _

/-- Expressions that differ in the names of variables only have the same plan. -/
theorem compile (h : e.AlphaEquiv bound f) (hc : c.Called bound d) :
    Carries Eq (e.compile limit c) (f.compile limit d) := by
  induction h generalizing c d with
  | name => exact Carries.error _
  | path => exact Carries.error _
  | literal => exact Carries.error _
  | binary hl operator hr ihl ihr =>
    cases operator with
    | compare comparison => exact hl.comparison hr hc _
    | contains => exact hl.comparison hr hc _
    | complete => exact ihl hc
    | and =>
      refine (ihl hc).bind fun p _ hp => (ihr hc).bind fun q _ hq => ?_
      exact Carries.pure_iff.mpr (hp ▸ hq ▸ rfl)
    | or =>
      refine (ihl hc).bind fun p _ hp => (ihr hc).bind fun q _ hq => ?_
      exact Carries.pure_iff.mpr (hp ▸ hq ▸ rfl)
  | @lambda _ p q x y body body' hpq quantifier _ ih =>
    refine (hc.resolve hpq).bind fun r s hrs => ?_
    rw [← hrs.kind_eq, ← hrs.accessor_eq, ← hrs.guards_eq]
    cases r.kind.element? with
    | none => exact Carries.error _
    | some element =>
      have htree : d.elementTree limit element = c.elementTree limit element := by
        rw [Context.elementTree, Context.elementTree, hc.root_eq]
      simp only [htree]
      refine (Carries.refl _).bind fun tree _ htree => ?_
      subst htree
      refine (ih (hc.push x y element tree)).bind fun p _ hp => ?_
      exact Carries.pure_iff.mpr (hp ▸ rfl)

end Expr.AlphaEquiv

/-- A filter in which the variable of one quantified condition gets a name that no other name could
be mistaken for has the same plan, or has none either. -/
theorem PropertyTree.compile_eq_ok_iff_of_renamesVariable {e f : Expr} {y : String}
    (h : e.RenamesVariable y f) (hy : y ∉ e.leadingNames) (t : PropertyTree) (limit : Nat)
    (p : Plan) : t.compile limit e = .ok p ↔ t.compile limit f = .ok p := by
  have hequiv : e.AlphaEquiv [] f := h.alphaEquiv hy fun _ _ => rfl
  have hcontext : Context.Called [] ⟨t, []⟩ ⟨t, []⟩ := ⟨rfl, .nil⟩
  exact ⟨(hequiv.compile hcontext).eq_ok, (hequiv.symm.compile hcontext).eq_ok⟩

namespace People

/-- The filter `friends/any(Age: Age/friends/all(x: x/NAME eq 'Ann') and age gte 30) or
boss/age lt 7`. -/
def filterOfAge : Expr :=
  .binary
    (.completed ⟨"friends", []⟩ .any "Age"
      (.binary
        (.completed ⟨"Age", ["friends"]⟩ .all "x"
          (.binary (.path ⟨"x", ["NAME"]⟩) (.compare .eq) (.literal (.string "Ann"))))
        .and
        (.binary (.name "age") (.compare .gte) (.literal (.integer 30)))))
    .or
    (.binary (.path ⟨"boss", ["age"]⟩) (.compare .lt) (.literal (.integer 7)))

/-- The inner condition keeps its own variable, and no property is taken for the renamed one. -/
theorem compile_filterOfAge :
    filter.RenamesVariable "Age" filterOfAge ∧ "Age" ∉ filter.leadingNames ∧
      PropertyTree.compile ⟨schema, schema.root, [], 3⟩ 3 filterOfAge = .ok plan := by
  have hrenames : filter.RenamesVariable "Age" filterOfAge := .left (.left (.here ..) _ _) _ _
  have hfresh : "Age" ∉ filter.leadingNames := by decide
  exact ⟨hrenames, hfresh,
    (PropertyTree.compile_eq_ok_iff_of_renamesVariable hrenames hfresh _ _ _).mp compile_filter⟩

end People

end RecordQuery
