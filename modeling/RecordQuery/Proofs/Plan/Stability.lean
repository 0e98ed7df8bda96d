import RecordQuery.SortOrder
import RecordQuery.Proofs.Plan.Rules
import RecordQuery.Proofs.Syntax.Spelling

/-!
# What plans do not depend on

A filter that compiles still compiles, and to the same plan, in trees that reach deeper and with its
names in another letter case. Names of variables have to be kept, because they are told apart by
their letter case.
-/

namespace RecordQuery

open Outcome

variable {kept : List String} {limit limit' : Nat}

/-! ### Deeper trees -/

/-- A tree is seen from the same place as another one, and reaches at least as deep. -/
structure PropertyTree.Deepens (t u : PropertyTree) : Prop where
  schema_eq : t.schema = u.schema
  type_eq : t.type = u.type
  above_eq : t.above = u.above
  limit_le : t.limit ≤ u.limit

lemma RecordType.field?_eq_of_sameWord (r : RecordType) {s t : String} (h : Text.sameWord s t) :
    r.field? s = r.field? t := by
  rw [field?, field?, Text.lowercase_eq_of_sameWord h]

/-- A tree can be cut deeper. -/
lemma PropertyTree.deepens_build (s : Schema) (type : TypeRef) (hlimit : limit ≤ limit') :
    Carries Deepens (build s type limit) (build s type limit') := by
  intro t ht
  obtain ⟨hzero, rfl⟩ := build_eq_ok_iff.mp ht
  have hzero' : limit' ≠ 0 := fun h => hzero (Nat.le_zero.mp (h ▸ hlimit))
  exact ⟨_, build_eq_ok_iff.mpr ⟨hzero', rfl⟩, rfl, rfl, rfl, hlimit⟩

namespace PropertyTree.Deepens

variable {t u below : PropertyTree}

lemma record_eq (h : t.Deepens u) : t.record = u.record := by
  rw [record, record, h.schema_eq, h.type_eq]

/-- A property is found in a deeper tree too, whatever the letter case of its name. -/
lemma get? (h : t.Deepens u) {name name' : String} (hname : Text.sameWord name name')
    {p : Property} (hp : t.get? name = some p) :
    p.tree = t ∧ u.get? name' = some ⟨u, p.field⟩ := by
  obtain ⟨hfield, htree⟩ := field?_of_get? hp
  rw [get?_eq] at hp
  split_ifs at hp with hcut
  have hcut' : ¬ (name'.isEmpty ∨ u.limit ≤ u.above.length) := by
    rw [← Text.isEmpty_eq_of_sameWord hname, ← h.above_eq]
    exact fun hcut' => hcut (hcut'.imp id h.limit_le.trans)
  refine ⟨htree, ?_⟩
  rw [get?_eq, if_neg hcut', ← h.record_eq, ← RecordType.field?_eq_of_sameWord _ hname, hfield]
  rfl

/-- The tree below a property reaches deeper in a deeper tree. -/
lemma nested? (h : t.Deepens u) {f : Field} (hbelow : Property.nested? ⟨t, f⟩ = some below) :
    ∃ deeper, Property.nested? ⟨u, f⟩ = some deeper ∧ below.Deepens deeper := by
  have htarget : Property.target? ⟨t, f⟩ = Property.target? ⟨u, f⟩ := rfl
  rw [Property.nested?, htarget] at hbelow
  rw [Property.nested?]
  cases hsome : Property.target? ⟨u, f⟩ with
  | none => simp [hsome] at hbelow
  | some target =>
    simp only [hsome, h.type_eq, h.above_eq] at hbelow
    split_ifs at hbelow with hcount
    cases hbelow
    exact ⟨_, if_neg fun hcut => hcount (h.limit_le.trans hcut), h.schema_eq, rfl, rfl, h.limit_le⟩

end PropertyTree.Deepens

/-- Two references mean the same, however they are written. -/
structure Resolved.Alike (r s : Resolved) : Prop where
  accessor_eq : r.accessor = s.accessor
  guards_eq : r.guards = s.guards
  kind_eq : r.kind = s.kind

/-- Walking down a deeper tree along the same names leads to the same field. -/
lemma PropertyTree.Deepens.walkFrom {t u : PropertyTree} (h : t.Deepens u) {slot : Nat}
    {passed : List String} {written written' first first' : String} {rest rest' : List String}
    (hfirst : Text.Alike kept first first') (hrest : List.Forall₂ (Text.Alike kept) rest rest') :
    Carries Resolved.Alike (t.walkFrom slot passed written first rest)
      (u.walkFrom slot passed written' first' rest') := by
  intro r hr
  induction hrest generalizing t u passed first first' r with
  | nil =>
    obtain ⟨p, hp, rfl⟩ := walkFrom_nil_eq_ok_iff.mp hr
    obtain ⟨-, hp'⟩ := h.get? hfirst.same hp
    exact ⟨_, walkFrom_nil_eq_ok_iff.mpr ⟨_, hp', rfl⟩, rfl, rfl, rfl⟩
  | cons hnext _ ih =>
    obtain ⟨p, below, q, hp, hcollection, hbelow, hq, rfl⟩ := walkFrom_cons_eq_ok_iff.mp hr
    obtain ⟨rfl, hp'⟩ := h.get? hfirst.same hp
    obtain ⟨deeper, hdeeper, hdeepens⟩ := h.nested? hbelow
    obtain ⟨q', hq', haccessor, hguards, hkind⟩ := ih hdeepens hnext _ hq
    refine ⟨_, walkFrom_cons_eq_ok_iff.mpr
      ⟨_, deeper, q', hp', hcollection, hdeeper, hq', rfl⟩, haccessor, ?_, hkind⟩
    exact congrArg (List.cons _) hguards

/-! ### Contexts -/

/-- Two variables differ in their trees at most, of which the second one reaches deeper. -/
structure Scope.Deepens (s t : Scope) : Prop where
  parameter_eq : s.parameter = t.parameter
  slot_eq : s.slot = t.slot
  element_eq : s.element = t.element
  tree : Option.Rel PropertyTree.Deepens s.tree t.tree

/-- A context has the same variables as another one, all with kept names, and trees that reach
deeper. -/
structure Context.Deepens (kept : List String) (c d : Context) : Prop where
  root : c.root.Deepens d.root
  scopes : List.Forall₂ Scope.Deepens c.scopes d.scopes
  parameter_mem : ∀ s ∈ c.scopes, s.parameter ∈ kept

/-- Among variables with kept names a name finds the same one in any letter case. -/
lemma Scope.rel_find? {ss ts : List Scope} (h : List.Forall₂ Deepens ss ts)
    (hkept : ∀ s ∈ ss, s.parameter ∈ kept) {x y : String} (hx : Text.Alike kept x y) :
    Option.Rel Deepens (ss.find? (·.parameter == x)) (ts.find? (·.parameter == y)) := by
  induction h with
  | nil => exact .none
  | @cons s t _ _ hst _ ih =>
    obtain ⟨hs, hkept⟩ := List.forall_mem_cons.mp hkept
    have hname : (s.parameter == x) = (t.parameter == y) := by
      rw [← hst.parameter_eq, Bool.eq_iff_iff, beq_iff_eq, beq_iff_eq]
      constructor
      · rintro rfl
        exact hx.eq_of_mem hs
      · rintro rfl
        exact hx.symm.eq_of_mem hs
    rw [List.find?_cons, List.find?_cons, hname]
    cases t.parameter == y with
    | true => exact .some hst
    | false => exact ih hkept

/-- What is related to something is something. -/
lemma exists_of_rel_some {α β : Type} {R : α → β → Prop} {a : α} {found : Option β}
    (h : Option.Rel R (some a) found) : ∃ b, found = some b ∧ R a b := by
  cases h with
  | some hab => exact ⟨_, rfl, hab⟩

lemma eq_none_of_rel_none {α β : Type} {R : α → β → Prop} {found : Option β}
    (h : Option.Rel R none found) : found = none := by
  cases h with
  | none => rfl

namespace Context.Deepens

variable {c d : Context}

lemma scopes_eq_nil_iff (h : c.Deepens kept d) : c.scopes = [] ↔ d.scopes = [] := by
  rw [← List.length_eq_zero_iff, ← List.length_eq_zero_iff, h.scopes.length_eq]

/-- Alike paths mean the same in contexts with the same variables. -/
theorem resolve (h : c.Deepens kept d) {p q : Path} (hpq : p.Alike kept q) :
    Carries Resolved.Alike (c.resolve p) (d.resolve q) := by
  intro r hr
  have hfind : Option.Rel Scope.Deepens (c.scope? p.first) (d.scope? q.first) :=
    Scope.rel_find? h.scopes h.parameter_mem hpq.first
  obtain ⟨hfirst, hrest⟩ := hpq
  cases resolves_of_resolve hr with
  | element hs hp hplain =>
    obtain ⟨s', hs', hdeepens⟩ := exists_of_rel_some (hs ▸ hfind)
    rw [hp, List.forall₂_nil_left_iff] at hrest
    have hr' := Resolves.element (c := d) hs' hrest (hdeepens.element_eq ▸ hplain)
    exact ⟨_, resolve_of_resolves hr', congrArg (Accessor.mk · []) hdeepens.slot_eq,
      rfl, hdeepens.element_eq⟩
  | member hs hp ht hr =>
    obtain ⟨s', hs', hdeepens⟩ := exists_of_rel_some (hs ▸ hfind)
    obtain ⟨t', ht', htree⟩ := exists_of_rel_some (ht ▸ hdeepens.tree)
    rw [hp, List.forall₂_cons_left_iff] at hrest
    obtain ⟨next', rest', hnext, hrest, hq⟩ := hrest
    obtain ⟨r', hr', halike⟩ := htree.walkFrom hnext hrest r hr
    rw [hdeepens.slot_eq] at hr'
    exact ⟨r', resolve_of_resolves (.member hs' hq ht' hr'), halike⟩
  | innermost hs hp hc ht hr =>
    have hscopes := h.scopes
    rw [hc, List.forall₂_cons_left_iff] at hscopes
    obtain ⟨s', outer', hdeepens, -, hd⟩ := hscopes
    obtain ⟨t', ht', htree⟩ := exists_of_rel_some (ht ▸ hdeepens.tree)
    rw [hp, List.forall₂_nil_left_iff] at hrest
    obtain ⟨r', hr', halike⟩ := htree.walkFrom hfirst .nil r hr
    rw [hdeepens.slot_eq] at hr'
    exact ⟨r', resolve_of_resolves
      (.innermost (eq_none_of_rel_none (hs ▸ hfind)) hrest hd ht' hr'), halike⟩
  | root hs hp hr =>
    obtain ⟨r', hr', halike⟩ := h.root.walkFrom hfirst hrest r hr
    have hq : q.rest ≠ [] ∨ d.scopes = [] := by
      rw [← h.scopes_eq_nil_iff, ← List.length_pos_iff_ne_nil, ← hrest.length_eq,
        List.length_pos_iff_ne_nil]
      exact hp
    exact ⟨r', resolve_of_resolves (.root (eq_none_of_rel_none (hs ▸ hfind)) hq hr'), halike⟩

/-- One more variable with a kept name may have a tree that reaches deeper too. -/
lemma push (h : c.Deepens kept d) {parameter : String} (hmem : parameter ∈ kept) (element : Kind)
    {tree tree' : Option PropertyTree} (htree : Option.Rel PropertyTree.Deepens tree tree') :
    (c.push parameter element tree).Deepens kept (d.push parameter element tree') where
  root := h.root
  scopes := .cons ⟨rfl, congrArg (· + 1) h.scopes.length_eq, rfl, htree⟩ h.scopes
  parameter_mem := List.forall_mem_cons.mpr ⟨hmem, h.parameter_mem⟩

/-- Elements have trees of any depth above zero. -/
lemma elementTree (h : c.Deepens kept d) (hlimit : limit ≤ limit') (element : Kind) :
    Carries (Option.Rel PropertyTree.Deepens) (c.elementTree limit element)
      (d.elementTree limit' element) := by
  rw [Context.elementTree, Context.elementTree]
  cases element.record? with
  | none => exact Carries.ok_iff.mpr .none
  | some type =>
    rw [← h.root.schema_eq]
    exact (PropertyTree.deepens_build _ type hlimit).bind fun t u htu =>
      Carries.pure_iff.mpr (.some htu)

end Context.Deepens

/-! ### Comparisons -/

/-- Alike literals have the same value, whatever property they are compared with. -/
lemma Literal.Alike.coerce {l m : Literal} (h : l.Alike m) {target : Scalar} {property : String}
    {v : Value} (hv : l.coerce target property = .ok v) (other : String) :
    m.coerce target other = .ok v := by
  cases h with
  | refl => exact coerce_congr hv other
  | @identifier s t hst =>
    cases target with
    | enum variants =>
      have hfold : Text.foldCase s = Text.foldCase t := Text.foldCase_eq_of_sameWord hst
      have hword : (Text.sameWord · s) = (Text.sameWord · t) := by
        funext variant
        rw [Text.sameWord, Text.sameWord, hfold]
      obtain ⟨x, hx, rfl⟩ := variant_eq_ok_iff.mp hv
      exact variant_eq_ok_iff.mpr ⟨x, hword ▸ hx, rfl⟩
    | _ => simp [Literal.coerce] at hv

namespace Resolved.Alike

variable {r s : Resolved} {l m : Literal} {operator : Operator}

lemma plansTo (h : r.Alike s) (hlm : l.Alike m) {p : Plan} (hp : r.PlansTo operator l p) :
    s.PlansTo operator m p := by
  obtain ⟨accessor, guards, kind, name⟩ := r
  obtain ⟨_, _, _, name'⟩ := s
  obtain ⟨rfl, rfl, rfl⟩ := h
  cases hp with
  | isNull =>
    cases hlm
    exact .isNull
  | notNull =>
    cases hlm
    exact .notNull
  | contains hs =>
    cases hlm
    exact .contains hs
  | day hs =>
    cases hlm
    exact .day hs
  | value hs hl hday hv =>
    have hv' := hlm.coerce hv name'
    cases hlm with
    | refl => exact .value hs hl hday hv'
    | identifier => exact .value hs (by simp) (by simp) hv'

/-- Comparing alike references with alike literals is the same plan. -/
lemma plan (h : r.Alike s) (hlm : l.Alike m) (operator : Operator) :
    Carries Eq (r.plan operator l) (s.plan operator m) := by
  intro p hp
  have hcollection : s.kind.element? = none := h.kind_eq ▸ element?_eq_none_of_plan hp
  exact ⟨p, plan_of_plansTo hcollection (h.plansTo hlm (plansTo_of_plan hp)), rfl⟩

end Resolved.Alike

/-! ### Expressions -/

/-- The variables that an expression introduces. -/
def Expr.parameters : Expr → List String
  | .binary l _ r => l.parameters ++ r.parameters
  | .lambda _ _ parameter body => parameter :: body.parameters
  | _ => []

namespace Expr.Alike

variable {e f l l' r r' : Expr} {c d : Context}

lemma subject (h : e.Alike kept f) : Carries (Path.Alike kept) e.subject f.subject := by
  cases h with
  | name h => exact Carries.ok_iff.mpr ⟨h, .nil⟩
  | path h => exact Carries.ok_iff.mpr h
  | _ => exact Carries.error _

lemma comparison (hl : l.Alike kept l') (hr : r.Alike kept r') (hc : c.Deepens kept d)
    (operator : Operator) :
    Carries Eq
      (do
        let resolved ← c.resolve (← l.subject)
        match r with
        | .literal value => resolved.plan operator value
        | r => .error (.invalidValueType r.text))
      (do
        let resolved ← d.resolve (← l'.subject)
        match r' with
        | .literal value => resolved.plan operator value
        | r' => .error (.invalidValueType r'.text)) := by
  refine hl.subject.bind fun p q hpq => (hc.resolve hpq).bind fun r s hrs => ?_
  cases hr with
  | literal h => exact hrs.plan h operator
  | _ => exact Carries.error _

/-- Alike expressions have the same plan, also where trees reach deeper. -/
theorem compile (h : e.Alike kept f) (hkept : ∀ x ∈ e.parameters, x ∈ kept)
    (hc : c.Deepens kept d) (hlimit : limit ≤ limit') :
    Carries Eq (e.compile limit c) (f.compile limit' d) := by
  induction h generalizing c d with
  | name => exact Carries.error _
  | path => exact Carries.error _
  | literal => exact Carries.error _
  | binary hl operator hr ihl ihr =>
    obtain ⟨hkeptl, hkeptr⟩ := List.forall_mem_append.mp hkept
    cases operator with
    | compare comparison => exact hl.comparison hr hc _
    | contains => exact hl.comparison hr hc _
    | complete => exact ihl hkeptl hc
    | and =>
      refine (ihl hkeptl hc).bind fun p _ hp => (ihr hkeptr hc).bind fun q _ hq => ?_
      exact Carries.pure_iff.mpr (hp ▸ hq ▸ rfl)
    | or =>
      refine (ihl hkeptl hc).bind fun p _ hp => (ihr hkeptr hc).bind fun q _ hq => ?_
      exact Carries.pure_iff.mpr (hp ▸ hq ▸ rfl)
  | @lambda p q x y body body' hpq quantifier hx hbody ih =>
    obtain ⟨hmem, hkept⟩ := List.forall_mem_cons.mp hkept
    obtain rfl := hx.eq_of_mem hmem
    refine (hc.resolve hpq).bind fun r s hrs => ?_
    rw [← hrs.kind_eq, ← hrs.accessor_eq, ← hrs.guards_eq]
    cases r.kind.element? with
    | none => exact Carries.error _
    | some element =>
      refine (hc.elementTree hlimit element).bind fun tree tree' htree => ?_
      refine (ih hkept (hc.push hmem element htree)).bind fun p _ hp => ?_
      exact Carries.pure_iff.mpr (hp ▸ rfl)

end Expr.Alike

/-! ### Deeper trees compile alike -/

/-- A tree that reaches deeper gives the same plans, with elements' trees that do. -/
theorem PropertyTree.Deepens.compile {t u : PropertyTree} (h : t.Deepens u)
    (hlimit : limit ≤ limit') (e : Expr) :
    Carries Eq (t.compile limit e) (u.compile limit' e) :=
  (Expr.Alike.refl e).compile (fun _ hx => hx) ⟨h, .nil, by simp⟩ hlimit

/-- A tree that reaches deeper gives the same sort orders. -/
theorem PropertyTree.Deepens.sortOrder {t u : PropertyTree} (h : t.Deepens u)
    (terms : List SortTerm) :
    Carries Eq (SortOrder.compile t terms) (SortOrder.compile u terms) := by
  have hkey (term : SortTerm) : Carries Eq (SortOrder.key t term) (SortOrder.key u term) := by
    have hpath : term.path.Alike [] term.path := .refl term.path
    refine (h.walkFrom hpath.first hpath.rest).bind fun r s hrs => ?_
    rw [← hrs.kind_eq, ← hrs.accessor_eq]
    split_ifs
    · exact Carries.refl _
    · exact Carries.error _
  refine (Carries.mapM fun term _ => hkey term).bind fun keys _ hkeys => ?_
  exact Carries.pure_iff.mpr (hkeys ▸ rfl)

/-- What compiles compiles the same with a greater limit on the depth of trees. -/
theorem PropertyTree.exists_compile_of_le (s : Schema) (type : TypeRef) (hone : 1 ≤ limit)
    (hlimit : limit ≤ limit') :
    ∃ t u, build s type limit = .ok t ∧ build s type limit' = .ok u ∧
      (∀ e p, t.compile limit e = .ok p → u.compile limit' e = .ok p) ∧
      ∀ terms o, SortOrder.compile t terms = .ok o → SortOrder.compile u terms = .ok o := by
  have ht : build s type limit = .ok ⟨s, type, [], limit⟩ :=
    build_eq_ok_iff.mpr ⟨Nat.one_le_iff_ne_zero.mp hone, rfl⟩
  obtain ⟨u, hu, hdeepens⟩ := deepens_build s type hlimit _ ht
  exact ⟨_, u, ht, hu, fun e _ => (hdeepens.compile hlimit e).eq_ok,
    fun terms _ => (hdeepens.sortOrder terms).eq_ok⟩

/-- The filter has its plan also where trees are cut two levels deeper. -/
theorem People.exists_compile_filter :
    1 ≤ 3 ∧ 3 ≤ 5 ∧
      ∃ u, PropertyTree.build schema schema.root 5 = .ok u ∧ u.compile 5 filter = .ok plan := by
  have hone : 1 ≤ 3 := by decide
  have hlimit : 3 ≤ 5 := by decide
  obtain ⟨t, u, ht, hu, hcompile, -⟩ :=
    PropertyTree.exists_compile_of_le schema schema.root hone hlimit
  cases build_root.symm.trans ht
  exact ⟨hone, hlimit, u, hu, hcompile _ _ compile_filter⟩

end RecordQuery
