import RecordQuery.Plan.Compile
import RecordQuery.Proofs.Outcome
import RecordQuery.Proofs.Schema.Lookup

/-!
# Rules of compilation

How a name is resolved and a plan made, as rules with a premise for every step that has to succeed.
What compilation keeps or establishes is proved by induction on these rules, and nothing else needs
to know how faults are passed on.
-/

namespace RecordQuery

/-! ### Walking down a tree -/

namespace PropertyTree

variable {t below : PropertyTree} {slot : Nat} {passed : List String}
variable {written first next : String} {rest : List String} {r : Resolved} {f : Field}

lemma walkFrom_nil_eq_ok_iff :
    t.walkFrom slot passed written first [] = .ok r ↔
      ∃ p, t.get? first = some p ∧ r = ⟨⟨slot, passed ++ [p.name]⟩, [], p.kind, written⟩ := by
  rw [walkFrom]
  cases t.get? first with
  | none => simp
  | some p => simp [eq_comm]

lemma walkFrom_cons_eq_ok_iff :
    t.walkFrom slot passed written first (next :: rest) = .ok r ↔
      ∃ p below q, t.get? first = some p ∧ p.isCollection = false ∧ p.nested? = some below ∧
        below.walkFrom slot (passed ++ [p.name]) written next rest = .ok q ∧
        r = ⟨q.accessor, ⟨slot, passed ++ [p.name]⟩ :: q.guards, q.kind, q.name⟩ := by
  rw [walkFrom]
  cases t.get? first with
  | none => simp
  | some p =>
    cases hcollection : p.isCollection with
    | true => simp [hcollection]
    | false =>
      cases hnested : p.nested? with
      | none => simp [hcollection, hnested]
      | some below =>
        simp only [hcollection, hnested, Bool.false_eq_true, if_false, Outcome.bind_eq_ok_iff,
          Outcome.pure_eq_ok_iff]
        constructor
        · rintro ⟨q, hq, hr⟩
          exact ⟨p, below, q, rfl, hcollection, hnested, hq, hr⟩
        · rintro ⟨p', below', q, hp', -, hbelow', hq, hr⟩
          cases hp'
          cases hnested.symm.trans hbelow'
          exact ⟨q, hq, hr⟩

/-- A walk ends at the field that the last name calls. -/
lemma walkFrom_of_calls (h : t.record.Calls first f) (hdepth : t.above.length < t.limit) :
    t.walkFrom slot passed written first [] =
      .ok ⟨⟨slot, passed ++ [f.name]⟩, [], f.kind, written⟩ :=
  walkFrom_nil_eq_ok_iff.mpr ⟨⟨t, f⟩, get?_of_calls h hdepth, rfl⟩

/-- A walk leads through the record that a name before the last calls. -/
lemma walkFrom_cons_of_calls (h : t.record.Calls first f) (hdepth : t.above.length < t.limit)
    (hkind : f.kind.element? = none) (hbelow : (⟨t, f⟩ : Property).nested? = some below)
    (hr : below.walkFrom slot (passed ++ [f.name]) written next rest = .ok r) :
    t.walkFrom slot passed written first (next :: rest) =
      .ok ⟨r.accessor, ⟨slot, passed ++ [f.name]⟩ :: r.guards, r.kind, r.name⟩ := by
  have hcollection : (⟨t, f⟩ : Property).isCollection = false := by
    rw [Property.isCollection, Property.element?, Property.kind, hkind, Option.isSome_none]
  exact walkFrom_cons_eq_ok_iff.mpr
    ⟨⟨t, f⟩, below, r, get?_of_calls h hdepth, hcollection, hbelow, hr, rfl⟩

end PropertyTree

/-! ### Resolving a path -/

/-- What a path means in a context, by the four ways in which it can mean something. -/
inductive Context.Resolves (c : Context) : Path → Resolved → Prop
  /-- A variable alone is its element, if that is a plain value. -/
  | element {p : Path} {s : Scope} (hs : c.scope? p.first = some s) (hp : p.rest = [])
      (hplain : s.element.isPrimitive) : Resolves c p ⟨⟨s.slot, []⟩, [], s.element, p.text⟩
  /-- A path from a variable leads on from its element. -/
  | member {p : Path} {s : Scope} {t : PropertyTree} {next : String} {rest : List String}
      {r : Resolved} (hs : c.scope? p.first = some s) (hp : p.rest = next :: rest)
      (ht : s.tree = some t) (hr : t.walkFrom s.slot [] p.text next rest = .ok r) : Resolves c p r
  /-- A name alone is a property of the innermost element. -/
  | innermost {p : Path} {s : Scope} {outer : List Scope} {t : PropertyTree} {r : Resolved}
      (hs : c.scope? p.first = none) (hp : p.rest = []) (hc : c.scopes = s :: outer)
      (ht : s.tree = some t) (hr : t.walkFrom s.slot [] p.text p.first [] = .ok r) :
      Resolves c p r
  /-- Every other path starts at the record. -/
  | root {p : Path} {r : Resolved} (hs : c.scope? p.first = none)
      (hp : p.rest ≠ [] ∨ c.scopes = [])
      (hr : c.root.walkFrom 0 [] p.text p.first p.rest = .ok r) : Resolves c p r

lemma Context.resolves_of_resolve {c : Context} {p : Path} {r : Resolved}
    (h : c.resolve p = .ok r) : c.Resolves p r := by
  rw [resolve] at h
  cases hs : c.scope? p.first with
  | some s =>
    simp only [hs, resolveVariable] at h
    cases hp : p.rest with
    | nil =>
      simp only [hp] at h
      split_ifs at h with hplain
      cases h
      exact .element hs hp hplain
    | cons next rest =>
      simp only [hp] at h
      cases ht : s.tree with
      | none => simp [ht] at h
      | some t =>
        simp only [ht, PropertyTree.walk] at h
        exact .member hs hp ht h
  | none =>
    simp only [hs] at h
    cases hp : p.rest with
    | nil =>
      cases hc : c.scopes with
      | nil =>
        simp only [hp, hc, PropertyTree.walk] at h
        exact .root hs (.inr hc) (hp ▸ h)
      | cons s outer =>
        simp only [hp, hc] at h
        cases ht : s.tree with
        | none => simp [ht] at h
        | some t =>
          simp only [ht, PropertyTree.walk, hp] at h
          exact .innermost hs hp hc ht h
    | cons next rest =>
      simp only [hp, PropertyTree.walk] at h
      exact .root hs (.inl (by simp [hp])) (hp ▸ h)

lemma Context.resolve_of_resolves {c : Context} {p : Path} {r : Resolved} (h : c.Resolves p r) :
    c.resolve p = .ok r := by
  cases h with
  | element hs hp hplain => simp [resolve, hs, resolveVariable, hp, hplain]
  | member hs hp ht hr => simpa [resolve, hs, resolveVariable, hp, ht, PropertyTree.walk] using hr
  | innermost hs hp hc ht hr => simpa [resolve, hs, hp, hc, ht, PropertyTree.walk] using hr
  | root hs hp hr =>
    rw [resolve, hs]
    cases hrest : p.rest with
    | nil =>
      have hscopes := hp.resolve_left (not_not.mpr hrest)
      simpa [hrest, hscopes, PropertyTree.walk] using hr
    | cons next rest => simpa [hrest, PropertyTree.walk] using hr

namespace Context

variable {c : Context} {t : PropertyTree} {scope : Scope} {name : String} {f : Field}

/-- A name alone is a field of the record if there is no condition around it. -/
lemma resolves_name (h : t.record.Calls name f) (hdepth : t.above.length < t.limit) :
    Resolves ⟨t, []⟩ (.single name) ⟨⟨0, [f.name]⟩, [], f.kind, name⟩ :=
  .root rfl (.inr rfl) (PropertyTree.walkFrom_of_calls h hdepth)

/-- Within a condition a name alone is a field of the element. -/
lemma resolves_innermost {outer : List Scope} (h : t.record.Calls name f)
    (hdepth : t.above.length < t.limit) (hname : c.scope? name = none)
    (hscope : c.scopes = scope :: outer) (ht : scope.tree = some t) :
    c.Resolves (.single name) ⟨⟨scope.slot, [f.name]⟩, [], f.kind, name⟩ :=
  .innermost hname rfl hscope ht (PropertyTree.walkFrom_of_calls h hdepth)

/-- A name behind a variable is a field of what the variable stands for. -/
lemma resolves_member (parameter : String) (h : t.record.Calls name f)
    (hdepth : t.above.length < t.limit) (hscope : c.scope? parameter = some scope)
    (ht : scope.tree = some t) :
    c.Resolves ⟨parameter, [name]⟩
      ⟨⟨scope.slot, [f.name]⟩, [], f.kind, Path.text ⟨parameter, [name]⟩⟩ :=
  .member hscope rfl ht (PropertyTree.walkFrom_of_calls h hdepth)

end Context

/-! ### Comparing with a literal -/

/-- The plan that compares a field with a literal, by the five things that this can mean. -/
inductive Resolved.PlansTo (r : Resolved) : Operator → Literal → Plan → Prop
  | isNull : PlansTo r (.compare .eq) .null (.guarded (.isNull r.accessor) r.guards)
  | notNull : PlansTo r (.compare .ne) .null (.guarded (.notNull r.accessor) r.guards)
  | contains {needle : String} (hs : r.kind.scalar? = some .string) :
      PlansTo r .contains (.string needle) (.guarded
        (.and (.notNull r.accessor) (.contains r.accessor (Text.lowercase needle))) r.guards)
  /-- An instant and a date are compared by the day. -/
  | day {c : Comparison} {d : Date} (hs : r.kind.scalar? = some .instant) :
      PlansTo r (.compare c) (.date d) (r.compareDay c d)
  /-- All else is compared as values of the field's scalar. -/
  | value {c : Comparison} {l : Literal} {s : Scalar} {v : Value}
      (hs : r.kind.scalar? = some s) (hl : l ≠ .null) (hday : ∀ d, l = .date d → s ≠ .instant)
      (hv : l.coerce s r.name = .ok v) : PlansTo r (.compare c) l (r.compareValue c v)

lemma Literal.variant_eq_ok_iff {property word : String} {variants : List String} {v : Value} :
    coerce.variant property variants word = .ok v ↔
      ∃ x, (variants.find? fun x => Text.sameWord x word) = some x ∧ v = .enum x := by
  rw [coerce.variant]
  cases variants.find? fun x => Text.sameWord x word with
  | none => simp
  | some x => simp [eq_comm]

/-- What value a literal has does not depend on the property it is compared with. -/
lemma Literal.coerce_congr {l : Literal} {s : Scalar} {property : String} {v : Value}
    (h : l.coerce s property = .ok v) (other : String) : l.coerce s other = .ok v := by
  have hvariant {variants : List String} {word : String}
      (hword : coerce.variant property variants word = .ok v) :
      coerce.variant other variants word = .ok v :=
    variant_eq_ok_iff.mpr (variant_eq_ok_iff.mp hword)
  unfold coerce at h ⊢
  split at h
  case h_10 => exact hvariant h
  case h_11 => exact hvariant h
  case h_16 => cases h
  all_goals exact h

/-- A literal other than a date beside an instant is compared as a value. -/
lemma Resolved.compare_eq_coerce {r : Resolved} {s : Scalar} {c : Comparison} {l : Literal}
    (h : ∀ d, l = .date d → s ≠ .instant) :
    r.compare s c l = (l.coerce s r.name).map (r.compareValue c) := by
  unfold compare
  split
  · exact absurd rfl (h _ rfl)
  · cases l.coerce s r.name <;> rfl

lemma Resolved.plansTo_of_plan {r : Resolved} {operator : Operator} {l : Literal} {p : Plan}
    (h : r.plan operator l = .ok p) : r.PlansTo operator l p := by
  rw [plan] at h
  split_ifs at h with hcollection hnull
  · subst hnull
    unfold compareNull at h
    split at h <;> cases h
    · exact .isNull
    · exact .notNull
  · cases hs : r.kind.scalar? with
    | none => simp [hs] at h
    | some s =>
      simp only [hs] at h
      cases operator with
      | contains =>
        cases l with
        | string needle =>
          simp only [search] at h
          split_ifs at h with hstring
          cases h
          exact .contains (hstring ▸ hs)
        | _ => simp [search] at h
      | compare c =>
        by_cases hday : ∃ d, l = .date d ∧ s = .instant
        · obtain ⟨d, rfl, rfl⟩ := hday
          cases h
          exact .day hs
        · have hday' : ∀ d, l = .date d → s ≠ .instant := fun d hd hi => hday ⟨d, hd, hi⟩
          simp only [compare_eq_coerce hday'] at h
          cases hv : l.coerce s r.name with
          | error e => simp [hv, Except.map] at h
          | ok v =>
            simp only [hv, Except.map] at h
            cases h
            exact .value hs hnull hday' hv
      | _ => simp at h

lemma Resolved.element?_eq_none_of_plan {r : Resolved} {operator : Operator} {l : Literal}
    {p : Plan} (h : r.plan operator l = .ok p) : r.kind.element? = none := by
  cases hk : r.kind.element? with
  | none => rfl
  | some element => simp [plan, hk] at h

/-- A literal is compared with a field as the rules say, unless the field is a collection. -/
lemma Resolved.plan_of_plansTo {r : Resolved} {operator : Operator} {l : Literal} {p : Plan}
    (hcollection : r.kind.element? = none) (h : r.PlansTo operator l p) :
    r.plan operator l = .ok p := by
  cases h with
  | isNull => simp [plan, hcollection, compareNull]
  | notNull => simp [plan, hcollection, compareNull]
  | contains hs => simp [plan, hcollection, hs, search]
  | day hs => simp [plan, hcollection, hs, compare]
  | value hs hl hday hv =>
    simp [plan, hcollection, hs, hl, compare_eq_coerce hday, hv, Except.map]

/-! ### Compiling an expression -/

/-- The tree of a collection's elements is that of the record type they have. -/
lemma Context.elementTree_eq_some {c : Context} {limit : Nat} {kind : Kind}
    {tree : Option PropertyTree} (h : c.elementTree limit kind = .ok tree) {t : PropertyTree}
    (ht : tree = some t) : t.schema = c.root.schema ∧ kind.record? = some t.type := by
  subst ht
  rw [elementTree] at h
  cases htype : kind.record? with
  | none => simp [htype] at h
  | some type =>
    simp only [htype, Outcome.bind_eq_ok_iff, Outcome.pure_eq_ok_iff] at h
    obtain ⟨u, hu, heq⟩ := h
    obtain ⟨-, rfl⟩ := PropertyTree.build_eq_ok_iff.mp hu
    cases heq
    exact ⟨rfl, rfl⟩

/-- What a slot is bound to stays when one more slot is bound. -/
lemma getElem?_push {α : Type} {slots : List α} {i : Nat} {x : α} (h : slots[i]? = some x) (y : α) :
    (slots ++ [y])[i]? = some x := by
  rw [List.getElem?_append_left (List.getElem?_eq_some_iff.mp h).1]
  exact h

/-- The plan of an expression in a context. -/
inductive Expr.CompilesTo (limit : Nat) : Context → Expr → Plan → Prop
  | and {c : Context} {l r : Expr} {p q : Plan} (hl : CompilesTo limit c l p)
      (hr : CompilesTo limit c r q) : CompilesTo limit c (.binary l .and r) (.and p q)
  | or {c : Context} {l r : Expr} {p q : Plan} (hl : CompilesTo limit c l p)
      (hr : CompilesTo limit c r q) : CompilesTo limit c (.binary l .or r) (.or p q)
  | complete {c : Context} {l r : Expr} {p : Plan} (hl : CompilesTo limit c l p) :
      CompilesTo limit c (.binary l .complete r) p
  | comparison {c : Context} {l : Expr} {operator : Operator} {value : Literal} {path : Path}
      {resolved : Resolved} {p : Plan} (hl : l.subject = .ok path)
      (hresolve : c.Resolves path resolved) (hp : resolved.PlansTo operator value p) :
      CompilesTo limit c (.binary l operator (.literal value)) p
  | lambda {c : Context} {collection : Path} {quantifier : Quantifier} {parameter : String}
      {body : Expr} {resolved : Resolved} {element : Kind} {tree : Option PropertyTree} {p : Plan}
      (hresolve : c.Resolves collection resolved)
      (helement : resolved.kind.element? = some element)
      (htree : c.elementTree limit element = .ok tree)
      (hbody : CompilesTo limit (c.push parameter element tree) body p) :
      CompilesTo limit c (.lambda collection quantifier parameter body)
        ((Plan.quantified quantifier resolved.accessor p).guarded resolved.guards)

/-- A comparison is compiled by its own rule, whatever its operator. -/
lemma Expr.compile_comparison {limit : Nat} {c : Context} {l : Expr} {o : Operator}
    {value : Literal} (ho : o ∈ Operator.comparisons) :
    (binary l o (.literal value)).compile limit c = (do
      let resolved ← c.resolve (← l.subject)
      resolved.plan o value) := by
  cases o with
  | compare comparison => rfl
  | contains => rfl
  | _ => exact absurd ho (by decide)

/-- The premises of a comparison that compiles. -/
lemma Expr.compilesTo_comparison {limit : Nat} {c : Context} {l r : Expr} {operator : Operator}
    {p : Plan}
    (h : (do
      let resolved ← c.resolve (← l.subject)
      match r with
      | .literal value => resolved.plan operator value
      | r => .error (.invalidValueType r.text)) = .ok p) :
    CompilesTo limit c (.binary l operator r) p := by
  obtain ⟨path, hpath, h⟩ := Outcome.bind_eq_ok_iff.mp h
  obtain ⟨resolved, hresolved, h⟩ := Outcome.bind_eq_ok_iff.mp h
  cases r with
  | literal value =>
    exact .comparison hpath (Context.resolves_of_resolve hresolved) (Resolved.plansTo_of_plan h)
  | _ => simp at h

/-- Compilation follows the rules. -/
theorem Expr.compilesTo_of_compile {limit : Nat} {c : Context} {e : Expr} {p : Plan}
    (h : e.compile limit c = .ok p) : CompilesTo limit c e p := by
  induction e generalizing c p with
  | name s => simp [compile] at h
  | path s => simp [compile] at h
  | literal l => simp [compile] at h
  | binary l operator r ihl ihr =>
    cases operator with
    | compare comparison => exact compilesTo_comparison h
    | contains => exact compilesTo_comparison h
    | complete => exact .complete (ihl h)
    | and =>
      obtain ⟨pl, hl, h⟩ := Outcome.bind_eq_ok_iff.mp h
      obtain ⟨pr, hr, h⟩ := Outcome.bind_eq_ok_iff.mp h
      rw [Outcome.pure_eq_ok_iff.mp h]
      exact .and (ihl hl) (ihr hr)
    | or =>
      obtain ⟨pl, hl, h⟩ := Outcome.bind_eq_ok_iff.mp h
      obtain ⟨pr, hr, h⟩ := Outcome.bind_eq_ok_iff.mp h
      rw [Outcome.pure_eq_ok_iff.mp h]
      exact .or (ihl hl) (ihr hr)
  | lambda collection quantifier parameter body ih =>
    obtain ⟨resolved, hresolved, h⟩ := Outcome.bind_eq_ok_iff.mp h
    cases helement : resolved.kind.element? with
    | none => simp [helement] at h
    | some element =>
      simp only [helement] at h
      obtain ⟨tree, htree, h⟩ := Outcome.bind_eq_ok_iff.mp h
      obtain ⟨inner, hinner, h⟩ := Outcome.bind_eq_ok_iff.mp h
      rw [Outcome.pure_eq_ok_iff.mp h]
      exact .lambda (Context.resolves_of_resolve hresolved) helement htree (ih hinner)

/-! ### Compiling by the rules -/

namespace Expr

variable {limit : Nat} {c : Context} {l e : Expr} {p q : Plan}

/-- A comparison that is not one of a collection has the plan that the rules give it. -/
lemma compile_of_plansTo {o : Operator} {value : Literal} {path : Path} {r : Resolved}
    (hl : l.subject = .ok path) (hr : c.Resolves path r) (hkind : r.kind.element? = none)
    (hp : r.PlansTo o value p) : (binary l o (.literal value)).compile limit c = .ok p := by
  have ho : o ∈ Operator.comparisons := by
    cases hp with
    | @day k => cases k <;> decide
    | @value k => cases k <;> decide
    | _ => decide
  rw [compile_comparison ho]
  refine Outcome.bind_eq_ok_iff.mpr ⟨path, hl, ?_⟩
  refine Outcome.bind_eq_ok_iff.mpr ⟨r, Context.resolve_of_resolves hr, ?_⟩
  exact Resolved.plan_of_plansTo hkind hp

lemma compile_junction (hl : l.compile limit c = .ok p) (he : e.compile limit c = .ok q) :
    (binary l .and e).compile limit c = .ok (.and p q) ∧
      (binary l .or e).compile limit c = .ok (.or p q) := by
  simp [compile, hl, he, bind, Except.bind, pure, Except.pure]

lemma compile_lambda {collection : Path} (quantifier : Quantifier) {parameter : String}
    {r : Resolved} {element : Kind} {tree : Option PropertyTree}
    (hr : c.Resolves collection r) (helement : r.kind.element? = some element)
    (htree : c.elementTree limit element = .ok tree)
    (he : e.compile limit (c.push parameter element tree) = .ok p) :
    (lambda collection quantifier parameter e).compile limit c =
      .ok ((Plan.quantified quantifier r.accessor p).guarded r.guards) := by
  rw [compile, Context.resolve_of_resolves hr]
  simp [helement, htree, he, bind, Except.bind, pure, Except.pure]

end Expr

/-! ### An example -/

namespace People

/-- The filter `friends/any(x: x/friends/all(x: x/NAME eq 'Ann') and age gte 30) or
boss/age lt 7`. -/
def filter : Expr :=
  .binary
    (.completed ⟨"friends", []⟩ .any "x"
      (.binary
        (.completed ⟨"x", ["friends"]⟩ .all "x"
          (.binary (.path ⟨"x", ["NAME"]⟩) (.compare .eq) (.literal (.string "Ann"))))
        .and
        (.binary (.name "age") (.compare .gte) (.literal (.integer 30)))))
    .or
    (.binary (.path ⟨"boss", ["age"]⟩) (.compare .lt) (.literal (.integer 7)))

/-- The plan of the filter. -/
def plan : Plan :=
  .or
    (.any ⟨0, ["Friends"]⟩
      (.and
        (.all ⟨1, ["Friends"]⟩ (.compare ⟨2, ["Name"]⟩ .eq (.string "Ann")))
        (.and (.notNull ⟨1, ["Age"]⟩) (.compare ⟨1, ["Age"]⟩ .gte (.integer .i32 30)))))
    (.and (.notNull ⟨0, ["Boss"]⟩)
      (.and (.notNull ⟨0, ["Boss", "Age"]⟩)
        (.compare ⟨0, ["Boss", "Age"]⟩ .lt (.integer .i32 7))))

lemma build_root : PropertyTree.build schema schema.root 3 = .ok ⟨schema, schema.root, [], 3⟩ := rfl

/-- A variable for the people of a collection. -/
def scope (parameter : String) (slot : Nat) : Scope :=
  ⟨parameter, slot, .optional (.record schema.root), some people⟩

/-- An age is compared with a number where it is known. -/
lemma compile_compareAge {c : Context} (left : Expr) {path : Path} {a : Accessor}
    {guards : List Accessor} {written : String} {n : Int64} (hl : left.subject = .ok path)
    (hr : c.Resolves path ⟨a, guards, ageField.kind, written⟩) (k : Comparison)
    (hn : IntegerKind.i32.has n.toInt) :
    (Expr.binary left (.compare k) (.literal (.integer n))).compile 3 c =
      .ok (Plan.guarded (.and (.notNull a) (.compare a k (.integer .i32 n.toInt))) guards) :=
  Expr.compile_of_plansTo hl hr rfl (.value rfl (by simp) (by simp) (if_pos hn))

lemma compile_filter : PropertyTree.compile ⟨schema, schema.root, [], 3⟩ 3 filter = .ok plan := by
  have hname : people.record.Calls "NAME" nameField := calls (by decide) (by decide +kernel)
  have hage : people.record.Calls "age" ageField := calls (by decide) (by decide +kernel)
  have hboss : people.record.Calls "boss" bossField := calls (by decide) (by decide +kernel)
  have hfriends : people.record.Calls "friends" friendsField :=
    calls (by decide) (by decide +kernel)
  have hdepth : people.above.length < people.limit := by decide
  -- from the innermost condition outwards, each part in the scopes around it
  have hann : (Expr.binary (.path ⟨"x", ["NAME"]⟩) (.compare .eq)
      (.literal (.string "Ann"))).compile 3 ⟨people, [scope "x" 2, scope "x" 1]⟩ =
        .ok (.compare ⟨2, ["Name"]⟩ .eq (.string "Ann")) :=
    Expr.compile_of_plansTo rfl (Context.resolves_member "x" hname hdepth rfl rfl) rfl
      (.value rfl (by simp) (by simp) rfl)
  have hall := Expr.compile_lambda .all (c := ⟨people, [scope "x" 1]⟩)
    (Context.resolves_member "x" hfriends hdepth rfl rfl) rfl rfl hann
  have hthirty := compile_compareAge (c := ⟨people, [scope "x" 1]⟩) (n := 30) (.name "age") rfl
    (Context.resolves_innermost hage hdepth rfl rfl rfl) .gte (by decide)
  have hany := Expr.compile_lambda .any (Context.resolves_name hfriends hdepth) rfl rfl
    (Expr.compile_junction hall hthirty).1
  have hboss : people.walkFrom 0 [] "boss/age" "boss" ["age"] =
      .ok ⟨⟨0, ["Boss", "Age"]⟩, [⟨0, ["Boss"]⟩], ageField.kind, "boss/age"⟩ :=
    PropertyTree.walkFrom_cons_of_calls hboss hdepth rfl rfl
      (PropertyTree.walkFrom_of_calls hage (by decide))
  have hseven := compile_compareAge (c := ⟨people, []⟩) (n := 7) (.path ⟨"boss", ["age"]⟩) rfl
    (.root rfl (.inr rfl) hboss) .lt (by decide)
  exact (Expr.compile_junction hany hseven).2

end People

end RecordQuery
