import RecordQuery.Proofs.Plan.Meaning
import RecordQuery.Proofs.Plan.Rules
import RecordQuery.Proofs.Schema.Conformance
import Mathlib.Data.List.Forall2

/-!
# Plans mean what their filters mean

A plan holds of a record exactly if its filter is true of it. Compilation turns names into slots and
keeps a stack of scopes; the meaning of the filter keeps a stack of elements. The invariant of the
induction is that both stacks tell the same, scope by scope.
-/

namespace RecordQuery

/-! ### What plans read -/

/-- Guards hold if nothing that they look at is missing. -/
lemma Plan.holds_guarded (plan : Plan) (guards : List Accessor) (b : List Value) :
    (plan.guarded guards).holds b = (guards.all (fun a => !(a.read b).isNull) && plan.holds b) := by
  induction guards with
  | nil => rfl
  | cons a guards ih =>
    have hcons : plan.guarded (a :: guards) = .and (.notNull a) (plan.guarded guards) := rfl
    rw [hcons, holds, holds, ih, List.all_cons, Bool.and_assoc]

lemma Plan.holds_quantified (q : Quantifier) (a : Accessor) (body : Plan) (b : List Value) :
    (quantified q a body).holds b =
      q.holds (a.read b).items fun element => body.holds (b ++ [element]) := by
  cases q with
  | any => cases h : a.read b <;> simp [quantified, holds, h, Quantifier.holds, Value.items]
  | all => cases h : a.read b <;> simp [quantified, holds, h, Quantifier.holds, Value.items]

/-- What a resolved path finds in some bindings. -/
def Resolved.reading (r : Resolved) (b : List Value) : Reading :=
  ⟨r.kind, r.accessor.read b, r.guards.map (·.read b)⟩

/-- Walking down a tree finds what following the names through declared fields finds. -/
lemma PropertyTree.follow_of_walkFrom {t : PropertyTree} {slot : Nat} {passed : List String}
    {written first : String} {rest : List String} {r : Resolved}
    (h : t.walkFrom slot passed written first rest = .ok r) (b : List Value) :
    t.schema.follow t.type (Accessor.read ⟨slot, passed⟩ b) first rest = some (r.reading b) := by
  induction rest generalizing t passed first r with
  | nil =>
    obtain ⟨p, hp, rfl⟩ := walkFrom_nil_eq_ok_iff.mp h
    obtain ⟨hf, -⟩ := field?_of_get? hp
    have hf' : (t.schema.describe t.type).field? first = some p.field := hf
    simp [Schema.follow, hf', Resolved.reading, Accessor.read_push, Property.kind, Property.name]
  | cons next rest ih =>
    obtain ⟨p, below, q, hp, hcollection, hbelow, hq, rfl⟩ := walkFrom_cons_eq_ok_iff.mp h
    obtain ⟨hf, rfl⟩ := field?_of_get? hp
    have hf' : (p.tree.schema.describe p.tree.type).field? first = some p.field := hf
    obtain ⟨hrecord, hschema⟩ := Property.nested?_of_not_isCollection hcollection hbelow
    have hrest := ih hq
    rw [hschema, Accessor.read_push] at hrest
    have hrecord' : p.field.kind.record? = some below.type := hrecord
    simp only [Property.name] at hrest
    simp [Schema.follow, hf', hrecord', hrest, Resolved.reading, Accessor.read_push, Property.name]

/-! ### What references find fits -/

namespace Schema

variable {s : Schema} {k : Kind} {t : TypeRef} {v : Value} {first : String} {rest : List String}
variable {r : Reading}

lemma fits_follow (h : s.follow t v first rest = some r) (hk : k.record? = some t)
    (hv : Value.Fits s k v) : Value.Fits s r.kind r.value := by
  induction rest generalizing k t v first r with
  | nil =>
    obtain ⟨f, hf, hr⟩ := Option.bind_eq_some_iff.mp h
    cases hr
    exact hv.get hk (RecordType.mem_of_field? hf)
  | cons next rest ih =>
    obtain ⟨f, hf, h⟩ := Option.bind_eq_some_iff.mp h
    obtain ⟨u, hu, h⟩ := Option.bind_eq_some_iff.mp h
    obtain ⟨q, hq, hr⟩ := Option.bind_eq_some_iff.mp h
    have hq' : Value.Fits s q.kind q.value :=
      ih hq hu (hv.get hk (RecordType.mem_of_field? hf))
    cases hr
    exact hq'

end Schema

/-- The elements of what fits the kind of a collection fit the kind of its elements. -/
lemma Value.Fits.of_mem_items {s : Schema} {k e : Kind} {v : Value} (h : Fits s k v)
    (hk : k.element? = some e) : ∀ x ∈ v.items, Fits s e x := by
  cases v with
  | list items => exact h.of_mem hk
  | _ => simp [items]

/-- Record and elements of an environment fit their kinds. -/
structure Environment.Fits (env : Environment) : Prop where
  record : env.schema.Conforms env.record
  bound : ∀ x ∈ env.bound, Value.Fits env.schema x.kind x.element

lemma Environment.Fits.follow {env : Environment} (h : env.Fits) {x : Binding}
    (hx : x ∈ env.bound) {first : String} {rest : List String} {r : Reading}
    (hr : env.follow x first rest = some r) : Value.Fits env.schema r.kind r.value := by
  obtain ⟨t, ht, hr⟩ := Option.bind_eq_some_iff.mp hr
  exact Schema.fits_follow hr ht (h.bound x hx)

lemma Environment.Fits.read {env : Environment} (h : env.Fits) {p : Path} {r : Reading}
    (hr : env.read p = some r) : Value.Fits env.schema r.kind r.value := by
  rw [Environment.read] at hr
  split at hr
  · rename_i x hx
    have hmem := List.mem_of_find?_eq_some hx
    split at hr
    · cases hr
      exact h.bound x hmem
    · exact h.follow hmem hr
  · split at hr
    · rename_i x outer hrest hbound
      exact h.follow (hbound ▸ List.mem_cons_self) hr
    · exact Schema.fits_follow hr rfl h.record

/-! ### Scopes and elements -/

/-- A scope tells the same as an element: name, kind, place and, if it has a tree, record type. -/
structure Scope.Agrees (s : Schema) (b : List Value) (scope : Scope) (x : Binding) : Prop where
  parameter : scope.parameter = x.parameter
  kind : scope.element = x.kind
  slot : b[scope.slot]? = some x.element
  tree : ∀ t, scope.tree = some t → t.schema = s ∧ x.kind.record? = some t.type

/-- A context and bindings tell the same as an environment. -/
structure Context.Agrees (c : Context) (env : Environment) (b : List Value) : Prop where
  schema : c.root.schema = env.schema
  root : c.root.type = env.schema.root
  length : b.length = c.scopes.length + 1
  record : b[0]? = some (.record env.record)
  scopes : List.Forall₂ (Scope.Agrees env.schema b) c.scopes env.bound

/-- Of a name the innermost scope and the innermost element tell the same. -/
lemma Context.Agrees.find? {s : Schema} {b : List Value} {scopes : List Scope}
    {bound : List Binding} (h : List.Forall₂ (Scope.Agrees s b) scopes bound) (name : String) :
    Option.Rel (Scope.Agrees s b) (scopes.find? (·.parameter == name))
      (bound.find? (·.parameter == name)) := by
  induction h with
  | nil => exact .none
  | cons h _ ih =>
    rw [List.find?_cons, List.find?_cons, h.parameter]
    split
    · exact .some h
    · exact ih

lemma Context.Agrees.exists_of_scope? {c : Context} {env : Environment} {b : List Value}
    (h : c.Agrees env b) {name : String} {s : Scope} (hs : c.scope? name = some s) :
    ∃ x, env.bound.find? (·.parameter == name) = some x ∧ s.Agrees env.schema b x := by
  have hfind := Agrees.find? h.scopes name
  rw [show c.scopes.find? (·.parameter == name) = some s from hs] at hfind
  generalize env.bound.find? (·.parameter == name) = found at hfind
  cases hfind with
  | some hx => exact ⟨_, rfl, hx⟩

lemma Context.Agrees.find?_eq_none {c : Context} {env : Environment} {b : List Value}
    (h : c.Agrees env b) {name : String} (hs : c.scope? name = none) :
    env.bound.find? (·.parameter == name) = none := by
  have hfind := Agrees.find? h.scopes name
  rw [show c.scopes.find? (·.parameter == name) = none from hs] at hfind
  generalize env.bound.find? (·.parameter == name) = found at hfind
  cases hfind with
  | none => rfl

/-- What is found from a scope on by its tree is found from its element by name. -/
lemma Scope.Agrees.follow {env : Environment} {b : List Value} {scope : Scope} {x : Binding}
    (h : scope.Agrees env.schema b x) {t : PropertyTree} (ht : scope.tree = some t)
    {written first : String} {rest : List String} {r : Resolved}
    (hr : t.walkFrom scope.slot [] written first rest = .ok r) :
    env.follow x first rest = some (r.reading b) := by
  obtain ⟨hschema, hrecord⟩ := h.tree t ht
  have hread := PropertyTree.follow_of_walkFrom hr b
  have hstart : Accessor.read ⟨scope.slot, []⟩ b = x.element := by simp [Accessor.read, h.slot]
  rw [hstart, hschema] at hread
  simp [Environment.follow, hrecord, hread]

/-- A path means in a context what it finds in the environment. -/
theorem Context.Agrees.read_of_resolves {c : Context} {env : Environment} {b : List Value}
    (h : c.Agrees env b) {p : Path} {r : Resolved} (hr : c.Resolves p r) :
    env.read p = some (r.reading b) := by
  have hscopes := h.scopes
  rw [Environment.read]
  cases hr with
  | element hs hp hplain =>
    obtain ⟨x, hfind, hx⟩ := h.exists_of_scope? hs
    simp [hfind, hp, Resolved.reading, Accessor.read, hx.kind, hx.slot]
  | member hs hp ht hr =>
    obtain ⟨x, hfind, hx⟩ := h.exists_of_scope? hs
    simpa [hfind, hp] using hx.follow ht hr
  | innermost hs hp hc ht hr =>
    rw [h.find?_eq_none hs]
    rw [hc] at hscopes
    cases hbound : env.bound with
    | nil => rw [hbound] at hscopes; cases hscopes
    | cons x outer =>
      rw [hbound] at hscopes
      cases hscopes with
      | cons hx _ => simpa [hp] using hx.follow ht hr
  | root hs hp hr =>
    rw [h.find?_eq_none hs]
    have hread := PropertyTree.follow_of_walkFrom hr b
    have hstart : Accessor.read ⟨0, []⟩ b = .record env.record := by
      simp [Accessor.read, h.record]
    rw [hstart, h.schema, h.root] at hread
    rcases hp with hp | hp
    · cases hrest : p.rest with
      | nil => exact absurd hrest hp
      | cons next rest => simpa [hrest] using hread
    · rw [hp] at hscopes
      cases hbound : env.bound with
      | cons x outer => rw [hbound] at hscopes; cases hscopes
      | nil => simpa [hbound] using hread

/-- Binding an element keeps a context and an environment in agreement. -/
lemma Context.Agrees.push {c : Context} {env : Environment} {b : List Value} (h : c.Agrees env b)
    {limit : Nat} {kind : Kind} {tree : Option PropertyTree}
    (htree : c.elementTree limit kind = .ok tree) (parameter : String) (element : Value) :
    (c.push parameter kind tree).Agrees (env.bind parameter kind element) (b ++ [element]) where
  schema := h.schema
  root := h.root
  length := by simp [Context.push, h.length]
  record := getElem?_push h.record element
  scopes := by
    refine .cons ⟨rfl, rfl, ?_, ?_⟩ (h.scopes.imp ?_)
    · simp [← h.length]
    · intro t ht
      obtain ⟨hschema, htype⟩ := elementTree_eq_some htree ht
      exact ⟨hschema.trans h.schema, htype⟩
    · intro s x hx
      exact ⟨hx.parameter, hx.kind, getElem?_push hx.slot element, hx.tree⟩

lemma Environment.Fits.bind {env : Environment} (h : env.Fits) {kind : Kind} {element : Value}
    (helement : Value.Fits env.schema kind element) (parameter : String) :
    (env.bind parameter kind element).Fits where
  record := h.record
  bound := by
    rintro x hx
    rcases List.mem_cons.mp hx with rfl | hx
    · exact helement
    · exact h.bound x hx

/-! ### Comparisons -/

lemma Literal.value?_of_coerce {l : Literal} {s : Scalar} {property : String} {v : Value}
    (h : l.coerce s property = .ok v) : l.value? s = some v := by
  rw [value?, coerce_congr h]
  rfl

lemma Plan.holdsFor_eq_any (c : Comparison) (o : Option Ordering) :
    holdsFor c o = o.any c.holds := by
  cases o <;> rfl

namespace Reading

variable {r : Reading}

/-- What is missing has no order. -/
lemma order?_of_null (h : r.value = .null) (l : Literal) : r.order? l = none := by
  simp only [order?, h]
  cases r.kind.scalar? with
  | none => rfl
  | some s =>
    cases hl : l.value? s with
    | none => simp [hl]
    | some w => simp [Value.compare?]

/-- Apart from null, and from dates beside instants, comparing is a matter of order alone. -/
lemma satisfies_compare {c : Comparison} {l : Literal} (hl : l ≠ .null)
    (hday : ∀ d, l = .date d → r.isMissingInstant = false) :
    r.satisfies (.compare c) l = (r.order? l).any c.holds := by
  unfold satisfies
  split <;> simp_all

/-- Only for the comparison "not equal" it matters that an instant may be missing. -/
lemma satisfies_date {c : Comparison} {d : Date} :
    r.satisfies (.compare c) (.date d) =
      (decide (c = .ne) && r.isMissingInstant || (r.order? (.date d)).any c.holds) := by
  cases c <;> simp [satisfies]

end Reading

namespace Resolved

variable {r : Resolved} {b : List Value}

lemma isReached_reading :
    (r.reading b).isReached = r.guards.all fun a => !(a.read b).isNull := by
  simp [Reading.isReached, reading, Function.comp_def]

/-- A day compares as the instant that it is read from, if there is one. -/
lemma holds_compareDay {s : Schema} (hs : r.kind.scalar? = some .instant)
    (hfit : Value.Fits s r.kind (r.accessor.read b)) (c : Comparison) (d : Date) :
    (r.compareDay c d).holds b =
      ((r.reading b).isReached && (r.reading b).satisfies (.compare c) (.date d)) := by
  rw [compareDay, Plan.holds_guarded, Reading.satisfies_date]
  congr 1
  · exact isReached_reading.symm
  · rcases hfit.has_of_scalar? hs with hnull | hinstant
    · rw [Reading.order?_of_null hnull]
      by_cases hnullable : r.kind.isNullable <;> by_cases hne : c = .ne <;>
        simp [hnullable, hne, Plan.holds, hnull, Reading.isMissingInstant, reading, hs,
          Plan.dateOf?, Plan.holdsFor]
    · cases hv : r.accessor.read b with
      | instant t =>
        by_cases hnullable : r.kind.isNullable <;> by_cases hne : c = .ne <;>
          simp [hnullable, hne, Plan.holds, hv, Reading.isMissingInstant, reading, hs,
            Plan.dateOf?, Plan.holdsFor, Reading.order?, Value.isNull]
      | _ => simp [hv, Scalar.has] at hinstant

/-- A comparison with a literal holds if the field is as the literal asks. -/
theorem PlansTo.holds {s : Schema} {operator : Operator} {l : Literal} {p : Plan}
    (h : r.PlansTo operator l p) (hfit : Value.Fits s r.kind (r.accessor.read b)) :
    p.holds b = ((r.reading b).isReached && (r.reading b).satisfies operator l) := by
  cases h with
  | isNull => rw [Plan.holds_guarded, ← isReached_reading]; rfl
  | notNull => rw [Plan.holds_guarded, ← isReached_reading]; rfl
  | contains hs =>
    rw [Plan.holds_guarded, ← isReached_reading]
    congr 1
    cases hv : r.accessor.read b <;>
      simp [Plan.holds, hv, Reading.satisfies, reading, Value.string?, Value.isNull]
  | day hs => exact holds_compareDay hs hfit _ _
  | @value c l t v hs hl hday hv =>
    rw [compareValue, Plan.holds_guarded, ← isReached_reading]
    congr 1
    have horder : (r.reading b).order? l = (r.accessor.read b).compare? v := by
      unfold Reading.order?
      split
      · rename_i i d hi
        rcases hfit.has_of_scalar? hs with hnull | hhas
        · rw [show r.accessor.read b = .instant i from hi] at hnull
          cases hnull
        · -- a date is no literal for an instant here
          rw [show r.accessor.read b = .instant i from hi] at hhas
          cases t <;> simp [Scalar.has] at hhas
          exact absurd rfl (hday d rfl)
      · simp [reading, hs, Literal.value?_of_coerce hv]
    rw [Reading.satisfies_compare hl, horder]
    · rcases hfit.has_of_scalar? hs with hnull | hhas
      · by_cases hnullable : r.kind.isNullable <;>
          simp [hnullable, Plan.holds, hnull, Value.compare?, Plan.holdsFor]
      · by_cases hnullable : r.kind.isNullable <;>
          simp [hnullable, Plan.holds, Plan.holdsFor_eq_any, Scalar.isNull_of_has hhas]
    · intro d hd
      simp [Reading.isMissingInstant, reading, hs, hday d hd]

end Resolved

/-! ### Expressions -/

lemma Expr.reference?_of_subject {e : Expr} {p : Path} (h : e.subject = .ok p) :
    e.reference? = some p := by
  cases e <;> simp_all [subject, reference?]

/-- A comparison is true if what its left side finds is as its right side asks. -/
lemma Expr.holds_comparison {env : Environment} {l : Expr} {operator : Operator} {value : Literal}
    {q : Resolved} {p : Plan} {path : Path} {r : Reading} (hp : q.PlansTo operator value p)
    (hl : l.reference? = some path) (hr : env.read path = some r) :
    (Expr.binary l operator (.literal value)).holds env =
      (r.isReached && r.satisfies operator value) := by
  cases hp <;> simp [holds, hl, hr]

/-- Only what a condition gives for the elements matters to it, not the elements. -/
lemma Quantifier.holds_eq_of_map_eq (q : Quantifier) {items items' : List Value}
    {f g : Value → Bool} (h : items.map f = items'.map g) : q.holds items f = q.holds items' g := by
  cases q with
  | any => simpa [holds] using congrArg (List.any · id) h
  | all =>
    have hall : items.all f = items'.all g := by simpa using congrArg (List.all · id) h
    have hempty : items.isEmpty = items'.isEmpty := by simpa using congrArg List.isEmpty h
    rw [holds, holds, hall, hempty]

/-- Only the elements themselves matter to a quantified condition. -/
lemma Quantifier.holds_congr (q : Quantifier) {items : List Value} {f g : Value → Bool}
    (h : ∀ v ∈ items, f v = g v) : q.holds items f = q.holds items g :=
  q.holds_eq_of_map_eq (List.map_congr_left h)

/-- In a context that agrees with an environment, a plan holds if its expression is true. -/
theorem Expr.CompilesTo.holds {limit : Nat} {c : Context} {e : Expr} {p : Plan}
    (h : CompilesTo limit c e p) {env : Environment} {b : List Value} (hagrees : c.Agrees env b)
    (hfits : env.Fits) : p.holds b = e.holds env := by
  induction h generalizing env b with
  | and _ _ ihl ihr => rw [Plan.holds, Expr.holds, ihl hagrees hfits, ihr hagrees hfits]
  | or _ _ ihl ihr => rw [Plan.holds, Expr.holds, ihl hagrees hfits, ihr hagrees hfits]
  | complete _ ih => rw [Expr.holds, ih hagrees hfits]
  | comparison hl hresolve hp =>
    have hread := hagrees.read_of_resolves hresolve
    rw [holds_comparison hp (reference?_of_subject hl) hread]
    exact hp.holds (hfits.read hread)
  | @lambda c collection quantifier parameter body r kind tree p hresolve helement htree _ ih =>
    have hread := hagrees.read_of_resolves hresolve
    have hfit : Value.Fits env.schema r.kind (r.accessor.read b) := hfits.read hread
    have helement' : (r.reading b).kind.element? = some kind := helement
    rw [Expr.holds, hread]
    simp only [helement']
    rw [Plan.holds_guarded, ← Resolved.isReached_reading, Plan.holds_quantified]
    congr 1
    apply Quantifier.holds_congr
    -- the body is tested with elements of the collection only, and these fit
    intro v hv
    exact ih (hagrees.push htree parameter v)
      (hfits.bind (hfit.of_mem_items helement v hv) parameter)

/-! ### Filters of records -/

/-- The record of a schema's root type, bound at slot zero, agrees with the empty environment. -/
lemma Context.agrees_root {s : Schema} {limit : Nat} {t : PropertyTree}
    (h : PropertyTree.build s s.root limit = .ok t) (r : Record) :
    Context.Agrees ⟨t, []⟩ ⟨s, r, []⟩ [.record r] := by
  obtain ⟨-, rfl⟩ := PropertyTree.build_eq_ok_iff.mp h
  exact ⟨rfl, rfl, rfl, rfl, .nil⟩

/-- A record that conforms to the schema passes the plan of a filter exactly if the filter is true
of it, whatever the limits of the trees. -/
theorem Plan.passes_eq_isTrueOf {s : Schema} {depth limit : Nat} {t : PropertyTree} {e : Expr}
    {p : Plan} {r : Record} (ht : PropertyTree.build s s.root depth = .ok t)
    (hp : t.compile limit e = .ok p) (hr : s.Conforms r) : p.passes r = e.isTrueOf s r :=
  (Expr.compilesTo_of_compile hp).holds (Context.agrees_root ht r) ⟨hr, by simp⟩

/-- Nested conditions on elements of one name keep their meaning. -/
theorem People.plan_passes_bob :
    plan.passes bob = filter.isTrueOf schema bob ∧ plan.passes bob = true :=
  ⟨Plan.passes_eq_isTrueOf build_root compile_filter conforms_bob, by decide +kernel⟩

end RecordQuery
