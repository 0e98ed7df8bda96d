import RecordQuery.Proofs.Plan.Rules
import RecordQuery.Proofs.Schema.Conformance
import Mathlib.Data.List.Forall2

/-!
# Plans are well scoped and well typed

Every accessor of a compiled plan starts at a slot that is bound where it stands and goes on through
declared fields, and every test suits the kind of the field that it reads. A run of the plan on a
record that conforms to the schema therefore never reads an empty slot, and compares only values of
one scalar.
-/

namespace RecordQuery

/-! ### Typed accessors -/

/-- A way through declared fields, by the names under which records keep them. -/
inductive Schema.Leads (s : Schema) (start : Kind) : List String → Kind → Prop
  | nil : Leads s start [] start
  | push {path : List String} {k : Kind} {t : TypeRef} {f : Field} (h : Leads s start path k)
      (hk : k.record? = some t) (hf : f ∈ (s.describe t).fields) :
      Leads s start (path ++ [f.name]) f.kind

/-- An accessor leads to a field of a kind, from slots bound to values of the given kinds. -/
def Accessor.HasKind (s : Schema) (slots : List Kind) (a : Accessor) (k : Kind) : Prop :=
  ∃ start, slots[a.slot]? = some start ∧ s.Leads start a.path k

lemma Accessor.HasKind.slot_lt {s : Schema} {slots : List Kind} {a : Accessor} {k : Kind}
    (h : a.HasKind s slots k) : a.slot < slots.length := by
  obtain ⟨start, hstart, -⟩ := h
  exact (List.getElem?_eq_some_iff.mp hstart).1

/-- What an accessor reads fits the kind that it leads to. -/
lemma Accessor.HasKind.fits {s : Schema} {slots : List Kind} {a : Accessor} {k : Kind}
    (h : a.HasKind s slots k) {b : List Value} (hb : List.Forall₂ (Value.Fits s) slots b) :
    Value.Fits s k (a.read b) := by
  obtain ⟨slot, path⟩ := a
  obtain ⟨start, hstart, hleads⟩ := h
  simp only at hstart hleads
  induction hleads with
  | nil =>
    obtain ⟨hlt, rfl⟩ := List.getElem?_eq_some_iff.mp hstart
    have hltb : slot < b.length := hb.length_eq ▸ hlt
    have hread : Accessor.read ⟨slot, []⟩ b = b[slot] := by simp [Accessor.read, hltb]
    rw [hread]
    exact hb.get hlt hltb
  | push _ hk hf ih =>
    rw [read_push]
    exact ih.get hk hf

/-! ### Typed plans -/

namespace Plan

/-- Every test of a plan suits the kind of the field that it reads, in bindings of the given kinds.
A quantified test binds elements of the kind of its collection at the next slot. -/
def WellTyped (s : Schema) : List Kind → Plan → Prop
  | slots, and l r => l.WellTyped s slots ∧ r.WellTyped s slots
  | slots, or l r => l.WellTyped s slots ∧ r.WellTyped s slots
  | slots, isNull a => ∃ k, a.HasKind s slots k
  | slots, notNull a => ∃ k, a.HasKind s slots k
  | slots, compare a _ value => ∃ k c, a.HasKind s slots k ∧ k.scalar? = some c ∧ c.has value
  | slots, contains a _ => ∃ k, a.HasKind s slots k ∧ k.scalar? = some .string
  | slots, compareDate a _ _ => ∃ k, a.HasKind s slots k ∧ k.scalar? = some .instant
  | slots, any a body =>
    ∃ k e, a.HasKind s slots k ∧ k.element? = some e ∧ body.WellTyped s (slots ++ [e])
  | slots, all a body =>
    ∃ k e, a.HasKind s slots k ∧ k.element? = some e ∧ body.WellTyped s (slots ++ [e])

/-- Every accessor of a plan has a slot no greater than the number of quantified tests around it,
where there are `depth` around the plan itself. -/
def Scoped : Nat → Plan → Prop
  | depth, and l r => l.Scoped depth ∧ r.Scoped depth
  | depth, or l r => l.Scoped depth ∧ r.Scoped depth
  | depth, isNull a => a.slot ≤ depth
  | depth, notNull a => a.slot ≤ depth
  | depth, compare a _ _ => a.slot ≤ depth
  | depth, contains a _ => a.slot ≤ depth
  | depth, compareDate a _ _ => a.slot ≤ depth
  | depth, any a body => a.slot ≤ depth ∧ body.Scoped (depth + 1)
  | depth, all a body => a.slot ≤ depth ∧ body.Scoped (depth + 1)

variable {s : Schema} {slots : List Kind}

lemma scoped_of_wellTyped {slots : List Kind} {p : Plan} {depth : Nat} (h : p.WellTyped s slots)
    (hdepth : slots.length = depth + 1) : p.Scoped depth := by
  have hslot {a : Accessor} {k : Kind} (ha : a.HasKind s slots k) : a.slot ≤ depth := by
    have := ha.slot_lt
    omega
  have hbody {e : Kind} : (slots ++ [e]).length = depth + 1 + 1 := by simp [hdepth]
  match p, h with
  | and l r, ⟨hl, hr⟩ => exact ⟨scoped_of_wellTyped hl hdepth, scoped_of_wellTyped hr hdepth⟩
  | or l r, ⟨hl, hr⟩ => exact ⟨scoped_of_wellTyped hl hdepth, scoped_of_wellTyped hr hdepth⟩
  | isNull a, ⟨_, ha⟩ => exact hslot ha
  | notNull a, ⟨_, ha⟩ => exact hslot ha
  | compare a c v, ⟨_, _, ha, _⟩ => exact hslot ha
  | contains a needle, ⟨_, ha, _⟩ => exact hslot ha
  | compareDate a c d, ⟨_, ha, _⟩ => exact hslot ha
  | any a body, ⟨_, e, ha, _, h⟩ => exact ⟨hslot ha, scoped_of_wellTyped h hbody⟩
  | all a body, ⟨_, e, ha, _, h⟩ => exact ⟨hslot ha, scoped_of_wellTyped h hbody⟩

/-- Guards with declared fields leave a plan well typed. -/
lemma wellTyped_guarded {p : Plan} {guards : List Accessor} (hp : p.WellTyped s slots)
    (hguards : ∀ g ∈ guards, ∃ k, g.HasKind s slots k) : (p.guarded guards).WellTyped s slots := by
  induction guards with
  | nil => exact hp
  | cons g guards ih =>
    exact ⟨hguards g List.mem_cons_self, ih fun a ha => hguards a (List.mem_cons_of_mem g ha)⟩

end Plan

/-! ### Resolved paths are typed -/

/-- Walking down a tree leads through declared fields, and so does the way to every guard. -/
lemma PropertyTree.leads_of_walkFrom {s : Schema} {start k : Kind} {t : PropertyTree} {slot : Nat}
    {passed : List String} {written first : String} {rest : List String} {r : Resolved}
    (h : t.walkFrom slot passed written first rest = .ok r) (hs : t.schema = s)
    (hpassed : s.Leads start passed k) (hk : k.record? = some t.type) :
    (r.accessor.slot = slot ∧ s.Leads start r.accessor.path r.kind) ∧
      ∀ g ∈ r.guards, g.slot = slot ∧ ∃ k, s.Leads start g.path k := by
  induction rest generalizing t k passed first r with
  | nil =>
    obtain ⟨p, hp, rfl⟩ := walkFrom_nil_eq_ok_iff.mp h
    obtain ⟨hf, rfl⟩ := field?_of_get? hp
    subst hs
    exact ⟨⟨rfl, hpassed.push hk (RecordType.mem_of_field? hf)⟩, by simp⟩
  | cons next rest ih =>
    obtain ⟨p, below, q, hp, hcollection, hbelow, hq, rfl⟩ := walkFrom_cons_eq_ok_iff.mp h
    obtain ⟨hf, rfl⟩ := field?_of_get? hp
    obtain ⟨hrecord, hschema⟩ := Property.nested?_of_not_isCollection hcollection hbelow
    subst hs
    have hstep := hpassed.push hk (RecordType.mem_of_field? hf)
    obtain ⟨hq, hguards⟩ := ih hq hschema hstep hrecord
    refine ⟨hq, ?_⟩
    intro g hg
    rcases List.mem_cons.mp hg with rfl | hg
    · exact ⟨rfl, _, hstep⟩
    · exact hguards g hg

/-- Accessor and guards of a resolved path are typed. -/
structure Resolved.Typed (s : Schema) (slots : List Kind) (r : Resolved) : Prop where
  accessor : r.accessor.HasKind s slots r.kind
  guards : ∀ g ∈ r.guards, ∃ k, g.HasKind s slots k

/-- The slots of a context are bound to values of the kinds that its scopes say. -/
structure Context.Typed (s : Schema) (slots : List Kind) (c : Context) : Prop where
  schema : c.root.schema = s
  root : slots[0]? = some (.record c.root.type)
  length : slots.length = c.scopes.length + 1
  slot : ∀ x ∈ c.scopes, slots[x.slot]? = some x.element
  tree : ∀ x ∈ c.scopes, ∀ t, x.tree = some t → t.schema = s ∧ x.element.record? = some t.type

/-- A walk from a bound slot is typed. -/
lemma Resolved.typed_of_walkFrom {s : Schema} {slots : List Kind} {start : Kind} {t : PropertyTree}
    {slot : Nat} {written first : String} {rest : List String} {r : Resolved}
    (h : t.walkFrom slot [] written first rest = .ok r) (hs : t.schema = s)
    (hslot : slots[slot]? = some start) (hstart : start.record? = some t.type) :
    r.Typed s slots := by
  obtain ⟨⟨hr, hleads⟩, hguards⟩ := PropertyTree.leads_of_walkFrom h hs .nil hstart
  refine ⟨⟨start, hr ▸ hslot, hleads⟩, ?_⟩
  intro g hg
  obtain ⟨hslot', k, hk⟩ := hguards g hg
  exact ⟨k, start, hslot' ▸ hslot, hk⟩

theorem Context.Typed.resolved {s : Schema} {slots : List Kind} {c : Context}
    (h : c.Typed s slots) {p : Path} {r : Resolved} (hr : c.Resolves p r) : r.Typed s slots := by
  cases hr with
  | @element x hx hp hplain =>
    have hmem : x ∈ c.scopes := List.mem_of_find?_eq_some hx
    exact ⟨⟨x.element, h.slot x hmem, .nil⟩, by simp⟩
  | member hx hp ht hr =>
    have hmem := List.mem_of_find?_eq_some hx
    obtain ⟨hschema, htype⟩ := h.tree _ hmem _ ht
    exact Resolved.typed_of_walkFrom hr hschema (h.slot _ hmem) htype
  | @innermost x outer t _ hx hp hc ht hr =>
    have hmem : x ∈ c.scopes := hc ▸ List.mem_cons_self
    obtain ⟨hschema, htype⟩ := h.tree x hmem t ht
    exact Resolved.typed_of_walkFrom hr hschema (h.slot x hmem) htype
  | root hx hp hr => exact Resolved.typed_of_walkFrom hr h.schema h.root rfl

/-- The context inside a quantified condition is typed with one more slot. -/
lemma Context.Typed.push {s : Schema} {slots : List Kind} {c : Context} (h : c.Typed s slots)
    {limit : Nat} {element : Kind} {tree : Option PropertyTree}
    (htree : c.elementTree limit element = .ok tree) (parameter : String) :
    (c.push parameter element tree).Typed s (slots ++ [element]) where
  schema := h.schema
  root := getElem?_push h.root element
  length := by simp [Context.push, h.length]
  slot := by
    intro x hx
    rcases List.mem_cons.mp hx with rfl | hx
    · simp [← h.length]
    · exact getElem?_push (h.slot x hx) element
  tree := by
    intro x hx t ht
    rcases List.mem_cons.mp hx with rfl | hx
    · obtain ⟨hschema, htype⟩ := elementTree_eq_some htree ht
      exact ⟨hschema.trans h.schema, htype⟩
    · exact h.tree x hx t ht

/-! ### Compiled plans are typed -/

/-- A literal becomes a value of the scalar it is taken for. -/
lemma Literal.has_of_coerce {l : Literal} {c : Scalar} {property : String} {v : Value}
    (h : l.coerce c property = .ok v) : c.has v := by
  have hvariant {variants : List String} {word : String}
      (hword : coerce.variant property variants word = .ok v) : (Scalar.enum variants).has v := by
    obtain ⟨found, hfound, rfl⟩ := variant_eq_ok_iff.mp hword
    simpa [Scalar.has] using List.mem_of_find?_eq_some hfound
  unfold coerce at h
  split at h
  case h_1 n k =>
    split_ifs at h with hk
    cases h
    simp [Scalar.has, hk]
  case h_10 => exact hvariant h
  case h_11 => exact hvariant h
  case h_16 => cases h
  all_goals
    cases h
    rfl

lemma Resolved.PlansTo.wellTyped {s : Schema} {slots : List Kind} {r : Resolved}
    {operator : Operator} {l : Literal} {p : Plan} (h : r.PlansTo operator l p)
    (hr : r.Typed s slots) : p.WellTyped s slots := by
  cases h with
  | isNull => exact Plan.wellTyped_guarded ⟨r.kind, hr.accessor⟩ hr.guards
  | notNull => exact Plan.wellTyped_guarded ⟨r.kind, hr.accessor⟩ hr.guards
  | contains hs =>
    exact Plan.wellTyped_guarded ⟨⟨r.kind, hr.accessor⟩, r.kind, hr.accessor, hs⟩ hr.guards
  | day hs =>
    refine Plan.wellTyped_guarded ?_ hr.guards
    split_ifs
    · exact ⟨r.kind, hr.accessor, hs⟩
    · exact ⟨⟨r.kind, hr.accessor⟩, r.kind, hr.accessor, hs⟩
    · exact ⟨⟨r.kind, hr.accessor⟩, r.kind, hr.accessor, hs⟩
  | value hs hl hday hv =>
    have htest := Literal.has_of_coerce hv
    refine Plan.wellTyped_guarded ?_ hr.guards
    split_ifs
    · exact ⟨⟨r.kind, hr.accessor⟩, r.kind, _, hr.accessor, hs, htest⟩
    · exact ⟨r.kind, _, hr.accessor, hs, htest⟩

theorem Expr.CompilesTo.wellTyped {limit : Nat} {c : Context} {e : Expr} {p : Plan}
    (h : CompilesTo limit c e p) {s : Schema} {slots : List Kind} (hc : c.Typed s slots) :
    p.WellTyped s slots := by
  induction h generalizing slots with
  | and _ _ ihl ihr => exact ⟨ihl hc, ihr hc⟩
  | or _ _ ihl ihr => exact ⟨ihl hc, ihr hc⟩
  | complete _ ih => exact ih hc
  | comparison _ hresolve hp => exact hp.wellTyped (hc.resolved hresolve)
  | @lambda c _ quantifier parameter _ r element tree _ hresolve helement htree _ ih =>
    have hr := hc.resolved hresolve
    have hbody := ih (hc.push htree parameter)
    refine Plan.wellTyped_guarded ?_ hr.guards
    cases quantifier with
    | any => exact ⟨r.kind, element, hr.accessor, helement, hbody⟩
    | all => exact ⟨r.kind, element, hr.accessor, helement, hbody⟩

/-! ### Runs of typed plans -/

namespace Plan

/-- The accessor that a test reads itself, other than those of the tests in it. -/
def accessor? : Plan → Option Accessor
  | and _ _ => none
  | or _ _ => none
  | isNull a => some a
  | notNull a => some a
  | compare a _ _ => some a
  | contains a _ => some a
  | compareDate a _ _ => some a
  | any a _ => some a
  | all a _ => some a

/-- A run of the first plan with the first bindings comes to the second plan with the second ones,
whether or not an answer found before makes it stop short of that. -/
inductive Reaches : Plan → List Value → Plan → List Value → Prop
  | refl (p : Plan) (b : List Value) : Reaches p b p b
  | andLeft {l r q : Plan} {b c : List Value} (h : Reaches l b q c) : Reaches (and l r) b q c
  | andRight {l r q : Plan} {b c : List Value} (h : Reaches r b q c) : Reaches (and l r) b q c
  | orLeft {l r q : Plan} {b c : List Value} (h : Reaches l b q c) : Reaches (or l r) b q c
  | orRight {l r q : Plan} {b c : List Value} (h : Reaches r b q c) : Reaches (or l r) b q c
  | any {a : Accessor} {body q : Plan} {b c items : List Value} {item : Value}
      (ha : a.read b = .list items) (hitem : item ∈ items) (h : Reaches body (b ++ [item]) q c) :
      Reaches (any a body) b q c
  | all {a : Accessor} {body q : Plan} {b c items : List Value} {item : Value}
      (ha : a.read b = .list items) (hitem : item ∈ items) (h : Reaches body (b ++ [item]) q c) :
      Reaches (all a body) b q c

variable {s : Schema}

/-- The elements of a typed collection extend bindings that fit. -/
lemma forall₂_fits_push {slots : List Kind} {a : Accessor} {k e : Kind} {b items : List Value}
    {item : Value} (ha : a.HasKind s slots k) (hk : k.element? = some e)
    (hb : List.Forall₂ (Value.Fits s) slots b) (hread : a.read b = .list items)
    (hitem : item ∈ items) : List.Forall₂ (Value.Fits s) (slots ++ [e]) (b ++ [item]) := by
  have hfit := ha.fits hb
  rw [hread] at hfit
  exact List.rel_append hb (.cons (hfit.of_mem hk item hitem) .nil)

/-- Wherever a run of a typed plan comes to, the plan there is typed and its bindings fit. -/
lemma WellTyped.of_reaches {p q : Plan} {b c : List Value} (h : p.Reaches b q c)
    {slots : List Kind} (hp : p.WellTyped s slots) (hb : List.Forall₂ (Value.Fits s) slots b) :
    ∃ slots, q.WellTyped s slots ∧ List.Forall₂ (Value.Fits s) slots c := by
  induction h generalizing slots with
  | refl p b => exact ⟨slots, hp, hb⟩
  | andLeft _ ih => exact ih hp.1 hb
  | andRight _ ih => exact ih hp.2 hb
  | orLeft _ ih => exact ih hp.1 hb
  | orRight _ ih => exact ih hp.2 hb
  | any hread hitem _ ih =>
    obtain ⟨k, e, ha, hk, hbody⟩ := hp
    exact ih hbody (forall₂_fits_push ha hk hb hread hitem)
  | all hread hitem _ ih =>
    obtain ⟨k, e, ha, hk, hbody⟩ := hp
    exact ih hbody (forall₂_fits_push ha hk hb hread hitem)

/-- A typed test reads a slot that is bound. -/
lemma WellTyped.slot_lt {p : Plan} {slots : List Kind} {a : Accessor} (hp : p.WellTyped s slots)
    (ha : p.accessor? = some a) : a.slot < slots.length := by
  cases p with
  | and l r => cases ha
  | or l r => cases ha
  | isNull a =>
    obtain ⟨k, h⟩ := hp
    cases ha
    exact h.slot_lt
  | notNull a =>
    obtain ⟨k, h⟩ := hp
    cases ha
    exact h.slot_lt
  | compare a c v =>
    obtain ⟨k, _, h, -⟩ := hp
    cases ha
    exact h.slot_lt
  | contains a needle =>
    obtain ⟨k, h, -⟩ := hp
    cases ha
    exact h.slot_lt
  | compareDate a c d =>
    obtain ⟨k, h, -⟩ := hp
    cases ha
    exact h.slot_lt
  | any a body =>
    obtain ⟨k, _, h, -⟩ := hp
    cases ha
    exact h.slot_lt
  | all a body =>
    obtain ⟨k, _, h, -⟩ := hp
    cases ha
    exact h.slot_lt

/-- A typed comparison finds an order, unless the field is missing or one side is no number. -/
lemma WellTyped.isSome_compare? {a : Accessor} {c : Comparison} {v : Value} {slots : List Kind}
    {b : List Value} (hp : (compare a c v).WellTyped s slots)
    (hb : List.Forall₂ (Value.Fits s) slots b) :
    a.read b = .null ∨ (a.read b).isNaN ∨ v.isNaN ∨ ((a.read b).compare? v).isSome := by
  obtain ⟨k, t, ha, hk, hv⟩ := hp
  rcases (ha.fits hb).has_of_scalar? hk with hnull | hhas
  · exact .inl hnull
  · by_cases hread : (a.read b).isNaN
    · exact .inr (.inl hread)
    · by_cases hvalue : v.isNaN
      · exact .inr (.inr (.inl hvalue))
      · refine .inr (.inr (.inr (Scalar.isSome_compare? hhas hv ?_ ?_)))
        · simpa using hread
        · simpa using hvalue

end Plan

/-- The context of the record alone is typed with its slot. -/
lemma Context.typed_root {s : Schema} {limit : Nat} {t : PropertyTree}
    (h : PropertyTree.build s s.root limit = .ok t) :
    Context.Typed s [.record s.root] ⟨t, []⟩ := by
  obtain ⟨-, rfl⟩ := PropertyTree.build_eq_ok_iff.mp h
  exact ⟨rfl, rfl, rfl, by simp, by simp⟩

/-- A compiled plan is well scoped and well typed. On a record that conforms to the schema, every
test that a run may come to reads a bound slot, and every comparison finds an order unless the field
is missing or one side is no number. -/
theorem Plan.wellTyped_of_compile {s : Schema} {depth limit : Nat} {t : PropertyTree} {e : Expr}
    {p : Plan} (ht : PropertyTree.build s s.root depth = .ok t) (hp : t.compile limit e = .ok p) :
    p.Scoped 0 ∧ p.WellTyped s [.record s.root] ∧
      ∀ r, s.Conforms r → ∀ q b, p.Reaches [.record r] q b →
        (∀ a, q.accessor? = some a → a.slot < b.length) ∧
        ∀ a c v, q = .compare a c v →
          a.read b = .null ∨ (a.read b).isNaN ∨ v.isNaN ∨ ((a.read b).compare? v).isSome := by
  have htyped : p.WellTyped s [.record s.root] :=
    (Expr.compilesTo_of_compile hp).wellTyped (Context.typed_root ht)
  refine ⟨scoped_of_wellTyped htyped rfl, htyped, ?_⟩
  intro r hr q b hq
  obtain ⟨slots, hqtyped, hb⟩ := WellTyped.of_reaches hq htyped (.cons hr .nil)
  constructor
  · intro a ha
    rw [← hb.length_eq]
    exact hqtyped.slot_lt ha
  · rintro a c v rfl
    exact hqtyped.isSome_compare? hb

/-- The innermost of the nested conditions reads its own slot. -/
theorem People.wellTyped_plan :
    plan.Scoped 0 ∧ plan.WellTyped schema [.record schema.root] ∧
      ∀ q b, plan.Reaches [.record bob] q b → ∀ a, q.accessor? = some a → a.slot < b.length := by
  obtain ⟨hscoped, htyped, hruns⟩ := Plan.wellTyped_of_compile build_root compile_filter
  exact ⟨hscoped, htyped, fun q b hq => (hruns bob conforms_bob q b hq).1⟩

end RecordQuery
