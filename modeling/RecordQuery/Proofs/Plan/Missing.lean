import RecordQuery.Proofs.Plan.Compilation
import RecordQuery.Proofs.Plan.Typing

/-!
# Comparisons of what is missing

A comparison is false if a record on the way to its field is missing. That holds of the records that
the path goes through, wherever it starts, but not of the element from which a path inside a
quantified condition starts: no guard stands before it. There the two comparisons that ask for what
is missing are true of a missing element's fields, though there is no record that has these.
-/

namespace RecordQuery

/-! ### Fields of what is missing -/

/-- Holds of the comparisons that are true of a missing field: the one with null, and "not equal"
between a date and an instant that may be missing. -/
def Kind.admitsMissing (k : Kind) : Operator → Literal → Bool
  | .compare .eq, .null => true
  | .compare .ne, .date _ => k.isNullable && k.scalar? == some .instant
  | _, _ => false

lemma Reading.satisfies_of_null {r : Reading} (h : r.value = .null) (operator : Operator)
    (l : Literal) : r.satisfies operator l = r.kind.admitsMissing operator l := by
  have horder := order?_of_null h
  cases operator with
  | compare c =>
    cases c <;> cases l <;>
      simp [satisfies, Kind.admitsMissing, horder, h, isMissingInstant, Value.isNull]
  | contains => cases l <;> simp [satisfies, Kind.admitsMissing, h, Value.string?]
  | _ => rfl

/-- Where the first record is missing, all that follows is missing too. -/
lemma Schema.follow_null {s : Schema} {t : TypeRef} {first : String} {rest : List String}
    {r : Reading} (h : s.follow t .null first rest = some r) :
    r.value = .null ∧ r.passed = rest.map fun _ => .null := by
  induction rest generalizing t first r with
  | nil =>
    obtain ⟨f, -, hr⟩ := Option.bind_eq_some_iff.mp h
    cases hr
    exact ⟨rfl, rfl⟩
  | cons next rest ih =>
    obtain ⟨f, -, h⟩ := Option.bind_eq_some_iff.mp h
    obtain ⟨u, -, h⟩ := Option.bind_eq_some_iff.mp h
    obtain ⟨q, hq, hr⟩ := Option.bind_eq_some_iff.mp h
    obtain ⟨hvalue, hpassed⟩ := ih hq
    cases hr
    exact ⟨hvalue, by rw [hpassed]; rfl⟩

lemma Reading.isReached_eq_false {r : Reading} (h : ∃ v ∈ r.passed, v.isNull) :
    r.isReached = false := by
  simpa [isReached] using h

/-! ### Parts of filters in runs -/

/-- A run of the first expression in the first environment comes to the second expression in the
second one, whether or not an answer found before makes it stop short of that. -/
inductive Expr.Reaches : Environment → Expr → Environment → Expr → Prop
  | refl (env : Environment) (e : Expr) : Reaches env e env e
  | andLeft {env env' : Environment} {l r e : Expr} (h : Reaches env l env' e) :
      Reaches env (.binary l .and r) env' e
  | andRight {env env' : Environment} {l r e : Expr} (h : Reaches env r env' e) :
      Reaches env (.binary l .and r) env' e
  | orLeft {env env' : Environment} {l r e : Expr} (h : Reaches env l env' e) :
      Reaches env (.binary l .or r) env' e
  | orRight {env env' : Environment} {l r e : Expr} (h : Reaches env r env' e) :
      Reaches env (.binary l .or r) env' e
  | complete {env env' : Environment} {l r e : Expr} (h : Reaches env l env' e) :
      Reaches env (.binary l .complete r) env' e
  | lambda {env env' : Environment} {collection : Path} {quantifier : Quantifier}
      {parameter : String} {body e : Expr} {r : Reading} {kind : Kind} {element : Value}
      (hread : env.read collection = some r) (hkind : r.kind.element? = some kind)
      (helement : element ∈ r.value.items)
      (h : Reaches (env.bind parameter kind element) body env' e) :
      Reaches env (.lambda collection quantifier parameter body) env' e

/-- A plan with its bindings is that of an expression in an environment: the expression compiles to
it in a context that tells the same. -/
def Expr.RunsAs (limit : Nat) (env : Environment) (e : Expr) (b : List Value) (p : Plan) : Prop :=
  ∃ c : Context, c.Agrees env b ∧ CompilesTo limit c e p

namespace Plan.Reaches

variable {p q : Plan} {b c : List Value}

lemma guarded (h : p.Reaches b q c) (guards : List Accessor) :
    (p.guarded guards).Reaches b q c := by
  induction guards with
  | nil => exact h
  | cons g guards ih => exact .andRight ih

lemma quantified {quantifier : Quantifier} {a : Accessor} {element : Value}
    (helement : element ∈ (a.read b).items) (h : p.Reaches (b ++ [element]) q c) :
    (Plan.quantified quantifier a p).Reaches b q c := by
  cases ha : a.read b with
  | list items =>
    rw [ha] at helement
    cases quantifier with
    | any => exact .any ha helement h
    | all => exact .all ha helement h
  | _ => simp [ha, Value.items] at helement

end Plan.Reaches

/-- Wherever a run of an expression comes to, a run of its plan comes to the plan of that part, and
the environment there fits. -/
lemma Expr.CompilesTo.of_reaches {limit : Nat} {c : Context} {e e' : Expr} {p : Plan}
    (h : CompilesTo limit c e p) {env env' : Environment} {b : List Value}
    (hagrees : c.Agrees env b) (hfits : env.Fits) (hreach : Reaches env e env' e') :
    env'.Fits ∧ ∃ q b', RunsAs limit env' e' b' q ∧ p.Reaches b q b' := by
  induction hreach generalizing c p b with
  | refl env e => exact ⟨hfits, p, b, ⟨c, hagrees, h⟩, .refl p b⟩
  | andLeft _ ih =>
    cases h with
    | and hl hr =>
      obtain ⟨hfits', q, b', hq, hplan⟩ := ih hl hagrees hfits
      exact ⟨hfits', q, b', hq, .andLeft hplan⟩
    | comparison _ _ hp => cases hp
  | andRight _ ih =>
    cases h with
    | and hl hr =>
      obtain ⟨hfits', q, b', hq, hplan⟩ := ih hr hagrees hfits
      exact ⟨hfits', q, b', hq, .andRight hplan⟩
    | comparison _ _ hp => cases hp
  | orLeft _ ih =>
    cases h with
    | or hl hr =>
      obtain ⟨hfits', q, b', hq, hplan⟩ := ih hl hagrees hfits
      exact ⟨hfits', q, b', hq, .orLeft hplan⟩
    | comparison _ _ hp => cases hp
  | orRight _ ih =>
    cases h with
    | or hl hr =>
      obtain ⟨hfits', q, b', hq, hplan⟩ := ih hr hagrees hfits
      exact ⟨hfits', q, b', hq, .orRight hplan⟩
    | comparison _ _ hp => cases hp
  | complete _ ih =>
    cases h with
    | complete hl => exact ih hl hagrees hfits
    | comparison _ _ hp => cases hp
  | @lambda env env' collection quantifier parameter body e r kind element hread hkind helement _
      ih =>
    cases h with
    | @lambda _ _ _ _ _ resolved kind' tree p hresolve helement' htree hbody =>
      -- the environment and the bindings find the same collection
      have hread' := hagrees.read_of_resolves hresolve
      cases hread.symm.trans hread'
      cases hkind.symm.trans helement'
      have hfit : Value.Fits env.schema kind element :=
        (hfits.read hread').of_mem_items hkind element helement
      obtain ⟨hfits', q, b', hq, hplan⟩ :=
        ih hbody (hagrees.push htree parameter element) (hfits.bind hfit parameter)
      exact ⟨hfits', q, b', hq, (hplan.quantified helement).guarded resolved.guards⟩

/-! ### Comparisons -/

/-- What the plan of a comparison says, wherever a run comes to it. -/
lemma Expr.RunsAs.holds_comparison {limit : Nat} {env : Environment} {path : Path}
    {operator : Operator} {l : Literal} {b : List Value} {q : Plan}
    (h : RunsAs limit env (.binary (.path path) operator (.literal l)) b q) (hfits : env.Fits) :
    ∃ r, env.read path = some r ∧ q.holds b = (r.isReached && r.satisfies operator l) := by
  obtain ⟨c, hagrees, hcompiles⟩ := h
  cases hcompiles with
  | and hl hr => cases hl
  | or hl hr => cases hl
  | complete hl => cases hl
  | comparison hl hresolve hp =>
    cases hl
    have hread := hagrees.read_of_resolves hresolve
    exact ⟨_, hread, hp.holds (hfits.read hread)⟩

/-- Of the fields of a missing element a comparison is true only if it is about one of the element's
own and asks for what is missing. -/
lemma Expr.RunsAs.holds_missing_element {limit : Nat} {env : Environment} {path : Path}
    {operator : Operator} {l : Literal} {b : List Value} {q : Plan}
    (h : RunsAs limit env (.binary (.path path) operator (.literal l)) b q) (hfits : env.Fits)
    {x : Binding} {next : String} {rest : List String}
    (hx : env.bound.find? (fun x => x.parameter == path.first) = some x)
    (hrest : path.rest = next :: rest) (hnull : x.element = .null) :
    ∃ r, env.read path = some r ∧
      q.holds b = (rest.isEmpty && r.kind.admitsMissing operator l) := by
  obtain ⟨r, hread, hholds⟩ := h.holds_comparison hfits
  refine ⟨r, hread, ?_⟩
  rw [Environment.read, hx, hrest] at hread
  obtain ⟨u, -, hfollow⟩ := Option.bind_eq_some_iff.mp hread
  rw [hnull] at hfollow
  obtain ⟨hvalue, hpassed⟩ := Schema.follow_null hfollow
  rw [hholds, Reading.satisfies_of_null hvalue, Reading.isReached, hpassed]
  cases rest with
  | nil => rfl
  | cons => rfl

/-- A comparison to which a run of a filter comes is false, in the plan as well, if a record that
its path goes through is missing. If the element is missing from which the path starts, then it is
false unless the path has a single name behind that of the element; then it is true just if it asks
for what is missing. -/
theorem Expr.holds_of_missing {s : Schema} {depth limit : Nat} {t : PropertyTree} {e : Expr}
    {p : Plan} {record : Record} (ht : PropertyTree.build s s.root depth = .ok t)
    (hp : t.compile limit e = .ok p) (hr : s.Conforms record) {env : Environment} {path : Path}
    {operator : Operator} {l : Literal}
    (hreach : Reaches ⟨s, record, []⟩ e env (.binary (.path path) operator (.literal l))) :
    (∃ q b, RunsAs limit env (.binary (.path path) operator (.literal l)) b q ∧
      p.Reaches [.record record] q b) ∧
    ∃ r, env.read path = some r ∧
      ∀ q b, RunsAs limit env (.binary (.path path) operator (.literal l)) b q →
        ((∃ v ∈ r.passed, v.isNull) → q.holds b = false) ∧
        ∀ x next rest, env.bound.find? (fun x => x.parameter == path.first) = some x →
          path.rest = next :: rest → x.element = .null →
          q.holds b = (rest.isEmpty && r.kind.admitsMissing operator l) := by
  obtain ⟨hfits, hruns⟩ :=
    (compilesTo_of_compile hp).of_reaches (Context.agrees_root ht record) ⟨hr, by simp⟩ hreach
  refine ⟨hruns, ?_⟩
  obtain ⟨q, b, hq, -⟩ := hruns
  obtain ⟨r, hread, -⟩ := hq.holds_comparison hfits
  refine ⟨r, hread, fun q b hq => ⟨fun hmissing => ?_, fun x next rest hx hrest hnull => ?_⟩⟩
  · obtain ⟨r', hread', hholds⟩ := hq.holds_comparison hfits
    cases hread.symm.trans hread'
    rw [hholds, Reading.isReached_eq_false hmissing, Bool.false_and]
  · obtain ⟨r', hread', hholds⟩ := hq.holds_missing_element hfits hx hrest hnull
    cases hread.symm.trans hread'
    exact hholds

/-! ### An example -/

namespace People

/-- The filter `friends/any(x: x/age eq null)`. -/
def ageless : Expr :=
  .completed ⟨"friends", []⟩ .any "x"
    (.binary (.path ⟨"x", ["age"]⟩) (.compare .eq) (.literal .null))

/-- The plan of the filter. -/
def agelessPlan : Plan := .any ⟨0, ["Friends"]⟩ (.isNull ⟨1, ["Age"]⟩)

/-- Carol has a friend of whom there is no record. -/
def carol : Record :=
  [("Name", .string "Carol"), ("Age", .null), ("Boss", .null), ("Friends", .list [.null])]

lemma conforms_carol : schema.Conforms carol := by
  refine .record (forall_mem_fields.mpr ⟨.scalar rfl, .null _, .null _, .collection ?_⟩)
  simp [Value.Fits.null]

lemma compile_ageless :
    PropertyTree.compile ⟨schema, schema.root, [], 3⟩ 3 ageless = .ok agelessPlan := by
  have hage : people.record.Calls "age" ageField := calls (by decide) (by decide +kernel)
  have hfriends : people.record.Calls "friends" friendsField :=
    calls (by decide) (by decide +kernel)
  have hdepth : people.above.length < people.limit := by decide
  have hnull : (Expr.binary (.path ⟨"x", ["age"]⟩) (.compare .eq) (.literal .null)).compile 3
      ⟨people, [scope "x" 1]⟩ = .ok (.isNull ⟨1, ["Age"]⟩) :=
    Expr.compile_of_plansTo rfl (Context.resolves_member "x" hage hdepth rfl rfl) rfl .isNull
  exact Expr.compile_lambda .any (Context.resolves_name hfriends hdepth) rfl rfl hnull

/-- The environment in which the body of the filter is tested with Carol's friend. -/
def besideCarol : Environment :=
  (⟨schema, carol, []⟩ : Environment).bind "x" (.optional (.record ⟨"Person", 0⟩)) .null

lemma reaches_ageless :
    Expr.Reaches ⟨schema, carol, []⟩ ageless besideCarol
      (.binary (.path ⟨"x", ["age"]⟩) (.compare .eq) (.literal .null)) := by
  have hfriends : people.record.Calls "friends" friendsField :=
    calls (by decide) (by decide +kernel)
  have hread : Environment.read ⟨schema, carol, []⟩ ⟨"friends", []⟩ =
      some ⟨friendsField.kind, .list [.null], []⟩ :=
    Environment.read_of_calls hfriends
  exact .complete (.lambda hread rfl List.mem_cons_self (.refl _ _))

/-- Of the friend that is missing the filter says that the age is missing. -/
theorem exists_holds_missing_friend :
    ∃ q b, agelessPlan.Reaches [.record carol] q b ∧ q.holds b = true := by
  obtain ⟨⟨q, b, hq, hplan⟩, r, -, hmissing⟩ :=
    Expr.holds_of_missing build_root compile_ageless conforms_carol reaches_ageless
  have hholds := (hmissing q b hq).2 _ "age" [] rfl rfl rfl
  exact ⟨q, b, hplan, hholds⟩

/-- Not every comparison on a path from a missing element is false. -/
theorem not_holds_eq_false_of_missing_element :
    ¬ ∀ {s : Schema} {depth limit : Nat} {t : PropertyTree} {e : Expr} {p : Plan}
      {record : Record} {env : Environment} {path : Path} {operator : Operator} {l : Literal}
      {x : Binding} {next : String} {rest : List String} {q : Plan} {b : List Value},
      PropertyTree.build s s.root depth = .ok t → t.compile limit e = .ok p →
      s.Conforms record →
      Expr.Reaches ⟨s, record, []⟩ e env (.binary (.path path) operator (.literal l)) →
      env.bound.find? (fun x => x.parameter == path.first) = some x → path.rest = next :: rest →
      x.element = .null →
      Expr.RunsAs limit env (.binary (.path path) operator (.literal l)) b q →
      q.holds b = false := by
  intro hclaim
  obtain ⟨hfits, q, b, hq, -⟩ := (Expr.compilesTo_of_compile compile_ageless).of_reaches
    (Context.agrees_root build_root carol) ⟨conforms_carol, by simp⟩ reaches_ageless
  have hfalse : q.holds b = false :=
    hclaim build_root compile_ageless conforms_carol reaches_ageless rfl rfl rfl hq
  obtain ⟨r, -, hholds⟩ := hq.holds_missing_element hfits rfl rfl rfl
  rw [hholds] at hfalse
  cases hfalse

end People

end RecordQuery
