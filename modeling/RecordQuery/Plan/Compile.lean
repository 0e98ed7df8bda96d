import RecordQuery.Plan.Resolve

/-!
# From a filter to a plan

Names are resolved and literals are turned into values of the kinds of their fields. A comparison
with a field that may be missing is false when it is, and so is one behind a missing record; only a
comparison with null asks for what is missing.
-/

namespace RecordQuery

/-! ### Literals -/

/-- The value of a literal for a field of a kind. -/
def Literal.coerce (l : Literal) (target : Scalar) (property : String) : Except QueryError Value :=
  match l, target with
  | .integer n, .integer k =>
    if k.has n.toInt then .ok (.integer k n.toInt) else .error (.overflow n k)
  | .integer n, .single => .ok (.single (Number.Binary.ofInt n.toInt))
  | .integer n, .double => .ok (.double (Number.Binary.ofInt n.toInt))
  | .integer n, .decimal => .ok (.decimal (Number.Decimal.ofInt n.toInt))
  | .single x, .single => .ok (.single x)
  | .single x, .double => .ok (.double x.convert)
  | .double x, .double => .ok (.double x)
  | .decimal x, .decimal => .ok (.decimal x)
  | .string s, .string => .ok (.string s)
  | .string s, .enum variants => variant variants s
  | .identifier s, .enum variants => variant variants s
  | .boolean b, .bool => .ok (.bool b)
  | .guid g, .guid => .ok (.guid g)
  | .instant t, .instant => .ok (.instant t)
  | .date d, .date => .ok (.date d)
  | l, target => .error (.typeMismatch l property (.scalar target))
where
  /-- The first variant with the letters of a word, whatever their case. -/
  variant (variants : List String) (word : String) : Except QueryError Value :=
    match variants.find? fun v => Text.sameWord v word with
    | some v => .ok (.enum v)
    | none => .error (.unknownEnumValue word property)

/-! ### Comparisons -/

/-- The plan that compares a field with null. -/
def Resolved.compareNull (r : Resolved) (operator : Operator) : Except QueryError Plan :=
  match operator with
  | .compare .eq => .ok (.guarded (.isNull r.accessor) r.guards)
  | .compare .ne => .ok (.guarded (.notNull r.accessor) r.guards)
  | operator => .error (.invalidOperand operator .nullOrdered)

/-- The plan that looks for a text in a field. -/
def Resolved.search (r : Resolved) (scalar : Scalar) (l : Literal) : Except QueryError Plan :=
  match l with
  | .string needle =>
    if scalar = .string then
      .ok (.guarded
        (.and (.notNull r.accessor) (.contains r.accessor (Text.lowercase needle))) r.guards)
    else .error (.typeMismatch l r.name (.scalar scalar))
  | _ => .error (.invalidOperand .contains .containsOther)

/-- The plan that compares the day of a field with a date. Only for the comparison "not equal" a
missing day counts as another one. -/
def Resolved.compareDay (r : Resolved) (c : Comparison) (d : Date) : Plan :=
  let test := Plan.compareDate r.accessor c d
  let plan :=
    if !r.kind.isNullable then test
    else if c = .ne then .or (.isNull r.accessor) test
    else .and (.notNull r.accessor) test
  plan.guarded r.guards

/-- The plan that compares a field with a value. -/
def Resolved.compareValue (r : Resolved) (c : Comparison) (v : Value) : Plan :=
  let test := Plan.compare r.accessor c v
  let plan := if r.kind.isNullable then .and (.notNull r.accessor) test else test
  plan.guarded r.guards

/-- The plan that compares a field with a literal. -/
def Resolved.compare (r : Resolved) (scalar : Scalar) (c : Comparison) (l : Literal) :
    Except QueryError Plan :=
  match l, scalar with
  | .date d, .instant => .ok (r.compareDay c d)
  | l, scalar => do return r.compareValue c (← l.coerce scalar r.name)

/-- The plan of an operator between a field and a literal. -/
def Resolved.plan (r : Resolved) (operator : Operator) (l : Literal) : Except QueryError Plan :=
  if r.kind.element?.isSome then .error (.collectionComparison r.name)
  else if l = .null then r.compareNull operator
  else match r.kind.scalar? with
    | none => .error (.typeMismatch l r.name r.kind)
    | some scalar =>
      match operator with
      | .contains => r.search scalar l
      | .compare c => r.compare scalar c l
      | operator => .error (.invalidOperand operator .notComparison)

/-! ### Expressions -/

/-- The property tree of a collection's elements, if they are records. -/
def Context.elementTree (c : Context) (limit : Nat) (element : Kind) :
    Except QueryError (Option PropertyTree) :=
  match element.record? with
  | none => .ok none
  | some type => do return some (← PropertyTree.build c.root.schema type limit)

/-- The property that the left side of a comparison names. -/
def Expr.subject (e : Expr) : Except QueryError Path :=
  match e with
  | .name s => .ok (.single s)
  | .path p => .ok p
  | e => .error (.unexpectedToken e.text 0)

/-- The plan of an expression. Trees of elements are cut at `limit`. -/
def Expr.compile (limit : Nat) (c : Context) : Expr → Except QueryError Plan
  | .binary l .and r => do return .and (← l.compile limit c) (← r.compile limit c)
  | .binary l .or r => do return .or (← l.compile limit c) (← r.compile limit c)
  | .binary l .complete _ => l.compile limit c
  | .binary l operator r => do
    let resolved ← c.resolve (← l.subject)
    match r with
    | .literal value => resolved.plan operator value
    | r => .error (.invalidValueType r.text)
  | .lambda collection quantifier parameter body => do
    let resolved ← c.resolve collection
    match resolved.kind.element? with
    | none => .error (.notACollection resolved.name)
    | some element =>
      let tree ← c.elementTree limit element
      let inner ← body.compile limit (c.push parameter element tree)
      return (Plan.quantified quantifier resolved.accessor inner).guarded resolved.guards
  | e => .error (.invalidValueType e.text)

/-- The plan of a filter for records with these properties. -/
def PropertyTree.compile (t : PropertyTree) (limit : Nat) (e : Expr) : Except QueryError Plan :=
  e.compile limit ⟨t, []⟩

end RecordQuery
