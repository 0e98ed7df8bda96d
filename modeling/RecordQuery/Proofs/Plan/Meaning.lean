import RecordQuery.Plan.Compile
import RecordQuery.Proofs.Schema.Lookup

/-!
# The meaning of filters

What a filter says of a record, read off its expression and the declared fields alone. Names stand
for elements in an environment, so there are no slots here; a path is followed from field to field,
so there are no trees and no guards.
-/

namespace RecordQuery

/-! ### Following names -/

/-- What a reference finds: the declared kind of the last field, what that field holds, and what
the fields before it hold. -/
structure Reading where
  kind : Kind
  value : Value
  passed : List Value

/-- Follows at least one name through declared fields, from a value of a record type on. -/
def Schema.follow (s : Schema) (t : TypeRef) (v : Value) (first : String) :
    (rest : List String) → Option Reading
  | [] => do
    let f ← (s.describe t).field? first
    return ⟨f.kind, v.get f.name, []⟩
  | next :: rest => do
    let f ← (s.describe t).field? first
    let r ← s.follow (← f.kind.record?) (v.get f.name) next rest
    return ⟨r.kind, r.value, v.get f.name :: r.passed⟩

section Follow

variable {s : Schema} {t u : TypeRef} {v : Value} {first next : String} {rest : List String}
variable {f : Field}

lemma Schema.follow_of_calls (h : (s.describe t).Calls first f) :
    s.follow t v first [] = some ⟨f.kind, v.get f.name, []⟩ := by
  rw [follow, h.field?_eq]
  rfl

lemma Schema.follow_cons_of_calls {r : Reading} (h : (s.describe t).Calls first f)
    (hu : f.kind.record? = some u) (hr : s.follow u (v.get f.name) next rest = some r) :
    s.follow t v first (next :: rest) = some ⟨r.kind, r.value, v.get f.name :: r.passed⟩ := by
  rw [follow, h.field?_eq, Option.bind_eq_bind, Option.bind_some, hu, Option.bind_eq_bind,
    Option.bind_some, hr]
  rfl

end Follow

/-- An element of a collection under the name that a quantified condition gives it. -/
structure Binding where
  parameter : String
  kind : Kind
  element : Value

/-- What names can stand for: a record, and the elements bound by the conditions around, the
innermost one first. -/
structure Environment where
  schema : Schema
  record : Record
  bound : List Binding

namespace Environment

/-- The environment inside one more quantified condition. -/
def bind (env : Environment) (parameter : String) (kind : Kind) (element : Value) : Environment :=
  ⟨env.schema, env.record, ⟨parameter, kind, element⟩ :: env.bound⟩

/-- Follows names from an element on, if it is a record. -/
def follow (env : Environment) (b : Binding) (first : String) (rest : List String) :
    Option Reading := do
  env.schema.follow (← b.kind.record?) b.element first rest

/-- What a path finds. Its first name may be that of an element, and then the innermost one of that
name counts; a name alone else means a field of the innermost element, and every other path starts
at the record. -/
def read (env : Environment) (p : Path) : Option Reading :=
  match env.bound.find? fun b => b.parameter == p.first with
  | some b =>
    match p.rest with
    | [] => some ⟨b.kind, b.element, []⟩
    | next :: rest => env.follow b next rest
  | none =>
    match p.rest, env.bound with
    | [], b :: _ => env.follow b p.first []
    | _, _ => env.schema.follow env.schema.root (.record env.record) p.first p.rest

/-- Outside of all conditions a name alone is a field of the record. -/
lemma read_of_calls {s : Schema} {r : Record} {name : String} {f : Field}
    (h : (s.describe s.root).Calls name f) :
    read ⟨s, r, []⟩ (.single name) = some ⟨f.kind, (Value.record r).get f.name, []⟩ :=
  Schema.follow_of_calls h

end Environment

/-! ### Comparing -/

/-- The value of a literal as one of a scalar, if it can be one. -/
def Literal.value? (l : Literal) (s : Scalar) : Option Value := (l.coerce s "").toOption

namespace Reading

/-- The order of a field and a literal. An instant is compared with a date by its day, and in all
other cases the literal is taken as a value of the field's kind. What is missing has no order. -/
def order? (r : Reading) (l : Literal) : Option Ordering :=
  match r.value, l with
  | .instant t, .date d => some (t.date.compare d)
  | v, l => do v.compare? (← l.value? (← r.kind.scalar?))

/-- Holds of an instant that is missing where it may be. It counts as being on another day than any
date. -/
def isMissingInstant (r : Reading) : Bool :=
  r.value.isNull && r.kind.isNullable && r.kind.scalar? == some .instant

/-- Holds if the last field is as an operator and a literal ask. -/
def satisfies (r : Reading) : Operator → Literal → Bool
  | .compare .eq, .null => r.value.isNull
  | .compare .ne, .null => !r.value.isNull
  | .compare .ne, .date d => r.isMissingInstant || (r.order? (.date d)).any Comparison.ne.holds
  | .compare c, l => (r.order? l).any c.holds
  | .contains, .string needle =>
    r.value.string?.any fun s => Text.containsFolded s (Text.lowercase needle)
  | _, _ => false

/-- Holds if nothing is missing before the last field. -/
def isReached (r : Reading) : Bool := r.passed.all (!·.isNull)

end Reading

/-! ### Quantifying -/

/-- The elements of a list; all else has none. -/
def Value.items : Value → List Value
  | .list items => items
  | _ => []

/-- Holds if the elements satisfy a condition as the quantifier asks; no elements satisfy none. -/
def Quantifier.holds (q : Quantifier) (items : List Value) (condition : Value → Bool) : Bool :=
  match q with
  | any => items.any condition
  | all => !items.isEmpty && items.all condition

/-! ### Expressions -/

/-- The path on the left side of a comparison. -/
def Expr.reference? : Expr → Option Path
  | .name s => some (.single s)
  | .path p => some p
  | _ => none

/-- Holds if a filter is true of the record in an environment. An expression that is no condition is
true of nothing. -/
def Expr.holds (env : Environment) : Expr → Bool
  | .binary l .and r => l.holds env && r.holds env
  | .binary l .or r => l.holds env || r.holds env
  | .binary l .complete _ => l.holds env
  | .binary l operator (.literal value) =>
    match l.reference?.bind env.read with
    | some r => r.isReached && r.satisfies operator value
    | none => false
  | .lambda collection quantifier parameter body =>
    match env.read collection with
    | some r =>
      match r.kind.element? with
      | some kind =>
        r.isReached && quantifier.holds r.value.items fun element =>
          body.holds (env.bind parameter kind element)
      | none => false
    | none => false
  | _ => false

/-- Holds if a filter is true of a record of the queried type. -/
def Expr.isTrueOf (e : Expr) (s : Schema) (r : Record) : Bool := e.holds ⟨s, r, []⟩

end RecordQuery
