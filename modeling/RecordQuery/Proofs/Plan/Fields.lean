import RecordQuery.Proofs.Plan.Comparisons

/-!
# Comparing what a field holds

What a comparison of a field with a literal compiles to depends on what the field's name means, and
what its plan says of a record on what the field holds there. Here both are brought together for the
records in which the field can be reached, so that all else is about one value and one literal.
-/

namespace RecordQuery

/-- What the left side of a comparison means in a context. -/
def Context.resolveSubject (c : Context) (left : Expr) : Except QueryError Resolved := do
  c.resolve (← left.subject)

/-- Holds if the left side of a comparison names a field with a value, and no record on the way to
it is missing. -/
def Environment.Finds (env : Environment) (left : Expr) (v : Value) : Prop :=
  ∃ r, left.reference?.bind env.read = some r ∧ r.isReached ∧ r.value = v

variable {limit : Nat} {c : Context} {env : Environment} {left : Expr} {r : Resolved}
variable {l : Literal} {b : List Value} {v w : Value} {s : Scalar} {k : Comparison}

lemma Context.Agrees.reading_of_finds (h : c.Agrees env b) (hr : c.resolveSubject left = .ok r)
    (hv : env.Finds left v) : (r.reading b).isReached ∧ r.accessor.read b = v := by
  obtain ⟨path, hpath, hresolve⟩ := Outcome.bind_eq_ok_iff.mp hr
  obtain ⟨reading, hread, hreached, hvalue⟩ := hv
  rw [Expr.reference?_of_subject hpath] at hread
  cases hread.symm.trans (h.read_of_resolves (resolves_of_resolve hresolve))
  exact ⟨hreached, hvalue⟩

lemma Context.resolveSubject_of_resolves {path : Path} (hl : left.subject = .ok path)
    (hr : c.Resolves path r) : c.resolveSubject left = .ok r :=
  Outcome.bind_eq_ok_iff.mpr ⟨path, hl, resolve_of_resolves hr⟩

lemma Expr.compile_of_resolveSubject {o : Operator} (hr : c.resolveSubject left = .ok r)
    (ho : o ∈ Operator.comparisons) :
    (Expr.binary left o (.literal l)).compile limit c = r.plan o l := by
  obtain ⟨path, hpath, hresolve⟩ := Outcome.bind_eq_ok_iff.mp hr
  rw [compile_comparison ho, hpath]
  simp [hresolve, bind, Except.bind]

lemma Operator.compare_mem_comparisons (k : Comparison) : compare k ∈ comparisons := by
  cases k <;> decide

lemma Kind.element?_eq_none_of_scalar? {kind : Kind} (h : kind.scalar? = some s) :
    kind.element? = none := by
  rw [element?, present_of_scalar? h]

namespace Resolved

/-- A field of a scalar is compared with any other literal than null as the scalar is, unless it is
an instant and the literal is a date. -/
lemma plan_compare_eq_coerce (hs : r.kind.scalar? = some s) (hl : l ≠ .null)
    (hday : ∀ d, l = .date d → s ≠ .instant) :
    r.plan (.compare k) l = (l.coerce s r.name).map (r.compareValue k) := by
  simp [plan, Kind.element?_eq_none_of_scalar? hs, hs, hl, compare_eq_coerce hday]

lemma plan_compare_date {d : Date} (hs : r.kind.scalar? = some .instant) :
    r.plan (.compare k) (.date d) = .ok (r.compareDay k d) :=
  plan_of_plansTo (Kind.element?_eq_none_of_scalar? hs) (.day hs)

/-- The plan of a comparison tests the order of what the field holds and the literal's value. -/
lemma holds_compareValue_of_reached (hreached : (r.reading b).isReached)
    (hread : r.accessor.read b = v) :
    (r.compareValue k w).holds b = (v.compare? w).any k.holds := by
  rw [holds_compareValue, hreached, hread, Bool.true_and]

lemma holds_compareDay_of_reached {t : Instant} {d : Date} (hreached : (r.reading b).isReached)
    (hread : r.accessor.read b = .instant t) :
    (r.compareDay k d).holds b = k.holds (t.date.compare d) := by
  rw [holds_compareDate, hreached, hread]
  rfl

end Resolved

/-! ### An example -/

namespace Receipts

/-- The sale, if it is known. -/
def saleField : Field := ⟨"Sale", some "sale", .optional (.record ⟨"Sale", 1⟩)⟩

/-- Receipts of a sale with its time, its price and the number of things sold. -/
def schema : Schema where
  types :=
    [⟨"Receipt", [saleField]⟩,
      ⟨"Sale",
        [⟨"Time", none, .optional (.scalar .instant)⟩,
          ⟨"Price", none, .scalar .decimal⟩,
          ⟨"Count", none, .scalar (.integer .u64)⟩]⟩]
  root := ⟨"Receipt", 0⟩

/-- The receipt of a sale. -/
def receipt (time : Instant) (price : Number.Decimal) (count : Int) : Record :=
  [("Sale", .record [("Time", .instant time), ("Price", .decimal price),
    ("Count", .integer .u64 count)])]

lemma tellsApart_schema : schema.TellsApart := by
  decide +kernel

lemma calls_sale : (schema.describe schema.root).Calls "sale" saleField := by
  have hsale : (schema.describe schema.root).Declares saleField :=
    tellsApart_schema.declares List.mem_cons_self
  exact hsale.calls

variable {f : Field}

/-- The fields of a sale are called by their own names. -/
lemma calls_of_mem (hf : f ∈ (schema.describe ⟨"Sale", 1⟩).fields) :
    (schema.describe ⟨"Sale", 1⟩).Calls f.name f := by
  have hname : ∀ f ∈ (schema.describe ⟨"Sale", 1⟩).fields, f.wireName = f.name := by decide
  exact hname f hf ▸ (tellsApart_schema.declares hf).calls

lemma build_root : PropertyTree.build schema schema.root 3 = .ok ⟨schema, schema.root, [], 3⟩ := rfl

/-- A field of a sale by its path, with the sale as a guard. -/
lemma resolveSubject_sale (hf : f ∈ (schema.describe ⟨"Sale", 1⟩).fields) :
    Context.resolveSubject ⟨⟨schema, schema.root, [], 3⟩, []⟩ (.path ⟨"sale", [f.name]⟩) =
      .ok ⟨⟨0, ["Sale", f.name]⟩, [⟨0, ["Sale"]⟩], f.kind, Path.text ⟨"sale", [f.name]⟩⟩ := by
  have hwalk : PropertyTree.walkFrom ⟨schema, schema.root, [], 3⟩ 0 []
      (Path.text ⟨"sale", [f.name]⟩) "sale" [f.name] =
        .ok ⟨⟨0, ["Sale", f.name]⟩, [⟨0, ["Sale"]⟩], f.kind, Path.text ⟨"sale", [f.name]⟩⟩ :=
    PropertyTree.walkFrom_cons_of_calls (t := ⟨schema, schema.root, [], 3⟩) calls_sale (by decide)
      rfl rfl (PropertyTree.walkFrom_of_calls (t := ⟨schema, ⟨"Sale", 1⟩, [0], 3⟩)
        (calls_of_mem hf) (by decide))
  exact Context.resolveSubject_of_resolves rfl (.root rfl (.inr rfl) hwalk)

/-- What a receipt holds in the fields of its sale. -/
lemma finds_sale (hf : f ∈ (schema.describe ⟨"Sale", 1⟩).fields) (time : Instant)
    (price : Number.Decimal) (count : Int) :
    Environment.Finds ⟨schema, receipt time price count, []⟩ (.path ⟨"sale", [f.name]⟩)
      (((Value.record (receipt time price count)).get "Sale").get f.name) :=
  ⟨_, Schema.follow_cons_of_calls calls_sale rfl (Schema.follow_of_calls (calls_of_mem hf)), rfl,
    rfl⟩

end Receipts

end RecordQuery
