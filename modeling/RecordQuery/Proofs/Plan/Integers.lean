import RecordQuery.Proofs.Number.Rational
import RecordQuery.Proofs.Plan.Fields
import Mathlib.Data.Set.Operations
import Mathlib.Tactic.NormNum

/-!
# Integer literals

An integer literal beside a field of integers or decimals either is out of the range of the field,
which is a fault, or is compared with what the field holds as one number with another: no width,
sign or number of places makes a difference.
-/

namespace RecordQuery

/-! ### Exact numbers -/

/-- Holds of the scalars whose values are numbers that are not rounded. -/
def Scalar.isExact : Scalar → Bool
  | integer _ => true
  | decimal => true
  | _ => false

/-- The number that a value of such a scalar is. -/
def Value.exact? : Value → Option ℚ
  | integer _ n => some n
  | decimal x => some x.toRat
  | _ => none

/-- Holds of two numbers that are as a comparison asks. -/
def Comparison.Relates : Comparison → ℚ → ℚ → Prop
  | eq, x, y => x = y
  | ne, x, y => x ≠ y
  | lt, x, y => x < y
  | lte, x, y => x ≤ y
  | gt, x, y => y < x
  | gte, x, y => y ≤ x

lemma Comparison.holds_iff_relates {o : Ordering} {x y : ℚ} (h : o.Compares x y) (k : Comparison) :
    k.holds o ↔ k.Relates x y := by
  cases k with
  | eq => exact beq_iff_eq.trans h.eq_eq
  | ne => exact bne_iff_ne.trans h.eq_eq.not
  | lt => exact beq_iff_eq.trans h.eq_lt
  | lte => exact bne_iff_ne.trans h.ne_gt
  | gt => exact beq_iff_eq.trans h.eq_gt
  | gte => exact bne_iff_ne.trans h.ne_lt

/-! ### The values of integer literals -/

/-- The integers of a kind. -/
def IntegerKind.range (kind : IntegerKind) : Set Int := {n | kind.least ≤ n ∧ n ≤ kind.greatest}

lemma IntegerKind.has_iff {kind : IntegerKind} {n : Int} : kind.has n ↔ n ∈ kind.range := by
  simp [has, range]

instance (kind : IntegerKind) (n : Int) : Decidable (n ∈ kind.range) :=
  decidable_of_iff (kind.has n) IntegerKind.has_iff

namespace Literal

variable {n : Int64} {s : Scalar}

/-- An integer literal overflows just the integer kinds that do not have it. -/
lemma coerce_integer_eq_overflow_iff {kind : IntegerKind} (hs : s.isExact) (property : String) :
    (integer n).coerce s property = .error (.overflow n kind) ↔
      s = .integer kind ∧ n.toInt ∉ kind.range := by
  cases s with
  | integer target =>
    rw [coerce, ← IntegerKind.has_iff]
    split_ifs with hhas
    · have hkind : target = kind → kind.has n.toInt = true := fun h => h ▸ hhas
      simpa using hkind
    · constructor
      · rintro ⟨rfl⟩
        exact ⟨rfl, hhas⟩
      · rintro ⟨⟨rfl⟩, -⟩
        rfl
  | decimal => simp [coerce]
  | _ => cases hs

/-- Where an integer literal does not overflow, its value compares with those of the field's scalar
as its number does with theirs. -/
lemma exists_coerce_integer (hs : s.isExact)
    (hrange : ∀ kind, s = .integer kind → n.toInt ∈ kind.range)
    (property : String) :
    ∃ w, (integer n).coerce s property = .ok w ∧ ∀ v, s.has v →
      ∃ x o, v.exact? = some x ∧ v.compare? w = some o ∧ o.Compares x n.toInt := by
  cases s with
  | integer kind =>
    have hhas : kind.has n.toInt := IntegerKind.has_iff.mpr (hrange kind rfl)
    refine ⟨.integer kind n.toInt, by rw [coerce, if_pos hhas], fun v hv => ?_⟩
    cases v with
    | integer l m =>
      obtain ⟨rfl, -⟩ : kind = l ∧ kind.has m := by simpa [Scalar.has] using hv
      exact ⟨m, compare m n.toInt, rfl, if_pos rfl, Number.compares_compare_int m n.toInt⟩
    | _ => cases hv
  | decimal =>
    refine ⟨.decimal (.ofInt n.toInt), rfl, fun v hv => ?_⟩
    cases v with
    | decimal x =>
      have hcompares := x.compares_compare (.ofInt n.toInt)
      rw [Number.Decimal.toRat_ofInt] at hcompares
      exact ⟨x.toRat, _, rfl, rfl, hcompares⟩
    | _ => cases hv
  | _ => cases hs

end Literal

/-! ### Comparing with integer literals -/

variable {c : Context} {left : Expr} {r : Resolved} {s : Scalar}

/-- A comparison of a field of exact numbers with an integer literal fails for an overflow just if
the field is of an integer kind that does not have the literal. If it is not, then the comparison is
true of a number that the field holds just if the two numbers are as it asks. -/
theorem Expr.compile_integer (limit : Nat) (hr : c.resolveSubject left = .ok r)
    (hs : r.kind.scalar? = some s) (hexact : s.isExact) (n : Int64) :
    (∀ k kind, (Expr.binary left (.compare k) (.literal (.integer n))).compile limit c =
        .error (.overflow n kind) ↔
      s = .integer kind ∧ n.toInt ∉ kind.range) ∧
    ((∀ kind, s = .integer kind → n.toInt ∈ kind.range) →
      ∃ plans : Comparison → Plan,
        (∀ k, (Expr.binary left (.compare k) (.literal (.integer n))).compile limit c =
          .ok (plans k)) ∧
        ∀ env b v, c.Agrees env b → env.Finds left v → s.has v →
          ∃ x, v.exact? = some x ∧ ∀ k, (plans k).holds b ↔ k.Relates x n.toInt) := by
  have hcompile (k : Comparison) :
      (Expr.binary left (.compare k) (.literal (.integer n))).compile limit c =
        ((Literal.integer n).coerce s r.name).map (r.compareValue k) :=
    (compile_of_resolveSubject hr (Operator.compare_mem_comparisons k)).trans
      (Resolved.plan_compare_eq_coerce hs Literal.noConfusion fun _ => Literal.noConfusion)
  constructor
  · intro k kind
    rw [hcompile, ← Literal.coerce_integer_eq_overflow_iff hexact r.name]
    cases (Literal.integer n).coerce s r.name <;> simp [Except.map]
  · intro hrange
    obtain ⟨w, hw, horder⟩ := Literal.exists_coerce_integer hexact hrange r.name
    refine ⟨fun k => r.compareValue k w, fun k => by rw [hcompile, hw]; rfl,
      fun env b v hagrees hfinds hv => ?_⟩
    obtain ⟨hreached, hread⟩ := hagrees.reading_of_finds hr hfinds
    obtain ⟨x, o, hx, ho, hcompares⟩ := horder v hv
    refine ⟨x, hx, fun k => ?_⟩
    rw [Resolved.holds_compareValue_of_reached hreached hread, ho]
    exact Comparison.holds_iff_relates hcompares k

/-! ### An example -/

namespace Receipts

/-- More things than a signed number can count, at a price with two places. -/
def bulk : Record := receipt (.midnight ⟨0⟩) ⟨100, 2⟩ 18446744073709551615

/-- A count that no signed number reaches is greater than the greatest of these, and cannot be
compared with a number below zero; a price of 1.00 is equal to one. -/
theorem compile_bulk :
    Context.resolveSubject ⟨⟨schema, schema.root, [], 3⟩, []⟩ (.path ⟨"sale", ["Count"]⟩) =
      .ok ⟨⟨0, ["Sale", "Count"]⟩, [⟨0, ["Sale"]⟩], .scalar (.integer .u64),
        Path.text ⟨"sale", ["Count"]⟩⟩ ∧
      Context.resolveSubject ⟨⟨schema, schema.root, [], 3⟩, []⟩ (.path ⟨"sale", ["Price"]⟩) =
      .ok ⟨⟨0, ["Sale", "Price"]⟩, [⟨0, ["Sale"]⟩], .scalar .decimal,
        Path.text ⟨"sale", ["Price"]⟩⟩ ∧
      PropertyTree.compile ⟨schema, schema.root, [], 3⟩ 3
        (.binary (.path ⟨"sale", ["Count"]⟩) (.compare .gt) (.literal (.integer (-1)))) =
          .error (.overflow (-1) .u64) ∧
      (∃ plan, PropertyTree.compile ⟨schema, schema.root, [], 3⟩ 3
        (.binary (.path ⟨"sale", ["Count"]⟩) (.compare .gt)
          (.literal (.integer 9223372036854775807))) = .ok plan ∧ plan.passes bulk) ∧
      ∃ plan, PropertyTree.compile ⟨schema, schema.root, [], 3⟩ 3
        (.binary (.path ⟨"sale", ["Price"]⟩) (.compare .eq) (.literal (.integer 1))) = .ok plan ∧
          plan.passes bulk := by
  have hcount : (⟨"Count", none, .scalar (.integer .u64)⟩ : Field) ∈
      (schema.describe ⟨"Sale", 1⟩).fields := by decide
  have hprice : (⟨"Price", none, .scalar .decimal⟩ : Field) ∈
      (schema.describe ⟨"Sale", 1⟩).fields := by decide
  have hagrees := Context.agrees_root build_root bulk
  refine ⟨resolveSubject_sale hcount, resolveSubject_sale hprice, ?_, ?_, ?_⟩
  · have hrange := (Expr.compile_integer 3 (resolveSubject_sale hcount) rfl rfl (-1)).1
    exact (hrange .gt .u64).mpr ⟨rfl, by decide⟩
  · have hplans := (Expr.compile_integer 3 (resolveSubject_sale hcount) rfl rfl
      9223372036854775807).2
    obtain ⟨plans, hcompile, hholds⟩ := hplans fun kind hkind => by
      cases hkind
      decide
    obtain ⟨x, hx, hrelates⟩ := hholds _ _ _ hagrees (finds_sale hcount _ _ _) (by decide)
    refine ⟨plans .gt, hcompile .gt, (hrelates .gt).mpr ?_⟩
    cases hx
    exact Int.cast_lt.mpr (by decide)
  · have hplans := (Expr.compile_integer 3 (resolveSubject_sale hprice) rfl rfl 1).2
    obtain ⟨plans, hcompile, hholds⟩ := hplans fun kind hkind => by cases hkind
    obtain ⟨x, hx, hrelates⟩ := hholds _ _ _ hagrees (finds_sale hprice _ _ _) rfl
    refine ⟨plans .eq, hcompile .eq, (hrelates .eq).mpr ?_⟩
    cases hx
    have hone : (1 : Int64).toInt = 1 := by decide
    norm_num [Comparison.Relates, Number.Decimal.toRat, hone]

end Receipts

end RecordQuery
