import RecordQuery.Proofs.Plan.Rules
import RecordQuery.Proofs.Schema.Navigation
import RecordQuery.Proofs.Syntax.Faults
import RecordQuery.Proofs.Syntax.Recognition
import RecordQuery.Proofs.Syntax.Shape

/-!
# Faults of compilation

A filter that is read but does not compile names something that the schema has not, or has a literal
that does not suit its property. The cases that compilation provides for trees that no text gives
never come up.
-/

namespace RecordQuery

open Outcome

/-- Holds of the faults of a filter beside a schema: a name means nothing there, or a literal does
not suit what it is compared with. -/
def QueryError.isOfSchema : QueryError → Bool
  | unknownProperty .. | notNavigable _ | notACollection _ | collectionComparison _
  | nonPrimitiveLambdaParameter _ | overflow .. | typeMismatch .. | unknownEnumValue .. => true
  | _ => false

lemma QueryError.category_ne_of_isOfSchema {fault : QueryError} (h : fault.isOfSchema) :
    fault.category ≠ .syntactic := by
  cases fault <;> simp_all [isOfSchema, category]

/-- A step of compilation fails with faults beside the schema only. -/
abbrev FailsOnSchema {α : Type} (x : Except QueryError α) : Prop :=
  FailsWithin (fun fault => fault.isOfSchema) x

lemma failsOnSchema_error {α : Type} {fault : QueryError} (h : fault.isOfSchema) :
    FailsOnSchema (.error fault : Except QueryError α) :=
  FailsWithin.error_iff.mpr h

/-! ### Names -/

lemma PropertyTree.failsOnSchema_walkFrom (t : PropertyTree) (slot : Nat) (passed : List String)
    (written first : String) (rest : List String) :
    FailsOnSchema (t.walkFrom slot passed written first rest) := by
  induction rest generalizing t passed first with
  | nil =>
    rw [walkFrom]
    split
    · exact failsOnSchema_error rfl
    · exact .ok _
  | cons next rest ih =>
    rw [walkFrom]
    split
    · exact failsOnSchema_error rfl
    · split_ifs
      · exact failsOnSchema_error rfl
      · split
        · exact failsOnSchema_error rfl
        · exact (ih _ _ _).bind fun _ _ => .pure _

lemma PropertyTree.failsOnSchema_walk (t : PropertyTree) (slot : Nat) (p : Path)
    (written : String) : FailsOnSchema (t.walk slot p written) :=
  t.failsOnSchema_walkFrom slot [] written p.first p.rest

lemma Context.failsOnSchema_resolve (c : Context) (p : Path) : FailsOnSchema (c.resolve p) := by
  rw [resolve]
  split
  · rw [resolveVariable]
    split
    · split_ifs
      · exact .ok _
      · exact failsOnSchema_error rfl
    · split
      · exact failsOnSchema_error rfl
      · exact PropertyTree.failsOnSchema_walk _ _ _ _
  · split
    · split
      · exact PropertyTree.failsOnSchema_walk _ _ _ _
      · exact failsOnSchema_error rfl
    · exact PropertyTree.failsOnSchema_walk _ _ _ _

/-- The elements of every collection have a tree, if there is a limit at all. -/
lemma Context.failsOnSchema_elementTree {limit : Nat} (hlimit : 0 < limit) (c : Context)
    (k : Kind) : FailsOnSchema (c.elementTree limit k) := by
  rw [elementTree]
  split
  · exact .ok _
  · rw [PropertyTree.build, if_neg (Nat.ne_of_gt hlimit)]
    exact .pure _

/-! ### Literals -/

lemma Literal.failsOnSchema_coerce (l : Literal) (s : Scalar) (property : String) :
    FailsOnSchema (l.coerce s property) := by
  have hvariant (variants : List String) (word : String) :
      FailsOnSchema (coerce.variant property variants word) := by
    rw [coerce.variant]
    split
    · exact .ok _
    · exact failsOnSchema_error rfl
  unfold coerce
  split
  case h_1 =>
    split_ifs
    · exact .ok _
    · exact failsOnSchema_error rfl
  case h_10 => exact hvariant _ _
  case h_11 => exact hvariant _ _
  case h_16 => exact failsOnSchema_error rfl
  all_goals exact .ok _

/-- An operator of comparisons and a literal that can stand beside it make a plan, or the schema is
against it. -/
lemma Resolved.failsOnSchema_plan {r : Resolved} {o : Operator} {l : Literal}
    (ho : o ∈ Operator.comparisons) (hcontains : o = .contains → ∃ s, l = .string s)
    (hnull : l = .null → o = .compare .eq ∨ o = .compare .ne) : FailsOnSchema (r.plan o l) := by
  rw [plan]
  split_ifs with hcollection hl
  · exact failsOnSchema_error rfl
  · rcases hnull hl with rfl | rfl <;> exact .ok _
  · split
    · exact failsOnSchema_error rfl
    · rename_i scalar _
      cases o with
      | contains =>
        obtain ⟨needle, rfl⟩ := hcontains rfl
        simp only [search]
        split_ifs
        · exact .ok _
        · exact failsOnSchema_error rfl
      | compare c =>
        simp only [compare]
        split
        · exact .ok _
        · exact (l.failsOnSchema_coerce scalar r.name).bind fun _ _ => .pure _
      | and => exact absurd ho (by decide)
      | or => exact absurd ho (by decide)
      | complete => exact absurd ho (by decide)

/-! ### Expressions -/

lemma Expr.subject_property (p : Path) : (Parser.property p).subject = .ok p := by
  obtain ⟨first, rest⟩ := p
  cases rest <;> rfl

/-- A tree of tokens compiles, or the schema is against it. -/
lemma Expr.MadeOf.failsOnSchema_compile {T : Token → Prop} {e : Expr} (h : e.MadeOf T) {limit : Nat}
    (hlimit : 0 < limit) (c : Context) : FailsOnSchema (e.compile limit c) := by
  induction h generalizing c with
  | comparison hp ho htakes hvalue hT =>
    obtain ⟨hcontains, hnull⟩ := htakes.literal ho hvalue
    rw [compile_comparison ho, subject_property]
    exact (c.failsOnSchema_resolve _).bind fun _ _ =>
      Resolved.failsOnSchema_plan ho hcontains hnull
  | completed hcollection hparameter h ih =>
    refine (c.failsOnSchema_resolve _).bind fun resolved _ => ?_
    split
    · exact failsOnSchema_error rfl
    · exact (c.failsOnSchema_elementTree hlimit _).bind fun _ _ =>
        (ih _).bind fun _ _ => .pure _
  | joined ho hl hr ihl ihr =>
    rcases Operator.precedence_of_mem_joints ho with ⟨rfl, -⟩ | ⟨rfl, -⟩
    · exact (ihl c).bind fun _ _ => (ihr c).bind fun _ _ => .pure _
    · exact (ihl c).bind fun _ _ => (ihr c).bind fun _ _ => .pure _

/-- Whatever a text is refused for is a fault of the text, and whatever a filter that has been read
is refused for is a fault beside the schema. -/
theorem Expr.isOfText_and_isOfSchema (s : String) :
    (∀ fault, ofText s = .error fault →
      fault.category = .syntactic ∨ ∃ kind literal, fault = .invalidLiteral kind literal) ∧
    ∀ e, ofText s = .ok e → ∀ (schema : Schema) (depth limit : Nat), 0 < depth → 0 < limit →
      ∃ t, PropertyTree.build schema schema.root depth = .ok t ∧
        ∀ fault, t.compile limit e = .error fault → fault.isOfSchema ∧
          fault.category ≠ .syntactic ∧ (∀ options, fault ≠ .invalidOptions options) ∧
          ∀ kind literal, fault ≠ .invalidLiteral kind literal := by
  refine ⟨failsOnText_ofText s, fun e he schema depth limit hdepth hlimit => ?_⟩
  have hbuild : PropertyTree.build schema schema.root depth =
      .ok ⟨schema, schema.root, [], depth⟩ :=
    PropertyTree.build_eq_ok_iff.mpr ⟨Nat.ne_of_gt hdepth, rfl⟩
  have hmade : e.MadeOf fun _ => True := (derives_of_ofText he).madeOf fun _ _ => trivial
  refine ⟨_, hbuild, fun fault hfault => ?_⟩
  have hschema : fault.isOfSchema := hmade.failsOnSchema_compile hlimit _ fault hfault
  refine ⟨hschema, QueryError.category_ne_of_isOfSchema hschema, ?_, ?_⟩
  · rintro options rfl
    cases hschema
  · rintro kind literal rfl
    cases hschema

end RecordQuery
