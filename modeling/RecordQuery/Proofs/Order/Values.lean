import RecordQuery.Proofs.Order.StableSort
import RecordQuery.Proofs.Schema.Conformance

/-!
# The order of values

Values of one scalar are in a total preorder, with what is missing before all of them. So are the
records whose fields have such values, by one key or by several. Of values of any kinds it is only
certain that the order is reversed the other way round.
-/

namespace RecordQuery

/-! ### Plain values -/

instance : Std.TransCmp Text.compare := inferInstanceAs (Std.TransOrd String)

instance : Std.LawfulEqCmp Text.compare := inferInstanceAs (Std.LawfulEqOrd String)

instance : Std.TransCmp Guid.compare :=
  inferInstanceAs (Std.TransCmp (compareOn fun g : Guid => g.bits.toNat))

instance : Std.TransCmp Date.compare := inferInstanceAs (Std.TransCmp (compareOn Date.day))

instance : Std.TransCmp fun s t : Instant => s.date.compare t.date where
  eq_swap := Std.OrientedCmp.eq_swap
  isLE_trans := Std.TransCmp.isLE_trans

instance : Std.TransCmp Instant.compare :=
  inferInstanceAs (Std.TransCmp (compareLex (fun s t : Instant => s.date.compare t.date)
    (compareLex (compareOn Instant.second) (compareOn Instant.nanosecond))))

instance {f : Number.Format} : Std.TransCmp (Number.Binary.totalCompare (f := f)) :=
  inferInstanceAs (Std.TransCmp (compareOn Number.Binary.totalRank))

lemma Number.Decimal.isLE_compare {x y : Decimal} :
    (x.compare y).isLE ↔ x.coefficient * tenTo y.scale ≤ y.coefficient * tenTo x.scale := by
  rw [compare, Int.isLE_compare]

/-- Decimals are compared as quotients are, by multiples that have a common denominator. -/
instance : Std.TransCmp Number.Decimal.compare where
  eq_swap := Std.OrientedOrd.eq_swap
  isLE_trans {x y z} hxy hyz := by
    rw [Number.Decimal.isLE_compare] at hxy hyz ⊢
    have hpos : (0 : Int) < Number.tenTo y.scale := Int.natCast_pos.mpr (Number.tenTo_pos y.scale)
    refine Int.le_of_mul_le_mul_right ?_ hpos
    calc x.coefficient * Number.tenTo z.scale * Number.tenTo y.scale
        = x.coefficient * Number.tenTo y.scale * Number.tenTo z.scale := Int.mul_right_comm ..
      _ ≤ y.coefficient * Number.tenTo x.scale * Number.tenTo z.scale :=
        Int.mul_le_mul_of_nonneg_right hxy (Int.natCast_nonneg _)
      _ = y.coefficient * Number.tenTo z.scale * Number.tenTo x.scale := Int.mul_right_comm ..
      _ ≤ z.coefficient * Number.tenTo y.scale * Number.tenTo x.scale :=
        Int.mul_le_mul_of_nonneg_right hyz (Int.natCast_nonneg _)
      _ = z.coefficient * Number.tenTo x.scale * Number.tenTo y.scale := Int.mul_right_comm ..

namespace Sorting.IsPreorderOn

variable {α β : Type} {P : α → Prop} {Q : β → Prop} {cmp cmp' : α → α → Ordering}
variable {cmpβ : β → β → Ordering}

/-- Images are in the preorder of what they are images of. -/
lemma of_image [Std.TransCmp cmpβ] (f : β → α) (hP : ∀ a, P a → ∃ b, a = f b)
    (hcmp : ∀ b c, cmp (f b) (f c) = cmpβ b c) : IsPreorderOn P cmp where
  eq_swap {a b} := by
    obtain ⟨a, ha⟩ := a
    obtain ⟨b, hb⟩ := b
    obtain ⟨x, rfl⟩ := hP a ha
    obtain ⟨y, rfl⟩ := hP b hb
    simp only [hcmp]
    exact Std.OrientedCmp.eq_swap
  isLE_trans {a b c} hab hbc := by
    obtain ⟨a, ha⟩ := a
    obtain ⟨b, hb⟩ := b
    obtain ⟨c, hc⟩ := c
    obtain ⟨x, rfl⟩ := hP a ha
    obtain ⟨y, rfl⟩ := hP b hb
    obtain ⟨z, rfl⟩ := hP c hc
    simp only [hcmp] at hab hbc ⊢
    exact Std.TransCmp.isLE_trans hab hbc

/-- What is compared by something in a preorder is in a preorder. -/
lemma comap {f : α → β} (h : IsPreorderOn Q cmpβ) (hf : ∀ a, P a → Q (f a)) :
    IsPreorderOn P fun a b => cmpβ (f a) (f b) where
  eq_swap {a b} := h.eq_swap (hf a a.2) (hf b b.2)
  isLE_trans {a b c} := h.isLE_trans (hf a a.2) (hf b b.2) (hf c c.2)

lemma swap (h : IsPreorderOn P cmp) : IsPreorderOn P fun a b => (cmp a b).swap where
  eq_swap {a b} := congrArg Ordering.swap (h.eq_swap a.2 b.2)
  isLE_trans {a b c} hab hbc := by
    have hba : (cmp b a).isLE := h.eq_swap b.2 a.2 ▸ hab
    have hcb : (cmp c b).isLE := h.eq_swap c.2 b.2 ▸ hbc
    have hca := h.isLE_trans c.2 b.2 a.2 hcb hba
    rw [h.eq_swap c.2 a.2] at hca
    exact hca

/-- Where a preorder does not tell elements apart, another one may. -/
lemma lex (h : IsPreorderOn P cmp) (h' : IsPreorderOn P cmp') :
    IsPreorderOn P fun a b => (cmp a b).then (cmp' a b) := by
  have htrans : Std.TransCmp fun a b : {x // P x} => cmp a.1 b.1 := h
  have htrans' : Std.TransCmp fun a b : {x // P x} => cmp' a.1 b.1 := h'
  exact inferInstanceAs (Std.TransCmp (compareLex (fun a b : {x // P x} => cmp a.1 b.1)
    fun a b : {x // P x} => cmp' a.1 b.1))

/-- Nothing need be told apart. -/
lemma const_eq : IsPreorderOn P fun _ _ => .eq where
  eq_swap := rfl
  isLE_trans _ _ := rfl

end Sorting.IsPreorderOn

/-! ### Values of one scalar -/

open Sorting

/-- The scalar that a plain value is of. A variant belongs to many enumerations, which all compare
alike, so it is taken to be of the one without variants. -/
def Value.scalar? : Value → Option Scalar
  | bool _ => some .bool
  | integer k _ => some (.integer k)
  | single _ => some .single
  | double _ => some .double
  | decimal _ => some .decimal
  | string _ => some .string
  | guid _ => some .guid
  | instant _ => some .instant
  | date _ => some .date
  | enum _ => some (.enum [])
  | null | record _ | list _ => none

/-- The scalar that its values are of. -/
def Scalar.bare : Scalar → Scalar
  | enum _ => enum []
  | c => c

lemma Scalar.scalar?_of_has {c : Scalar} {v : Value} (h : c.has v) : v.scalar? = some c.bare := by
  cases c <;> cases v <;> simp_all [has, bare, Value.scalar?]

/-- Values that are of one scalar are in a total preorder. -/
lemma Value.isPreorderOn_sortCompare_of_scalar? (c : Scalar) :
    IsPreorderOn (fun v => v.scalar? = some c) sortCompare := by
  cases c with
  | bool =>
    have hcmp : ∀ b c, (bool b).sortCompare (bool c) = compare b c := fun _ _ => rfl
    exact .of_image bool (fun v hv => by cases v <;> simp_all [scalar?]) hcmp
  | integer k =>
    have hcmp : ∀ m n, (integer k m).sortCompare (integer k n) = compare m n := by
      simp [sortCompare, compare?]
    exact .of_image (integer k) (fun v hv => by cases v <;> simp_all [scalar?]) hcmp
  | single =>
    have hcmp : ∀ x y, (single x).sortCompare (single y) = x.totalCompare y := fun _ _ => rfl
    exact .of_image single (fun v hv => by cases v <;> simp_all [scalar?]) hcmp
  | double =>
    have hcmp : ∀ x y, (double x).sortCompare (double y) = x.totalCompare y := fun _ _ => rfl
    exact .of_image double (fun v hv => by cases v <;> simp_all [scalar?]) hcmp
  | decimal =>
    have hcmp : ∀ x y, (decimal x).sortCompare (decimal y) = x.compare y := fun _ _ => rfl
    exact .of_image decimal (fun v hv => by cases v <;> simp_all [scalar?]) hcmp
  | string =>
    have hcmp : ∀ s t, (string s).sortCompare (string t) = Text.compare s t := fun _ _ => rfl
    exact .of_image string (fun v hv => by cases v <;> simp_all [scalar?]) hcmp
  | guid =>
    have hcmp : ∀ g h, (guid g).sortCompare (guid h) = g.compare h := fun _ _ => rfl
    exact .of_image guid (fun v hv => by cases v <;> simp_all [scalar?]) hcmp
  | instant =>
    have hcmp : ∀ s t, (instant s).sortCompare (instant t) = s.compare t := fun _ _ => rfl
    exact .of_image instant (fun v hv => by cases v <;> simp_all [scalar?]) hcmp
  | date =>
    have hcmp : ∀ d e, (date d).sortCompare (date e) = d.compare e := fun _ _ => rfl
    exact .of_image date (fun v hv => by cases v <;> simp_all [scalar?]) hcmp
  | enum variants =>
    have hcmp : ∀ s t, (enum s).sortCompare (enum t) = Text.compare s t := fun _ _ => rfl
    exact .of_image enum (fun v hv => by cases v <;> simp_all [scalar?]) hcmp

/-- The values of a scalar are in a total preorder. -/
lemma Scalar.isPreorderOn_sortCompare (c : Scalar) :
    IsPreorderOn (fun v => c.has v) Value.sortCompare :=
  (Value.isPreorderOn_sortCompare_of_scalar? c.bare).mono fun _ => scalar?_of_has

/-- No value comes before or after itself. -/
lemma Value.sortCompare_self (v : Value) : v.sortCompare v = .eq := by
  cases hscalar : v.scalar? with
  | some c => exact (isPreorderOn_sortCompare_of_scalar? c).cmp_self hscalar
  | none => cases v <;> first | rfl | cases hscalar

/-- What is missing comes before all values. -/
lemma Value.sortCompare_null_left {v : Value} (h : v.isNull = false) :
    null.sortCompare v = .lt := by
  cases v <;> first | rfl | cases h

lemma Value.sortCompare_null_right {v : Value} (h : v.isNull = false) :
    v.sortCompare null = .gt := by
  cases v <;> first | rfl | cases h

/-! ### Values of any kinds -/

namespace Value

variable {a b : Value}

/-- Two values that are there are told apart only if they are of one scalar. -/
lemma sortCompare_of_unrelated (ha : a.isNull = false) (hb : b.isNull = false)
    (h : ∀ s, a.scalar? = some s → b.scalar? ≠ some s) : a.sortCompare b = .eq := by
  have hinteger (k l : IntegerKind) (m n : Int) (hkl : k ≠ l) :
      (integer k m).sortCompare (integer l n) = .eq := by
    simp [sortCompare, compare?, hkl]
  -- a pair either has no order, or is of one scalar or missing in part, which is excluded
  cases a <;> cases b <;>
    first
    | rfl
    | exact absurd rfl (h _ rfl)
    | exact hinteger _ _ _ _ fun hkl => h _ rfl (hkl ▸ rfl)
    | exact absurd ha.symm Bool.false_ne_true
    | exact absurd hb.symm Bool.false_ne_true

lemma eq_null_of_isNull (h : a.isNull = true) : a = .null := by
  cases a <;> first | rfl | cases h

/-- The other way round the order is reversed. -/
lemma sortCompare_eq_swap (a b : Value) : a.sortCompare b = (b.sortCompare a).swap := by
  cases ha : a.isNull with
  | true =>
    obtain rfl := eq_null_of_isNull ha
    cases hb : b.isNull with
    | true => rw [eq_null_of_isNull hb]; rfl
    | false => rw [sortCompare_null_left hb, sortCompare_null_right hb]; rfl
  | false =>
    cases hb : b.isNull with
    | true =>
      obtain rfl := eq_null_of_isNull hb
      rw [sortCompare_null_left ha, sortCompare_null_right ha]; rfl
    | false =>
      by_cases hscalar : ∃ s, a.scalar? = some s ∧ b.scalar? = some s
      · obtain ⟨s, hs, hs'⟩ := hscalar
        exact (isPreorderOn_sortCompare_of_scalar? s).eq_swap hs hs'
      · have hunrelated : ∀ s, a.scalar? = some s → b.scalar? ≠ some s :=
          fun s hs hs' => hscalar ⟨s, hs, hs'⟩
        rw [sortCompare_of_unrelated ha hb hunrelated,
          sortCompare_of_unrelated hb ha fun s hs hs' => hunrelated s hs' hs]
        rfl

end Value

/-- The values of a scalar and what is missing are in a total preorder. -/
theorem Value.isPreorderOn_sortCompare (c : Scalar) :
    IsPreorderOn (fun v => v = .null ∨ c.has v) sortCompare where
  eq_swap := sortCompare_eq_swap _ _
  isLE_trans {u v w} huv hvw := by
    obtain ⟨u, rfl | hu⟩ := u
    · obtain ⟨w, rfl | hw⟩ := w
      · rfl
      · simp [sortCompare_null_left (Scalar.isNull_of_has hw)]
    · obtain ⟨v, rfl | hv⟩ := v
      · simp [sortCompare_null_right (Scalar.isNull_of_has hu)] at huv
      · obtain ⟨w, rfl | hw⟩ := w
        · simp [sortCompare_null_right (Scalar.isNull_of_has hv)] at hvw
        · exact c.isPreorderOn_sortCompare.isLE_trans hu hv hw huv hvw

/-! ### Records -/

/-- A key reads from a record what is missing or a value of a scalar. -/
def SortKey.Suits (k : SortKey) (c : Scalar) (r : Record) : Prop :=
  k.value r = .null ∨ c.has (k.value r)

lemma SortKey.isPreorderOn_compare (k : SortKey) (c : Scalar) :
    IsPreorderOn (k.Suits c) k.compare := by
  have hvalue : IsPreorderOn (k.Suits c) fun r s => (k.value r).sortCompare (k.value s) :=
    (Value.isPreorderOn_sortCompare c).comap fun _ hr => hr
  cases hdirection : k.direction with
  | ascending =>
    have hcompare : k.compare = fun r s => (k.value r).sortCompare (k.value s) := by
      funext r s
      simp [compare, hdirection]
    rw [hcompare]
    exact hvalue
  | descending =>
    have hcompare : k.compare = fun r s => ((k.value r).sortCompare (k.value s)).swap := by
      funext r s
      simp [compare, hdirection]
    rw [hcompare]
    exact hvalue.swap

/-- Every key of an order reads from all records what is missing or a value of one scalar. -/
def SortOrder.Suits (o : SortOrder) (rs : List Record) : Prop :=
  ∀ k ∈ o.keys, ∃ c, ∀ r ∈ rs, k.Suits c r

/-- Records are in a total preorder by the keys of an order that suits them. -/
theorem SortOrder.isPreorderOn_compare {o : SortOrder} {rs : List Record} (h : o.Suits rs) :
    IsPreorderOn (· ∈ rs) o.compare := by
  obtain ⟨keys⟩ := o
  induction keys with
  | nil => exact .const_eq
  | cons k keys ih =>
    obtain ⟨c, hk⟩ := h k List.mem_cons_self
    have hkey : IsPreorderOn (· ∈ rs) k.compare := (k.isPreorderOn_compare c).mono hk
    exact hkey.lex (ih fun k hk => h k (List.mem_cons_of_mem _ hk))

end RecordQuery
