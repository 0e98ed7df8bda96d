import RecordQuery.Proofs.Query.Observation

/-!
# Sorting lists of records

What the order of compiled keys is, and that a list of records is sorted by it in the one way in
which a stable sort can. The records need not conform to the schema as a whole: it is enough that
the fields to sort by are missing or hold values of their kinds.
-/

namespace RecordQuery

open Sorting

/-! ### Bit patterns -/

/-- The total order of bit patterns: by the sign, the negative ones first, and then by the bits
below it, which count the other way round where the sign is set. -/
def Number.Binary.Precedes {f : Format} (x y : Binary f) : Prop :=
  match x.negative, y.negative with
  | true, false => True
  | false, true => False
  | false, false => x.magnitude < y.magnitude
  | true, true => y.magnitude < x.magnitude

lemma Number.Binary.totalCompare_eq_lt_iff {f : Format} {x y : Binary f} :
    x.totalCompare y = .lt ↔ x.Precedes y := by
  rw [totalCompare, Int.compare_eq_lt, totalRank, totalRank, Precedes]
  cases x.negative with
  | false =>
    cases y.negative with
    | false => simp
    | true =>
      simp only [Bool.false_eq_true, if_false, if_true, iff_false]
      omega
  | true =>
    cases y.negative with
    | false =>
      simp only [Bool.false_eq_true, if_false, if_true, iff_true]
      omega
    | true => simp

/-! ### One key -/

/-- What is read behind something that is missing is missing. -/
lemma Accessor.read_eq_null {slot : Nat} {front back : List String} {bindings : List Value}
    (h : read ⟨slot, front⟩ bindings = .null) : read ⟨slot, front ++ back⟩ bindings = .null := by
  have hnull : back.foldl Value.get .null = .null := by
    induction back with
    | nil => rfl
    | cons name back ih => exact ih
  rw [read] at h ⊢
  rw [List.foldl_append, h, hnull]

/-- How a key compares records: by the values of its field, with what is missing first and bit
patterns in their total order, and the other way round if it descends. -/
structure SortKey.Compares (k : SortKey) : Prop where
  missing : k.direction = .ascending → ∀ r s, k.value r = .null → k.value s ≠ .null →
    k.compare r s = .lt
  behind : ∀ r front back, k.accessor.path = front ++ back →
    Accessor.read ⟨k.accessor.slot, front⟩ [.record r] = .null → k.value r = .null
  single : k.direction = .ascending → ∀ r s x y, k.value r = .single x → k.value s = .single y →
    (k.compare r s = .lt ↔ x.Precedes y)
  double : k.direction = .ascending → ∀ r s x y, k.value r = .double x → k.value s = .double y →
    (k.compare r s = .lt ↔ x.Precedes y)
  descending : k.direction = .descending → ∀ r s,
    k.compare r s = (compare ⟨k.accessor, .ascending⟩ r s).swap

namespace SortKey

variable {k : SortKey} {r s : Record}

lemma compare_ascending (h : k.direction = .ascending) :
    k.compare r s = (k.value r).sortCompare (k.value s) := by
  rw [compare, h]

lemma compares (k : SortKey) : k.Compares where
  missing h r s hr hs := by
    have hnull : (k.value s).isNull = false := by
      cases hv : k.value s with
      | null => exact absurd hv hs
      | _ => rfl
    rw [compare_ascending h, hr, Value.sortCompare_null_left hnull]
  behind r front back hpath h := by
    have haccessor : k.accessor = ⟨k.accessor.slot, front ++ back⟩ := by rw [← hpath]
    rw [value, haccessor]
    exact Accessor.read_eq_null h
  single h r s x y hx hy := by
    rw [compare_ascending h, hx, hy]
    exact Number.Binary.totalCompare_eq_lt_iff
  double h r s x y hx hy := by
    rw [compare_ascending h, hx, hy]
    exact Number.Binary.totalCompare_eq_lt_iff
  descending h r s := by
    rw [compare, h]
    rfl

end SortKey

/-! ### Several keys -/

namespace SortOrder

variable {o : SortOrder} {earlier later : List SortKey} {k : SortKey} {r s : Record}

/-- Records that no key tells apart compare equal. -/
lemma compare_eq_eq (h : ∀ k ∈ o.keys, k.compare r s = .eq) : o.compare r s = .eq := by
  obtain ⟨keys⟩ := o
  induction keys with
  | nil => rfl
  | cons k keys ih =>
    obtain ⟨hk, hkeys⟩ := List.forall_mem_cons.mp h
    rw [compare_cons, hk, Ordering.eq_then]
    exact ih hkeys

/-- The first key that tells two records apart orders them. -/
lemma compare_of_first (hearlier : ∀ j ∈ earlier, j.compare r s = .eq) (hk : k.compare r s ≠ .eq) :
    compare ⟨earlier ++ k :: later⟩ r s = k.compare r s := by
  induction earlier with
  | nil =>
    rw [List.nil_append, compare_cons]
    cases hcompare : k.compare r s with
    | eq => exact absurd hcompare hk
    | lt => rfl
    | gt => rfl
  | cons j earlier ih =>
    obtain ⟨hj, hearlier⟩ := List.forall_mem_cons.mp hearlier
    rw [List.cons_append, compare_cons, hj, Ordering.eq_then]
    exact ih hearlier

/-- What an order makes of a list of records: a total preorder in which each key matters only for
records that no earlier one tells apart, and the one stable sort by it. -/
structure SortsUniquely {ρ : Type} [HasFields ρ] (o : SortOrder) (l : List ρ) : Prop where
  refl : ∀ r ∈ l, o.compareRecords r r = .eq
  swap : ∀ r ∈ l, ∀ s ∈ l, o.compareRecords s r = (o.compareRecords r s).swap
  trans : ∀ q ∈ l, ∀ r ∈ l, ∀ s ∈ l, (o.compareRecords q r).isLE → (o.compareRecords r s).isLE →
    (o.compareRecords q s).isLE
  keys : ∀ k ∈ o.keys, k.Compares
  first : ∀ earlier k later, o.keys = earlier ++ k :: later → ∀ r s : Record,
    (∀ j ∈ earlier, j.compare r s = .eq) → k.compare r s ≠ .eq → o.compare r s = k.compare r s
  alike : ∀ r s : Record, (∀ k ∈ o.keys, k.compare r s = .eq) → o.compare r s = .eq
  sort : IsStableSort o.compareRecords l (Sequence.sort o l)
  unique : ∀ sorted, IsStableSort o.compareRecords l sorted → sorted = Sequence.sort o l

end SortOrder

/-! ### Compiled orders -/

/-- The field to sort by is missing from a record or holds a value of the scalar that is
declared. -/
def SortTerm.Suits (term : SortTerm) (t : PropertyTree) (r : Record) : Prop :=
  ∀ resolved c, t.walk 0 term.path term.path.text = .ok resolved → resolved.kind.scalar? = some c →
    resolved.accessor.read [.record r] = .null ∨ c.has (resolved.accessor.read [.record r])

/-- All terms suit a record that conforms to the schema. -/
lemma SortTerm.suits_of_conforms {s : Schema} {t : PropertyTree} {depth : Nat} {r : Record}
    (term : SortTerm) (ht : PropertyTree.build s s.root depth = .ok t) (hr : s.Conforms r) :
    term.Suits t r := by
  intro resolved c hresolved hc
  obtain ⟨-, rfl⟩ := PropertyTree.build_eq_ok_iff.mp ht
  have htyped : resolved.Typed s [.record s.root] :=
    Resolved.typed_of_walkFrom hresolved rfl rfl rfl
  exact (htyped.accessor.fits (.cons hr .nil)).has_of_scalar? hc

namespace SortOrder

variable {t : PropertyTree} {terms : List SortTerm} {o : SortOrder}

/-- An order suits the records that the terms it is compiled from suit. -/
lemma suits_of_compile {rs : List Record} (ho : compile t terms = .ok o)
    (hrs : ∀ term ∈ terms, ∀ r ∈ rs, term.Suits t r) : o.Suits rs := by
  obtain ⟨keys, hkeys, ho⟩ := Outcome.bind_eq_ok_iff.mp ho
  rw [Outcome.pure_eq_ok_iff.mp ho]
  intro k hk
  obtain ⟨term, hterm, hkey⟩ := Outcome.exists_of_mem_mapM hkeys hk
  obtain ⟨resolved, hresolved, hkey⟩ := Outcome.bind_eq_ok_iff.mp hkey
  split_ifs at hkey with hprimitive
  rw [Outcome.pure_eq_ok_iff.mp hkey]
  obtain ⟨c, hc⟩ := Option.isSome_iff_exists.mp hprimitive
  exact ⟨c, fun r hr => hrs term hterm r hr resolved c hresolved hc⟩

/-- A compiled order puts a list of records that its terms suit into the one stable order. -/
theorem sortsUniquely_of_compile {ρ : Type} [HasFields ρ] {l : List ρ}
    (ho : compile t terms = .ok o)
    (hl : ∀ term ∈ terms, ∀ r ∈ l, term.Suits t (HasFields.record r)) : o.SortsUniquely l := by
  have hsuits : o.Suits (l.map HasFields.record) := by
    apply suits_of_compile ho
    intro term hterm r hr
    obtain ⟨a, ha, rfl⟩ := List.mem_map.mp hr
    exact hl term hterm a ha
  have hpreorder : IsPreorderOn (· ∈ l) o.compareRecords := isPreorderOn_compareRecords hsuits
  have hsort := isStableSort_sort hpreorder
  refine ⟨?_, ?_, ?_, fun k _ => k.compares, ?_, fun r s => compare_eq_eq, hsort, ?_⟩
  · exact fun r hr => hpreorder.cmp_self hr
  · exact fun r hr s hs => hpreorder.eq_swap hs hr
  · exact fun q hq r hr s hs => hpreorder.isLE_trans hq hr hs
  · intro earlier k later hkeys r s hearlier hk
    obtain ⟨keys⟩ := o
    cases hkeys
    exact compare_of_first hearlier hk
  · exact fun sorted hsorted => hsorted.unique hpreorder hsort

end SortOrder

/-! ### An example -/

namespace People

/-- By age, and from the last name on where that is the same or not known. -/
def terms : List SortTerm := [⟨⟨"age", []⟩, .ascending⟩, ⟨⟨"NAME", []⟩, .descending⟩]

/-- The keys of the terms. -/
def order : SortOrder := ⟨[⟨⟨0, ["Age"]⟩, .ascending⟩, ⟨⟨0, ["Name"]⟩, .descending⟩]⟩

lemma compile_terms : SortOrder.compile ⟨schema, schema.root, [], 3⟩ terms = .ok order := by
  have hage : SortOrder.key people ⟨⟨"age", []⟩, .ascending⟩ =
      .ok ⟨⟨0, ["Age"]⟩, .ascending⟩ :=
    SortOrder.key_of_calls (calls (f := ageField) (by decide) (by decide +kernel)) (by decide)
      (by decide) .ascending
  exact SortOrder.compile_cons hage (SortOrder.compile_cons (key_name .descending) rfl)

/-- The only one whose age is known comes last, and the others from the last name on. -/
theorem sortsUniquely_order :
    SortOrder.compile ⟨schema, schema.root, [], 3⟩ terms = .ok order ∧
      (∀ term ∈ terms, ∀ r ∈ eve :: crowd, term.Suits ⟨schema, schema.root, [], 3⟩ r) ∧
      order.SortsUniquely (eve :: crowd) ∧
      (Sequence.sort order (eve :: crowd)).map (fun r => ((Value.record r).get "Name").text) =
        ["'Zoe'", "'Cy'", "'Bob'", "'Ann'", "'Eve'"] := by
  have heve : schema.Conforms eve :=
    conforms_person (.optional (.scalar (by decide)))
      (by simpa using conforms_person (.null _) (List.forall_mem_nil _))
  have hconforms : ∀ r ∈ eve :: crowd, schema.Conforms r :=
    List.forall_mem_cons.mpr ⟨heve, conforms_of_mem_crowd⟩
  have hsuits : ∀ term ∈ terms, ∀ r ∈ eve :: crowd,
      term.Suits ⟨schema, schema.root, [], 3⟩ r :=
    fun term _ r hr => term.suits_of_conforms build_root (hconforms r hr)
  exact ⟨compile_terms, hsuits, SortOrder.sortsUniquely_of_compile compile_terms hsuits, rfl⟩

end People

end RecordQuery
