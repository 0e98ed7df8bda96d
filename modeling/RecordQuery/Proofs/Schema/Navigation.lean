import RecordQuery.Proofs.Schema.Lookup

/-!
# How far a property tree reaches

A path is looked up name by name, each in the tree below the property before. What is found is the
field that the names lead to through the record types of the schema, as long as there are no more
names than the limit. A record type can then not be met more often than the limit either, so that
the cut at repetitions changes nothing.
-/

namespace RecordQuery

/-! ### Looking up a path -/

/-- The record type that a field leads to, as a record or as a collection of records. -/
def Field.target? (f : Field) : Option TypeRef := (f.kind.element?.getD f.kind).record?

/-- The property that a list of names means, each but the first one in the tree below the property
before. -/
def PropertyTree.find? (t : PropertyTree) : (names : List String) → Option Property
  | [] => none
  | [name] => t.get? name
  | name :: next :: rest => do
    let p ← t.get? name
    let below ← p.nested?
    below.find? (next :: rest)

/-- The field that a list of names means from a record type on, however many they are. -/
def Schema.find? (s : Schema) (t : TypeRef) : (names : List String) → Option Field
  | [] => none
  | [name] => if name.isEmpty then none else (s.describe t).field? name
  | name :: next :: rest =>
    if name.isEmpty then none
    else do
      let f ← (s.describe t).field? name
      let target ← f.target?
      s.find? target (next :: rest)

namespace PropertyTree

variable {t below : PropertyTree} {name : String} {names : List String} {p : Property}

/-- Fewer types than the limit are passed on the way to a tree that is not cut, and so none of them
is met as often as the limit. -/
lemma nested?_eq_of_lt (h : p.tree.above.length + 1 < p.tree.limit) :
    p.nested? = p.field.target?.map fun target =>
      ⟨p.tree.schema, target, p.tree.type.index :: p.tree.above, p.tree.limit⟩ := by
  have htarget : p.target? = p.field.target? := rfl
  rw [Property.nested?, htarget]
  cases p.field.target? with
  | none => rfl
  | some target =>
    have hcount := List.count_le_length (a := target.index) (l := p.tree.type.index :: p.tree.above)
    rw [List.length_cons] at hcount
    simp only [Option.map_some]
    rw [if_neg (by omega)]

lemma above_of_nested? (h : p.nested? = some below) :
    below.above = p.tree.type.index :: p.tree.above ∧ below.limit = p.tree.limit := by
  rw [Property.nested?] at h
  cases htarget : p.target? with
  | none => simp [htarget] at h
  | some target =>
    simp only [htarget] at h
    split_ifs at h
    cases h
    exact ⟨rfl, rfl⟩

/-- Names that lead deeper than the limit find nothing. -/
lemma find?_eq_none_of_lt (h : t.limit < t.above.length + names.length) : t.find? names = none := by
  induction names generalizing t with
  | nil => rfl
  | cons name rest ih =>
    rw [List.length_cons] at h
    cases rest with
    | nil =>
      have hlimit : t.limit ≤ t.above.length := Nat.le_of_lt_succ h
      rw [find?, get?_eq, if_pos (.inr hlimit)]
    | cons next rest =>
      rw [Option.eq_none_iff_forall_ne_some]
      intro q h'
      obtain ⟨p, hp, hrest⟩ := Option.bind_eq_some_iff.mp h'
      obtain ⟨below, hbelow, hq⟩ := Option.bind_eq_some_iff.mp hrest
      obtain ⟨-, rfl⟩ := field?_of_get? hp
      obtain ⟨habove, hlimit⟩ := above_of_nested? hbelow
      have hnone : below.find? (next :: rest) = none := by
        apply ih
        rw [habove, hlimit, List.length_cons]
        omega
      rw [hnone] at hq
      cases hq

/-- Up to the limit a tree finds the field that the names lead to. -/
lemma map_field_find?_of_le (h : t.above.length + names.length ≤ t.limit) :
    (t.find? names).map Property.field = t.schema.find? t.type names := by
  -- a name less to go is a type more above, so the sum stays the same down the tree
  induction names generalizing t with
  | nil => rfl
  | cons name rest ih =>
    rw [List.length_cons] at h
    have hlimit : ¬ t.limit ≤ t.above.length := by omega
    by_cases hname : name.isEmpty
    · cases rest <;> simp [find?, Schema.find?, get?_eq, hname]
    · cases rest with
      | nil => simp [find?, Schema.find?, get?_eq, hname, hlimit, record, Function.comp_def]
      | cons next rest =>
        rw [find?, Schema.find?, get?_eq]
        cases hf : (t.schema.describe t.type).field? name with
        | none => simp [hname, hlimit, record, hf]
        | some f =>
          have hlt : t.above.length + 1 < t.limit := by
            rw [List.length_cons] at h
            omega
          have hnested := nested?_eq_of_lt (p := ⟨t, f⟩) hlt
          cases htarget : f.target? with
          | none => simp [hname, hlimit, record, hf, hnested, htarget]
          | some target =>
            have hbelow := ih (t := ⟨t.schema, target, t.type.index :: t.above, t.limit⟩) (by
              simp only [List.length_cons] at h ⊢
              omega)
            simp [hname, hlimit, record, hf, hnested, htarget, hbelow]

end PropertyTree

/-! ### Declared paths -/

/-- A path through declared fields: their wire names, the numbers of the record types that they are
declared by, and the last field. -/
inductive Schema.Navigates (s : Schema) : TypeRef → List String → List Nat → Field → Prop
  | last {t : TypeRef} {f : Field} (hf : (s.describe t).Declares f) :
      Navigates s t [f.wireName] [t.index] f
  | step {t target : TypeRef} {f g : Field} {names : List String} {types : List Nat}
      (hf : (s.describe t).Declares f) (htarget : f.target? = some target)
      (h : Navigates s target names types g) :
      Navigates s t (f.wireName :: names) (t.index :: types) g

namespace Schema.Navigates

variable {s : Schema} {t : TypeRef} {names : List String} {types : List Nat} {f : Field}

lemma length_eq (h : s.Navigates t names types f) : types.length = names.length := by
  induction h with
  | last => rfl
  | step _ _ _ ih => rw [List.length_cons, List.length_cons, ih]

lemma find?_eq (h : s.Navigates t names types f) : s.find? t names = some f := by
  induction h with
  | last hf =>
    have hname := hf.wireName_ne
    simp [Schema.find?, hf.calls.field?_eq, hname]
  | step hf htarget h ih =>
    have hname := hf.wireName_ne
    cases h <;> simpa [Schema.find?, hf.calls.field?_eq, hname, htarget] using ih

end Schema.Navigates

/-- A tree reaches a declared path exactly if the path has no more names than the limit. That no
record type is met more often than the limit follows, and is not enough. -/
theorem PropertyTree.map_field_find?_of_navigates {s : Schema} {type : TypeRef} {limit : Nat}
    {t : PropertyTree} {names : List String} {types : List Nat} {f : Field}
    (ht : build s type limit = .ok t) (h : s.Navigates type names types f) :
    (t.find? names).map Property.field = (if names.length ≤ limit then some f else none) ∧
      (names.length ≤ limit → ∀ n, types.count n ≤ limit) := by
  obtain ⟨-, rfl⟩ := build_eq_ok_iff.mp ht
  constructor
  · split_ifs with hlength
    · rw [map_field_find?_of_le (by simpa using hlength)]
      exact h.find?_eq
    · rw [find?_eq_none_of_lt (by simpa using hlength)]
      rfl
  · intro hlength n
    exact Nat.le_trans List.count_le_length (h.length_eq ▸ hlength)

/-! ### Examples -/

namespace People

lemma navigates_friends :
    schema.Navigates ⟨"Person", 0⟩ ["friends", "boss", "Name"] [0, 0, 0]
      ⟨"Name", none, .scalar .string⟩ := by
  have hname : nameField ∈ (schema.describe ⟨"Person", 0⟩).fields := by decide
  have hboss : bossField ∈ (schema.describe ⟨"Person", 0⟩).fields := by decide
  have hfriends : friendsField ∈ (schema.describe ⟨"Person", 0⟩).fields := by decide
  exact .step (tellsApart_schema.declares hfriends) rfl
    (.step (tellsApart_schema.declares hboss) rfl (.last (tellsApart_schema.declares hname)))

/-- A path through three people is reached within three levels. -/
theorem find?_friends :
    (PropertyTree.find? ⟨schema, schema.root, [], 3⟩ ["friends", "boss", "Name"]).map
        Property.field = some ⟨"Name", none, .scalar .string⟩ ∧
      ∀ n, [0, 0, 0].count n ≤ 3 := by
  have htree : PropertyTree.build schema ⟨"Person", 0⟩ 3 = .ok ⟨schema, schema.root, [], 3⟩ := rfl
  obtain ⟨hfind, hcount⟩ := PropertyTree.map_field_find?_of_navigates htree navigates_friends
  exact ⟨hfind, hcount (by decide)⟩

end People

namespace Orders

/-- Orders of a customer with a name. -/
def schema : Schema where
  types := [⟨"Order", [⟨"Customer", none, .record ⟨"Customer", 1⟩⟩]⟩,
    ⟨"Customer", [⟨"Name", none, .scalar .string⟩]⟩]
  root := ⟨"Order", 0⟩

lemma tellsApart_schema : schema.TellsApart := by
  decide +kernel

/-- Two record types that are met once each are more than a tree with the limit one shows. -/
theorem find?_customer_name :
    PropertyTree.build schema schema.root 1 = .ok ⟨schema, schema.root, [], 1⟩ ∧
      schema.Navigates schema.root ["Customer", "Name"] [0, 1] ⟨"Name", none, .scalar .string⟩ ∧
      (∀ n, [0, 1].count n ≤ 1) ∧
      PropertyTree.find? ⟨schema, schema.root, [], 1⟩ ["Customer", "Name"] = none := by
  have hcustomer : (schema.describe ⟨"Order", 0⟩).Declares
      ⟨"Customer", none, .record ⟨"Customer", 1⟩⟩ :=
    tellsApart_schema.declares List.mem_cons_self
  have hname : (schema.describe ⟨"Customer", 1⟩).Declares ⟨"Name", none, .scalar .string⟩ :=
    tellsApart_schema.declares List.mem_cons_self
  have hcount : [0, 1].Nodup := by decide
  exact ⟨rfl, .step hcustomer rfl (.last hname), fun n => List.nodup_iff_count.mp hcount n,
    PropertyTree.find?_eq_none_of_lt (by decide)⟩

end Orders

end RecordQuery
