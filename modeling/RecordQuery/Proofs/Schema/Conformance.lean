import RecordQuery.Proofs.Schema.Lookup
import RecordQuery.Value

/-!
# Values of declared kinds

A value fits a kind if it is missing or is what the kind says: a plain value of the scalar, a record
whose declared fields fit in turn, or a collection whose elements do. Records may keep fields that
are not declared, and nothing is asked of these.
-/

namespace RecordQuery

/-! ### Plain values -/

/-- Holds of the values of a scalar. -/
def Scalar.has : Scalar → Value → Bool
  | bool, .bool _ => true
  | integer k, .integer l n => k == l && k.has n
  | single, .single _ => true
  | double, .double _ => true
  | decimal, .decimal _ => true
  | string, .string _ => true
  | guid, .guid _ => true
  | instant, .instant _ => true
  | date, .date _ => true
  | enum variants, .enum v => variants.contains v
  | _, _ => false

lemma Scalar.isNull_of_has {s : Scalar} {v : Value} (h : s.has v) : v.isNull = false := by
  cases v with
  | null => cases s <;> cases h
  | _ => rfl

/-- Holds of what is no number though its kind is one of numbers. -/
def Value.isNaN : Value → Bool
  | .single x => x.isNaN
  | .double x => x.isNaN
  | _ => false

/-- Two numbers of a format have an order if both are numbers. -/
lemma Number.Binary.isSome_compare? {f : Number.Format} {x y : Number.Binary f}
    (hx : x.isNaN = false) (hy : y.isNaN = false) : (x.compare? y).isSome := by
  simp [compare?, rank?, hx, hy]

/-- Values of one scalar have an order, unless one of them is no number. -/
theorem Scalar.isSome_compare? {s : Scalar} {v w : Value} (hv : s.has v) (hw : s.has w)
    (hvn : v.isNaN = false) (hwn : w.isNaN = false) : (v.compare? w).isSome := by
  cases s with
  | single =>
    cases v <;> cases w <;> simp_all [has]
    exact Number.Binary.isSome_compare? hvn hwn
  | double =>
    cases v <;> cases w <;> simp_all [has]
    exact Number.Binary.isSome_compare? hvn hwn
  | _ => cases v <;> cases w <;> simp_all [has, Value.compare?]

/-! ### What kinds are of -/

namespace Kind

variable {k : Kind}

lemma present_of_scalar? {c : Scalar} (h : k.scalar? = some c) : k.present = .scalar c := by
  rw [scalar?] at h
  split at h <;> cases h
  assumption

lemma present_of_element? {e : Kind} (h : k.element? = some e) : k.present = .collection e := by
  rw [element?] at h
  split at h <;> cases h
  assumption

lemma present_of_record? {t : TypeRef} (h : k.record? = some t) : k.present = .record t := by
  rw [record?] at h
  split at h <;> cases h
  assumption

end Kind

/-! ### Values that fit -/

/-- Holds if a value is missing or of a kind. -/
inductive Value.Fits (s : Schema) : Kind → Value → Prop
  | null (k : Kind) : Fits s k .null
  | scalar {c : Scalar} {v : Value} (h : c.has v) : Fits s (.scalar c) v
  | optional {k : Kind} {v : Value} (h : Fits s k v) : Fits s (.optional k) v
  | record {t : TypeRef} {r : Record}
      (h : ∀ f ∈ (s.describe t).fields, Fits s f.kind ((Value.record r).get f.name)) :
      Fits s (.record t) (.record r)
  | abstract (name : String) (v : Value) : Fits s (.abstract name) v
  | collection {k : Kind} {items : List Value} (h : ∀ v ∈ items, Fits s k v) :
      Fits s (.collection k) (.list items)

/-- A record of the type that is queried: its declared fields fit. -/
def Schema.Conforms (s : Schema) (r : Record) : Prop := Value.Fits s (.record s.root) (.record r)

namespace Value.Fits

variable {s : Schema} {k : Kind} {v : Value}

/-- Whether something may be missing does not matter to what fits. -/
lemma present (h : Fits s k v) : Fits s k.present v := by
  induction h with
  | null k => exact .null _
  | scalar h => exact .scalar h
  | optional _ ih => exact ih
  | record h => exact .record h
  | abstract name v => exact .abstract name v
  | collection h => exact .collection h

/-- What fits the kind of a plain value is missing or such a value. -/
theorem has_of_scalar? {c : Scalar} (h : Fits s k v) (hk : k.scalar? = some c) :
    v = .null ∨ c.has v := by
  have hp := h.present
  rw [Kind.present_of_scalar? hk] at hp
  cases hp with
  | null => exact .inl rfl
  | scalar h => exact .inr h

/-- The elements of a list that fits the kind of a collection fit the kind of its elements. -/
theorem of_mem {e : Kind} {items : List Value} (h : Fits s k (.list items))
    (hk : k.element? = some e) : ∀ v ∈ items, Fits s e v := by
  have hp := h.present
  rw [Kind.present_of_element? hk] at hp
  cases hp with
  | collection h => exact h

/-- A declared field of what fits a record type fits the kind of the field. -/
theorem get {t : TypeRef} {f : Field} (h : Fits s k v) (hk : k.record? = some t)
    (hf : f ∈ (s.describe t).fields) : Fits s f.kind (v.get f.name) := by
  have hp := h.present
  rw [Kind.present_of_record? hk] at hp
  cases hp with
  | null => exact .null f.kind
  | record hfields => exact hfields f hf

end Value.Fits

/-! ### An example -/

namespace People

/-- A person without a boss. -/
def person (name : String) (age : Value) (friends : List Record) : Record :=
  [("Name", .string name), ("Age", age), ("Boss", .null), ("Friends", .list (friends.map .record))]

lemma conforms_person {name : String} {age : Value} {friends : List Record}
    (hage : Value.Fits schema (.optional (.scalar (.integer .i32))) age)
    (hfriends : ∀ r ∈ friends, schema.Conforms r) : schema.Conforms (person name age friends) := by
  refine .record (forall_mem_fields.mpr ⟨.scalar rfl, hage, .null _, .collection fun v hv => ?_⟩)
  obtain ⟨r, hr, rfl⟩ := List.mem_map.mp hv
  exact .optional (hfriends r hr)

/-- Bob has a friend over thirty whose friends are all called Ann. -/
def bob : Record :=
  person "Bob" .null [person "Eve" (.integer .i32 31) [person "Ann" .null []]]

lemma conforms_bob : schema.Conforms bob := by
  have hann : schema.Conforms (person "Ann" .null []) := conforms_person (.null _) (by simp)
  have heve : schema.Conforms (person "Eve" (.integer .i32 31) [person "Ann" .null []]) :=
    conforms_person (.optional (.scalar (by decide))) (by simpa using hann)
  exact conforms_person (.null _) (by simpa using heve)

end People

end RecordQuery
