import RecordQuery.Proofs.Plan.Compilation
import RecordQuery.Proofs.Query.Page

/-!
# What queries can observe

Two records agree if they hold the same under all declared fields, as deep down as these go. What
else they hold may differ. No filter and no order tells such records apart: what their accessors
read agrees as well, for they follow declared fields only.
-/

namespace RecordQuery

/-! ### Values that agree -/

/-- Holds if two values of a kind are the same as far as fields are declared. Something opaque can
only be there or not. -/
inductive Value.Agree (s : Schema) : Kind → Value → Value → Prop
  | null (k : Kind) : Agree s k .null .null
  | scalar (c : Scalar) (v : Value) : Agree s (.scalar c) v v
  | optional {k : Kind} {v w : Value} (h : Agree s k v w) : Agree s (.optional k) v w
  | record {t : TypeRef} {r r' : Record}
      (h : ∀ f ∈ (s.describe t).fields,
        Agree s f.kind ((Value.record r).get f.name) ((Value.record r').get f.name)) :
      Agree s (.record t) (.record r) (.record r')
  | abstract (name : String) {v w : Value} (h : v.isNull = w.isNull) :
      Agree s (.abstract name) v w
  | collection {k : Kind} {items items' : List Value} (hlength : items.length = items'.length)
      (h : ∀ v w, (v, w) ∈ items.zip items' → Agree s k v w) :
      Agree s (.collection k) (.list items) (.list items')

/-- Records of the type that is queried agree if their declared fields do. -/
def Schema.Agree (s : Schema) (r r' : Record) : Prop :=
  Value.Agree s (.record s.root) (.record r) (.record r')

namespace Value.Agree

variable {s : Schema} {k : Kind} {v w : Value}

/-- What fits a kind agrees with itself. -/
lemma of_fits (h : Fits s k v) : Agree s k v v := by
  induction h with
  | null k => exact .null k
  | scalar h => exact .scalar _ _
  | optional _ ih => exact .optional ih
  | record _ ih => exact .record ih
  | abstract name v => exact .abstract name rfl
  | @collection k items _ ih =>
    obtain ⟨hlength, h⟩ := List.forall₂_iff_zip.mp (List.forall₂_same.mpr ih)
    exact .collection hlength fun _ _ => h

/-- What a record holds under a name that is not declared does not matter. -/
lemma cons_right {t : TypeRef} {r r' : Record} {name : String}
    (h : Agree s (.record t) (.record r) (.record r'))
    (hname : ∀ f ∈ (s.describe t).fields, f.name ≠ name) (u : Value) :
    Agree s (.record t) (.record r) (.record ((name, u) :: r')) := by
  cases h with
  | record h =>
    apply Agree.record
    intro f hf
    have hget : (Value.record ((name, u) :: r')).get f.name = (Value.record r').get f.name := by
      simp [Value.get, List.lookup_cons, beq_false_of_ne (hname f hf)]
    rw [hget]
    exact h f hf

/-- Whether something may be missing does not matter to what agrees. -/
lemma present (h : Agree s k v w) : Agree s k.present v w := by
  induction h with
  | null k => exact .null _
  | scalar c v => exact .scalar c v
  | optional _ ih => exact ih
  | record h => exact .record h
  | abstract name h => exact .abstract name h
  | collection hlength h => exact .collection hlength h

lemma isNull_eq (h : Agree s k v w) : v.isNull = w.isNull := by
  induction h with
  | optional _ ih => exact ih
  | abstract name h => exact h
  | _ => rfl

/-- Plain values that agree are the same. -/
lemma eq_of_scalar? {c : Scalar} (h : Agree s k v w) (hk : k.scalar? = some c) : v = w := by
  have hp := h.present
  rw [Kind.present_of_scalar? hk] at hp
  cases hp with
  | null => rfl
  | scalar => rfl

/-- A declared field of records that agree agrees. -/
lemma get {t : TypeRef} {f : Field} (h : Agree s k v w) (hk : k.record? = some t)
    (hf : f ∈ (s.describe t).fields) : Agree s f.kind (v.get f.name) (w.get f.name) := by
  have hp := h.present
  rw [Kind.present_of_record? hk] at hp
  cases hp with
  | null => exact .null f.kind
  | record hfields => exact hfields f hf

/-- The elements of collections that agree agree one by one. -/
lemma items {e : Kind} (h : Agree s k v w) (hk : k.element? = some e) :
    List.Forall₂ (Agree s e) v.items w.items := by
  have hp := h.present
  rw [Kind.present_of_element? hk] at hp
  cases hp with
  | null => exact .nil
  | collection hlength hitems => exact List.forall₂_iff_zip.mpr ⟨hlength, hitems _ _⟩

end Value.Agree

/-! ### Runs on bindings that agree -/

/-- Two runs side by side: at each slot there is a pair of values, and they agree. -/
def Schema.AgreeAt (s : Schema) (slots : List Kind) (pairs : List (Value × Value)) : Prop :=
  List.Forall₂ (fun k p => Value.Agree s k p.1 p.2) slots pairs

section Runs

variable {s : Schema} {slots : List Kind} {pairs : List (Value × Value)}

lemma Schema.AgreeAt.push (h : s.AgreeAt slots pairs) {k : Kind} {v w : Value}
    (hvw : Value.Agree s k v w) : s.AgreeAt (slots ++ [k]) (pairs ++ [(v, w)]) :=
  List.rel_append h (.cons hvw .nil)

/-- What an accessor reads in two runs agrees. -/
lemma Accessor.HasKind.agree {a : Accessor} {k : Kind} (h : a.HasKind s slots k)
    (hpairs : s.AgreeAt slots pairs) :
    Value.Agree s k (a.read (pairs.map Prod.fst)) (a.read (pairs.map Prod.snd)) := by
  obtain ⟨slot, path⟩ := a
  obtain ⟨start, hstart, hleads⟩ := h
  simp only at hstart hleads
  induction hleads with
  | nil =>
    obtain ⟨hlt, rfl⟩ := List.getElem?_eq_some_iff.mp hstart
    have hltp : slot < pairs.length := hpairs.length_eq ▸ hlt
    simpa [read, hltp] using hpairs.get hlt hltp
  | push _ hk hf ih =>
    rw [read_push, read_push]
    exact ih.get hk hf

/-- A condition on the elements of a collection holds in both runs or in neither if its body does
for elements that agree. -/
lemma Plan.holds_quantified_eq (q : Quantifier) {a : Accessor} {body : Plan} {k e : Kind}
    (ha : a.HasKind s slots k) (hk : k.element? = some e) (hpairs : s.AgreeAt slots pairs)
    (hbody : ∀ v w, Value.Agree s e v w →
      body.holds (pairs.map Prod.fst ++ [v]) = body.holds (pairs.map Prod.snd ++ [w])) :
    (quantified q a body).holds (pairs.map Prod.fst) =
      (quantified q a body).holds (pairs.map Prod.snd) := by
  rw [holds_quantified, holds_quantified]
  apply Quantifier.holds_eq_of_map_eq
  rw [← List.forall₂_eq_eq_eq, List.forall₂_map_left_iff, List.forall₂_map_right_iff]
  exact ((ha.agree hpairs).items hk).imp hbody

/-- A typed plan holds in both runs or in neither. -/
lemma Plan.WellTyped.holds_eq {p : Plan} (hp : p.WellTyped s slots)
    (hpairs : s.AgreeAt slots pairs) :
    p.holds (pairs.map Prod.fst) = p.holds (pairs.map Prod.snd) := by
  -- the body of a quantified condition has one more slot, with a pair of elements that agree
  induction p generalizing slots pairs with
  | and l r ihl ihr => rw [holds, holds, ihl hp.1 hpairs, ihr hp.2 hpairs]
  | or l r ihl ihr => rw [holds, holds, ihl hp.1 hpairs, ihr hp.2 hpairs]
  | isNull a =>
    obtain ⟨k, ha⟩ := hp
    rw [holds, holds, (ha.agree hpairs).isNull_eq]
  | notNull a =>
    obtain ⟨k, ha⟩ := hp
    rw [holds, holds, (ha.agree hpairs).isNull_eq]
  | compare a comparison value =>
    obtain ⟨k, c, ha, hk, -⟩ := hp
    rw [holds, holds, (ha.agree hpairs).eq_of_scalar? hk]
  | contains a needle =>
    obtain ⟨k, ha, hk⟩ := hp
    rw [holds, holds, (ha.agree hpairs).eq_of_scalar? hk]
  | compareDate a comparison date =>
    obtain ⟨k, ha, hk⟩ := hp
    rw [holds, holds, (ha.agree hpairs).eq_of_scalar? hk]
  | any a body ih =>
    obtain ⟨k, e, ha, hk, hbody⟩ := hp
    refine holds_quantified_eq .any ha hk hpairs ?_
    intro v w hvw
    simpa using ih hbody (hpairs.push hvw)
  | all a body ih =>
    obtain ⟨k, e, ha, hk, hbody⟩ := hp
    refine holds_quantified_eq .all ha hk hpairs ?_
    intro v w hvw
    simpa using ih hbody (hpairs.push hvw)

end Runs

/-! ### Orders -/

lemma SortKey.compare_self (k : SortKey) (r : Record) : k.compare r r = .eq := by
  rw [compare, Value.sortCompare_self]
  cases k.direction <;> rfl

lemma SortOrder.compare_cons (k : SortKey) (keys : List SortKey) (r r' : Record) :
    compare ⟨k :: keys⟩ r r' = (k.compare r r').then (compare ⟨keys⟩ r r') := rfl

lemma SortOrder.compare_self (o : SortOrder) (r : Record) : o.compare r r = .eq := by
  obtain ⟨keys⟩ := o
  induction keys with
  | nil => rfl
  | cons k keys ih => rw [compare_cons, k.compare_self, ih, Ordering.eq_then]

/-- The order of records depends on the values of the keys only. -/
lemma SortOrder.compare_congr {o : SortOrder} {q q' r r' : Record}
    (hq : ∀ k ∈ o.keys, k.value q = k.value q') (hr : ∀ k ∈ o.keys, k.value r = k.value r') :
    o.compare q r = o.compare q' r' := by
  obtain ⟨keys⟩ := o
  induction keys with
  | nil => rfl
  | cons k keys ih =>
    have hkey : k.compare q r = k.compare q' r' := by
      rw [SortKey.compare, SortKey.compare, hq k List.mem_cons_self, hr k List.mem_cons_self]
    have hkeys : compare ⟨keys⟩ q r = compare ⟨keys⟩ q' r' := by
      refine ih ?_ ?_
      · exact fun k hk => hq k (List.mem_cons_of_mem _ hk)
      · exact fun k hk => hr k (List.mem_cons_of_mem _ hk)
    rw [compare_cons, compare_cons, hkey, hkeys]

/-! ### Records -/

/-- The keys of a compiled order have the same values for records that agree. -/
lemma Schema.Agree.value_eq {s : Schema} {t : PropertyTree} {depth : Nat} {terms : List SortTerm}
    {o : SortOrder} {r r' : Record} (h : s.Agree r r')
    (ht : PropertyTree.build s s.root depth = .ok t) (ho : SortOrder.compile t terms = .ok o) :
    ∀ k ∈ o.keys, k.value r = k.value r' := by
  intro k hk
  obtain ⟨kind, c, ha, hc⟩ := SortOrder.hasKind_of_mem_keys ht ho hk
  have hroot : s.AgreeAt [.record s.root] [(.record r, .record r')] := .cons h .nil
  exact (ha.agree hroot).eq_of_scalar? hc

/-- Records that agree are not told apart by any filter or order that compiles. -/
theorem Schema.Agree.indistinguishable {s : Schema} {t : PropertyTree} {depth : Nat}
    {r r' : Record} (h : s.Agree r r') (ht : PropertyTree.build s s.root depth = .ok t) :
    (∀ limit e p, t.compile limit e = .ok p → p.passes r = p.passes r') ∧
      ∀ terms o, SortOrder.compile t terms = .ok o → o.compare r r' = .eq ∧
        ∀ q, o.compare r q = o.compare r' q ∧ o.compare q r = o.compare q r' := by
  constructor
  · intro limit e p hp
    have htyped : p.WellTyped s [.record s.root] :=
      (Expr.compilesTo_of_compile hp).wellTyped (Context.typed_root ht)
    have hroot : s.AgreeAt [.record s.root] [(.record r, .record r')] := .cons h .nil
    exact htyped.holds_eq hroot
  · intro terms o ho
    have hvalue := h.value_eq ht ho
    refine ⟨?_, fun q => ⟨?_, ?_⟩⟩
    · rw [SortOrder.compare_congr hvalue fun _ _ => rfl, SortOrder.compare_self]
    · exact SortOrder.compare_congr hvalue fun _ _ => rfl
    · exact SortOrder.compare_congr (fun _ _ => rfl) hvalue

namespace People

lemma agree_person {name : String} {age : Value} {friends friends' : List Record}
    (hage : Value.Fits schema (.optional (.scalar (.integer .i32))) age)
    (hfriends : List.Forall₂ schema.Agree friends friends') :
    schema.Agree (person name age friends) (person name age friends') := by
  have hitems : List.Forall₂ (Value.Agree schema (.optional (.record schema.root)))
      (friends.map .record) (friends'.map .record) := by
    rw [List.forall₂_map_left_iff, List.forall₂_map_right_iff]
    exact hfriends.imp fun _ _ => .optional
  obtain ⟨hlength, hitems⟩ := List.forall₂_iff_zip.mp hitems
  exact .record (forall_mem_fields.mpr
    ⟨.scalar _ _, .of_fits hage, .null _, .collection hlength fun _ _ => hitems⟩)

def eve : Record := person "Eve" (.integer .i32 31) [person "Ann" .null []]

/-- Bob, who like his friend has something that is not declared. -/
def secretBob : Record :=
  ("Secret", .string "code") :: person "Bob" .null [("Secret", .bool true) :: eve]

lemma agree_secretBob : schema.Agree bob secretBob := by
  have hsecret : ∀ f ∈ (schema.describe schema.root).fields, f.name ≠ "Secret" := by decide
  have hann : schema.Agree (person "Ann" .null []) (person "Ann" .null []) :=
    agree_person (.null _) .nil
  have heve : schema.Agree eve eve :=
    agree_person (.optional (.scalar (by decide))) (.cons hann .nil)
  have hfriend : schema.Agree eve (("Secret", .bool true) :: eve) :=
    heve.cons_right hsecret (.bool true)
  exact (agree_person (.null _) (.cons hfriend .nil)).cons_right hsecret (.string "code")

/-- What Bob and his friend hold besides is seen neither by the filter nor by the order. -/
theorem indistinguishable_bob :
    schema.Agree bob secretBob ∧ bob.length ≠ secretBob.length ∧
      plan.passes bob = plan.passes secretBob ∧
      SortOrder.compare ⟨[⟨⟨0, ["Name"]⟩, .descending⟩]⟩ bob secretBob = .eq := by
  obtain ⟨hplans, horders⟩ := agree_secretBob.indistinguishable build_root
  refine ⟨agree_secretBob, by decide, ?_, ?_⟩
  · exact hplans 3 filter plan compile_filter
  · exact (horders _ _ compile_name).1

end People

end RecordQuery
