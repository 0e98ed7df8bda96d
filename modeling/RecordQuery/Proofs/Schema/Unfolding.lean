import RecordQuery.Proofs.Schema.Conformance
import RecordQuery.Proofs.Schema.Navigation

/-!
# Property trees written out in full

A property tree keeps the place it is seen from. Written out in full it is a finite tree, although
record types may refer to each other in circles. What is found in it under a list of names is the
field that the declarations alone give these names, as long as there are no more names than the
limit.
-/

namespace RecordQuery

/-! ### What names mean -/

/-- A field that a name means among the declared ones: it is declared under the name in some letter
case, and no field after it is. -/
def RecordType.LastNamed (r : RecordType) (name : String) (f : Field) : Prop :=
  ∃ before after, r.fields = before ++ f :: after ∧ f.key = Text.lowercase name ∧
    ∀ g ∈ after, g.key ≠ Text.lowercase name

lemma RecordType.field?_eq_some_iff {r : RecordType} {name : String} {f : Field} :
    r.field? name = some f ↔ r.LastNamed name f := by
  rw [field?, List.find?_eq_some_iff_append, LastNamed]
  constructor
  · rintro ⟨hf, after, before, hfields, hafter⟩
    refine ⟨before.reverse, after.reverse, ?_, by simpa using hf, by simpa using hafter⟩
    simpa using congrArg List.reverse hfields
  · rintro ⟨before, after, hfields, hf, hafter⟩
    exact ⟨by simpa using hf, after.reverse, before.reverse, by simp [hfields],
      by simpa using hafter⟩

/-- A field leads to a record type if it is a record of the type or a collection of such records,
either of which may be missing. -/
def Field.LeadsTo (f : Field) (target : TypeRef) : Prop :=
  f.kind.record? = some target ∨ ∃ e, f.kind.element? = some e ∧ e.record? = some target

lemma Field.target?_eq_some_iff {f : Field} {target : TypeRef} :
    f.target? = some target ↔ f.LeadsTo target := by
  rw [target?, LeadsTo]
  cases helement : f.kind.element? with
  | none => simp
  | some e =>
    have hrecord : f.kind.record? ≠ some target := by
      have hpresent := Kind.present_of_element? helement
      simp [Kind.record?, hpresent]
    simp [hrecord]

/-- The field that a list of names means from a record type on: each name means a field of the type
reached so far, and all fields but the last one lead to the next type. -/
inductive Schema.Means (s : Schema) : TypeRef → List String → Field → Prop
  | last {t : TypeRef} {name : String} {f : Field} (hname : name ≠ "")
      (hf : (s.describe t).LastNamed name f) : Means s t [name] f
  | step {t target : TypeRef} {name : String} {names : List String} {f g : Field}
      (hname : name ≠ "") (hf : (s.describe t).LastNamed name f) (htarget : f.LeadsTo target)
      (h : Means s target names g) : Means s t (name :: names) g

namespace Schema

variable {s : Schema} {t : TypeRef} {names : List String} {f : Field}

lemma Means.ne_nil (h : s.Means t names f) : names ≠ [] := by
  cases h <;> exact List.cons_ne_nil _ _

/-- Whatever its own name is, a field is meant by its wire name alone, in any letter case. -/
lemma Means.key_eq {name : String} (h : s.Means t names f) (hname : names.getLast? = some name) :
    f.key = Text.lowercase name := by
  induction h with
  | last _ hf =>
    obtain ⟨-, -, -, hkey, -⟩ := hf
    cases hname
    exact hkey
  | step _ _ _ h ih =>
    rw [List.getLast?_cons_of_ne_nil h.ne_nil] at hname
    exact ih hname

lemma find?_eq_some_iff : s.find? t names = some f ↔ s.Means t names f := by
  induction names generalizing t with
  | nil =>
    constructor
    · intro h
      cases h
    · intro h
      cases h
  | cons name names ih =>
    cases names with
    | nil =>
      rw [find?]
      constructor
      · intro h
        split_ifs at h with hname
        exact .last (by simpa using hname) (RecordType.field?_eq_some_iff.mp h)
      · intro h
        cases h with
        | last hname hf => simpa [hname] using RecordType.field?_eq_some_iff.mpr hf
        | step _ _ _ h => cases h
    | cons next rest =>
      rw [find?]
      constructor
      · intro h
        split_ifs at h with hname
        obtain ⟨g, hg, h⟩ := Option.bind_eq_some_iff.mp h
        obtain ⟨target, htarget, h⟩ := Option.bind_eq_some_iff.mp h
        exact .step (by simpa using hname) (RecordType.field?_eq_some_iff.mp hg)
          (Field.target?_eq_some_iff.mp htarget) (ih.mp h)
      · intro h
        cases h with
        | step hname hf htarget h =>
          simp [hname, RecordType.field?_eq_some_iff.mpr hf,
            Field.target?_eq_some_iff.mpr htarget, ih.mpr h]

end Schema

/-! ### Trees in full -/

/-- A property tree in full: its record type, and for each property the field and the tree below
it. -/
inductive Unfolding where
  | tree (type : TypeRef) (properties : List (Field × Option Unfolding))

namespace Unfolding

/-- The properties at the root, each with the tree below it. -/
def properties : Unfolding → List (Field × Option Unfolding)
  | tree _ ps => ps

/-- The property that a name means. The empty name means none. -/
def get? (u : Unfolding) (name : String) : Option (Field × Option Unfolding) :=
  if name.isEmpty then none else u.properties.find? fun p => p.1.key == Text.lowercase name

/-- The field that a list of names means, each but the first one in the tree below the property
before. -/
def find? (u : Unfolding) : (names : List String) → Option Field
  | [] => none
  | [name] => (u.get? name).map Prod.fst
  | name :: next :: rest => do
    let p ← u.get? name
    let below ← p.2
    below.find? (next :: rest)

/-- A chain of trees, each but the first one below a property of the one before, by their record
types. -/
inductive Chain : Unfolding → List TypeRef → Prop
  | root (type : TypeRef) (ps : List (Field × Option Unfolding)) : Chain (tree type ps) [type]
  | step {type : TypeRef} {ps : List (Field × Option Unfolding)} {f : Field} {u : Unfolding}
      {types : List TypeRef} (hu : (f, some u) ∈ ps) (h : Chain u types) :
      Chain (tree type ps) (type :: types)

end Unfolding

namespace PropertyTree

variable {t below : PropertyTree} {p : Property}

lemma tree_eq_of_mem_properties (h : p ∈ t.properties) :
    p.tree = t ∧ t.above.length < t.limit := by
  rw [properties, fields] at h
  split_ifs at h with hlimit
  · cases h
  · obtain ⟨f, -, rfl⟩ := List.mem_map.mp h
    exact ⟨rfl, Nat.not_le.mp hlimit⟩

/-- A tree below a property is that much nearer to the limit. -/
lemma lt_of_nested? (h : p ∈ t.properties) (hbelow : p.nested? = some below) :
    below.limit - below.above.length < t.limit - t.above.length := by
  obtain ⟨rfl, hlimit⟩ := tree_eq_of_mem_properties h
  obtain ⟨habove, hsame⟩ := above_of_nested? hbelow
  rw [habove, hsame, List.length_cons]
  omega

/-- The tree in full. -/
def unfold (t : PropertyTree) : Unfolding :=
  .tree t.type (t.properties.attach.map fun ⟨p, _⟩ =>
    (p.field, p.nested?.attach.map fun ⟨below, _⟩ => below.unfold))
termination_by t.limit - t.above.length
decreasing_by exact lt_of_nested? (by assumption) (by assumption)

/-- Each property of the tree in full has the field and the tree in full of one of the tree. -/
lemma unfold_eq (t : PropertyTree) :
    t.unfold = .tree t.type (t.properties.map fun p => (p.field, p.nested?.map unfold)) := by
  rw [unfold]
  congr 1
  simp

lemma get?_unfold (t : PropertyTree) (name : String) :
    t.unfold.get? name = (t.get? name).map fun p => (p.field, p.nested?.map unfold) := by
  rw [unfold_eq, Unfolding.get?, get?]
  split_ifs
  · rfl
  · simp [Unfolding.properties, properties, List.find?_map, Function.comp_def]

lemma find?_unfold (t : PropertyTree) (names : List String) :
    t.unfold.find? names = (t.find? names).map Property.field := by
  induction names generalizing t with
  | nil => rfl
  | cons name names ih =>
    cases names with
    | nil =>
      rw [Unfolding.find?, find?, get?_unfold, Option.map_map]
      rfl
    | cons next rest =>
      rw [Unfolding.find?, find?, get?_unfold]
      cases t.get? name with
      | none => rfl
      | some p =>
        cases hbelow : p.nested? with
        | none => simp [hbelow]
        | some below => simp [hbelow, ih]

/-- What a tree in full finds from the root on is what the names mean, up to the limit. -/
lemma find?_unfold_root (s : Schema) (type : TypeRef) (limit : Nat) (names : List String) :
    (unfold ⟨s, type, [], limit⟩).find? names =
      if names.length ≤ limit then s.find? type names else none := by
  rw [find?_unfold]
  split_ifs with h
  · rw [map_field_find?_of_le (by simpa using h)]
  · rw [find?_eq_none_of_lt (by simpa using h)]
    rfl

/-- The tree below a property is one of a record type that may still be met. -/
lemma count_lt_of_nested? (h : p.nested? = some below) :
    (p.tree.type.index :: p.tree.above).count below.type.index < p.tree.limit := by
  rw [Property.nested?] at h
  cases htarget : p.target? with
  | none => simp [htarget] at h
  | some target =>
    simp only [htarget] at h
    split_ifs at h with hcount
    cases h
    exact Nat.not_le.mp hcount

/-- The way to a tree is no longer than the limit, and no record type is met more often on it, that
of the tree counted. -/
structure MeetsLimit (t : PropertyTree) : Prop where
  length_le : t.above.length ≤ t.limit
  count_le : ∀ n, (t.type.index :: t.above).count n ≤ t.limit

lemma MeetsLimit.nested (h : t.MeetsLimit) (hp : p ∈ t.properties)
    (hbelow : p.nested? = some below) : below.MeetsLimit := by
  obtain ⟨rfl, hlength⟩ := tree_eq_of_mem_properties hp
  obtain ⟨habove, hlimit⟩ := above_of_nested? hbelow
  constructor
  · rw [habove, hlimit, List.length_cons]
    exact hlength
  · intro n
    rw [habove, hlimit, List.count_cons]
    split_ifs with hn
    · rw [← beq_iff_eq.mp hn]
      exact count_lt_of_nested? hbelow
    · exact h.count_le n

/-- Along a chain of trees no record type is met more often than the limit, those on the way to the
first one counted. -/
lemma MeetsLimit.of_chain {types : List TypeRef} (h : t.MeetsLimit)
    (hchain : t.unfold.Chain types) :
    t.above.length + types.length ≤ t.limit + 1 ∧
      ∀ n, t.above.count n + (types.map TypeRef.index).count n ≤ t.limit := by
  generalize hu : t.unfold = u at hchain
  induction hchain generalizing t with
  | root type ps =>
    rw [unfold_eq] at hu
    cases hu
    refine ⟨by simpa using h.length_le, fun n => ?_⟩
    have hcount := h.count_le n
    rw [List.count_cons] at hcount
    simpa [List.count_cons] using hcount
  | step hmem _ ih =>
    rw [unfold_eq] at hu
    cases hu
    obtain ⟨p, hp, heq⟩ := List.mem_map.mp hmem
    obtain ⟨below, hbelow, hunfold⟩ := Option.map_eq_some_iff.mp (congrArg Prod.snd heq)
    obtain ⟨rfl, -⟩ := tree_eq_of_mem_properties hp
    obtain ⟨habove, hlimit⟩ := above_of_nested? hbelow
    obtain ⟨hlength, hcount⟩ := ih (h.nested hp hbelow) hunfold
    rw [habove, hlimit] at hlength hcount
    constructor
    · simp only [List.length_cons] at hlength ⊢
      omega
    · intro n
      have hcount := hcount n
      simp only [List.map_cons, List.count_cons] at hcount ⊢
      omega

/-- Every tree with a limit above zero can be written out in full, and finds there what it finds
itself. These are exactly the fields that up to so many names mean by the declarations: the last one
declared under the wire name, never one by its own name alone. Along no chain of trees is a record
type met more often than the limit. -/
theorem unfold_of_build {s : Schema} {type : TypeRef} {limit : Nat} (hlimit : 1 ≤ limit) :
    ∃ t, build s type limit = .ok t ∧
      (∀ names, (t.find? names).map Property.field = t.unfold.find? names) ∧
      (∀ names f, t.unfold.find? names = some f ↔
        1 ≤ names.length ∧ names.length ≤ limit ∧ s.Means type names f) ∧
      (∀ names name f, t.unfold.find? (names ++ [name]) = some f →
        Text.lowercase f.wireName = Text.lowercase name) ∧
      ∀ types, t.unfold.Chain types →
        types.length ≤ limit + 1 ∧ ∀ n, (types.map TypeRef.index).count n ≤ limit := by
  have hfind (names : List String) (f : Field) :
      (unfold ⟨s, type, [], limit⟩).find? names = some f ↔
        1 ≤ names.length ∧ names.length ≤ limit ∧ s.Means type names f := by
    rw [find?_unfold_root, ← Schema.find?_eq_some_iff]
    split_ifs with hlength
    · cases names with
      | nil => simp [Schema.find?]
      | cons name names => simpa using fun _ => hlength
    · simp [hlength]
  refine ⟨⟨s, type, [], limit⟩, build_eq_ok_iff.mpr ⟨by omega, rfl⟩,
    fun names => (find?_unfold _ names).symm, hfind, ?_, ?_⟩
  · intro names name f h
    exact ((hfind _ _).mp h).2.2.key_eq (by simp)
  · intro types hchain
    have hmeets : MeetsLimit ⟨s, type, [], limit⟩ :=
      ⟨Nat.zero_le _, fun n => Nat.le_trans List.count_le_length hlimit⟩
    simpa using hmeets.of_chain hchain

end PropertyTree

/-! ### An example -/

namespace Folders

/-- Folders in folders. A folder has two fields with the wire name `title`. -/
def schema : Schema where
  types :=
    [⟨"Folder",
      [⟨"Label", some "title", .scalar .string⟩,
        ⟨"Parent", none, .optional (.record ⟨"Folder", 0⟩)⟩,
        ⟨"Caption", some "Title", .optional (.scalar .string)⟩]⟩]
  root := ⟨"Folder", 0⟩

/-- The second of the two titles is found, by its wire name only and within two levels. -/
theorem unfold_folders :
    1 ≤ 2 ∧ ∃ t, PropertyTree.build schema schema.root 2 = .ok t ∧
      t.unfold.find? ["PARENT", "TITLE"] =
        some ⟨"Caption", some "Title", .optional (.scalar .string)⟩ ∧
      t.unfold.find? ["Caption"] = none ∧
      t.unfold.find? ["parent", "parent", "title"] = none ∧
      ∀ types, t.unfold.Chain types → ∀ n, (types.map TypeRef.index).count n ≤ 2 := by
  have hparent : (schema.describe ⟨"Folder", 0⟩).LastNamed "PARENT"
      ⟨"Parent", none, .optional (.record ⟨"Folder", 0⟩)⟩ :=
    ⟨[_], [_], rfl, by decide +kernel, by decide +kernel⟩
  have htitle : (schema.describe ⟨"Folder", 0⟩).LastNamed "TITLE"
      ⟨"Caption", some "Title", .optional (.scalar .string)⟩ :=
    ⟨[_, _], [], rfl, by decide +kernel, by decide⟩
  have hcaption : ∀ f ∈ (schema.describe ⟨"Folder", 0⟩).fields,
      f.key ≠ Text.lowercase "Caption" := by
    decide +kernel
  have hlimit : 1 ≤ 2 := by decide
  obtain ⟨t, ht, -, hfind, -, hchain⟩ :=
    @PropertyTree.unfold_of_build schema schema.root 2 hlimit
  refine ⟨hlimit, t, ht, ?_, ?_, ?_, fun types h => (hchain types h).2⟩
  · exact (hfind _ _).mpr ⟨by decide, by decide,
      .step (by decide) hparent (.inl rfl) (.last (by decide) htitle)⟩
  · refine Option.eq_none_iff_forall_ne_some.mpr fun f hf => ?_
    cases ((hfind _ f).mp hf).2.2 with
    | last _ hlast =>
      obtain ⟨before, after, hfields, hkey, -⟩ := hlast
      exact hcaption f (hfields ▸ List.mem_append_right before List.mem_cons_self) hkey
    | step _ _ _ h => exact absurd rfl h.ne_nil
  · refine Option.eq_none_iff_forall_ne_some.mpr fun f hf => ?_
    exact absurd ((hfind _ f).mp hf).2.1 (by decide)

end Folders

end RecordQuery
