import RecordQuery.Proofs.Text.LetterCase
import RecordQuery.Schema.PropertyTree
import Mathlib.Tactic.Common

/-!
# Looking up fields

A property tree keeps the fields of a record type by their keys and in the order of these. What is
found in it under a name is, of the declared fields with the key of the name, the last one. Where
the wire names of fields are told apart whatever the letter case, that is the only one.
-/

namespace RecordQuery

/-- The field that a name means among the declared ones: the last one with the key of the name. -/
def RecordType.field? (r : RecordType) (name : String) : Option Field :=
  r.fields.reverse.find? fun f => f.key == Text.lowercase name

lemma RecordType.mem_of_field? {r : RecordType} {name : String} {f : Field}
    (h : r.field? name = some f) : f ∈ r.fields :=
  List.mem_reverse.mp (List.mem_of_find?_eq_some h)

/-! ### Fields by their keys -/

/-- Dropping the fields that are declared again keeps the last one of each key. -/
lemma Field.find?_lastOfKey (fs : List Field) (k : String) :
    (lastOfKey fs).find? (·.key == k) = fs.reverse.find? (·.key == k) := by
  induction fs with
  | nil => rfl
  | cons f fs ih =>
    rw [lastOfKey, List.reverse_cons, List.find?_append, ← ih]
    split_ifs with hany
    · -- if `f` has the key, so has the field that is declared later
      obtain ⟨g, hg, hgf⟩ := List.any_eq_true.mp hany
      by_cases hf : f.key = k
      · have hsome : (fs.reverse.find? (·.key == k)).isSome := by
          rw [List.find?_isSome]
          exact ⟨g, List.mem_reverse.mpr hg, hf ▸ hgf⟩
        obtain ⟨r, hr⟩ := Option.isSome_iff_exists.mp hsome
        rw [ih, hr]
        rfl
      · simp [beq_false_of_ne hf]
    · by_cases hf : f.key = k
      · have hnone : (lastOfKey fs).find? (·.key == k) = none := by
          rw [ih, List.find?_eq_none]
          intro g hg hgk
          exact hany (List.any_eq_true.mpr ⟨g, List.mem_reverse.mp hg, hf ▸ hgk⟩)
        rw [hnone]
        simp [hf]
      · simp [beq_false_of_ne hf]

lemma Field.mem_of_mem_lastOfKey {fs : List Field} {f : Field} (h : f ∈ lastOfKey fs) :
    f ∈ fs := by
  induction fs with
  | nil => exact h
  | cons g fs ih =>
    rw [lastOfKey] at h
    split_ifs at h
    · exact List.mem_cons_of_mem g (ih h)
    · rcases List.mem_cons.mp h with rfl | h
      · exact List.mem_cons_self
      · exact List.mem_cons_of_mem g (ih h)

/-- Of the fields that are kept no two have the same key. -/
lemma Field.pairwise_key_lastOfKey (fs : List Field) :
    (lastOfKey fs).Pairwise fun f g => f.key ≠ g.key := by
  induction fs with
  | nil => exact List.Pairwise.nil
  | cons f fs ih =>
    rw [lastOfKey]
    split_ifs with hany
    · exact ih
    · refine List.pairwise_cons.mpr ⟨fun g hg hfg => hany ?_, ih⟩
      exact List.any_eq_true.mpr ⟨g, mem_of_mem_lastOfKey hg, beq_iff_eq.mpr hfg.symm⟩

/-- Where no two fields have the same key, the order of the fields does not matter. -/
lemma Field.find?_key_of_perm {fs gs : List Field} (h : fs.Perm gs)
    (hfs : fs.Pairwise fun f g => f.key ≠ g.key) (k : String) :
    fs.find? (·.key == k) = gs.find? (·.key == k) := by
  induction h with
  | nil => rfl
  | cons f _ ih =>
    rw [List.find?_cons, List.find?_cons, ih (List.pairwise_cons.mp hfs).2]
  | swap f g fs =>
    have hgf : g.key ≠ f.key := (List.pairwise_cons.mp hfs).1 f List.mem_cons_self
    simp only [List.find?_cons]
    by_cases hf : f.key = k
    · simp [hf, beq_false_of_ne fun hg : g.key = k => hgf (hg.trans hf.symm)]
    · simp [beq_false_of_ne hf]
  | trans hfg _ ih₁ ih₂ =>
    rw [ih₁ hfs, ih₂ (hfs.perm hfg fun h => h.symm)]

/-! ### Lookup in a tree -/

namespace PropertyTree

lemma build_eq_ok_iff {s : Schema} {type : TypeRef} {limit : Nat} {t : PropertyTree} :
    build s type limit = .ok t ↔ limit ≠ 0 ∧ t = ⟨s, type, [], limit⟩ := by
  rw [build]
  split_ifs with h
  · simp [h]
  · simp [h, eq_comm]

/-- A tree finds, unless it is cut at this depth, the last field declared under a name. -/
theorem get?_eq (t : PropertyTree) (name : String) :
    t.get? name =
      if name.isEmpty ∨ t.limit ≤ t.above.length then none
      else (t.record.field? name).map (⟨t, ·⟩) := by
  unfold get? fields RecordType.field?
  by_cases hname : name.isEmpty
  · simp [hname]
  · by_cases hlimit : t.limit ≤ t.above.length
    · simp [hlimit]
    · rw [if_neg hname, if_neg hlimit, if_neg (not_or.mpr ⟨hname, hlimit⟩)]
      rw [← Field.find?_lastOfKey, Field.find?_key_of_perm (List.mergeSort_perm _ _)]
      exact (Field.pairwise_key_lastOfKey _).perm (List.mergeSort_perm _ _).symm fun h => h.symm

/-- A property that a tree finds is a declared field of the tree's record type. -/
lemma field?_of_get? {t : PropertyTree} {name : String} {p : Property}
    (h : t.get? name = some p) : t.record.field? name = some p.field ∧ p.tree = t := by
  rw [get?_eq] at h
  split_ifs at h
  obtain ⟨f, hf, rfl⟩ := Option.map_eq_some_iff.mp h
  exact ⟨hf, rfl⟩

end PropertyTree

/-- The tree below a property that is no collection is that of the record it holds. -/
lemma Property.nested?_of_not_isCollection {p : Property} {below : PropertyTree}
    (hp : p.isCollection = false) (h : p.nested? = some below) :
    p.kind.record? = some below.type ∧ below.schema = p.tree.schema := by
  have helement : p.element? = none := by simpa [isCollection] using hp
  have htarget : p.target? = p.kind.record? := by simp [target?, helement]
  rw [nested?, htarget] at h
  cases hrecord : p.kind.record? with
  | none => simp [hrecord] at h
  | some type =>
    simp only [hrecord] at h
    split_ifs at h
    cases h
    exact ⟨rfl, rfl⟩

/-! ### Fields that can be named -/

/-- A field that can be named: it has a wire name, and no other field has it in any letter case. -/
structure RecordType.Declares (r : RecordType) (f : Field) : Prop where
  mem : f ∈ r.fields
  wireName_ne : f.wireName ≠ ""
  unique : ∀ g ∈ r.fields, g.key = f.key → g = f

/-- A field is called by a name: it can be named, and the name is its wire name in some letter
case. -/
structure RecordType.Calls (r : RecordType) (name : String) (f : Field) : Prop where
  declares : r.Declares f
  lowercase_eq : Text.lowercase name = f.key

namespace RecordType

variable {r : RecordType} {name : String} {f : Field}

lemma Declares.calls (h : r.Declares f) : r.Calls f.wireName f := ⟨h, rfl⟩

lemma Calls.ne_empty (h : r.Calls name f) : name ≠ "" := by
  rw [ne_eq, ← Text.lowercase_eq_empty_iff, h.lowercase_eq, Field.key, Text.lowercase_eq_empty_iff]
  exact h.declares.wireName_ne

lemma Calls.field?_eq (h : r.Calls name f) : r.field? name = some f := by
  have hsome : (r.field? name).isSome := by
    rw [field?, h.lowercase_eq, List.find?_isSome]
    exact ⟨f, List.mem_reverse.mpr h.declares.mem, beq_self_eq_true f.key⟩
  obtain ⟨g, hg⟩ := Option.isSome_iff_exists.mp hsome
  have hkey : g.key = f.key := by simpa [h.lowercase_eq] using List.find?_some hg
  rw [hg, h.declares.unique g (mem_of_field? hg) hkey]

end RecordType

/-- A tree that is not cut finds a field by what it is called. -/
lemma PropertyTree.get?_of_calls {t : PropertyTree} {name : String} {f : Field}
    (h : t.record.Calls name f) (hdepth : t.above.length < t.limit) :
    t.get? name = some ⟨t, f⟩ := by
  have hne : ¬ (name.isEmpty ∨ t.limit ≤ t.above.length) := by
    rw [String.isEmpty_iff]
    exact not_or.mpr ⟨h.ne_empty, Nat.not_le.mpr hdepth⟩
  rw [get?_eq, if_neg hne, h.field?_eq, Option.map_some]

/-- All fields of the record types of a schema can be named. -/
def Schema.TellsApart (s : Schema) : Prop :=
  ∀ r ∈ s.types, ∀ f ∈ r.fields, f.wireName ≠ "" ∧ ∀ g ∈ r.fields, g.key = f.key → g = f

instance : DecidablePred Schema.TellsApart := fun s =>
  inferInstanceAs (Decidable (∀ r ∈ s.types, ∀ f ∈ r.fields,
    f.wireName ≠ "" ∧ ∀ g ∈ r.fields, g.key = f.key → g = f))

lemma Schema.TellsApart.declares {s : Schema} (h : s.TellsApart) {t : TypeRef} {f : Field}
    (hf : f ∈ (s.describe t).fields) : (s.describe t).Declares f := by
  have hmem : s.describe t ∈ s.types := by
    rw [describe] at hf ⊢
    cases htype : s.types[t.index]? with
    | none => simp [htype] at hf
    | some r => exact List.mem_of_getElem? htype
  obtain ⟨hne, hunique⟩ := h _ hmem f hf
  exact ⟨hf, hne, hunique⟩

/-! ### An example -/

namespace People

def nameField : Field := ⟨"Name", none, .scalar .string⟩

def ageField : Field := ⟨"Age", none, .optional (.scalar (.integer .i32))⟩

/-- The one person who is the boss of another, if there is one. -/
def bossField : Field := ⟨"Boss", some "boss", .optional (.record ⟨"Person", 0⟩)⟩

/-- Any number of persons, of each of whom there may be no record. -/
def friendsField : Field :=
  ⟨"Friends", some "friends", .collection (.optional (.record ⟨"Person", 0⟩))⟩

/-- People with a name, maybe an age and maybe a boss, and any number of friends. -/
def schema : Schema where
  types := [⟨"Person", [nameField, ageField, bossField, friendsField]⟩]
  root := ⟨"Person", 0⟩

/-- The properties of people. -/
def people : PropertyTree := ⟨schema, schema.root, [], 3⟩

lemma tellsApart_schema : schema.TellsApart := by
  decide +kernel

lemma calls {name : String} {f : Field} (hf : f ∈ people.record.fields)
    (hname : Text.lowercase name = f.key) : people.record.Calls name f :=
  ⟨tellsApart_schema.declares hf, hname⟩

lemma forall_mem_fields {P : Field → Prop} :
    (∀ f ∈ (schema.describe schema.root).fields, P f) ↔
      P nameField ∧ P ageField ∧ P bossField ∧ P friendsField := by
  simp [schema, Schema.describe]

end People

end RecordQuery
