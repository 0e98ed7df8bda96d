import RecordQuery.Plan.Resolve
import RecordQuery.Proofs.Order.Values
import RecordQuery.Proofs.Schema.Lookup
import RecordQuery.Proofs.Text.EditDistance
import RecordQuery.Proofs.Text.LetterCase
import Mathlib.Data.List.Nodup

/-!
# Hints about unknown names

A walk down a property tree that comes to an unknown name fails, with the nearest known name as a
hint if that is near enough. No known name is at distance zero, since it would be the unknown one in
other letter case, and the tree would have found it. So a hint is kept back for want of nearness
only, and what is hinted at is found in the same tree.
-/

namespace RecordQuery

/-! ### The first of the nearest names -/

namespace Suggestion

variable {name s : String} {candidates : List String}

/-- Of the candidates that are not empty, none is nearer to a name than `s`, and none before `s` is
as near. -/
structure FirstNearest (name : String) (candidates : List String) (s : String) : Prop where
  ne_empty : s ≠ ""
  split : ∃ before after, candidates = before ++ s :: after ∧
    (∀ w ∈ before, w ≠ "" → distance name s < distance name w) ∧
    ∀ w ∈ after, w ≠ "" → distance name s ≤ distance name w

lemma FirstNearest.mem (h : FirstNearest name candidates s) : s ∈ candidates := by
  obtain ⟨before, after, rfl, -, -⟩ := h.split
  exact List.mem_append_right before List.mem_cons_self

lemma FirstNearest.distance_le {w : String} (h : FirstNearest name candidates s)
    (hw : w ∈ candidates) (hne : w ≠ "") : distance name s ≤ distance name w := by
  obtain ⟨before, after, rfl, hbefore, hafter⟩ := h.split
  rcases List.mem_append.mp hw with hw | hw
  · exact Nat.le_of_lt (hbefore w hw hne)
  · rcases List.mem_cons.mp hw with rfl | hw
    · exact Nat.le_refl _
    · exact hafter w hw hne

lemma nearest?_eq_none_iff : nearest? name candidates = none ↔ candidates = [] := by
  cases candidates with
  | nil => simp [nearest?]
  | cons candidate others =>
    rw [nearest?]
    cases nearest? name others <;> simp

lemma exists_split_of_nearest? (h : nearest? name candidates = some s) :
    ∃ before after, candidates = before ++ s :: after ∧
      (∀ w ∈ before, distance name s < distance name w) ∧
      ∀ w ∈ after, distance name s ≤ distance name w := by
  induction candidates generalizing s with
  | nil => cases h
  | cons candidate others ih =>
    rw [nearest?] at h
    cases hothers : nearest? name others with
    | none =>
      rw [hothers] at h
      cases h
      rw [nearest?_eq_none_iff.mp hothers]
      exact ⟨[], [], rfl, by simp, by simp⟩
    | some other =>
      rw [hothers] at h
      obtain ⟨before, after, hsplit, hbefore, hafter⟩ := ih hothers
      simp only at h
      split_ifs at h with hnearer <;> cases h
      · refine ⟨candidate :: before, after, by rw [hsplit, List.cons_append], ?_, hafter⟩
        exact List.forall_mem_cons.mpr ⟨hnearer, hbefore⟩
      · -- the first candidate is as near as the nearest of the others
        have hle := Nat.le_of_not_lt hnearer
        refine ⟨[], others, rfl, by simp, fun w hw => ?_⟩
        rw [hsplit] at hw
        rcases List.mem_append.mp hw with hw | hw
        · exact Nat.le_trans hle (Nat.le_of_lt (hbefore w hw))
        · rcases List.mem_cons.mp hw with rfl | hw
          · exact hle
          · exact Nat.le_trans hle (hafter w hw)

lemma firstNearest_of_nearest? (h : nearest? name (candidates.filter (!·.isEmpty)) = some s) :
    FirstNearest name candidates s := by
  have hkept {l : List String} {w : String} (hw : w ∈ l) (hne : w ≠ "") :
      w ∈ l.filter (!·.isEmpty) :=
    List.mem_filter.mpr ⟨hw, by simpa using hne⟩
  obtain ⟨before, after, hsplit, hbefore, hafter⟩ := exists_split_of_nearest? h
  obtain ⟨front, back, rfl, rfl, hback⟩ := List.filter_eq_append_iff.mp hsplit
  obtain ⟨skipped, rest, rfl, hskipped, hs, rfl⟩ := List.filter_eq_cons_iff.mp hback
  refine ⟨by simpa using hs, front ++ skipped, rest, by rw [List.append_assoc], ?_, ?_⟩
  · intro w hw hne
    rcases List.mem_append.mp hw with hw | hw
    · exact hbefore w (hkept hw hne)
    · exact absurd (by simpa using hne) (hskipped w hw)
  · exact fun w hw hne => hafter w (hkept hw hne)

lemma firstNearest_of_suggest? (h : suggest? name candidates = some s) :
    FirstNearest name candidates s :=
  firstNearest_of_nearest? (Option.filter_eq_some_iff.mp h).1

/-- Where no candidate is at no distance, one is suggested exactly if one is near enough. -/
lemma isSome_suggest?_iff (hpos : ∀ w ∈ candidates, w ≠ "" → 0 < distance name w) :
    (suggest? name candidates).isSome ↔
      ∃ w ∈ candidates, w ≠ "" ∧ distance name w ≤ maxDistance := by
  constructor
  · intro h
    obtain ⟨s, hs⟩ := Option.isSome_iff_exists.mp h
    have hnear := (Option.filter_eq_some_iff.mp hs).2
    have hfirst := firstNearest_of_suggest? hs
    rw [Bool.and_eq_true, decide_eq_true_iff, decide_eq_true_iff] at hnear
    exact ⟨s, hfirst.mem, hfirst.ne_empty, hnear.2⟩
  · rintro ⟨w, hw, hne, hnear⟩
    have hkept : w ∈ candidates.filter (!·.isEmpty) :=
      List.mem_filter.mpr ⟨hw, by simpa using hne⟩
    cases hs : nearest? name (candidates.filter (!·.isEmpty)) with
    | none =>
      rw [nearest?_eq_none_iff.mp hs] at hkept
      cases hkept
    | some s =>
      have hfirst := firstNearest_of_nearest? hs
      have hle := Nat.le_trans (hfirst.distance_le hw hne) hnear
      have hlt := hpos s hfirst.mem hfirst.ne_empty
      simp [suggest?, hs, hlt, hle]

/-- Names at no distance are the same in lower case. -/
lemma lowercase_eq_of_distance_eq_zero {t : String} (h : distance s t = 0) :
    Text.lowercase s = Text.lowercase t := by
  have hedits := (Text.isLeast_editDistance (Text.lowercase s).toList (Text.lowercase t).toList).1
  rw [← distance, h] at hedits
  exact String.toList_inj.mp hedits.eq_of_zero

end Suggestion

/-! ### Fields and their wire names -/

lemma Field.lastOfKey_eq_self {fs : List Field} (h : (fs.map Field.key).Nodup) :
    lastOfKey fs = fs := by
  induction fs with
  | nil => rfl
  | cons f fs ih =>
    obtain ⟨hf, hfs⟩ := List.nodup_cons.mp h
    have hany : ¬ fs.any (·.key == f.key) := by
      intro hany
      obtain ⟨g, hg, hkey⟩ := List.any_eq_true.mp hany
      exact hf (beq_iff_eq.mp hkey ▸ List.mem_map_of_mem hg)
    rw [lastOfKey, if_neg hany, ih hfs]

namespace PropertyTree

variable {t t' root below : PropertyTree} {name : String} {names : List String} {f : Field}

lemma fields_perm (h : t.above.length < t.limit) :
    t.fields.Perm (Field.lastOfKey t.record.fields) := by
  rw [fields, if_neg (Nat.not_le.mpr h)]
  exact List.mergeSort_perm _ _

lemma nodup_key_fields (t : PropertyTree) : (t.fields.map Field.key).Nodup := by
  by_cases h : t.above.length < t.limit
  · have hkeys : ((Field.lastOfKey t.record.fields).map Field.key).Nodup :=
      List.pairwise_map.mpr (Field.pairwise_key_lastOfKey t.record.fields)
    exact ((fields_perm h).map Field.key).nodup_iff.mpr hkeys
  · rw [fields, if_pos (Nat.not_lt.mp h)]
    exact List.nodup_nil

/-- A field with a wire name is found under it. -/
lemma get?_wireName (hf : f ∈ t.fields) (hne : f.wireName ≠ "") :
    t.get? f.wireName = some ⟨t, f⟩ := by
  have hsome : (t.fields.find? fun g => g.key == f.key).isSome :=
    List.find?_isSome.mpr ⟨f, hf, beq_self_eq_true f.key⟩
  obtain ⟨g, hg⟩ := Option.isSome_iff_exists.mp hsome
  have hkey : g.key = f.key := by simpa using List.find?_some hg
  have hgf : g = f :=
    List.inj_on_of_nodup_map t.nodup_key_fields (List.mem_of_find?_eq_some hg) hf hkey
  rw [get?, if_neg (by simpa using hne), ← Field.key, hg, hgf, Option.map_some]

lemma exists_get?_of_mem_wireNames {w : String} (hw : w ∈ t.wireNames) (hne : w ≠ "") :
    ∃ p, t.get? w = some p ∧ p.field.wireName = w := by
  obtain ⟨f, hf, rfl⟩ := List.mem_map.mp hw
  exact ⟨⟨t, f⟩, get?_wireName hf hne, rfl⟩

lemma get?_eq_none_iff :
    t.get? name = none ↔
      name.isEmpty ∨ t.fields.find? (·.key == Text.lowercase name) = none := by
  rw [get?]
  split_ifs with hname <;> simp [hname]

lemma get?_congr {w : String} (h : Text.lowercase name = Text.lowercase w) :
    t.get? name = t.get? w := by
  have hempty : name.isEmpty ↔ w.isEmpty := by
    rw [String.isEmpty_iff, String.isEmpty_iff, ← Text.lowercase_eq_empty_iff, h,
      Text.lowercase_eq_empty_iff]
  unfold get?
  rw [h]
  simp only [hempty]

/-- An unknown name is at some distance from all known ones. -/
lemma distance_pos_of_get? (h : t.get? name = none) {w : String} (hw : w ∈ t.wireNames)
    (hne : w ≠ "") : 0 < Suggestion.distance name w := by
  refine Nat.pos_of_ne_zero fun hzero => ?_
  obtain ⟨p, hp, -⟩ := exists_get?_of_mem_wireNames hw hne
  rw [← get?_congr (Suggestion.lowercase_eq_of_distance_eq_zero hzero), h] at hp
  cases hp

/-! ### The order of declarations -/

/-- Two trees are cut at the same depth, and the record types at their roots declare the same
fields, in whatever order. -/
structure Reordered (t t' : PropertyTree) : Prop where
  limit_eq : t'.limit = t.limit
  depth_eq : t'.above.length = t.above.length
  perm : t'.record.fields.Perm t.record.fields

lemma pairwise_fields (t : PropertyTree) :
    t.fields.Pairwise fun f g => (Text.compare f.key g.key).isLE := by
  have hne (o : Ordering) : (o != .gt) = o.isLE := by cases o <;> rfl
  unfold fields
  split_ifs
  · exact List.Pairwise.nil
  · simp only [hne]
    refine List.pairwise_mergeSort (fun f g h => Std.TransCmp.isLE_trans) (fun f g => ?_) _
    have hswap : Text.compare g.key f.key = (Text.compare f.key g.key).swap :=
      Std.OrientedCmp.eq_swap
    rw [hswap]
    cases Text.compare f.key g.key <;> rfl

/-- There is only one order of the fields by their keys. -/
lemma fields_eq_of_perm {fs : List Field} (hperm : t.fields.Perm fs)
    (hfs : fs.Pairwise fun f g => (Text.compare f.key g.key).isLE) : t.fields = fs := by
  refine List.Perm.eq_of_pairwise (fun f g hf hg hfg hgf => ?_) t.pairwise_fields hfs hperm
  have hkey : f.key = g.key := Std.LawfulEqCmp.eq_of_compare (Std.OrientedCmp.isLE_antisymm hfg hgf)
  exact List.inj_on_of_nodup_map t.nodup_key_fields hf (hperm.mem_iff.mpr hg) hkey

lemma fields_eq_of_reordered (h : t.Reordered t') (hkeys : (t.record.fields.map Field.key).Nodup) :
    t'.fields = t.fields := by
  have hkeys' : (t'.record.fields.map Field.key).Nodup := (h.perm.map Field.key).nodup_iff.mpr hkeys
  by_cases hdepth : t.above.length < t.limit
  · have hdepth' : t'.above.length < t'.limit := by rwa [h.depth_eq, h.limit_eq]
    have hfields := fields_perm hdepth
    have hfields' := fields_perm hdepth'
    rw [Field.lastOfKey_eq_self hkeys] at hfields
    rw [Field.lastOfKey_eq_self hkeys'] at hfields'
    exact fields_eq_of_perm (hfields'.trans (h.perm.trans hfields.symm)) t.pairwise_fields
  · rw [fields, fields, h.depth_eq, h.limit_eq, if_pos (Nat.not_lt.mp hdepth),
      if_pos (Nat.not_lt.mp hdepth)]

/-! ### Walks that end at an unknown name -/

/-- The names that lead from one tree down to another, through records and no collections. -/
inductive Descends : PropertyTree → List String → PropertyTree → Prop
  | refl (t : PropertyTree) : Descends t [] t
  | step {t below bottom : PropertyTree} {name : String} {names : List String} {p : Property}
      (hp : t.get? name = some p) (hcollection : p.isCollection = false)
      (hbelow : p.nested? = some below) (h : Descends below names bottom) :
      Descends t (name :: names) bottom

/-- Every walk that comes to the tree with the name fails there, with the hint. -/
def Rejects (t : PropertyTree) (name : String) (hint : Option String) : Prop :=
  ∀ (root : PropertyTree) (names rest : List String) (slot : Nat) (p : Path) (written : String),
    root.Descends names t → p.first :: p.rest = names ++ name :: rest →
    root.walk slot p written = .error (.unknownProperty name hint)

lemma walkFrom_of_get? (h : t.get? name = none) (slot : Nat) (passed : List String)
    (written : String) (rest : List String) :
    t.walkFrom slot passed written name rest = .error (.unknownAmong name t.wireNames) := by
  cases rest <;> simp [walkFrom, h]

lemma walkFrom_of_descends (hroot : root.Descends names t) (h : t.get? name = none) {slot : Nat}
    {passed rest after : List String} {written first : String}
    (hnames : first :: rest = names ++ name :: after) :
    root.walkFrom slot passed written first rest = .error (.unknownAmong name t.wireNames) := by
  induction hroot generalizing passed first rest with
  | refl t =>
    obtain ⟨rfl, -⟩ := List.cons.inj hnames
    exact walkFrom_of_get? h slot passed written rest
  | @step t below bottom next names p hp hcollection hbelow _ ih =>
    obtain ⟨hfirst, hrest⟩ := List.cons.inj hnames
    obtain ⟨second, others, hcons⟩ : ∃ second others, names ++ name :: after = second :: others :=
      List.exists_cons_of_ne_nil (by simp)
    have hwalk : below.walkFrom slot (passed ++ [p.name]) written second others =
        .error (.unknownAmong name bottom.wireNames) := ih h hcons.symm
    rw [hrest, List.append_eq, hcons, walkFrom, hfirst]
    simp only [hp, hcollection, hbelow, hwalk, Bool.false_eq_true, if_false]
    rfl

lemma rejects_suggest? (h : t.get? name = none) :
    t.Rejects name (Suggestion.suggest? name t.wireNames) :=
  fun _ _ _ _ _ _ hroot hnames => walkFrom_of_descends hroot h hnames

/-! ### What is hinted at -/

/-- What a hint about an unknown name in a tree tells. -/
structure Hints (t : PropertyTree) (name : String) (hint : Option String) : Prop where
  /-- There is a hint exactly if a known name is near. -/
  isSome_iff : hint.isSome ↔ ∃ w ∈ t.wireNames, w ≠ "" ∧ Suggestion.distance name w ≤ 3
  firstNearest : ∀ s ∈ hint, Suggestion.FirstNearest name t.wireNames s
  /-- The hint can be looked up. -/
  resolves : ∀ s ∈ hint, ∃ p, t.get? s = some p ∧ p.field.wireName = s

lemma hints_suggest? (h : t.get? name = none) :
    t.Hints name (Suggestion.suggest? name t.wireNames) where
  isSome_iff := Suggestion.isSome_suggest?_iff fun _ hw hne => distance_pos_of_get? h hw hne
  firstNearest _ hs := Suggestion.firstNearest_of_suggest? hs
  resolves _ hs := by
    have hfirst := Suggestion.firstNearest_of_suggest? hs
    exact exists_get?_of_mem_wireNames hfirst.mem hfirst.ne_empty

/-- An unknown name is rejected with the first of the nearest names as a hint, if that one is near.
Nearness is counted in edits of the lower-case forms. Where no two fields have the same wire name in
lower case, the order of their declarations does not matter. -/
theorem exists_hint_of_get?_eq_none (h : t.get? name = none) :
    ∃ hint, t.Rejects name hint ∧ t.Hints name hint ∧
      (∀ w, IsLeast {n | Text.Edits n (Text.lowercase name).toList (Text.lowercase w).toList}
        (Suggestion.distance name w)) ∧
      ((t.record.fields.map Field.key).Nodup → ∀ t', t.Reordered t' → t'.Rejects name hint) := by
  refine ⟨_, rejects_suggest? h, hints_suggest? h, fun w => Text.isLeast_editDistance _ _, ?_⟩
  intro hkeys t' hreordered
  have hfields := fields_eq_of_reordered hreordered hkeys
  have hnone : t'.get? name = none := by
    rwa [get?_eq_none_iff, hfields, ← get?_eq_none_iff]
  have hwireNames : t'.wireNames = t.wireNames := by rw [wireNames, wireNames, hfields]
  rw [← hwireNames]
  exact rejects_suggest? hnone

end PropertyTree

/-! ### An example -/

namespace People

lemma wireNames_people : people.wireNames = ["Age", "boss", "friends", "Name"] := by
  have hperm : people.fields.Perm [ageField, bossField, friendsField, nameField] :=
    (PropertyTree.fields_perm (by decide)).trans (by decide +kernel)
  rw [PropertyTree.wireNames, PropertyTree.fields_eq_of_perm hperm (by decide +kernel)]
  rfl

/-- Of two names that are one edit away the first one is hinted at. -/
theorem rejects_nage :
    people.get? "nage" = none ∧ people.Rejects "nage" (some "Age") ∧
      people.Hints "nage" (some "Age") ∧
      (∀ w, IsLeast {n | Text.Edits n (Text.lowercase "nage").toList (Text.lowercase w).toList}
        (Suggestion.distance "nage" w)) ∧
      (people.record.fields.map Field.key).Nodup ∧
      ∀ t', people.Reordered t' → t'.Rejects "nage" (some "Age") := by
  have hnone : people.get? "nage" = none := by
    rw [PropertyTree.get?_eq]
    decide +kernel
  have hkeys : (people.record.fields.map Field.key).Nodup := by decide +kernel
  obtain ⟨hint, hrejects, hhints, hdistance, hreordered⟩ :=
    PropertyTree.exists_hint_of_get?_eq_none hnone
  have hhint : hint = some "Age" := by
    have hwalk := hrejects people [] [] 0 ⟨"nage", []⟩ "nage" (.refl people) rfl
    rw [PropertyTree.walk, PropertyTree.walkFrom_of_get? hnone, wireNames_people] at hwalk
    simp only [QueryError.unknownAmong, Except.error.injEq, QueryError.unknownProperty.injEq,
      true_and] at hwalk
    rw [← hwalk]
    decide +kernel
  subst hhint
  exact ⟨hnone, hrejects, hhints, hdistance, hkeys, hreordered hkeys⟩

end People

end RecordQuery
