import RecordQuery.Text.Ascii
import RecordQuery.Text.Lowercase
import Mathlib.Tactic.Common

/-!
# Words in lower case

Words with the same letters in any case have the same lower-case form, also where the lower-case
form of a letter depends on the letters around it.
-/

namespace RecordQuery

namespace Text

/-! ### Characters -/

/-- A property of characters that tells none of the letters from A to Z from its small one tells no
character from its small one. -/
lemma apply_toLower {α : Type} {f : Char → α}
    (h : ∀ i < 26, f (Char.ofNat (65 + i)).toLower = f (Char.ofNat (65 + i))) (c : Char) :
    f c.toLower = f c := by
  by_cases hc : 65 ≤ c.toNat ∧ c.toNat ≤ 90
  · have hcapital := h (c.toNat - 65) (by omega)
    rwa [Nat.add_sub_cancel' hc.1, Char.ofNat_toNat] at hcapital
  · have hself : c.toLower = c := by
      apply dif_neg
      simpa [UInt32.le_iff_toNat_le] using hc
    rw [hself]

lemma isCased_toLower (c : Char) : isCased c.toLower = isCased c :=
  apply_toLower (by decide +kernel) c

lemma isCaseIgnorable_toLower (c : Char) : isCaseIgnorable c.toLower = isCaseIgnorable c :=
  apply_toLower (by decide +kernel) c

/-! ### Words -/

lemma foldCase_eq_of_sameWord {s t : String} (h : sameWord s t) : foldCase s = foldCase t :=
  beq_iff_eq.mp h

lemma isEmpty_eq_of_sameWord {s t : String} (h : sameWord s t) : s.isEmpty = t.isEmpty := by
  have hempty (s : String) : s.isEmpty = (foldCase s).isEmpty := by
    rw [foldCase, Bool.eq_iff_iff]
    simp
  rw [hempty, hempty, foldCase_eq_of_sameWord h]

lemma startsCased_map_toLower (cs : List Char) :
    startsCased (cs.map Char.toLower) = startsCased cs := by
  induction cs with
  | nil => rfl
  | cons c cs ih =>
    simp only [startsCased, List.map_cons, List.dropWhile_cons, isCaseIgnorable_toLower] at ih ⊢
    split_ifs
    · exact ih
    · exact isCased_toLower c

lemma lowerAt_toLower (before : List Char) (c : Char) (after : List Char) :
    lowerAt (before.map Char.toLower) c.toLower (after.map Char.toLower) =
      lowerAt before c after := by
  simp only [lowerAt, startsCased_map_toLower]
  generalize (startsCased before && !startsCased after) = final
  -- neither of the two letters with a rule of their own is one from A to Z
  exact apply_toLower (f := fun c => if c = 'İ' then ['i', '\u0307'] else
    if c = 'Σ' then if final then ['ς'] else ['σ'] else [lowerChar c]) (by decide +revert +kernel) c

lemma lowerAfter_map_toLower (before cs : List Char) :
    lowerAfter (before.map Char.toLower) (cs.map Char.toLower) = lowerAfter before cs := by
  induction cs generalizing before with
  | nil => rfl
  | cons c cs ih =>
    have hrest := ih (c :: before)
    rw [List.map_cons] at hrest
    rw [List.map_cons, lowerAfter, lowerAfter, lowerAt_toLower, hrest]

/-- The letter case of a word does not matter to its lower-case form. -/
theorem lowercase_eq_of_sameWord {s t : String} (h : sameWord s t) : lowercase s = lowercase t := by
  have hfold : s.toList.map Char.toLower = t.toList.map Char.toLower := foldCase_eq_of_sameWord h
  have hs := lowerAfter_map_toLower [] s.toList
  have ht := lowerAfter_map_toLower [] t.toList
  rw [List.map_nil] at hs ht
  rw [lowercase, lowercase, ← hs, ← ht, hfold]

lemma lowerAt_ne_nil (before : List Char) (c : Char) (after : List Char) :
    lowerAt before c after ≠ [] := by
  unfold lowerAt
  split_ifs <;> exact List.cons_ne_nil _ _

lemma lowercase_eq_empty_iff {s : String} : lowercase s = "" ↔ s = "" := by
  rw [← String.toList_eq_nil_iff, ← String.toList_eq_nil_iff, lowercase, String.toList_ofList]
  cases s.toList with
  | nil => simp [lowerAfter]
  | cons c cs => simp [lowerAfter, lowerAt_ne_nil]

end Text

end RecordQuery
