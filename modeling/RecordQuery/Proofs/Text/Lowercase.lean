import RecordQuery.Text.Compare
import Mathlib.Tactic.Common

/-!
# Lower case within a text

The lower-case form of a text has those of its parts in it, each as it stands between the rest of
the text. A part has another form there than alone just if one of its capital sigmas ends a word in
one place and not in the other. Apart from that, what is found in a text is found in lower case.
-/

namespace RecordQuery

namespace Text

/-! ### Parts of texts -/

/-- Holds of a place at which a sigma ends a word, by the characters before it, nearest first, and
those after it. -/
def endsWord (before after : List Char) : Bool := startsCased before && !startsCased after

/-- The lower-case form of a part of a text, by the characters before the part, nearest first, and
those after it. -/
def lowerBetween (before : List Char) : (part after : List Char) → List Char
  | [], _ => []
  | c :: part, after => lowerAt before c (part ++ after) ++ lowerBetween (c :: before) part after

variable {before before' after after' front part back : List Char} {c : Char}

lemma lowerAfter_append (before part after : List Char) :
    lowerAfter before (part ++ after) =
      lowerBetween before part after ++ lowerAfter (part.reverse ++ before) after := by
  induction part generalizing before with
  | nil => rfl
  | cons c part ih =>
    rw [List.cons_append, lowerAfter, ih, lowerBetween, List.append_assoc, List.reverse_cons,
      List.append_assoc]
    rfl

lemma lowerBetween_nil (before part : List Char) :
    lowerBetween before part [] = lowerAfter before part := by
  have happend := lowerAfter_append before part []
  rw [List.append_nil, lowerAfter, List.append_nil] at happend
  exact happend.symm

/-! ### Sigmas -/

lemma length_lowerAt : (lowerAt before c after).length = (lowerAt before' c after').length := by
  unfold lowerAt
  split_ifs <;> rfl

lemma lowerAt_sigma (before after : List Char) :
    lowerAt before 'Σ' after = if endsWord before after then ['ς'] else ['σ'] := rfl

/-- What stands around a character matters for a capital sigma only. -/
lemma lowerAt_eq_iff : lowerAt before c after = lowerAt before' c after' ↔
    (c = 'Σ' → endsWord before after = endsWord before' after') := by
  by_cases hc : c = 'Σ'
  · subst hc
    rw [lowerAt_sigma, lowerAt_sigma, imp_iff_right rfl]
    cases endsWord before after <;> cases endsWord before' after' <;> decide
  · simp [lowerAt, hc]

/-- A part of two texts has one lower-case form in both just if each of its capital sigmas ends a
word in both or in neither. -/
theorem lowerBetween_eq_iff :
    lowerBetween before part after = lowerBetween before' part after' ↔
      ∀ a b, part = a ++ 'Σ' :: b →
        endsWord (a.reverse ++ before) (b ++ after) =
          endsWord (a.reverse ++ before') (b ++ after') := by
  induction part generalizing before before' with
  | nil => simp [lowerBetween]
  | cons c part ih =>
    have hcons : lowerBetween before (c :: part) after = lowerBetween before' (c :: part) after' ↔
        lowerAt before c (part ++ after) = lowerAt before' c (part ++ after') ∧
          lowerBetween (c :: before) part after = lowerBetween (c :: before') part after' := by
      rw [lowerBetween, lowerBetween]
      exact ⟨fun h => List.append_inj h length_lowerAt, fun ⟨hc, hpart⟩ => by rw [hc, hpart]⟩
    rw [hcons, lowerAt_eq_iff, ih]
    constructor
    · rintro ⟨hc, hpart⟩ a b hab
      cases a with
      | nil =>
        obtain ⟨rfl, rfl⟩ := List.cons.inj hab
        exact hc rfl
      | cons d a =>
        obtain ⟨rfl, rfl⟩ := List.cons.inj hab
        simpa using hpart a b rfl
    · intro h
      refine ⟨fun hc => h [] part (by rw [hc]; rfl), fun a b hab => ?_⟩
      simpa using h (c :: a) b (by rw [hab]; rfl)

/-- Holds of a text between two others if each of its capital sigmas ends a word there just if it
does in the text alone. -/
def KeepsSigmas (front part back : List Char) : Prop :=
  ∀ a b, part = a ++ 'Σ' :: b →
    endsWord (a.reverse ++ front.reverse) (b ++ back) = endsWord a.reverse b

lemma lowerBetween_eq_lowerAfter_iff :
    lowerBetween front.reverse part back = lowerAfter [] part ↔ KeepsSigmas front part back := by
  rw [← lowerBetween_nil, lowerBetween_eq_iff]
  simp only [KeepsSigmas, List.append_nil]

lemma keepsSigmas_of_not_mem (h : 'Σ' ∉ part) : KeepsSigmas front part back := by
  rintro a b rfl
  simp at h

/-! ### Texts in texts -/

lemma occursIn_iff {needle cs : List Char} : occursIn needle cs ↔ needle <:+: cs := by
  induction cs with
  | nil => rw [occursIn, List.isEmpty_iff, List.infix_nil]
  | cons c cs ih =>
    rw [occursIn, Bool.or_eq_true, List.isPrefixOf_iff_prefix, ih, List.infix_cons_iff]

lemma containsFolded_iff {s needle : String} :
    containsFolded s needle ↔ needle.toList <:+: (lowercase s).toList := occursIn_iff

/-- In a text in lower case, a part that keeps its sigmas is found in lower case. -/
theorem containsFolded_of_keepsSigmas {s needle : String}
    (hs : s.toList = front ++ needle.toList ++ back)
    (h : KeepsSigmas front needle.toList back) : containsFolded s (lowercase needle) := by
  rw [containsFolded_iff, lowercase, lowercase, String.toList_ofList, String.toList_ofList, hs,
    List.append_assoc, lowerAfter_append, lowerAfter_append, List.append_nil,
    lowerBetween_eq_lowerAfter_iff.mpr h, ← List.append_assoc]
  exact List.infix_append ..

end Text

end RecordQuery
