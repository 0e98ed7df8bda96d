import RecordQuery.SortOrder
import Mathlib.Data.List.Basic
import Mathlib.Tactic.Common

/-!
# Stable sorting

A stable sort of a list has its elements in order, and keeps the order of those that are not told
apart. Where the order is a total preorder on the elements of the list there is exactly one, and it
is the one that the sort by insertion gives.
-/

namespace RecordQuery

namespace Sorting

variable {α β : Type} {P : α → Prop} {cmp : α → α → Ordering} {a b c x : α} {l s : List α}

/-! ### Preorders on some elements -/

/-- Holds if an order is a total preorder on the elements with a property. -/
def IsPreorderOn (P : α → Prop) (cmp : α → α → Ordering) : Prop :=
  Std.TransCmp fun a b : {x // P x} => cmp a.1 b.1

namespace IsPreorderOn

lemma eq_swap (h : IsPreorderOn P cmp) (ha : P a) (hb : P b) : cmp a b = (cmp b a).swap := by
  have htrans : Std.TransCmp fun a b : {x // P x} => cmp a.1 b.1 := h
  exact htrans.eq_swap (a := ⟨a, ha⟩) (b := ⟨b, hb⟩)

lemma isLE_trans (h : IsPreorderOn P cmp) (ha : P a) (hb : P b) (hc : P c)
    (hab : (cmp a b).isLE) (hbc : (cmp b c).isLE) : (cmp a c).isLE := by
  have htrans : Std.TransCmp fun a b : {x // P x} => cmp a.1 b.1 := h
  have hcmp := @htrans.isLE_trans ⟨a, ha⟩ ⟨b, hb⟩ ⟨c, hc⟩
  exact hcmp hab hbc

lemma lt_of_eq_of_lt (h : IsPreorderOn P cmp) (ha : P a) (hb : P b) (hc : P c)
    (hab : cmp a b = .eq) (hbc : cmp b c = .lt) : cmp a c = .lt := by
  have htrans : Std.TransCmp fun a b : {x // P x} => cmp a.1 b.1 := h
  have hcmp := htrans.lt_of_eq_of_lt (a := ⟨a, ha⟩) (b := ⟨b, hb⟩) (c := ⟨c, hc⟩)
  exact hcmp hab hbc

lemma cmp_self (h : IsPreorderOn P cmp) (ha : P a) : cmp a a = .eq := by
  have hswap := h.eq_swap ha ha
  cases hcmp : cmp a a with
  | eq => rfl
  | lt => simp [hcmp] at hswap
  | gt => simp [hcmp] at hswap

/-- Of two elements the first is no greater, or the second is less. -/
lemma isLE_of_not_lt (h : IsPreorderOn P cmp) (ha : P a) (hb : P b) (hab : cmp a b ≠ .lt) :
    (cmp b a).isLE := by
  rw [h.eq_swap hb ha]
  cases hcmp : cmp a b
  · exact absurd hcmp hab
  · rfl
  · rfl

/-- Fewer elements may be preordered where not all are. -/
lemma mono {Q : α → Prop} (h : IsPreorderOn P cmp) (hQ : ∀ a, Q a → P a) : IsPreorderOn Q cmp where
  eq_swap := h.eq_swap (hQ _ (Subtype.property _)) (hQ _ (Subtype.property _))
  isLE_trans := h.isLE_trans (hQ _ (Subtype.property _)) (hQ _ (Subtype.property _))
    (hQ _ (Subtype.property _))

end IsPreorderOn

/-! ### Stable sorts -/

/-- Holds of two elements that are not told apart. -/
def alike (cmp : α → α → Ordering) (a b : α) : Bool := cmp a b == .eq

lemma alike_iff : alike cmp a b ↔ cmp a b = .eq := beq_iff_eq

/-- Holds of the lists with the elements of another one in order, in which elements that are not
told apart stand as they stood there. -/
structure IsStableSort (cmp : α → α → Ordering) (l s : List α) : Prop where
  perm : s.Perm l
  ordered : s.Pairwise fun a b => (cmp a b).isLE
  stable : ∀ a ∈ l, s.filter (alike cmp a) = l.filter (alike cmp a)

/-- Where nothing is told apart, a list is the stable sort of itself. -/
lemma isStableSort_self (h : ∀ a b, cmp a b = .eq) (l : List α) : IsStableSort cmp l l where
  perm := .refl l
  ordered := List.pairwise_of_forall fun a b => by simp [h]
  stable _ _ := rfl

/-- Lists in order are the same if the elements that are not told apart from any one stand in the
same order in both. -/
lemma eq_of_filter_eq {s t : List α} (h : IsPreorderOn P cmp) (hs : ∀ a ∈ s, P a)
    (ht : ∀ a ∈ t, P a) (hsordered : s.Pairwise fun a b => (cmp a b).isLE)
    (htordered : t.Pairwise fun a b => (cmp a b).isLE)
    (hfilter : ∀ a, P a → s.filter (alike cmp a) = t.filter (alike cmp a)) : s = t := by
  have hself {a : α} (ha : P a) : alike cmp a a := alike_iff.mpr (h.cmp_self ha)
  induction s generalizing t with
  | nil =>
    cases t with
    | nil => rfl
    | cons b t =>
      have hb := hfilter b (ht b List.mem_cons_self)
      rw [List.filter_cons_of_pos (hself (ht b List.mem_cons_self))] at hb
      cases hb
  | cons a s ih =>
    obtain ⟨ha, hs⟩ := List.forall_mem_cons.mp hs
    cases t with
    | nil =>
      have hnil := hfilter a ha
      rw [List.filter_cons_of_pos (hself ha)] at hnil
      cases hnil
    | cons b t =>
      obtain ⟨hb, htrest⟩ := List.forall_mem_cons.mp ht
      obtain ⟨hsle, hssorted⟩ := List.pairwise_cons.mp hsordered
      obtain ⟨htle, htsorted⟩ := List.pairwise_cons.mp htordered
      -- each head is in the other list, where the other head comes first
      have hab : (cmp a b).isLE := by
        have hmem : b ∈ (a :: s).filter (alike cmp b) := by
          rw [hfilter b hb]
          exact List.mem_filter.mpr ⟨List.mem_cons_self, hself hb⟩
        rcases List.mem_cons.mp (List.mem_filter.mp hmem).1 with rfl | hmem
        · rw [h.cmp_self ha]; rfl
        · exact hsle b hmem
      have hba : (cmp b a).isLE := by
        have hmem : a ∈ (b :: t).filter (alike cmp a) := by
          rw [← hfilter a ha]
          exact List.mem_filter.mpr ⟨List.mem_cons_self, hself ha⟩
        rcases List.mem_cons.mp (List.mem_filter.mp hmem).1 with rfl | hmem
        · rw [h.cmp_self hb]; rfl
        · exact htle a hmem
      have heq : cmp a b = .eq := by
        rw [h.eq_swap hb ha] at hba
        cases hcmp : cmp a b <;> simp_all
      have hheads : a = b := by
        have hfirst := hfilter a ha
        rw [List.filter_cons_of_pos (hself ha),
          List.filter_cons_of_pos (alike_iff.mpr heq)] at hfirst
        exact (List.cons.inj hfirst).1
      subst hheads
      congr 1
      apply ih hs htrest hssorted htsorted
      intro c hc
      have hrest := hfilter c hc
      by_cases hca : alike cmp c a
      · simpa [hca] using hrest
      · simpa [hca] using hrest

/-- There is no more than one stable sort of a list. -/
theorem IsStableSort.unique {s t : List α} (h : IsPreorderOn (· ∈ l) cmp)
    (hs : IsStableSort cmp l s) (ht : IsStableSort cmp l t) : s = t := by
  apply eq_of_filter_eq h (fun a ha => hs.perm.mem_iff.mp ha) (fun a ha => ht.perm.mem_iff.mp ha)
    hs.ordered ht.ordered
  intro a ha
  rw [hs.stable a ha, ht.stable a ha]

/-- In a stable sort of a stable sort the later order comes first, and where it does not tell
elements apart the earlier one has them in order still. -/
theorem IsStableSort.lex {cmp' : α → α → Ordering} {t : List α} (h : IsPreorderOn (· ∈ l) cmp)
    (hs : IsStableSort cmp' l s) (ht : IsStableSort cmp s t) :
    IsStableSort (fun a b => (cmp a b).then (cmp' a b)) l t where
  perm := ht.perm.trans hs.perm
  ordered := by
    rw [List.pairwise_iff_forall_sublist]
    intro a b hab
    have hle := List.pairwise_iff_forall_sublist.mp ht.ordered hab
    cases hcmp : cmp a b with
    | lt => rfl
    | gt => simp [hcmp] at hle
    | eq =>
      have ha : a ∈ s := ht.perm.mem_iff.mp (hab.subset List.mem_cons_self)
      have hself : alike cmp a a := alike_iff.mpr (h.cmp_self (hs.perm.mem_iff.mp ha))
      -- the two stand in this order among the elements like the first, which were not moved
      have halike : [a, b].Sublist (s.filter (alike cmp a)) := by
        rw [← ht.stable a ha]
        simpa [hself, alike_iff.mpr hcmp] using hab.filter (alike cmp a)
      exact List.pairwise_iff_forall_sublist.mp hs.ordered (halike.trans List.filter_sublist)
  stable a ha := by
    have halike (u : List α) : u.filter (alike (fun a b => (cmp a b).then (cmp' a b)) a) =
        (u.filter (alike cmp a)).filter (alike cmp' a) := by
      rw [List.filter_filter]
      congr 1
      funext b
      rw [alike, alike, alike]
      cases cmp a b <;> simp
    rw [halike, ht.stable a (hs.perm.mem_iff.mpr ha), List.filter_comm, hs.stable a ha,
      List.filter_comm, ← halike]

/-! ### Sorting by insertion -/

lemma insertAfter_perm (cmp : α → α → Ordering) (x : α) (l : List α) :
    (insertAfter cmp x l).Perm (x :: l) := by
  induction l with
  | nil => exact .refl _
  | cons y l ih =>
    rw [insertAfter]
    split_ifs
    · exact (ih.cons y).trans (.swap x y l)
    · exact .refl _

/-- Inserting keeps a list with the greatest element first in order. -/
lemma pairwise_insertAfter (h : IsPreorderOn P cmp) (hx : P x) (hl : ∀ a ∈ l, P a)
    (hordered : l.Pairwise fun a b => (cmp b a).isLE) :
    (insertAfter cmp x l).Pairwise fun a b => (cmp b a).isLE := by
  induction l with
  | nil => exact List.pairwise_singleton _ x
  | cons y l ih =>
    obtain ⟨hy, hl⟩ := List.forall_mem_cons.mp hl
    obtain ⟨hle, hordered⟩ := List.pairwise_cons.mp hordered
    rw [insertAfter]
    split_ifs with hlt
    · refine List.pairwise_cons.mpr ⟨?_, ih hl hordered⟩
      intro a ha
      rcases List.mem_cons.mp ((insertAfter_perm cmp x l).mem_iff.mp ha) with rfl | ha
      · simp [hlt]
      · exact hle a ha
    · have hyx := h.isLE_of_not_lt hx hy hlt
      refine List.pairwise_cons.mpr ⟨?_, List.pairwise_cons.mpr ⟨hle, hordered⟩⟩
      intro a ha
      rcases List.mem_cons.mp ha with rfl | ha
      · exact hyx
      · exact h.isLE_trans (hl a ha) hy hx (hle a ha) hyx

/-- An element is put before those that are not told apart from it. -/
lemma filter_insertAfter (h : IsPreorderOn P cmp) (hx : P x) (hl : ∀ b ∈ l, P b) (ha : P a) :
    (insertAfter cmp x l).filter (alike cmp a) = (x :: l).filter (alike cmp a) := by
  induction l with
  | nil => rfl
  | cons y l ih =>
    obtain ⟨hy, hl⟩ := List.forall_mem_cons.mp hl
    rw [insertAfter]
    split_ifs with hlt
    · rw [List.filter_cons, ih hl]
      by_cases hax : alike cmp a x
      · -- what is greater than `x` is told apart from `a`
        have hay : alike cmp a y = false := by
          simp [alike, h.lt_of_eq_of_lt ha hx hy (alike_iff.mp hax) hlt]
        simp [hax, hay]
      · simp [hax, List.filter_cons]
    · rfl

/-- A run of insertions puts the elements of a list behind those that are there. -/
lemma foldl_insertAfter_perm (cmp : α → α → Ordering) (l acc : List α) :
    (l.foldl (fun sorted x => insertAfter cmp x sorted) acc).Perm (l.reverse ++ acc) := by
  induction l generalizing acc with
  | nil => exact .refl _
  | cons x l ih =>
    refine (ih _).trans ?_
    rw [List.reverse_cons, List.append_assoc]
    exact (insertAfter_perm cmp x acc).append_left _

lemma pairwise_foldl_insertAfter (h : IsPreorderOn P cmp) {acc : List α} (hl : ∀ a ∈ l, P a)
    (hacc : ∀ a ∈ acc, P a) (hordered : acc.Pairwise fun a b => (cmp b a).isLE) :
    (l.foldl (fun sorted x => insertAfter cmp x sorted) acc).Pairwise
      fun a b => (cmp b a).isLE := by
  induction l generalizing acc with
  | nil => exact hordered
  | cons x l ih =>
    obtain ⟨hx, hl⟩ := List.forall_mem_cons.mp hl
    apply ih hl ?_ (pairwise_insertAfter h hx hacc hordered)
    intro a ha
    rcases List.mem_cons.mp ((insertAfter_perm cmp x acc).mem_iff.mp ha) with rfl | ha
    · exact hx
    · exact hacc a ha

lemma filter_foldl_insertAfter (h : IsPreorderOn P cmp) {acc : List α} (hl : ∀ a ∈ l, P a)
    (hacc : ∀ a ∈ acc, P a) (ha : P a) :
    (l.foldl (fun sorted x => insertAfter cmp x sorted) acc).filter (alike cmp a) =
      (l.reverse ++ acc).filter (alike cmp a) := by
  induction l generalizing acc with
  | nil => rfl
  | cons x l ih =>
    obtain ⟨hx, hl⟩ := List.forall_mem_cons.mp hl
    have hinsert : ∀ b ∈ insertAfter cmp x acc, P b := by
      intro b hb
      rcases List.mem_cons.mp ((insertAfter_perm cmp x acc).mem_iff.mp hb) with rfl | hb
      · exact hx
      · exact hacc b hb
    rw [List.foldl_cons, ih hl hinsert, List.filter_append, filter_insertAfter h hx hacc ha,
      List.reverse_cons, List.append_assoc, List.filter_append]
    rfl

/-- Sorting by insertion is stable. -/
theorem isStableSort_sort (h : IsPreorderOn (· ∈ l) cmp) : IsStableSort cmp l (sort cmp l) where
  perm := by
    have hperm := foldl_insertAfter_perm cmp l []
    rw [List.append_nil] at hperm
    exact (List.reverse_perm _).trans (hperm.trans l.reverse_perm)
  ordered := by
    rw [sort, List.pairwise_reverse]
    exact pairwise_foldl_insertAfter h (fun _ ha => ha) (by simp) List.Pairwise.nil
  stable := by
    intro a ha
    rw [sort, List.filter_reverse, filter_foldl_insertAfter h (fun _ ha => ha) (by simp) ha]
    simp

end Sorting

end RecordQuery
