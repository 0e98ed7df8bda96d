import RecordQuery.Text.EditDistance
import Mathlib.Order.Bounds.Basic
import Mathlib.Order.MinMax
import Mathlib.Tactic.Common

/-!
# The distance is the least number of edits

An edit inserts, deletes or replaces one character anywhere in a text. The distance of two texts is
worked out row by row over their beginnings. It is the least number of edits that turn one text into
the other, one after the other and in any order.
-/

namespace RecordQuery.Text

/-- One character inserted, deleted or replaced. -/
inductive Edit : List Char → List Char → Prop
  | insert (before : List Char) (c : Char) (after : List Char) :
      Edit (before ++ after) (before ++ c :: after)
  | delete (before : List Char) (c : Char) (after : List Char) :
      Edit (before ++ c :: after) (before ++ after)
  | replace (before : List Char) (c d : Char) (after : List Char) :
      Edit (before ++ c :: after) (before ++ d :: after)

/-- So many edits, one after the other. -/
inductive Edits : Nat → List Char → List Char → Prop
  | refl (s : List Char) : Edits 0 s s
  | step {n : Nat} {s t u : List Char} (h : Edit s t) (hrest : Edits n t u) : Edits (n + 1) s u

/-! ### Edits behind a common beginning, and backwards -/

variable {s t : List Char} {n : Nat}

lemma Edit.cons (c : Char) (h : Edit s t) : Edit (c :: s) (c :: t) := by
  cases h with
  | insert before d after => exact .insert (c :: before) d after
  | delete before d after => exact .delete (c :: before) d after
  | replace before d e after => exact .replace (c :: before) d e after

lemma Edit.reverse (h : Edit s t) : Edit s.reverse t.reverse := by
  cases h with
  | insert before c after => simpa using Edit.insert after.reverse c before.reverse
  | delete before c after => simpa using Edit.delete after.reverse c before.reverse
  | replace before c d after => simpa using Edit.replace after.reverse c d before.reverse

lemma Edits.cons (c : Char) (h : Edits n s t) : Edits n (c :: s) (c :: t) := by
  induction h with
  | refl s => exact .refl (c :: s)
  | step h _ ih => exact .step (h.cons c) ih

lemma Edits.reverse (h : Edits n s t) : Edits n s.reverse t.reverse := by
  induction h with
  | refl s => exact .refl s.reverse
  | step h _ ih => exact .step h.reverse ih

lemma edits_reverse : Edits n s.reverse t.reverse ↔ Edits n s t :=
  ⟨fun h => by simpa using h.reverse, Edits.reverse⟩

lemma Edits.insert_head (d : Char) (h : Edits n s t) : Edits (n + 1) s (d :: t) :=
  .step (.insert [] d s) (h.cons d)

lemma Edits.delete_head (c : Char) (h : Edits n s t) : Edits (n + 1) (c :: s) t :=
  .step (.delete [] c s) h

lemma Edits.replace_head (c d : Char) (h : Edits n s t) : Edits (n + 1) (c :: s) (d :: t) :=
  .step (.replace [] c d s) (h.cons d)

lemma Edits.min {m : Nat} (hm : Edits m s t) (hn : Edits n s t) : Edits (min m n) s t := by
  rcases min_choice m n with h | h <;> rw [h]
  · exact hm
  · exact hn

lemma Edits.eq_of_zero (h : Edits 0 s t) : s = t := by
  cases h
  rfl

/-! ### The distance by its recursion -/

/-- The distance of two texts, by what is done about their first characters. -/
def dist : List Char → List Char → Nat
  | [], t => t.length
  | _ :: s, [] => s.length + 1
  | c :: s, d :: t =>
    min (min (dist (c :: s) t + 1) (dist s (d :: t) + 1)) (dist s t + if c = d then 0 else 1)

@[simp] lemma dist_nil_left (t : List Char) : dist [] t = t.length := by rw [dist]

@[simp] lemma dist_nil_right (s : List Char) : dist s [] = s.length := by
  cases s <;> simp [dist]

lemma dist_cons_cons (c d : Char) (s t : List Char) :
    dist (c :: s) (d :: t) =
      min (min (dist (c :: s) t + 1) (dist s (d :: t) + 1))
        (dist s t + if c = d then 0 else 1) := by
  rw [dist]

lemma dist_self (s : List Char) : dist s s = 0 := by
  induction s with
  | nil => rw [dist_nil_left, List.length_nil]
  | cons c s ih => rw [dist_cons_cons, ih, if_pos rfl, Nat.add_zero, Nat.min_zero]

/-- As many edits as the distance says are enough. -/
lemma edits_dist (s t : List Char) : Edits (dist s t) s t := by
  fun_induction dist s t with
  | case1 t =>
    induction t with
    | nil => exact .refl []
    | cons d t ih => exact ih.insert_head d
  | case2 c s =>
    induction s generalizing c with
    | nil => exact (Edits.refl []).delete_head c
    | cons d s ih => exact (ih d).delete_head c
  | case3 c s d t ihinsert ihdelete ih =>
    have hboth : Edits (dist s t + if c = d then 0 else 1) (c :: s) (d :: t) := by
      split_ifs with hcd
      · exact hcd ▸ ih.cons c
      · exact ih.replace_head c d
    exact ((ihinsert.insert_head d).min (ihdelete.delete_head c)).min hboth

/-! ### No fewer edits are enough -/

lemma dist_cons_left_le (c : Char) (s t : List Char) : dist (c :: s) t ≤ dist s t + 1 := by
  cases t with
  | nil => simp
  | cons d t =>
    rw [dist_cons_cons]
    omega

lemma dist_cons_right_le (d : Char) (s t : List Char) : dist s (d :: t) ≤ dist s t + 1 := by
  cases s with
  | nil => simp
  | cons c s =>
    rw [dist_cons_cons]
    omega

lemma dist_le_cons_left (c : Char) (s t : List Char) : dist s t ≤ dist (c :: s) t + 1 := by
  induction t with
  | nil =>
    rw [dist_nil_right, dist_nil_right, List.length_cons]
    omega
  | cons d t ih =>
    have h := dist_cons_right_le d s t
    rw [dist_cons_cons]
    omega

lemma dist_replace_le (c d : Char) (s t : List Char) :
    dist (c :: s) t ≤ dist (d :: s) t + 1 := by
  induction t with
  | nil => simp
  | cons e t ih =>
    rw [dist_cons_cons, dist_cons_cons]
    split_ifs <;> omega

lemma dist_cons_le_dist_cons {s s' : List Char} (c : Char) (h : ∀ t, dist s t ≤ dist s' t + 1)
    (t : List Char) : dist (c :: s) t ≤ dist (c :: s') t + 1 := by
  induction t with
  | nil =>
    have hlength := h []
    rw [dist_nil_right, dist_nil_right] at hlength
    rw [dist_nil_right, dist_nil_right, List.length_cons, List.length_cons]
    omega
  | cons d t ih =>
    have hdelete := h (d :: t)
    have hboth := h t
    rw [dist_cons_cons, dist_cons_cons]
    omega

/-- What stands before an edit adds nothing to the difference that the edit makes. -/
lemma dist_append_le_dist_append {s s' : List Char} (before : List Char)
    (h : ∀ t, dist s t ≤ dist s' t + 1) (t : List Char) :
    dist (before ++ s) t ≤ dist (before ++ s') t + 1 := by
  induction before generalizing t with
  | nil => exact h t
  | cons c before ih => exact dist_cons_le_dist_cons c ih t

/-- One edit of the first text changes the distance by one at most. -/
lemma Edit.dist_le {s s' : List Char} (h : Edit s s') (t : List Char) :
    dist s t ≤ dist s' t + 1 := by
  cases h with
  | insert before c after => exact dist_append_le_dist_append before (dist_le_cons_left c after) t
  | delete before c after => exact dist_append_le_dist_append before (dist_cons_left_le c after) t
  | replace before c d after =>
    exact dist_append_le_dist_append before (dist_replace_le c d after) t

lemma Edits.dist_le (h : Edits n s t) : dist s t ≤ n := by
  induction h with
  | refl s => exact Nat.le_of_eq (dist_self s)
  | step h _ ih => exact Nat.le_trans (h.dist_le _) (Nat.succ_le_succ ih)

/-! ### The rows -/

/-- The distances of a text from another one and from what becomes of it as more characters are put
before it, one after the other. -/
def distances (s t : List Char) : (target : List Char) → List Nat
  | [] => []
  | d :: target => dist s (d :: t) :: distances s (d :: t) target

/-- The row of a text that is read from its end. -/
def row (s target : List Char) : List Nat := dist s [] :: distances s [] target

lemma distances_nil (t target : List Char) :
    distances [] t target = List.range' (t.length + 1) target.length := by
  induction target generalizing t with
  | nil => rfl
  | cons d target ih =>
    rw [distances, ih, dist_nil_left, List.length_cons, List.length_cons, List.range'_succ]

lemma row_nil (target : List Char) : row [] target = List.range (target.length + 1) := by
  rw [row, distances_nil, dist_nil_left, List.range_eq_range', List.range'_succ, List.length_nil]

lemma distanceRow_distances (c : Char) (s t target : List Char) :
    distanceRow c (dist (c :: s) t) (dist s t) target (distances s t target) =
      distances (c :: s) t target := by
  induction target generalizing t with
  | nil => rfl
  | cons d target ih => rw [distances, distanceRow, ← dist_cons_cons, ih, distances]

lemma nextDistances_row (c : Char) (s target : List Char) :
    nextDistances target (row s target) c = row (c :: s) target := by
  have hfirst : dist (c :: s) [] = dist s [] + 1 := by
    rw [dist_nil_right, dist_nil_right, List.length_cons]
  rw [row, nextDistances, ← hfirst, distanceRow_distances, row]

/-- One row is turned into the next, from the row of what is already read to that of the whole. -/
lemma foldl_nextDistances (source s target : List Char) :
    source.foldl (nextDistances target) (row s target) = row (source.reverse ++ s) target := by
  induction source generalizing s with
  | nil => rfl
  | cons c source ih =>
    rw [List.foldl_cons, nextDistances_row, ih, List.reverse_cons, List.append_assoc,
      List.singleton_append]

lemma getLastD_distances (s t target : List Char) :
    (distances s t target).getLastD (dist s t) = dist s (target.reverse ++ t) := by
  induction target generalizing t with
  | nil => rfl
  | cons d target ih =>
    rw [distances, List.getLastD_cons, ih, List.reverse_cons, List.append_assoc,
      List.singleton_append]

/-- Reading both texts from the front, the last entry of the last row compares them from the end. -/
lemma editDistance_eq_dist (s t : List Char) :
    editDistance s t = dist s.reverse t.reverse := by
  rw [editDistance, ← row_nil, foldl_nextDistances, List.append_nil, row, List.getLastD_cons,
    getLastD_distances, List.append_nil]

/-- The distance of two texts is the least number of edits between them. -/
theorem isLeast_editDistance (s t : List Char) : IsLeast {n | Edits n s t} (editDistance s t) := by
  rw [editDistance_eq_dist]
  constructor
  · exact edits_reverse.mp (edits_dist s.reverse t.reverse)
  · intro n h
    exact (edits_reverse.mpr h).dist_le

end RecordQuery.Text
