import RecordQuery.Guid
import RecordQuery.Proofs.Number.Hex
import Mathlib.Algebra.Ring.Nat

/-!
# Guids are read as they are written

The grouped form of a guid is read back, and texts of numbers, dates and instants are no guids.
-/

namespace RecordQuery

namespace Guid

open Number

variable {c : Char} {cs : List Char} {n m : Nat} {ns : List Nat}

/-! ### Groups -/

lemma group_cons_cons : group (n :: m :: ns) cs = cs.take n ++ '-' :: group (m :: ns) (cs.drop n) :=
  rfl

/-- Groups are taken together as they were made. -/
lemma ungroup?_group (hns : ns ≠ []) (hcs : cs.length = ns.sum) :
    ungroup? ns (group ns cs) = some cs := by
  induction ns generalizing cs with
  | nil => exact absurd rfl hns
  | cons n ns ih =>
    cases ns with
    | nil =>
      rw [List.sum_singleton] at hcs
      rw [group, ungroup?, if_pos hcs]
    | cons m ns =>
      rw [List.sum_cons] at hcs
      have hlength : (cs.take n).length = n := by
        rw [List.length_take]
        omega
      have hrest : (cs.drop n).length = (m :: ns).sum := by
        rw [List.length_drop]
        omega
      have hdrop : (cs.take n ++ '-' :: group (m :: ns) (cs.drop n)).drop n =
          '-' :: group (m :: ns) (cs.drop n) := List.drop_left' hlength
      have htake : (cs.take n ++ '-' :: group (m :: ns) (cs.drop n)).take n = cs.take n :=
        List.take_left' hlength
      simp [group_cons_cons, ungroup?, hdrop, htake, ih (by simp) hrest]

/-- The first group ends with a hyphen. -/
lemma ungroup?_eq_none (h : cs[n]? ≠ some '-') : ungroup? (n :: m :: ns) cs = none := by
  unfold ungroup?
  split
  · rename_i rest heq
    rw [← List.head?_drop, heq] at h
    exact absurd rfl h
  · rfl

lemma mem_of_mem_group {d : Char} (hd : d ∈ group ns cs) : d ∈ cs ∨ d = '-' := by
  induction ns generalizing cs with
  | nil => exact .inl hd
  | cons n ns ih =>
    cases ns with
    | nil => exact .inl hd
    | cons m ns =>
      rcases List.mem_append.mp hd with hd | hd
      · exact .inl (List.mem_of_mem_take hd)
      · rcases List.mem_cons.mp hd with hd | hd
        · exact .inr hd
        · exact (ih hd).imp List.mem_of_mem_drop id

lemma length_group (hns : ns ≠ []) (hcs : cs.length = ns.sum) :
    (group ns cs).length = ns.sum + (ns.length - 1) := by
  induction ns generalizing cs with
  | nil => exact absurd rfl hns
  | cons n ns ih =>
    cases ns with
    | nil => simpa [group] using hcs
    | cons m ns =>
      rw [List.sum_cons] at hcs
      have hdrop : (cs.drop n).length = (m :: ns).sum := by
        rw [List.length_drop]
        omega
      have hrest := ih (by simp) hdrop
      rw [group_cons_cons, List.length_append, List.length_cons, hrest, List.length_take]
      simp only [List.sum_cons, List.length_cons] at hcs ⊢
      omega

/-! ### Texts of guids -/

/-- A text that begins with a digit stands alone. -/
lemma unwrap_eq_self (hc : (hexValue? c).isSome) : unwrap (c :: cs) = c :: cs := by
  obtain ⟨hscheme, hbrace⟩ : c.toLower ≠ 'u' ∧ c ≠ '\x7b' :=
    forall_hexDigit (P := fun d => d.toLower ≠ 'u' ∧ d ≠ '\x7b') (by decide) hc
  simp only [unwrap]
  split_ifs with h
  · exact absurd (List.cons.inj h).1 hscheme
  · split
    · rename_i heq
      exact absurd (List.cons.inj heq).1 hbrace
    · rfl

/-- A text that begins with a digit is no guid if it has neither only digits nor a hyphen after the
eighth. -/
lemma ofText?_eq_none (hc : (hexValue? c).isSome)
    (hplain : (c :: cs).length = 32 → ∃ d ∈ c :: cs, hexValue? d = none)
    (hgroups : (c :: cs)[8]? ≠ some '-') : ofText? (c :: cs) = none := by
  have hnone : ungroup? groups (c :: cs) = none := ungroup?_eq_none hgroups
  rw [ofText?, unwrap_eq_self hc, hnone, plain?]
  split_ifs with hlength
  · obtain ⟨d, hd, hvalue⟩ := hplain hlength
    have hdigits : ofHex? (c :: cs) = none := by
      rw [← Option.not_isSome_iff_eq_none]
      intro h
      have hsome := isSome_hexValue?_of_ofHex? h d hd
      rw [hvalue] at hsome
      cases hsome
    simp [hdigits]
  · rfl

/-- What a guid is written with. -/
lemma exists_cons_text (g : Guid) : ∃ c cs, g.text.toList = c :: cs ∧ (hexValue? c).isSome ∧
    ∀ d ∈ cs, (hexValue? d).isSome ∨ d = '-' := by
  have hlength : (hexPadded 32 g.bits.toNat).length = 32 :=
    length_hexPadded (by decide) g.bits.isLt
  have hdigits : ∀ d ∈ hexPadded 32 g.bits.toNat, (hexValue? d).isSome :=
    isSome_hexValue?_of_ofHex? (by simp)
  rw [text, String.toList_ofList]
  cases h : hexPadded 32 g.bits.toNat with
  | nil => simp [h] at hlength
  | cons c cs =>
    rw [h] at hdigits
    refine ⟨c, cs.take 7 ++ '-' :: group [4, 4, 4, 12] (cs.drop 7), rfl, hdigits c (by simp), ?_⟩
    intro d hd
    have hmem : d ∈ group groups (c :: cs) := List.mem_cons_of_mem c hd
    exact (mem_of_mem_group hmem).imp (hdigits d) id

/-- Every guid is read from its text. -/
lemma ofText?_text (g : Guid) : ofText? g.text.toList = some g := by
  obtain ⟨c, cs, htext, hc, -⟩ := g.exists_cons_text
  have hlength : (hexPadded 32 g.bits.toNat).length = groups.sum :=
    length_hexPadded (by decide) g.bits.isLt
  have hplain : plain? (c :: cs) = none := by
    rw [← htext, plain?, text, String.toList_ofList, length_group (by decide) hlength]
    rfl
  have hgroups : ungroup? groups (c :: cs) = some (hexPadded 32 g.bits.toNat) := by
    rw [← htext, text, String.toList_ofList, ungroup?_group (by decide) hlength]
  rw [htext, ofText?, unwrap_eq_self hc, hplain, hgroups]
  simp

end Guid

end RecordQuery
