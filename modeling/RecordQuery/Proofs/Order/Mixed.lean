import RecordQuery.Proofs.Order.Values

/-!
# The order of values of several scalars

A number comes neither before nor after a text: they count as equal, and so does every other number
and that text. For this reason the order of all values, though no value comes before itself and the
other way round the order is reversed, is no total preorder. It goes wrong where something else
stands between two values of one scalar, and nowhere else.
-/

namespace RecordQuery

namespace Value

variable {a b c : Value}

lemma isNull_of_scalar? {s : Scalar} (h : a.scalar? = some s) : a.isNull = false := by
  cases a <;> first | rfl | cases h

/-- What comes after something that is there is there itself, and both are of one scalar. -/
lemma exists_scalar?_of_gt (hc : c.isNull = false) (h : a.sortCompare c = .gt) :
    ∃ s, a.scalar? = some s ∧ c.scalar? = some s := by
  have ha : a.isNull = false := by
    by_contra hnull
    obtain rfl := eq_null_of_isNull (Bool.of_not_eq_false hnull)
    rw [sortCompare_null_left hc] at h
    cases h
  by_contra hscalar
  rw [sortCompare_of_unrelated ha hc fun s hs hs' => hscalar ⟨s, hs, hs'⟩] at h
  cases h

/-- What is not after something that is missing is missing. -/
lemma isNull_of_ne_gt (hb : b.isNull = true) (h : a.sortCompare b ≠ .gt) : a.isNull = true := by
  by_contra ha
  rw [eq_null_of_isNull hb, sortCompare_null_right (by simpa using ha)] at h
  exact h rfl

/-- Of three values the first is after the last though the second is between them: then the second
is something else than they are. -/
lemma scalar?_ne_of_between (hab : a.sortCompare b ≠ .gt) (hbc : b.sortCompare c ≠ .gt)
    (hac : a.sortCompare c = .gt) :
    c.isNull = false ∧ b.isNull = false ∧ a.scalar? ≠ b.scalar? := by
  have hnull : c.isNull = true → a.sortCompare c ≠ .gt := fun hc => by
    rw [eq_null_of_isNull hc, eq_null_of_isNull (isNull_of_ne_gt (isNull_of_ne_gt hc hbc) hab)]
    exact nofun
  have hc : c.isNull = false := by
    by_contra hc
    exact hnull (by simpa using hc) hac
  obtain ⟨s, ha, hcs⟩ := exists_scalar?_of_gt hc hac
  refine ⟨hc, ?_, fun hb => ?_⟩
  · by_contra hb
    have hanull := isNull_of_ne_gt (by simpa using hb) hab
    rw [isNull_of_scalar? ha] at hanull
    cases hanull
  · have hle := (isPreorderOn_sortCompare_of_scalar? s).isLE_trans ha (hb ▸ ha) hcs
      (Ordering.isLE_iff_ne_gt.mpr hab) (Ordering.isLE_iff_ne_gt.mpr hbc)
    exact Ordering.isLE_iff_ne_gt.mp hle hac

/-- The order of all values: the other way round it is reversed, no value comes before or after
itself, and what is not after something is not after what that is not after either, unless the
second of the three values is there and of another scalar than the others. -/
theorem sortCompare_laws (a b c : Value) :
    a.sortCompare b = (b.sortCompare a).swap ∧
    a.sortCompare a = .eq ∧
    (a.sortCompare b ≠ .gt ∧ b.sortCompare c ≠ .gt ∧ a.sortCompare c = .gt ↔
      a.sortCompare c = .gt ∧ c.isNull = false ∧ b.isNull = false ∧ a.scalar? ≠ b.scalar?) := by
  refine ⟨sortCompare_eq_swap a b, sortCompare_self a, ?_, ?_⟩
  · rintro ⟨hab, hbc, hac⟩
    exact ⟨hac, scalar?_ne_of_between hab hbc hac⟩
  · rintro ⟨hac, hc, hb, hne⟩
    obtain ⟨s, ha, hcs⟩ := exists_scalar?_of_gt hc hac
    have hbs : b.scalar? ≠ some s := fun hbs => hne (ha.trans hbs.symm)
    refine ⟨?_, ?_, hac⟩
    · rw [sortCompare_of_unrelated (isNull_of_scalar? ha) hb]
      · exact nofun
      · rintro t hat hbt
        exact hne (hat.trans hbt.symm)
    · rw [sortCompare_of_unrelated hb hc]
      · exact nofun
      · rintro t hbt hct
        exact hbs (hbt.trans (hct.symm.trans hcs))

/-- Between two and one stands a text, which neither of them is told apart from. -/
theorem not_sortCompare_trans :
    ¬ ∀ a b c : Value, a.sortCompare b ≠ .gt → b.sortCompare c ≠ .gt → a.sortCompare c ≠ .gt := by
  intro htrans
  exact htrans (.integer .i32 2) (.string "x") (.integer .i32 1) (by decide) (by decide) rfl

end Value

end RecordQuery
