import RecordQuery.Number.Decimal
import RecordQuery.Proofs.Number.Digits
import Mathlib.Data.List.TakeWhile
import Mathlib.Tactic.Linarith

/-!
# Decimals are read as they are written

A text gives only decimals that fit: a coefficient of 96 bits and at most 28 decimal places. Every
one of these is read back from its text with its places.
-/

namespace RecordQuery

namespace Number.Decimal

variable {coefficient scale : Nat} {r : Nat × Nat} {c : Char} {cs ds : List Char} {x : Decimal}

/-! ### Reading digit by digit -/

/-- Before the point every digit has to fit. -/
lemma read_cons_before : read coefficient scale false (c :: cs) =
    if c = '.' then read coefficient scale true cs
    else if !c.isDigit then none
    else if maxCoefficient < 10 * coefficient + digitValue c then none
    else read (10 * coefficient + digitValue c) 0 false cs := by
  simp [read]

/-- After the point the first digit that does not fit is rounded away. -/
lemma read_cons_after : read coefficient scale true (c :: cs) =
    if !c.isDigit then none
    else if scale = maxScale || maxCoefficient < 10 * coefficient + digitValue c then
      if !cs.all Char.isDigit then none
      else if 5 ≤ digitValue c then roundUp? coefficient scale
      else some (coefficient, scale)
    else read (10 * coefficient + digitValue c) (scale + 1) true cs := by
  simp [read]

/-! ### Decimals of texts -/

/-- Holds of a coefficient and a scale that fit. -/
def InRange (r : Nat × Nat) : Prop := r.1 ≤ maxCoefficient ∧ r.2 ≤ maxScale

lemma inRange_of_roundUp? (h : roundUp? coefficient scale = some r)
    (hfits : InRange (coefficient, scale)) : InRange r := by
  obtain ⟨hcoefficient, hscale⟩ := hfits
  rw [roundUp?] at h
  simp only at hcoefficient hscale
  split_ifs at h <;> cases h <;> constructor <;> simp only <;> omega

lemma inRange_of_read {pointSeen : Bool} (h : read coefficient scale pointSeen cs = some r)
    (hfits : InRange (coefficient, scale)) : InRange r := by
  induction cs generalizing coefficient scale pointSeen with
  | nil =>
    cases h
    exact hfits
  | cons c cs ih =>
    cases pointSeen with
    | false =>
      rw [read_cons_before] at h
      split_ifs at h with hpoint hdigit hlarge
      · exact ih h hfits
      · exact ih h ⟨Nat.not_lt.mp hlarge, Nat.zero_le _⟩
    | true =>
      rw [read_cons_after] at h
      split_ifs at h with hdigit hfull hrest hhalf
      · exact inRange_of_roundUp? h hfits
      · cases h
        exact hfits
      · simp only [Bool.or_eq_true, decide_eq_true_eq, not_or, Nat.not_lt] at hfull
        exact ih h ⟨hfull.2, Nat.lt_of_le_of_ne hfits.2 hfull.1⟩

lemma roundHalfUp_le (n : Nat) {d : Nat} (hd : 0 < d) : roundHalfUp n d ≤ n := by
  rw [roundHalfUp]
  refine Nat.le_of_lt_succ (Nat.div_lt_of_lt_mul ?_)
  nlinarith

lemma inRange_of_lower? {places : Nat} (h : lower? coefficient scale places = some r)
    (hfits : InRange (coefficient, scale)) : InRange r := by
  rw [lower?] at h
  split_ifs at h with _ hplaces <;> cases h
  · exact ⟨hfits.1, hplaces⟩
  · exact ⟨Nat.le_trans (roundHalfUp_le _ (tenTo_pos _)) hfits.1, Nat.le_refl _⟩

lemma inRange_of_raise? {places : Nat} (h : raise? coefficient scale places = some r)
    (hfits : InRange (coefficient, scale)) : InRange r := by
  simp only [raise?] at h
  split_ifs at h with _ _ hmoved <;> cases h
  · exact ⟨hfits.1, Nat.le_trans (Nat.sub_le _ _) hfits.2⟩
  · exact ⟨hmoved, Nat.zero_le _⟩

lemma inRange_of_shift? {exponent : Int} (h : shift? coefficient scale exponent = some r)
    (hfits : InRange (coefficient, scale)) : InRange r := by
  rw [shift?] at h
  split_ifs at h
  · exact inRange_of_lower? h hfits
  · exact inRange_of_raise? h hfits

lemma inRange_of_mantissa? (h : mantissa? cs = some r) : InRange r := by
  unfold mantissa? at h
  split at h
  · split_ifs at h
    exact inRange_of_read h ⟨Nat.zero_le _, Nat.zero_le _⟩
  · split_ifs at h
    exact inRange_of_read h ⟨Nat.zero_le _, Nat.zero_le _⟩
  · cases h

/-- Holds of the decimals that there are room for. -/
structure Fits (x : Decimal) : Prop where
  natAbs_le : x.coefficient.natAbs ≤ maxCoefficient
  scale_le : x.scale ≤ maxScale

/-- A text gives a decimal that fits, and only one with a sign in front gives one below zero. -/
lemma fits_of_ofText? (h : ofText? cs = some x) :
    x.Fits ∧ (cs.head? ≠ some '-' → 0 ≤ x.coefficient) := by
  unfold ofText? at h
  split at h
  rename_i negative body hsign
  have hnegative : negative → cs.head? = some '-' := by
    rintro rfl
    split at hsign <;> cases hsign
    rfl
  obtain ⟨⟨coefficient, scale⟩, hmantissa, h⟩ := Option.bind_eq_some_iff.mp h
  have hfits := inRange_of_mantissa? hmantissa
  obtain ⟨r, hr, rfl⟩ : ∃ r, InRange r ∧ x = ⟨if negative then -(r.1 : Int) else r.1, r.2⟩ := by
    simp only at h
    split at h
    · cases h
      exact ⟨_, hfits, rfl⟩
    · obtain ⟨exponent, -, h⟩ := Option.bind_eq_some_iff.mp h
      obtain ⟨r, hr, h⟩ := Option.bind_eq_some_iff.mp h
      cases h
      exact ⟨r, inRange_of_shift? hr hfits, rfl⟩
  refine ⟨⟨?_, hr.2⟩, fun hhead => ?_⟩
  · split_ifs
    · simpa using hr.1
    · exact hr.1
  · rw [if_neg fun h => hhead (hnegative h)]
    exact Int.natCast_nonneg _

/-! ### Texts of decimals -/

/-- Digits before the point are read as long as what they write fits. -/
lemma read_before_append (hcs : ∀ c ∈ cs, c.isDigit)
    (hfits : Nat.ofDigitChars 10 cs coefficient ≤ maxCoefficient) :
    read coefficient 0 false (cs ++ ds) =
      read (Nat.ofDigitChars 10 cs coefficient) 0 false ds := by
  induction cs generalizing coefficient with
  | nil => rfl
  | cons c cs ih =>
    obtain ⟨hc, hcs⟩ := List.forall_mem_cons.mp hcs
    rw [Nat.ofDigitChars_cons] at hfits ⊢
    have hpoint : c ≠ '.' := by
      rintro rfl
      cases hc
    have hnext : ¬ maxCoefficient < 10 * coefficient + digitValue c :=
      Nat.not_lt.mpr (Nat.le_trans (le_ofDigitChars cs _) hfits)
    simp only [List.cons_append, read_cons_before, hpoint, hc, hnext, Bool.not_true,
      Bool.false_eq_true, if_false]
    exact ih hcs hfits

/-- So are those after the point as long as there are places. -/
lemma read_after (hcs : ∀ c ∈ cs, c.isDigit)
    (hfits : Nat.ofDigitChars 10 cs coefficient ≤ maxCoefficient)
    (hplaces : scale + cs.length ≤ maxScale) :
    read coefficient scale true cs =
      some (Nat.ofDigitChars 10 cs coefficient, scale + cs.length) := by
  induction cs generalizing coefficient scale with
  | nil => rfl
  | cons c cs ih =>
    obtain ⟨hc, hcs⟩ := List.forall_mem_cons.mp hcs
    rw [Nat.ofDigitChars_cons] at hfits ⊢
    rw [List.length_cons] at hplaces ⊢
    have hplace : scale ≠ maxScale := by omega
    have hnext : ¬ maxCoefficient < 10 * coefficient + digitValue c :=
      Nat.not_lt.mpr (Nat.le_trans (le_ofDigitChars cs _) hfits)
    simp only [read_cons_after, hc, hplace, hnext, Bool.not_true, Bool.false_eq_true,
      decide_false, Bool.or_self, if_false]
    rw [Nat.add_comm cs.length, ← Nat.add_assoc]
    exact ih hcs hfits (by omega)

/-- What a decimal is written with, but for its sign. -/
lemma exists_cons_positional (n scale : Nat) : ∃ c cs, positional n (-scale) = c :: cs ∧
    c.isDigit ∧ ∀ d ∈ cs, d.isDigit ∨ d = '.' := by
  obtain ⟨whole, fraction, hne, hdigits, -, -, hall⟩ := exists_positional n scale
  obtain ⟨hwhole, hfraction⟩ := List.forall_mem_append.mp hdigits
  cases whole with
  | nil => exact absurd rfl hne
  | cons c whole =>
    obtain ⟨hc, hwhole⟩ := List.forall_mem_cons.mp hwhole
    refine ⟨c, _, hall, hc, ?_⟩
    intro d hd
    rcases List.mem_append.mp hd with hd | hd
    · exact .inl (hwhole d hd)
    · split_ifs at hd
      · cases hd
      · rcases List.mem_cons.mp hd with rfl | hd
        · exact .inr rfl
        · exact .inl (hfraction d hd)

lemma mantissa?_cons (hc : c.isDigit) : mantissa? (c :: cs) = read 0 0 false (c :: cs) := by
  unfold mantissa?
  split
  · rename_i heq
    cases heq
    cases hc
  · rename_i heq
    cases heq
    rw [if_pos hc]
  · rename_i heq
    cases heq

lemma mantissa?_positional (hcoefficient : coefficient ≤ maxCoefficient)
    (hscale : scale ≤ maxScale) :
    mantissa? (positional coefficient (-scale)) = some (coefficient, scale) := by
  obtain ⟨c, cs, hcons, hc, -⟩ := exists_cons_positional coefficient scale
  obtain ⟨whole, fraction, -, hdigits, rfl, rfl, hall⟩ := exists_positional coefficient scale
  obtain ⟨hwhole, hfraction⟩ := List.forall_mem_append.mp hdigits
  have hvalue : ofDigits (whole ++ fraction) =
      Nat.ofDigitChars 10 fraction (Nat.ofDigitChars 10 whole 0) := Nat.ofDigitChars_append 0
  rw [hvalue] at hcoefficient
  have hfits : Nat.ofDigitChars 10 whole 0 ≤ maxCoefficient :=
    Nat.le_trans (le_ofDigitChars fraction _) hcoefficient
  rw [hcons, mantissa?_cons hc, ← hcons, hall, read_before_append hwhole hfits, hvalue]
  split_ifs with hplaces
  · rw [List.length_eq_zero_iff.mp hplaces]
    rfl
  · rw [read_cons_before, if_pos rfl, read_after hfraction hcoefficient (by omega), Nat.zero_add]

/-- A text without an exponent is a decimal with the sign that it has. -/
lemma ofText?_of_mantissa? (hmarks : ∀ d ∈ c :: cs, d.toLower ≠ 'e') (hc : c.isDigit)
    (h : mantissa? (c :: cs) = some r) :
    ofText? ('-' :: c :: cs) = some ⟨-r.1, r.2⟩ ∧ ofText? (c :: cs) = some ⟨r.1, r.2⟩ := by
  have hfront : (c :: cs).takeWhile (fun d => !(d.toLower == 'e')) = c :: cs := by
    rw [List.takeWhile_eq_self_iff]
    simpa using hmarks
  have hback : (c :: cs).dropWhile (fun d => !(d.toLower == 'e')) = [] := by
    rw [List.dropWhile_eq_nil_iff]
    simpa using hmarks
  constructor
  · simp [ofText?, hfront, hback, h]
  · have hsign : c ≠ '-' ∧ c ≠ '+' := by
      constructor <;> rintro rfl <;> cases hc
    unfold ofText?
    split
    rename_i negative body heq
    split at heq
    · rename_i hminus
      exact absurd (List.cons.inj hminus).1 hsign.1
    · rename_i hplus
      exact absurd (List.cons.inj hplus).1 hsign.2
    · cases heq
      simp [hfront, hback, h]

/-- Every decimal that fits is read from its text. -/
lemma ofText?_text (h : x.Fits) : ofText? x.text.toList = some x := by
  obtain ⟨coefficient, scale⟩ := x
  obtain ⟨hcoefficient, hscale⟩ := h
  simp only at hcoefficient hscale
  have hmantissa := mantissa?_positional hcoefficient hscale
  obtain ⟨c, cs, hcons, hc, hcs⟩ := exists_cons_positional coefficient.natAbs scale
  rw [hcons] at hmantissa
  have hdigit {d : Char} (hd : d.isDigit) : d.toLower ≠ 'e' := by
    rw [toLower_of_isDigit hd]
    rintro rfl
    cases hd
  have hmarks : ∀ d ∈ c :: cs, d.toLower ≠ 'e' := by
    refine List.forall_mem_cons.mpr ⟨hdigit hc, fun d hd => ?_⟩
    rcases hcs d hd with hd | rfl
    · exact hdigit hd
    · decide
  obtain ⟨hbelow, habove⟩ := ofText?_of_mantissa? hmarks hc hmantissa
  rw [text, String.toList_ofList]
  simp only [hcons]
  split_ifs with hsign
  · rw [hbelow]
    simp only [Option.some.injEq, mk.injEq, and_true]
    omega
  · rw [habove]
    simp only [Option.some.injEq, mk.injEq, and_true]
    omega

end Number.Decimal

end RecordQuery
