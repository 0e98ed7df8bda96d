import RecordQuery.Calendar.Notation
import RecordQuery.Proofs.Calendar.Civil
import RecordQuery.Proofs.Number.Digits
import Mathlib.Data.List.TakeWhile

/-!
# Dates and instants are read as they are written

Dates of the years that have four digits are read back from their texts, and so are instants on such
days.
-/

namespace RecordQuery

open Number

/-! ### Fields -/

namespace Notation

variable {least most : Nat} {ds rest : List Char} {c : Char}

/-- A field of full width is read as its number. -/
lemma field?_append (hds : ∀ d ∈ ds, d.isDigit) (hlength : ds.length = most)
    (hleast : least ≤ most) : field? least most (ds ++ rest) = some (ofDigits ds, rest) := by
  have hfield : ((ds ++ rest).take most).takeWhile Char.isDigit = ds := by
    rw [List.take_left' hlength, List.takeWhile_eq_self_iff]
    exact hds
  rw [field?]
  simp only [hfield, List.drop_left, Nat.not_lt.mpr (hlength ▸ hleast), if_false]

lemma field?_padded {n : Nat} (hmost : 0 < most) (hn : n < 10 ^ most) (hleast : least ≤ most) :
    field? least most (padded most n ++ rest) = some (n, rest) := by
  rw [field?_append (fun _ => isDigit_of_mem_padded) (length_padded hmost hn) hleast,
    ofDigits_padded]

/-- A field has no more digits than its width, and leaves what follows it. -/
lemma lt_of_field? {n : Nat} {cs : List Char} (h : field? least most cs = some (n, rest)) :
    n < 10 ^ most ∧ ∀ d ∈ rest, d ∈ cs := by
  simp only [field?] at h
  split_ifs at h
  cases h
  constructor
  · have hlength : ((cs.take most).takeWhile Char.isDigit).length ≤ most :=
      Nat.le_trans (List.takeWhile_prefix _).length_le (List.length_take_le _ _)
    exact Nat.lt_of_lt_of_le (ofDigits_lt fun _ => List.mem_takeWhile_imp)
      (Nat.pow_le_pow_right (by decide) hlength)
  · exact fun d => List.mem_of_mem_drop

@[simp] lemma mark?_cons : mark? c (c :: rest) = some rest := by
  simp [mark?]

lemma eq_cons_of_mark? {cs : List Char} (h : mark? c cs = some rest) : cs = c :: rest := by
  cases cs with
  | nil => cases h
  | cons d cs =>
    rw [mark?] at h
    split_ifs at h with hd
    cases h
    rw [hd]

lemma eq_some_of_complete? {α : Type} {value : Option α} {rest : List Char} {a : α}
    (h : complete? value rest = some a) : value = some a := by
  rw [complete?] at h
  split_ifs at h
  exact h

/-! ### Dates -/

/-- A date that is read is one of a year of four digits, and has hyphens. -/
lemma date?_cases {strict : Bool} {cs : List Char} {d : Date}
    (h : date? strict cs = some (d, rest)) :
    (0 ≤ d.civil.1 ∧ d.civil.1 ≤ 9999) ∧ '-' ∈ cs := by
  rw [date?] at h
  obtain ⟨⟨year, afterYear⟩, hyear, h⟩ := Option.bind_eq_some_iff.mp h
  obtain ⟨afterHyphen, hhyphen, h⟩ := Option.bind_eq_some_iff.mp h
  obtain ⟨⟨month, afterMonth⟩, -, h⟩ := Option.bind_eq_some_iff.mp h
  obtain ⟨_, -, h⟩ := Option.bind_eq_some_iff.mp h
  obtain ⟨⟨day, afterDay⟩, -, h⟩ := Option.bind_eq_some_iff.mp h
  obtain ⟨date, hdate, h⟩ := Option.bind_eq_some_iff.mp h
  cases h
  obtain ⟨hlt, hmem⟩ := lt_of_field? hyear
  rw [Date.ofCivil?_eq_some_iff.mp hdate]
  refine ⟨by simp only; omega, hmem _ ?_⟩
  rw [eq_cons_of_mark? hhyphen]
  exact List.mem_cons_self

end Notation

namespace Date

variable {d : Date} {year : Int} {month day : Nat}

/-- The parts of a date have no more digits than their fields. -/
lemma lt_of_civil (h : d.civil = (year, month, day)) : month < 10 ^ 2 ∧ day < 10 ^ 2 := by
  obtain ⟨⟨-, hmonth⟩, ⟨-, hday⟩, -⟩ :=
    ofCivil?_eq_some_iff_dayNumber.mp (ofCivil?_eq_some_iff.mpr h)
  have hlength := monthLength_le year month
  omega

lemma chars_eq (h : d.civil = (year, month, day)) (hyear : 0 ≤ year ∧ year ≤ 9999) :
    d.chars = padded 4 year.toNat ++ '-' :: (padded 2 month ++ '-' :: padded 2 day) := by
  simp [chars, h, yearText, hyear]

/-- A date of such a year is read from its text, whatever follows. -/
lemma date?_chars_append {rest : List Char} (hyear : 0 ≤ d.civil.1 ∧ d.civil.1 ≤ 9999)
    (strict : Bool) : Notation.date? strict (d.chars ++ rest) = some (d, rest) := by
  rcases hcivil : d.civil with ⟨year, month, day⟩
  rw [hcivil] at hyear
  obtain ⟨hmonth, hday⟩ := lt_of_civil hcivil
  have hleast : (if strict then 4 else 1) ≤ 4 ∧ (if strict then 2 else 1) ≤ 2 := by
    cases strict <;> decide
  have hnat : (year.toNat : Int) = year := Int.toNat_of_nonneg hyear.1
  have hyearField (rest : List Char) : Notation.field? (if strict then 4 else 1) 4
      (padded 4 year.toNat ++ rest) = some (year.toNat, rest) := by
    refine Notation.field?_padded (by decide) ?_ hleast.1
    simp only at hyear
    omega
  have hfield {n : Nat} (hn : n < 10 ^ 2) (rest : List Char) : Notation.field?
      (if strict then 2 else 1) 2 (padded 2 n ++ rest) = some (n, rest) :=
    Notation.field?_padded (by decide) hn hleast.2
  simp [chars_eq hcivil hyear, Notation.date?, hyearField, hfield hmonth, hfield hday, hnat,
    ofCivil?_eq_some_iff.mpr hcivil]

lemma cases_of_ofText? {cs : List Char} (h : ofText? cs = some d) :
    (0 ≤ d.civil.1 ∧ d.civil.1 ≤ 9999) ∧ '-' ∈ cs := by
  rw [ofText?] at h
  split_ifs at h
  obtain ⟨⟨date, rest⟩, hdate, h⟩ := Option.bind_eq_some_iff.mp h
  cases Notation.eq_some_of_complete? h
  exact Notation.date?_cases hdate

/-- The text of a date of such a year has three fields of their full width. -/
lemma exists_chars (hyear : 0 ≤ d.civil.1 ∧ d.civil.1 ≤ 9999) : ∃ ys ms ds : List Char,
    d.chars = ys ++ '-' :: (ms ++ '-' :: ds) ∧ ys.length = 4 ∧ ms.length = 2 ∧ ds.length = 2 ∧
      (∀ c ∈ ys, c.isDigit) ∧ (∀ c ∈ ms, c.isDigit) ∧ ∀ c ∈ ds, c.isDigit := by
  rcases hcivil : d.civil with ⟨year, month, day⟩
  rw [hcivil] at hyear
  obtain ⟨hmonth, hday⟩ := lt_of_civil hcivil
  have hnat : year.toNat < 10 ^ 4 := by
    simp only at hyear
    omega
  exact ⟨_, _, _, chars_eq hcivil hyear, length_padded (by decide) hnat,
    length_padded (by decide) hmonth, length_padded (by decide) hday,
    fun _ => isDigit_of_mem_padded, fun _ => isDigit_of_mem_padded,
    fun _ => isDigit_of_mem_padded⟩

lemma length_chars (hyear : 0 ≤ d.civil.1 ∧ d.civil.1 ≤ 9999) : d.chars.length = 10 := by
  obtain ⟨ys, ms, ds, hchars, hys, hms, hds, -⟩ := exists_chars hyear
  simp [hchars, hys, hms, hds]

lemma mem_chars (hyear : 0 ≤ d.civil.1 ∧ d.civil.1 ≤ 9999) {c : Char} (hc : c ∈ d.chars) :
    c.isDigit ∨ c = '-' := by
  obtain ⟨ys, ms, ds, hchars, -, -, -, hys, hms, hds⟩ := exists_chars hyear
  simp only [hchars, List.mem_append, List.mem_cons] at hc
  rcases hc with hc | hc | hc | hc | hc
  · exact .inl (hys c hc)
  · exact .inr hc
  · exact .inl (hms c hc)
  · exact .inr hc
  · exact .inl (hds c hc)

lemma exists_cons_chars (hyear : 0 ≤ d.civil.1 ∧ d.civil.1 ≤ 9999) : ∃ c cs, d.chars = c :: cs ∧
    c.isDigit ∧ ∀ e ∈ cs, e.isDigit ∨ e = '-' := by
  obtain ⟨ys, ms, ds, hchars, hlength, -, -, hys, -⟩ := exists_chars hyear
  cases ys with
  | nil => cases hlength
  | cons c ys =>
    refine ⟨c, _, hchars, hys c List.mem_cons_self, fun e he => mem_chars hyear ?_⟩
    rw [hchars]
    exact List.mem_cons_of_mem c he

/-- Every date of such a year is read from its text. -/
lemma ofText?_text (hyear : 0 ≤ d.civil.1 ∧ d.civil.1 ≤ 9999) :
    ofText? d.text.toList = some d := by
  have hread : Notation.date? false (d.chars ++ []) = some (d, []) :=
    date?_chars_append hyear false
  rw [List.append_nil] at hread
  rw [text, String.toList_ofList, ofText?, if_pos (length_chars hyear), hread]
  rfl

end Date

/-! ### Instants -/

namespace Notation

/-- Clocks are ahead or behind by whole minutes. -/
lemma emod_of_offset? {divider : List Char → Option (List Char)} {cs rest : List Char}
    {offset : Int} (h : offset? divider cs = some (offset, rest)) : offset % 60 = 0 := by
  unfold offset? at h
  split at h
  case h_3 => cases h
  all_goals
    obtain ⟨_, -, h⟩ := Option.bind_eq_some_iff.mp h
    obtain ⟨⟨hours, afterHours⟩, -, h⟩ := Option.bind_eq_some_iff.mp h
    obtain ⟨_, -, h⟩ := Option.bind_eq_some_iff.mp h
    obtain ⟨⟨minutes, afterMinutes⟩, -, h⟩ := Option.bind_eq_some_iff.mp h
    simp only at h
    split_ifs at h
    cases h
    have hminutes : (60 : Int) ∣ hours * 3600 + minutes * 60 := by omega
    exact Int.emod_eq_zero_of_dvd (hminutes.mul_left _)

lemma emod_of_strictOffset? {cs rest : List Char} {offset : Int}
    (h : strictOffset? cs = some (offset, rest)) : offset % 60 = 0 := by
  unfold strictOffset? at h
  split at h
  · cases h
    rfl
  · cases h
    rfl
  · exact emod_of_offset? h

/-- A point and up to nine digits are read as that many places of a fraction. -/
lemma fraction?_point {ds rest : List Char} (hds : ∀ d ∈ ds, d.isDigit) (hne : ds ≠ [])
    (hlength : ds.length ≤ 9) : fraction? ('.' :: (ds ++ 'Z' :: rest)) =
      some (ofDigits ds * tenTo (9 - ds.length), 'Z' :: rest) := by
  have hfront : (ds ++ 'Z' :: rest).takeWhile Char.isDigit = ds := by
    rw [List.takeWhile_append_of_pos hds]
    simp
  have hback : (ds ++ 'Z' :: rest).dropWhile Char.isDigit = 'Z' :: rest := by
    rw [List.dropWhile_append_of_pos hds]
    simp
  have hempty : ds.isEmpty = false := by simpa using hne
  simp only [fraction?, hfront, hback, hempty, List.take_of_length_le hlength]
  rfl

lemma fraction?_padded {n width : Nat} (hwidth : 0 < width) (hle : width ≤ 9)
    (hn : n < 10 ^ width) (rest : List Char) :
    fraction? ('.' :: (padded width n ++ 'Z' :: rest)) =
      some (n * tenTo (9 - width), 'Z' :: rest) := by
  have hlength := length_padded hwidth hn
  have hne : padded width n ≠ [] := List.ne_nil_of_length_pos (by omega)
  rw [fraction?_point (fun _ => isDigit_of_mem_padded) hne (by omega), ofDigits_padded, hlength]

/-- A fraction of a second is read from its text. -/
lemma fraction?_fractionText {nanosecond : Nat} (h : nanosecond < 1000000000)
    (rest : List Char) :
    fraction? (Instant.fractionText nanosecond ++ 'Z' :: rest) =
      some (nanosecond, 'Z' :: rest) := by
  have hmillis : tenTo 6 = 1000000 := by decide
  have hmicros : tenTo 3 = 1000 := by decide
  have hnanos : tenTo 0 = 1 := by decide
  rw [Instant.fractionText]
  split_ifs with hzero hmilli hmicro
  · rw [hzero]
    rfl
  · have hvalue : nanosecond / 1000000 * 1000000 = nanosecond := by omega
    rw [List.cons_append, fraction?_padded (by decide) (by decide) (by omega), hmillis, hvalue]
  · have hvalue : nanosecond / 1000 * 1000 = nanosecond := by omega
    rw [List.cons_append, fraction?_padded (by decide) (by decide) (by omega), hmicros, hvalue]
  · rw [List.cons_append, fraction?_padded (by decide) (by decide) (by omega), hnanos, Nat.mul_one]

end Notation

namespace Instant

open Notation

/-- Holds of the instants that are in a leap second only at the end of a minute. -/
def IsRegular (t : Instant) : Prop := 1000000000 ≤ t.nanosecond → t.second % 60 = 59

lemma isRegular_of_ofClock? {d : Date} {hour minute second nanosecond : Nat} {offset : Int}
    {t : Instant} (h : Instant.ofClock? d hour minute second nanosecond offset = some t)
    (hoffset : offset % 60 = 0) : t.IsRegular := by
  rw [Instant.ofClock?] at h
  split at h
  · cases h
    intro hleap
    simp only at hleap ⊢
    split_ifs at hleap ⊢ <;> omega
  · cases h

/-- The time of day of such an instant is what clocks show at it. -/
lemma ofClock?_eq_some {t : Instant} (h : t.IsRegular) :
    ofClock? t.date (t.second / 3600) (t.second / 60 % 60)
      (t.second % 60 + if 1000000000 ≤ t.nanosecond then 1 else 0)
      (t.nanosecond % 1000000000) 0 = some t := by
  obtain ⟨⟨day⟩, second, nanosecond, hsecond, hnanosecond⟩ := t
  simp only [IsRegular] at h
  have hclock : second / 3600 < 24 ∧ second / 60 % 60 < 60 ∧
      (second % 60 + if 1000000000 ≤ nanosecond then 1 else 0) ≤ 60 ∧
      nanosecond % 1000000000 < 1000000000 := by
    split_ifs <;> omega
  rw [ofClock?]
  simp only [hclock, and_self, dite_true, Option.some.injEq, mk.injEq, Date.mk.injEq]
  by_cases hleap : 1000000000 ≤ nanosecond
  · have hminute := h hleap
    simp only [hleap, if_true, hminute]
    omega
  · have hminute : second % 60 ≠ 60 := by omega
    simp only [hleap, if_false, Nat.add_zero, hminute]
    omega

variable {cs : List Char} {t : Instant}

lemma cases_of_strict? (h : strict? cs = some t) : t.IsRegular ∧ '-' ∈ cs := by
  rw [strict?] at h
  obtain ⟨⟨date, _⟩, hdate, h⟩ := Option.bind_eq_some_iff.mp h
  obtain ⟨_, -, h⟩ := Option.bind_eq_some_iff.mp h
  obtain ⟨⟨hour, _⟩, -, h⟩ := Option.bind_eq_some_iff.mp h
  obtain ⟨_, -, h⟩ := Option.bind_eq_some_iff.mp h
  obtain ⟨⟨minute, _⟩, -, h⟩ := Option.bind_eq_some_iff.mp h
  obtain ⟨_, -, h⟩ := Option.bind_eq_some_iff.mp h
  obtain ⟨⟨second, _⟩, -, h⟩ := Option.bind_eq_some_iff.mp h
  obtain ⟨⟨nanosecond, _⟩, -, h⟩ := Option.bind_eq_some_iff.mp h
  obtain ⟨⟨offset, _⟩, hoffset, h⟩ := Option.bind_eq_some_iff.mp h
  exact ⟨isRegular_of_ofClock? (eq_some_of_complete? h) (emod_of_strictOffset? hoffset),
    (date?_cases hdate).2⟩

lemma mem_of_looseStart? {d : Date} {hour minute : Nat} {rest : List Char}
    (h : looseStart? cs = some (d, hour, minute, rest)) : '-' ∈ cs := by
  rw [looseStart?] at h
  obtain ⟨⟨date, _⟩, hdate, -⟩ := Option.bind_eq_some_iff.mp h
  exact (date?_cases hdate).2

lemma cases_of_withSeconds? (h : withSeconds? cs = some t) : t.IsRegular ∧ '-' ∈ cs := by
  rw [withSeconds?] at h
  obtain ⟨⟨date, hour, minute, _⟩, hstart, h⟩ := Option.bind_eq_some_iff.mp h
  obtain ⟨_, -, h⟩ := Option.bind_eq_some_iff.mp h
  obtain ⟨⟨second, _⟩, -, h⟩ := Option.bind_eq_some_iff.mp h
  obtain ⟨⟨nanosecond, afterFraction⟩, -, h⟩ := Option.bind_eq_some_iff.mp h
  refine ⟨?_, mem_of_looseStart? hstart⟩
  simp only at h
  split_ifs at h
  · exact isRegular_of_ofClock? (eq_some_of_complete? h) rfl
  · obtain ⟨⟨offset, _⟩, hoffset, h⟩ := Option.bind_eq_some_iff.mp h
    exact isRegular_of_ofClock? (eq_some_of_complete? h) (emod_of_offset? hoffset)

lemma cases_of_withMinutes? (h : withMinutes? cs = some t) : t.IsRegular ∧ '-' ∈ cs := by
  rw [withMinutes?] at h
  obtain ⟨⟨date, hour, minute, _⟩, hstart, h⟩ := Option.bind_eq_some_iff.mp h
  exact ⟨isRegular_of_ofClock? (eq_some_of_complete? h) rfl, mem_of_looseStart? hstart⟩

/-- In whatever form an instant is read, it is a regular one, and its text has hyphens. -/
lemma cases_of_ofText? (h : ofText? cs = some t) : t.IsRegular ∧ '-' ∈ cs := by
  rw [ofText?] at h
  cases hstrict : strict? cs with
  | some u =>
    rw [hstrict] at h
    cases h
    exact cases_of_strict? hstrict
  | none =>
    rw [hstrict] at h
    cases hseconds : withSeconds? cs with
    | some u =>
      rw [hseconds] at h
      cases h
      exact cases_of_withSeconds? hseconds
    | none =>
      rw [hseconds] at h
      exact cases_of_withMinutes? h

/-- The text of an instant has the date, three fields of two digits and a fraction. -/
lemma toList_text (t : Instant) : t.text.toList =
    t.date.chars ++ 'T' :: (padded 2 (t.second / 3600) ++ ':' ::
      (padded 2 (t.second / 60 % 60) ++ ':' ::
        (padded 2 (t.second % 60 + if 1000000000 ≤ t.nanosecond then 1 else 0) ++
          (fractionText (t.nanosecond % 1000000000) ++ ['Z'])))) := by
  simp [text, chars]

lemma fields_lt (t : Instant) : t.second / 3600 < 10 ^ 2 ∧ t.second / 60 % 60 < 10 ^ 2 ∧
    (t.second % 60 + if 1000000000 ≤ t.nanosecond then 1 else 0) < 10 ^ 2 := by
  have hlt := t.second_lt
  split_ifs <;> omega

/-- The strict form is read field by field. -/
lemma strict?_fields {d : Date} (hyear : 0 ≤ d.civil.1 ∧ d.civil.1 ≤ 9999)
    {hour minute second nanosecond : Nat} (hhour : hour < 10 ^ 2) (hminute : minute < 10 ^ 2)
    (hsecond : second < 10 ^ 2) (hnanosecond : nanosecond < 1000000000) :
    strict? (d.chars ++ 'T' :: (padded 2 hour ++ ':' :: (padded 2 minute ++ ':' ::
      (padded 2 second ++ (fractionText nanosecond ++ ['Z']))))) =
        ofClock? d hour minute second nanosecond 0 := by
  have hfield {n : Nat} (hn : n < 10 ^ 2) (rest : List Char) :
      field? 2 2 (padded 2 n ++ rest) = some (n, rest) :=
    field?_padded (by decide) hn (by decide)
  rw [strict?, Date.date?_chars_append hyear true]
  simp only [Option.bind_eq_bind, Option.bind_some, mark?_cons, Option.orElse_eq_orElse,
    Option.orElse_some]
  simp only [hfield hhour, Option.bind_some, mark?_cons]
  simp only [hfield hminute, Option.bind_some, mark?_cons]
  simp only [hfield hsecond, Option.bind_some, fraction?_fractionText hnanosecond [], strictOffset?]
  rfl

/-- Every regular instant on a day of such a year is read from its text. -/
lemma ofText?_text (hyear : 0 ≤ t.date.civil.1 ∧ t.date.civil.1 ≤ 9999) (h : t.IsRegular) :
    ofText? t.text.toList = some t := by
  obtain ⟨hhour, hminute, hsecond⟩ := t.fields_lt
  have hread : strict? t.text.toList = some t := by
    rw [toList_text, strict?_fields hyear hhour hminute hsecond
      (Nat.mod_lt t.nanosecond (by decide)), ofClock?_eq_some h]
  rw [ofText?, hread]
  rfl

lemma length_fractionText_le {nanosecond : Nat} (h : nanosecond < 1000000000) :
    (fractionText nanosecond).length ≤ 10 := by
  rw [fractionText]
  split_ifs
  · decide
  · rw [List.length_cons, length_padded (by decide) (by omega)]
    decide
  · rw [List.length_cons, length_padded (by decide) (by omega)]
    decide
  · rw [List.length_cons, length_padded (by decide) (by omega)]

lemma mem_fractionText {nanosecond : Nat} {c : Char} (h : c ∈ fractionText nanosecond) :
    c.isDigit ∨ c = '.' := by
  rw [fractionText] at h
  split_ifs at h
  · cases h
  all_goals
    rcases List.mem_cons.mp h with h | h
    · exact .inr h
    · exact .inl (isDigit_of_mem_padded h)

/-- What follows the date in the text of an instant. -/
lemma exists_toList_text (t : Instant) : ∃ rest, t.text.toList = t.date.chars ++ rest ∧
    0 < rest.length ∧ rest.length < 22 ∧ ∀ c ∈ rest, c.isDigit ∨ c ∈ ['T', ':', '.', 'Z'] := by
  obtain ⟨hhour, hminute, hsecond⟩ := t.fields_lt
  refine ⟨_, t.toList_text, ?_, ?_, ?_⟩
  · simp
  · have hfraction := length_fractionText_le (Nat.mod_lt t.nanosecond (by decide))
    have hhourLength := length_padded (by decide) hhour
    have hminuteLength := length_padded (by decide) hminute
    have hsecondLength := length_padded (by decide) hsecond
    simp only [List.length_cons, List.length_append, List.length_nil, hhourLength, hminuteLength,
      hsecondLength]
    omega
  · have hfield (n : Nat) : ∀ c ∈ padded 2 n, c.isDigit ∨ c ∈ ['T', ':', '.', 'Z'] :=
      fun _ hc => .inl (isDigit_of_mem_padded hc)
    have hfraction : ∀ c ∈ fractionText (t.nanosecond % 1000000000),
        c.isDigit ∨ c ∈ ['T', ':', '.', 'Z'] := by
      intro c hc
      rcases mem_fractionText hc with hc | rfl
      · exact .inl hc
      · exact .inr (by decide)
    simp only [List.forall_mem_cons, List.forall_mem_append]
    exact ⟨.inr (by decide), hfield _, .inr (by decide), hfield _, .inr (by decide), hfield _,
      hfraction, .inr (by decide), by simp⟩

end Instant

end RecordQuery
