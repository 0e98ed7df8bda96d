import RecordQuery.Calendar.Instant
import RecordQuery.Proofs.Calendar.Civil

/-!
# Midnight

The instants of a day are those from its midnight on that come before the midnight of the next day.
That holds of leap seconds too, since the last second of a day goes on until the next one begins.
-/

namespace RecordQuery

/-! ### The next day -/

namespace Date

variable {d e : Date} {year : Int} {month day : Nat}

lemma compare_eq_lt_iff : d.compare e = .lt ↔ d.day < e.day := Int.compare_eq_lt

/-- No date stands between a date and the next one. -/
lemma compare_next_eq_lt_iff : d.compare e.next = .lt ↔ d.compare e ≠ .gt := by
  rw [compare_eq_lt_iff, compare, Ne, Int.compare_eq_gt, Int.not_lt]
  exact Int.lt_add_one_iff

/-- The first of a month comes right after the last of the month before it. -/
lemma dayNumber_monthLength (hfrom : 1 ≤ month) (hto : month < 12) :
    dayNumber year month (monthLength year month) + 1 = dayNumber year (month + 1) 1 := by
  have hleap : isLeapYear year ↔ year % 4 = 0 ∧ (year % 100 ≠ 0 ∨ year % 400 = 0) := isLeapYear_iff
  cases hyear : isLeapYear year <;> simp [hyear] at hleap <;> interval_cases month <;>
    simp [monthLength, dayNumber, hyear] <;> omega

/-- In the calendar the next day is the next one of the month, or the first of the next month, or
the first of the next year. -/
theorem civil_next (h : d.civil = (year, month, day)) :
    d.next.civil =
      if day < monthLength year month then (year, month, day + 1)
      else if month < 12 then (year, month + 1, 1)
      else (year + 1, 1, 1) := by
  obtain ⟨⟨hfrom, hto⟩, ⟨hday, hlength⟩, rfl⟩ :=
    ofCivil?_eq_some_iff_dayNumber.mp (ofCivil?_eq_some_iff.mpr h)
  have hcivil {y : Int} {m n : Nat} (hm : 1 ≤ m ∧ m ≤ 12) (hn : 1 ≤ n ∧ n ≤ monthLength y m)
      (hnumber : dayNumber year month day + 1 = dayNumber y m n) :
      (next ⟨dayNumber year month day⟩).civil = (y, m, n) :=
    ofCivil?_eq_some_iff.mp (ofCivil?_eq_some_iff_dayNumber.mpr ⟨hm, hn, congrArg mk hnumber⟩)
  have hfirst (y : Int) (m : Nat) : 1 ≤ 1 ∧ 1 ≤ monthLength y m := by
    rw [monthLength]
    split_ifs <;> decide
  split_ifs with hmonth hyear
  · refine hcivil ⟨hfrom, hto⟩ ⟨by omega, hmonth⟩ ?_
    simp only [dayNumber]
    omega
  · obtain rfl : day = monthLength year month := by omega
    exact hcivil ⟨by omega, hyear⟩ (hfirst _ _) (dayNumber_monthLength hfrom hyear)
  · obtain rfl : month = 12 := by omega
    obtain rfl : day = 31 := Nat.le_antisymm hlength (Nat.not_lt.mp hmonth)
    refine hcivil (by decide) (hfirst _ _) ?_
    simp [dayNumber]
    omega

end Date

/-! ### Instants of a day -/

namespace Instant

variable {t : Instant} {d : Date}

/-- An instant comes before the midnight of a day just if its own day comes before that. -/
lemma compare_midnight_eq_lt_iff : t.compare (midnight d) = .lt ↔ t.date.compare d = .lt := by
  have hsecond : Ord.compare t.second 0 ≠ .lt := by simp [Nat.compare_eq_lt]
  have hnanosecond : Ord.compare t.nanosecond 0 ≠ .lt := by simp [Nat.compare_eq_lt]
  have htime : (Ord.compare t.second 0).then (Ord.compare t.nanosecond 0) ≠ .lt := by
    cases hs : Ord.compare t.second 0 with
    | lt => exact absurd hs hsecond
    | eq => exact hnanosecond
    | gt => exact Ordering.noConfusion
  simp only [compare, midnight]
  cases t.date.compare d with
  | lt => simp
  | eq => simpa using htime
  | gt => simp

/-- An instant comes before the midnight of the day after a day just if its own day does not come
after that day. -/
lemma compare_midnight_next_eq_lt_iff :
    t.compare (midnight d.next) = .lt ↔ t.date.compare d ≠ .gt :=
  compare_midnight_eq_lt_iff.trans Date.compare_next_eq_lt_iff

end Instant

end RecordQuery
