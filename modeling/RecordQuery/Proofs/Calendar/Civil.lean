import RecordQuery.Calendar.Date
import Mathlib.Tactic.Common
import Mathlib.Tactic.IntervalCases

/-!
# The calendar

A cycle of 400 years has four centuries of 36524 days and one day more, a century has groups of four
years with 1461 days, of which its last one may lack the leap day, and a group has four years of 365
days and one day more. All these begin with the first of March, so that a leap day is the last day
of the unit that has it. From this a day of a cycle has one place in the calendar, and the year,
month and day of a date are those that give it.
-/

namespace RecordQuery

namespace Date

/-! ### Days of a cycle -/

/-- A day of a cycle is one of a year in a group of four, of a group in a century, and of a century.
All are counted from zero. -/
structure CycleDay (day century group year dayOfYear : Int) : Prop where
  century_mem : 0 ≤ century ∧ century ≤ 3
  group_mem : 0 ≤ group ∧ group ≤ 24
  year_mem : 0 ≤ year ∧ year ≤ 3
  dayOfYear_mem : 0 ≤ dayOfYear ∧ dayOfYear ≤ 365
  leap : dayOfYear = 365 → year = 3 ∧ (group = 24 → century = 3)
  day_eq : day = 36524 * century + 1461 * group + 365 * year + dayOfYear

lemma exists_cycleDay {day : Int} (hfrom : 0 ≤ day) (hto : day < 146097) :
    ∃ century group year dayOfYear, CycleDay day century group year dayOfYear := by
  -- a day too many in a unit belongs to its last part, and not to one more part
  obtain ⟨century, hcentury⟩ : ∃ c : Int, c = min (day / 36524) 3 := ⟨_, rfl⟩
  obtain ⟨group, hgroup⟩ : ∃ g : Int, g = (day - 36524 * century) / 1461 := ⟨_, rfl⟩
  obtain ⟨year, hyear⟩ : ∃ y : Int, y = min ((day - 36524 * century - 1461 * group) / 365) 3 :=
    ⟨_, rfl⟩
  refine ⟨century, group, year, day - 36524 * century - 1461 * group - 365 * year, ?_⟩
  constructor <;> omega

/-- Without the leap days before it, a day of a cycle gives its year. -/
lemma CycleDay.yearOfCycle_eq {day century group year dayOfYear : Int}
    (h : CycleDay day century group year dayOfYear) :
    (day - day / 1460 + day / 36524 - day / 146096) / 365 = 100 * century + 4 * group + year := by
  obtain ⟨hcentury, hgroup, hyear, hdayOfYear, hleap, hday⟩ := h
  have hlast : day / 36524 = century ∨ day = 146096 := by omega
  rcases hlast with hcenturies | hlast
  · -- the last days of a group may be counted to the next one, but then they are of its last year
    have hgroups : day / 1460 = 25 * century + group ∨
        day / 1460 = 25 * century + group + 1 ∧ year = 3 := by omega
    rcases hgroups with hgroups | ⟨hgroups, rfl⟩ <;> omega
  · omega

/-! ### Places in the calendar -/

/-- A date is a day of a year of a cycle, each counted from zero. -/
structure Counts (d : Date) (cycle year dayOfYear : Int) : Prop where
  year_mem : 0 ≤ year ∧ year < 400
  dayOfYear_mem : 0 ≤ dayOfYear ∧ dayOfYear ≤ 365
  leap : dayOfYear = 365 → isLeapYear (400 * cycle + year + 1)
  day_eq : d.day + epochOffset =
    146097 * cycle + (365 * year + year / 4 - year / 100) + dayOfYear

lemma isLeapYear_iff {year : Int} :
    isLeapYear year ↔ year % 4 = 0 ∧ (year % 100 ≠ 0 ∨ year % 400 = 0) := by
  simp [isLeapYear]

lemma exists_counts (d : Date) : ∃ cycle year dayOfYear, d.Counts cycle year dayOfYear := by
  obtain ⟨century, group, year, dayOfYear, hcentury, hgroup, hyear, hdayOfYear, hleap, hday⟩ :=
    exists_cycleDay (Int.emod_nonneg (d.day + epochOffset) (by decide))
      (Int.emod_lt_of_pos (d.day + epochOffset) (by decide))
  have hgroups : (100 * century + 4 * group + year) / 4 = 25 * century + group := by omega
  have hcenturies : (100 * century + 4 * group + year) / 100 = century := by omega
  refine ⟨(d.day + epochOffset) / 146097, 100 * century + 4 * group + year, dayOfYear, ?_⟩
  constructor
  · omega
  · exact hdayOfYear
  · intro hlast
    rw [isLeapYear_iff]
    omega
  · rw [hgroups, hcenturies]
    omega

/-- The months and days of a year that begins in March. -/
lemma Counts.civil_eq {d : Date} {cycle year dayOfYear : Int} (h : d.Counts cycle year dayOfYear) :
    let monthFromMarch := (5 * dayOfYear + 2) / 153
    let month := ((monthFromMarch + 2) % 12 + 1).toNat
    d.civil = (400 * cycle + year + (if month ≤ 2 then 1 else 0), month,
      (dayOfYear - (153 * monthFromMarch + 2) / 5 + 1).toNat) := by
  obtain ⟨hyear, hdayOfYear, hleap, hday⟩ := h
  rw [isLeapYear_iff] at hleap
  have hcycle : (d.day + epochOffset) / 146097 = cycle := by omega
  have hdayOfCycle : (d.day + epochOffset) % 146097 =
      365 * year + year / 4 - year / 100 + dayOfYear := by omega
  have hparts : CycleDay ((d.day + epochOffset) % 146097) (year / 100) (year % 100 / 4) (year % 4)
      dayOfYear := by
    constructor <;> omega
  have hyearOfCycle : 100 * (year / 100) + 4 * (year % 100 / 4) + year % 4 = year := by omega
  have hdayOfYear : (d.day + epochOffset) % 146097 - (365 * year + year / 4 - year / 100) =
      dayOfYear := by omega
  simp only [civil, hcycle, hparts.yearOfCycle_eq, hyearOfCycle, hdayOfYear]

/-! ### Years, months and days -/

lemma ofCivil?_eq_some_iff_dayNumber {year : Int} {month day : Nat} {d : Date} :
    ofCivil? year month day = some d ↔ (1 ≤ month ∧ month ≤ 12) ∧
      (1 ≤ day ∧ day ≤ monthLength year month) ∧ d = ⟨dayNumber year month day⟩ := by
  rw [ofCivil?]
  split_ifs with h
  · simp only [Bool.and_eq_true, decide_eq_true_eq, and_assoc] at h
    simp [h, eq_comm]
  · simp only [Bool.and_eq_true, decide_eq_true_eq, and_assoc] at h
    simp only [false_iff]
    tauto

lemma monthLength_le (year : Int) (month : Nat) : monthLength year month ≤ 31 := by
  rw [monthLength]
  split_ifs <;> decide

/-- The day of a month as a day of the year that begins in March, and back. -/
lemma dayOfYear_mem {year : Int} {month day : Nat} (hmonth : 1 ≤ month ∧ month ≤ 12)
    (hday : 1 ≤ day ∧ day ≤ monthLength year month) {monthFromMarch dayOfYear : Int}
    (hmonthFromMarch : monthFromMarch = ((month : Int) + 9) % 12)
    (hdayOfYear : dayOfYear = (153 * monthFromMarch + 2) / 5 + (day - 1)) :
    (0 ≤ dayOfYear ∧ dayOfYear ≤ 365) ∧ (dayOfYear = 365 → month = 2 ∧ isLeapYear year) ∧
      (5 * dayOfYear + 2) / 153 = monthFromMarch := by
  obtain ⟨hfrom, hto⟩ := hmonth
  rw [monthLength] at hday
  subst hdayOfYear hmonthFromMarch
  cases hleap : isLeapYear year <;> interval_cases month <;> simp [hleap] at hday ⊢ <;> omega

/-- A year, month and day of the calendar count a day of the year that begins in March. -/
lemma counts_dayNumber {year : Int} {month day : Nat} (hmonth : 1 ≤ month ∧ month ≤ 12)
    (hday : 1 ≤ day ∧ day ≤ monthLength year month) {y monthFromMarch dayOfYear : Int}
    (hy : y = if month ≤ 2 then year - 1 else year)
    (hmonthFromMarch : monthFromMarch = ((month : Int) + 9) % 12)
    (hdayOfYear : dayOfYear = (153 * monthFromMarch + 2) / 5 + (day - 1)) :
    Counts ⟨dayNumber year month day⟩ (y / 400) (y % 400) dayOfYear := by
  obtain ⟨hmem, hlast, -⟩ := dayOfYear_mem hmonth hday hmonthFromMarch hdayOfYear
  constructor
  · omega
  · exact hmem
  · intro h
    obtain ⟨rfl, hleap⟩ := hlast h
    have hyear : 400 * (y / 400) + y % 400 + 1 = year := by
      rw [if_pos (Nat.le_refl 2)] at hy
      omega
    rwa [hyear]
  · rw [dayNumber, ← hy, ← hmonthFromMarch]
    dsimp only
    omega

/-- The months have their days as the year that begins in March is divided. -/
lemma day_mem_monthLength {year dayOfYear monthFromMarch : Int} {month day : Nat}
    (hmem : 0 ≤ dayOfYear ∧ dayOfYear ≤ 365) (hlast : dayOfYear = 365 → isLeapYear year)
    (hmonthFromMarch : monthFromMarch = (5 * dayOfYear + 2) / 153)
    (hmonth : month = ((monthFromMarch + 2) % 12 + 1).toNat)
    (hday : day = (dayOfYear - (153 * monthFromMarch + 2) / 5 + 1).toNat) :
    (1 ≤ month ∧ month ≤ 12) ∧ (1 ≤ day ∧ day ≤ monthLength year month) ∧
      ((month : Int) + 9) % 12 = monthFromMarch ∧
      (153 * monthFromMarch + 2) / 5 + ((day : Int) - 1) = dayOfYear := by
  have hfrom : 0 ≤ monthFromMarch := by omega
  have hto : monthFromMarch ≤ 11 := by omega
  refine ⟨by omega, ⟨by omega, ?_⟩, by omega, by omega⟩
  rw [monthLength]
  cases hleap : isLeapYear year <;> interval_cases monthFromMarch <;>
    simp [hmonth, hleap] at hlast ⊢ <;> omega

/-- Year, month and day of a date are those that the calendar has for it. -/
lemma ofCivil?_eq_some_iff {year : Int} {month day : Nat} {d : Date} :
    ofCivil? year month day = some d ↔ d.civil = (year, month, day) := by
  rw [ofCivil?_eq_some_iff_dayNumber]
  constructor
  · rintro ⟨hmonth, hday, rfl⟩
    obtain ⟨-, -, hmonthFromMarch⟩ := dayOfYear_mem hmonth hday rfl rfl
    have hcivil := (counts_dayNumber hmonth hday rfl rfl rfl).civil_eq
    simp only [hmonthFromMarch] at hcivil
    rw [hcivil]
    have hmonth' : (((month + 9 : Int) % 12 + 2) % 12 + 1).toNat = month := by omega
    rw [hmonth']
    refine Prod.ext ?_ (Prod.ext rfl ?_)
    · split_ifs <;> omega
    · dsimp only
      omega
  · intro h
    obtain ⟨cycle, y, dayOfYear, hcounts⟩ := exists_counts d
    have hcivil := hcounts.civil_eq
    obtain ⟨hyear, hmem, hleap, hday⟩ := hcounts
    simp only [h, Prod.mk.injEq] at hcivil
    obtain ⟨hyear', hmonth', hday'⟩ := hcivil
    rw [← hmonth'] at hyear'
    have hlast : dayOfYear = 365 → isLeapYear year := by
      intro hlast
      have hbefore : month ≤ 2 := by omega
      rw [if_pos hbefore] at hyear'
      rw [hyear']
      exact hleap hlast
    obtain ⟨hmonth, hdayMem, hmonthFromMarch, hdayOfYear⟩ :=
      day_mem_monthLength hmem hlast rfl hmonth' hday'
    have hy : 400 * cycle + y = if month ≤ 2 then year - 1 else year := by
      split_ifs at hyear' ⊢ <;> omega
    have hcounted :=
      (counts_dayNumber hmonth hdayMem hy hmonthFromMarch.symm hdayOfYear.symm).day_eq
    have hcycle : (400 * cycle + y) / 400 = cycle := by omega
    have hyearOfCycle : (400 * cycle + y) % 400 = y := by omega
    rw [hcycle, hyearOfCycle, ← hday] at hcounted
    have hnumber : d.day = dayNumber year month day := by
      dsimp only at hcounted
      omega
    exact ⟨hmonth, hdayMem, congrArg Date.mk hnumber⟩

end Date

end RecordQuery
