/-!
# Dates

A date is a day of the Gregorian calendar, extended to all years before and after; there is a year
zero. It is kept as the number of days since the first of January 1970, so that the order of dates
is that of numbers. Years are counted from the first of March here, which puts the leap day at the
end of a year, and in cycles of 400 years, after which the calendar repeats.
-/

namespace RecordQuery

/-- A day, by the number of days from the first of January 1970. -/
structure Date where
  day : Int
  deriving DecidableEq

namespace Date

/-- Holds of the years with a leap day. -/
def isLeapYear (year : Int) : Bool :=
  year % 4 == 0 && (year % 100 != 0 || year % 400 == 0)

/-- The number of days in a month. -/
def monthLength (year : Int) (month : Nat) : Nat :=
  if month = 2 then (if isLeapYear year then 29 else 28)
  else if month = 4 || month = 6 || month = 9 || month = 11 then 30
  else 31

/-- The days from the first of March in year zero to the first of January 1970. -/
def epochOffset : Int := 719468

/-- The day number of a year, month and day that stand in the calendar. -/
def dayNumber (year : Int) (month day : Nat) : Int :=
  let y : Int := if month ≤ 2 then year - 1 else year
  let monthFromMarch : Int := ((month : Int) + 9) % 12
  365 * y + y / 4 - y / 100 + y / 400 + (153 * monthFromMarch + 2) / 5 + ((day : Int) - 1)
    - epochOffset

/-- The date of a year, month and day, if the calendar has it. -/
def ofCivil? (year : Int) (month day : Nat) : Option Date :=
  if 1 ≤ month && month ≤ 12 && 1 ≤ day && day ≤ monthLength year month then
    some ⟨dayNumber year month day⟩
  else none

/-- Year, month and day of a date. -/
def civil (d : Date) : Int × Nat × Nat :=
  let z := d.day + epochOffset
  let cycle := z / 146097
  let dayOfCycle := z % 146097
  let yearOfCycle :=
    (dayOfCycle - dayOfCycle / 1460 + dayOfCycle / 36524 - dayOfCycle / 146096) / 365
  let dayOfYear := dayOfCycle - (365 * yearOfCycle + yearOfCycle / 4 - yearOfCycle / 100)
  let monthFromMarch := (5 * dayOfYear + 2) / 153
  let day := (dayOfYear - (153 * monthFromMarch + 2) / 5 + 1).toNat
  let month := ((monthFromMarch + 2) % 12 + 1).toNat
  let year := 400 * cycle + yearOfCycle + (if month ≤ 2 then 1 else 0)
  (year, month, day)

/-- The day after a date. -/
def next (d : Date) : Date := ⟨d.day + 1⟩

/-- The order of dates in time. -/
def compare (d e : Date) : Ordering := Ord.compare d.day e.day

end Date

end RecordQuery
