import RecordQuery.Calendar.Date

/-!
# Instants

A point in time of the universal clock: a day, a second of the day and nanoseconds. A leap second
prolongs the second before it, so that the nanoseconds go on counting above a thousand millions.
-/

namespace RecordQuery

/-- A point in time. -/
structure Instant where
  date : Date
  second : Nat
  nanosecond : Nat
  second_lt : second < 86400 := by omega
  nanosecond_lt : nanosecond < 2000000000 := by omega
  deriving DecidableEq

namespace Instant

/-- The first instant of a day. -/
def midnight (d : Date) : Instant := ⟨d, 0, 0, by decide, by decide⟩

/-- The instant with a given hour, minute and second of a day, as clocks there show it that are
`offset` seconds ahead. The second 60 is a leap second. -/
def ofClock? (d : Date) (hour minute second nanosecond : Nat) (offset : Int) : Option Instant :=
  if h : hour < 24 ∧ minute < 60 ∧ second ≤ 60 ∧ nanosecond < 1000000000 then
    let shown := if second = 60 then 59 else second
    let elapsed : Int := hour * 3600 + minute * 60 + shown - offset
    some
      { date := ⟨d.day + elapsed / 86400⟩
        second := (elapsed % 86400).toNat
        nanosecond := nanosecond + if second = 60 then 1000000000 else 0
        nanosecond_lt := by split <;> omega }
  else none

/-- The order of instants in time. -/
def compare (s t : Instant) : Ordering :=
  (s.date.compare t.date).then
    ((Ord.compare s.second t.second).then (Ord.compare s.nanosecond t.nanosecond))

end Instant

end RecordQuery
