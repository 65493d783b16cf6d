/-
  CronSupervisor.Calendar.Date — the Gregorian calendar on day numbers.

  Days are numbered from 1 January 1970, which is day 0 and a Thursday.  A year is counted from
  March here, so that the leap day is its last day: month lengths from March on then follow one
  linear rule, and both conversions are arithmetic without tables.
-/
namespace CronSupervisor.Calendar

/-- A calendar date. -/
structure Date where
  year : Int
  /-- From 1 to 12. -/
  month : Nat
  /-- From 1. -/
  day : Nat
  deriving DecidableEq

/-- Days in a cycle of 400 years. -/
def daysPerCycle : Int := 146097

/-- The day number of 1 March of year 0. -/
def cycleStart : Int := -719468

/-- The day number of a date; a day past the end of its month runs on into the next. -/
def Date.dayNumber (d : Date) : Int :=
  let y := if d.month ≤ 2 then d.year - 1 else d.year
  let monthFromMarch : Int := (d.month + 9) % 12
  let cycle := y / 400
  let yearOfCycle := y % 400
  let dayOfYear := (153 * monthFromMarch + 2) / 5 + d.day - 1
  let dayOfCycle := yearOfCycle * 365 + yearOfCycle / 4 - yearOfCycle / 100 + dayOfYear
  cycle * daysPerCycle + dayOfCycle + cycleStart

/-- The date of a day number. -/
def Date.ofDayNumber (n : Int) : Date :=
  let z := n - cycleStart
  let cycle := z / daysPerCycle
  let dayOfCycle := z % daysPerCycle
  let yearOfCycle :=
    (dayOfCycle - dayOfCycle / 1460 + dayOfCycle / 36524 - dayOfCycle / 146096) / 365
  let dayOfYear := dayOfCycle - (365 * yearOfCycle + yearOfCycle / 4 - yearOfCycle / 100)
  let monthFromMarch := (5 * dayOfYear + 2) / 153
  let day := dayOfYear - (153 * monthFromMarch + 2) / 5 + 1
  let month := if monthFromMarch < 10 then monthFromMarch + 3 else monthFromMarch - 9
  let year := yearOfCycle + cycle * 400 + if month ≤ 2 then 1 else 0
  { year, month := month.toNat, day := day.toNat }

/-- The day of the week of a day number, from 1 for Sunday to 7 for Saturday. -/
def weekday (n : Int) : Nat := ((n + 4) % 7).toNat + 1

theorem weekday_pos (n : Int) : 1 ≤ weekday n := by unfold weekday; omega

theorem weekday_le (n : Int) : weekday n ≤ 7 := by unfold weekday; omega

/-- A leap year has a 29 February. -/
def isLeapYear (y : Int) : Bool := y % 4 == 0 && (y % 100 != 0 || y % 400 == 0)

/-- The length of a month. -/
def daysInMonth (y : Int) (month : Nat) : Nat :=
  if month == 2 then (if isLeapYear y then 29 else 28)
  else if month == 4 || month == 6 || month == 9 || month == 11 then 30 else 31

/-- The day number of the `n`-th Sunday of a month, the first for `n = 1`. -/
def nthSunday (year : Int) (month n : Nat) : Int :=
  let first := Date.dayNumber ⟨year, month, 1⟩
  first + (1 - weekday first : Int) % 7 + 7 * (n - 1)

/-- The day number of the last Sunday of a month. -/
def lastSunday (year : Int) (month : Nat) : Int :=
  let last := Date.dayNumber ⟨year, month, daysInMonth year month⟩
  last - ((weekday last : Int) - 1)

end CronSupervisor.Calendar
