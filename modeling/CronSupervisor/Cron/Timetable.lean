/-
  CronSupervisor.Cron.Timetable — which seconds of a wall clock a list of cron fields admits.

  A timetable holds the values of six or seven fields.  A wall time, counted in seconds as the wall
  clock shows them, matches when each of its parts is among the values.  `nextWall?` finds the
  least matching wall time that is not before a given one, lies in the years 1970 to 2100 and is
  shown by the clock of the zone at all; it goes day by day, and through hours, minutes and seconds
  in ascending order on a day that matches.
-/
import CronSupervisor.Calendar.Zone
import CronSupervisor.Cron.Field

namespace CronSupervisor.Cron

open Calendar

/-- The values of the fields, each list ascending; weekdays count from 1 for Sunday. -/
structure Timetable where
  seconds : List Nat
  minutes : List Nat
  hours : List Nat
  days : List Nat
  months : List Nat
  weekdays : List Nat
  /-- All years if absent. -/
  years : Option (List Nat)
  deriving DecidableEq

namespace Timetable

/-! ## §1. Reading -/

/-- Read the six fields and the optional seventh from the whole of a text. -/
def ofChars? (cs : List Char) : Option Timetable := do
  let (seconds, cs) ← field? .second cs
  let (minutes, cs) ← field? .minute cs
  let (hours, cs) ← field? .hour cs
  let (days, cs) ← field? .dayOfMonth cs
  let (months, cs) ← field? .month cs
  let (weekdays, cs) ← field? .dayOfWeek cs
  let (years, cs) := match field? .year cs with
    | some (ys, rest) => (some ys, rest)
    | none => (none, cs)
  if cs.isEmpty then some { seconds, minutes, hours, days, months, weekdays, years } else none

/-! ## §2. Matching -/

/-- The day number of 1 January 2101, which no timetable reaches. -/
def endDay : Int := Date.dayNumber ⟨2101, 1, 1⟩

/-- Whether the fields of the date admit a day. -/
def matchesDay (t : Timetable) (day : Int) : Bool :=
  let date := Date.ofDayNumber day
  t.months.contains date.month && t.days.contains date.day && t.weekdays.contains (weekday day)
    && match t.years with
      | some ys => ys.any fun y => (y : Int) = date.year
      | none => true

/-- Whether the fields of the time admit a second of a day. -/
def matchesSecond (t : Timetable) (second : Nat) : Bool :=
  t.hours.contains (second / 3600) && t.minutes.contains (second / 60 % 60)
    && t.seconds.contains (second % 60)

/-- Whether a wall time lies in the years that are searched and matches in all of its parts. -/
def matchesWall (t : Timetable) (w : Int) : Bool :=
  0 ≤ w / secondsPerDay && w / secondsPerDay < endDay && t.matchesDay (w / secondsPerDay)
    && t.matchesSecond (w % secondsPerDay).toNat

/-! ## §3. Searching -/

/-- The first second of a day, not before `low`, that the fields of the time admit and `p` accepts.
An hour that ends before `low` is passed over as a whole. -/
def firstSecond? (t : Timetable) (low : Nat) (p : Nat → Bool) : Option Nat :=
  t.hours.findSome? fun h =>
    if h * 3600 + 3599 < low then none
    else t.minutes.findSome? fun m =>
      t.seconds.findSome? fun s =>
        let second := h * 3600 + m * 60 + s
        if low ≤ second && p second then some second else none

/-- The first wall time of a day, not before `low` seconds into it, that matches and exists. -/
def firstOfDay? (t : Timetable) (z : Zone) (day : Int) (low : Nat) : Option Int :=
  if t.matchesDay day then
    (t.firstSecond? low fun s => (z.earliest? (day * secondsPerDay + s)).isSome).map
      fun s => day * secondsPerDay + s
  else none

/-- The first wall time of `n` whole days from `day` on. -/
def firstOfDays? (t : Timetable) (z : Zone) : Nat → Int → Option Int
  | 0, _ => none
  | n + 1, day =>
    match t.firstOfDay? z day 0 with
    | some w => some w
    | none => t.firstOfDays? z n (day + 1)

/-- The least matching and existing wall time that is not before `w`. -/
def nextWall? (t : Timetable) (z : Zone) (w : Int) : Option Int :=
  let w := max w 0
  let day := w / secondsPerDay
  if day < endDay then
    match t.firstOfDay? z day (w % secondsPerDay).toNat with
    | some w => some w
    | none => t.firstOfDays? z (endDay - day - 1).toNat (day + 1)
  else none

end Timetable

end CronSupervisor.Cron
