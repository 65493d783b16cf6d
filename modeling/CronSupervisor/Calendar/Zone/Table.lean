/-
  CronSupervisor.Calendar.Zone.Table — a small table of time zones.

  A choice of zones of all kinds: with one offset, with summer time in the north and in the south,
  with a shift of half an hour, and across the date line.  The rules are those in force from 2011 to
  2037 and stand for all times, so outside these years the table is no guide to history.  It is
  one `ZoneBook` among many.
-/
import CronSupervisor.Calendar.Zone

namespace CronSupervisor.Calendar

/-! ## §1. Rules in use -/

/-- Seconds of an offset in hours and minutes, east of universal time. -/
def east (hours : Int) (minutes : Int) : Int := hours * 3600 + minutes * 60

/-- Seconds of an offset in hours and minutes, west of universal time. -/
def west (hours : Int) (minutes : Int) : Int := -(hours * 3600 + minutes * 60)

/-- Summer time one hour ahead, from the second Sunday of March to the first of November, changed
at the given wall clock hours. -/
def northAmerican (standard : Int) (startHour finishHour : Int) : Zone :=
  let daylight := standard + 3600
  .seasonal standard daylight
    ⟨3, .nth 2, startHour * 3600 - standard⟩ ⟨11, .nth 1, finishHour * 3600 - daylight⟩

/-- Summer time one hour ahead, from the last Sunday of March to the last of October, changed at
one o'clock of universal time. -/
def european (standard : Int) : Zone :=
  .seasonal standard (standard + 3600) ⟨3, .last, 3600⟩ ⟨10, .last, 3600⟩

/-- Half an hour ahead in the southern summer. -/
def lordHowe : Zone :=
  .seasonal (east 10 30) (east 11 0)
    ⟨10, .nth 1, 2 * 3600 - east 10 30⟩ ⟨4, .nth 1, 2 * 3600 - east 11 0⟩

/-- Samoa left out 30 December 2011 to cross the date line, and gave up summer time in 2021. -/
def apia : Zone :=
  .era (Date.dayNumber ⟨2011, 12, 30⟩ * secondsPerDay + 10 * 3600) (.fixed (west 10 0))
    (.era (Date.dayNumber ⟨2021, 6, 1⟩ * secondsPerDay)
      (.seasonal (east 13 0) (east 14 0)
        ⟨9, .last, 3 * 3600 - east 13 0⟩ ⟨4, .nth 1, 4 * 3600 - east 14 0⟩)
      (.fixed (east 13 0)))

/-! ## §2. The zones by name -/

/-- The zones of the table. -/
def zones : List (String × Zone) :=
  [("UTC", .fixed 0), ("Etc/UTC", .fixed 0), ("GMT", .fixed 0), ("GMT+0", .fixed 0),
   ("Zulu", .fixed 0), ("Etc/GMT+5", .fixed (west 5 0)), ("Etc/GMT+12", .fixed (west 12 0)),
   ("Etc/GMT-14", .fixed (east 14 0)), ("Asia/Tokyo", .fixed (east 9 0)),
   ("Asia/Kolkata", .fixed (east 5 30)), ("Asia/Kathmandu", .fixed (east 5 45)),
   ("Pacific/Kiritimati", .fixed (east 14 0)),
   ("America/New_York", northAmerican (west 5 0) 2 2), ("US/Eastern", northAmerican (west 5 0) 2 2),
   ("America/St_Johns", northAmerican (west 3 30) 2 2),
   ("America/Havana", northAmerican (west 5 0) 0 1),
   ("Europe/Berlin", european (east 1 0)), ("Europe/London", european 0),
   ("Australia/Lord_Howe", lordHowe), ("Pacific/Apia", apia)]

end CronSupervisor.Calendar
