/-
  CronSupervisor.Cron.Schedule — five-field cron expressions in a time zone.

  The five words are minute, hour, day of month, month and weekday.  They are joined into the text
  that the field grammar reads, behind a zero for the seconds.  When both day words restrict the
  day, a day matches if either does; this takes two timetables, and the next run is the earlier of
  theirs.
-/
import CronSupervisor.Cron.Timetable
import CronSupervisor.Cron.Weekday
import CronSupervisor.Text.Blank

namespace CronSupervisor.Cron

open Calendar Text

/-- A cron expression that was accepted. -/
structure Schedule where
  /-- The expression without blanks on its ends. -/
  expression : String
  zoneName : String
  zone : Zone
  /-- One timetable, or two whose union is meant. -/
  timetables : List Timetable
  deriving DecidableEq

namespace Schedule

/-! ## §1. Reading -/

/-- A day word restricts the day unless it starts with `*` or is `?`. -/
def isRestricted (word : List Char) : Bool := word.head? != some '*' && word != ['?']

/-- The text that the field grammar reads. -/
def layout (minute hour day month weekday : List Char) : List Char :=
  joinWith ' ' [['0'], minute, hour, day, month, weekday]

/-- The timetables of five words, the last of them already renumbered. -/
def timetables? (minute hour day month : List Char) (weekday renumbered : List Char) :
    Option (List Timetable) :=
  let days :=
    if isRestricted day && isRestricted weekday then [(day, ['*']), (['*'], renumbered)]
    else [(day, renumbered)]
  days.mapM fun (day, weekday) => Timetable.ofChars? (layout minute hour day month weekday)

variable [ZoneBook]

/-- The zone of a name without blanks on its ends; no name at all stands for universal time. -/
def resolveZone (name : String) : Except CronError (String × Zone) :=
  let name := if trim name = "" then "UTC" else trim name
  match ZoneBook.named? name with
  | some z => .ok (name, z)
  | none => .error (.invalidTimezone name)

/-- Read an expression in the zone of the given name. -/
def parse (expr timezone : String) : Except CronError Schedule :=
  match words expr.toList with
  | [minute, hour, day, month, weekday] => do
    let renumbered ← (renumberWeekdays weekday).mapError (.invalidExpression expr)
    match timetables? minute hour day month weekday renumbered with
    | none => .error (.invalidExpression expr .malformedField)
    | some timetables =>
      let (zoneName, zone) ← resolveZone timezone
      return { expression := trim expr, zoneName, zone, timetables }
  | ws => .error (.fieldCount expr ws.length)

/-! ## §2. The next run -/

/-- The next run of one timetable.  Where the wall clock shows the found time twice, the first of
the two instants is taken, even if it is not after `t`. -/
def nextOf? (z : Zone) (t : Instant) (table : Timetable) : Option Instant :=
  (table.nextWall? z (z.wall (t.seconds + 1))).bind fun w => (z.earliest? w).map Instant.ofSeconds

/-- The next run after an instant. -/
def nextAfter? (s : Schedule) (t : Instant) : Option Instant :=
  (s.timetables.filterMap (nextOf? s.zone t)).foldl
    (fun best n => some (match best with | some b => b.earlier n | none => n)) none

end Schedule

end CronSupervisor.Cron
