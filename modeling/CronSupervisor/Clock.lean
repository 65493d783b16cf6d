/-
  CronSupervisor.Clock — simulated time.

  The clock counts whole milliseconds since it was started at some instant.  Work takes no time; the
  clock moves only when something waits.
-/
import CronSupervisor.Calendar.Instant

namespace CronSupervisor

open Calendar

/-- A clock that was started at an instant. -/
structure Clock where
  start : Instant
  /-- Milliseconds since the start. -/
  elapsed : Nat

namespace Clock

/-- The instant that is reached a number of milliseconds after the start. -/
def instantAt (c : Clock) (ms : Nat) : Instant := c.start.addMillis ms

/-- The present instant. -/
def now (c : Clock) : Instant := c.instantAt c.elapsed

/-- The first whole millisecond since the start that is not before an instant. -/
def millisAt (c : Clock) (t : Instant) : Nat :=
  ((t.nanos - c.start.nanos + (nanosPerMilli - 1)) / nanosPerMilli).toNat

/-- The clock at a later time. -/
def advanceTo (c : Clock) (ms : Nat) : Clock := { c with elapsed := max c.elapsed ms }

end Clock

end CronSupervisor
