/-
  CronSupervisor.Platform — what the program is run with.

  The time zones of the world, the syntax of patterns and the size of memory are data that the
  library takes as they come.  To run it, a small table of zones, the syntax of `Pattern.ofText?`
  and the address space of a 64-bit machine are put in their places.  All of this is in force only
  where the namespace is open.
-/
import CronSupervisor.Calendar.Zone.Table
import CronSupervisor.History.Basic
import CronSupervisor.Pattern.Reader

namespace CronSupervisor.Platform

open Calendar

scoped instance zoneBook : ZoneBook := ⟨fun name => zones.lookup name⟩

scoped instance patternSyntax : PatternSyntax := ⟨Pattern.ofText?⟩

/-- Bytes that an entry of a history takes. -/
def entrySize : Nat := 64

/-- The most bytes that can be reserved at once: no reservation takes half of the address space. -/
def reservationLimit : Nat := 9223372036854775807

scoped instance memory : Memory := ⟨reservationLimit / entrySize⟩

end CronSupervisor.Platform
