/-
  CronSupervisor.Calendar.Zone — time zones as offsets from universal time.

  A zone gives, for every second of universal time, the offset of its wall clock.  The wall clock
  is universal time plus the offset, so the instants at which it shows a given wall time are those
  that the offset takes there: none where the clock is set forward, two where it is set back.
  `instants` lists them, `earliest?` takes the first, and all times here are whole seconds.

  Which zones there are, and which rules they follow, is data that changes from year to year; a
  `ZoneBook` has it.  Eras may follow one another in any number, so every zone whose offset has
  changed finitely often, or finitely often before its yearly changes, is one of these.
-/
import CronSupervisor.Calendar.Date
import CronSupervisor.Calendar.Instant

namespace CronSupervisor.Calendar

/-! ## §1. Rules -/

/-- Which Sunday of a month a clock is changed on. -/
inductive Sunday where
  /-- The first for 1. -/
  | nth (n : Nat)
  | last
  deriving DecidableEq

/-- A yearly clock change: `second` seconds of universal time after the midnight that begins the
given Sunday's date. -/
structure Changeover where
  month : Nat
  sunday : Sunday
  second : Int
  deriving DecidableEq

/-- The second at which the change happens in a year. -/
def Changeover.inYear (c : Changeover) (year : Int) : Int :=
  let day := match c.sunday with
    | .nth n => nthSunday year c.month n
    | .last => lastSunday year c.month
  day * secondsPerDay + c.second

/-- The rules that a zone follows; offsets are seconds to add to universal time. -/
inductive Zone where
  /-- One offset for all times. -/
  | fixed (offset : Int)
  /-- A standard offset, and another one from the change `start` to the change `finish`; where the
  second comes first in the year, the period runs across the new year. -/
  | seasonal (standard daylight : Int) (start finish : Changeover)
  /-- One set of rules before an instant, another one from then on. -/
  | era (border : Int) (before after : Zone)
  deriving DecidableEq

namespace Zone

/-- The year of universal time in which a second lies. -/
def yearOf (utc : Int) : Int := (Date.ofDayNumber (utc / secondsPerDay)).year

/-- The offset in force at a second of universal time. -/
def offsetAt : Zone → Int → Int
  | fixed offset, _ => offset
  | seasonal standard daylight start finish, utc =>
    let opens := start.inYear (yearOf utc)
    let closes := finish.inYear (yearOf utc)
    let isDaylight :=
      if opens ≤ closes then opens ≤ utc ∧ utc < closes else utc < closes ∨ opens ≤ utc
    if isDaylight then daylight else standard
  | era border before after, utc =>
    if utc < border then before.offsetAt utc else after.offsetAt utc

/-- Every offset that the zone ever has. -/
def offsets : Zone → List Int
  | fixed offset => [offset]
  | seasonal standard daylight _ _ => [standard, daylight]
  | era _ before after => before.offsets ++ after.offsets

theorem offsetAt_mem_offsets (z : Zone) (utc : Int) : z.offsetAt utc ∈ z.offsets := by
  induction z with
  | fixed o => simp [offsetAt, offsets]
  | seasonal s d a b => simp only [offsetAt, offsets]; split <;> split <;> simp
  | era b x y hx hy => simp only [offsetAt, offsets]; split <;> simp [hx, hy]

/-- What the wall clock shows at a second of universal time. -/
def wall (z : Zone) (utc : Int) : Int := utc + z.offsetAt utc

/-- The seconds of universal time at which the wall clock shows `w`. -/
def instants (z : Zone) (w : Int) : List Int :=
  (z.offsets.map (w - ·)).filter fun utc => z.wall utc = w

theorem mem_instants {z : Zone} {w utc : Int} : utc ∈ z.instants w ↔ z.wall utc = w := by
  simp only [instants, List.mem_filter, List.mem_map, decide_eq_true_eq]
  refine ⟨fun h => h.2, fun h => ⟨⟨z.offsetAt utc, z.offsetAt_mem_offsets utc, ?_⟩, h⟩⟩
  simp only [wall] at h; omega

/-- The first second at which the wall clock shows `w`, if it ever does. -/
def earliest? (z : Zone) (w : Int) : Option Int := (z.instants w).min?

end Zone

/-! ## §2. Zones by name -/

/-- The zones that are known by name; names are case-sensitive. -/
class ZoneBook where
  /-- Look a zone up by its name. -/
  named? : String → Option Zone

end CronSupervisor.Calendar
