/-
  CronSupervisor.Calendar.Instant — points on the clock and the spans between them.

  An instant counts nanoseconds from the start of 1 January 1970 in universal time.  A span is what
  lies between two of them and is never negative: a clock that was set back yields the empty span.
-/
namespace CronSupervisor.Calendar

/-- Nanoseconds in a second. -/
def nanosPerSecond : Nat := 1000000000

/-- Nanoseconds in a millisecond. -/
def nanosPerMilli : Nat := 1000000

/-- Seconds in a day. -/
def secondsPerDay : Nat := 86400

/-! ## §1. Instants -/

/-- A point on the clock. -/
structure Instant where
  /-- Nanoseconds since the start of 1970. -/
  nanos : Int
  deriving DecidableEq

namespace Instant

instance : LE Instant := ⟨fun a b => a.nanos ≤ b.nanos⟩
instance : LT Instant := ⟨fun a b => a.nanos < b.nanos⟩

instance (a b : Instant) : Decidable (a ≤ b) := inferInstanceAs (Decidable (a.nanos ≤ b.nanos))
instance (a b : Instant) : Decidable (a < b) := inferInstanceAs (Decidable (a.nanos < b.nanos))

theorem le_iff {a b : Instant} : a ≤ b ↔ a.nanos ≤ b.nanos := Iff.rfl

theorem lt_iff {a b : Instant} : a < b ↔ a.nanos < b.nanos := Iff.rfl

/-- The later of two instants. -/
def later (a b : Instant) : Instant := if a ≤ b then b else a

/-- The earlier of two instants. -/
def earlier (a b : Instant) : Instant := if a ≤ b then a else b

/-- The start of a second. -/
def ofSeconds (s : Int) : Instant := ⟨s * nanosPerSecond⟩

/-- The whole seconds that have passed, rounded down also before 1970. -/
def seconds (t : Instant) : Int := t.nanos / nanosPerSecond

/-- Nanoseconds past the start of the second. -/
def subsecond (t : Instant) : Nat := (t.nanos % nanosPerSecond).toNat

/-- Move by a number of nanoseconds, back if it is negative. -/
def addNanos (t : Instant) (n : Int) : Instant := ⟨t.nanos + n⟩

/-- Move forward by whole milliseconds. -/
def addMillis (t : Instant) (ms : Nat) : Instant := t.addNanos (ms * nanosPerMilli)

@[simp] theorem seconds_ofSeconds (s : Int) : (ofSeconds s).seconds = s := by
  simp only [seconds, ofSeconds, nanosPerSecond]; omega

theorem ofSeconds_le_iff {a b : Int} : ofSeconds a ≤ ofSeconds b ↔ a ≤ b := by
  rw [le_iff]
  simp only [ofSeconds, nanosPerSecond]
  omega

theorem lt_ofSeconds_iff {t : Instant} {a : Int} : t < ofSeconds a ↔ t.seconds < a := by
  rw [lt_iff]
  simp only [seconds, ofSeconds, nanosPerSecond]
  omega

end Instant

/-! ## §2. Spans -/

/-- A stretch of time, never negative. -/
structure Span where
  nanos : Nat
  deriving DecidableEq

namespace Span

/-- From one instant to a later one; empty if the second is not later. -/
def between (start finish : Instant) : Span := ⟨(finish.nanos - start.nanos).toNat⟩

/-- A number of milliseconds. -/
def ofMillis (ms : Nat) : Span := ⟨ms * nanosPerMilli⟩

/-- Whole seconds. -/
def seconds (d : Span) : Nat := d.nanos / nanosPerSecond

/-- Nanoseconds beyond the whole seconds. -/
def subsecond (d : Span) : Nat := d.nanos % nanosPerSecond

end Span

end CronSupervisor.Calendar
