/-
  CronSupervisor.Proofs.Clock — milliseconds of a clock and the instants that they stand for.

  The milliseconds count from the start of the clock, which need not be a full second.  An instant
  is rounded up to the first millisecond that is not before it; `millisAt_le_iff` says so for all of
  them at once, and the order of instants and milliseconds follows from it.

  Main statements:
    * `millisAt_le_iff` — which milliseconds are not before an instant.
    * `instantAt_millisAt_lt_iff` — full seconds are not confused by the rounding.
-/
import CronSupervisor.Clock
import Mathlib.Order.Bounds.Basic

namespace CronSupervisor

open Calendar

/-! ## §1. Milliseconds and instants -/

namespace Clock

variable {c : Clock} {a b k : Nat} {m n : Instant}

theorem nanos_instantAt (c : Clock) (k : Nat) :
    (c.instantAt k).nanos = c.start.nanos + k * 1000000 := rfl

/-- The first millisecond of the clock that is not before an instant. -/
theorem millisAt_le_iff : c.millisAt m ≤ k ↔ m ≤ c.instantAt k := by
  rw [Instant.le_iff, nanos_instantAt]
  unfold millisAt nanosPerMilli
  omega

theorem lt_millisAt_iff : k < c.millisAt m ↔ c.instantAt k < m := by
  rw [← Nat.not_le, millisAt_le_iff, Instant.le_iff, Instant.lt_iff, Int.not_le]

theorem isLeast_millisAt (c : Clock) (m : Instant) :
    IsLeast {k | m ≤ c.instantAt k} (c.millisAt m) :=
  ⟨millisAt_le_iff.mp (Nat.le_refl _), fun _ hk => millisAt_le_iff.mpr hk⟩

theorem instantAt_le (h : a ≤ b) : c.instantAt a ≤ c.instantAt b := by
  rw [Instant.le_iff, nanos_instantAt, nanos_instantAt]
  omega

/-- A full second that comes after another one comes after the millisecond of that one. -/
theorem instantAt_millisAt_lt_iff {u v : Int} (h : c.instantAt a < .ofSeconds u) :
    c.instantAt (c.millisAt (.ofSeconds u)) < .ofSeconds v
      ↔ Instant.ofSeconds u < .ofSeconds v := by
  rw [Instant.lt_iff, nanos_instantAt] at h
  rw [Instant.lt_iff, Instant.lt_iff, nanos_instantAt]
  unfold millisAt nanosPerMilli
  unfold Instant.ofSeconds nanosPerSecond at *
  simp only at *
  omega

/-! ## §2. Clocks that go on -/

/-- The same clock, later. -/
def Goes (c c' : Clock) : Prop := c'.start = c.start ∧ c.elapsed ≤ c'.elapsed

theorem Goes.refl (c : Clock) : c.Goes c := ⟨rfl, Nat.le_refl _⟩

theorem Goes.trans {a b c : Clock} (h : a.Goes b) (h' : b.Goes c) : a.Goes c :=
  ⟨h'.1.trans h.1, Nat.le_trans h.2 h'.2⟩

theorem goes_advanceTo (c : Clock) (ms : Nat) : c.Goes (c.advanceTo ms) :=
  ⟨rfl, Nat.le_max_left _ _⟩

theorem Goes.instantAt_eq {c c' : Clock} (h : c.Goes c') (k : Nat) :
    c'.instantAt k = c.instantAt k := by
  unfold instantAt
  rw [h.1]

theorem Goes.now_le {c c' : Clock} (h : c.Goes c') : c.now ≤ c'.now := by
  unfold now
  rw [h.instantAt_eq]
  exact instantAt_le h.2

end Clock

end CronSupervisor
