/-
  CronSupervisor.Proofs.Cron.Match — the instants at which a schedule is due.

  A schedule is due at the seconds whose wall time one of its timetables admits.  Where the zone has
  one offset for all times, wall times and instants are in the same order, and looking up the next
  run after any instant finds the first match after it.  What follows about timers is derived from
  this alone, so `Exact` is stated for the schedule and not for its zone.

  Main statements:
    * `exact_of_fixed` — schedules in a zone of one offset are exact.
    * `Exact.nextAfter?_of_le` — the next run stays the same until it is reached.
-/
import CronSupervisor.Proofs.Cron.NextRun

namespace CronSupervisor

open Calendar

/-! ## §1. Zones of one offset -/

/-- The offset from universal time never changes. -/
def Calendar.Zone.IsFixed (z : Zone) : Prop := ∃ offset, ∀ utc, z.offsetAt utc = offset

/-- A clock that is never set back has nothing to repeat. -/
theorem Calendar.Zone.IsFixed.repeats {z : Zone} (h : z.IsFixed) : z.Repeats := by
  obtain ⟨offset, hoffset⟩ := h
  intro u v hlt hback
  unfold Zone.wall at hback
  rw [hoffset, hoffset] at hback
  omega

namespace Cron.Schedule

/-! ## §2. Matches -/

/-- The schedule is due: a full second whose wall time one of the timetables admits. -/
def IsMatch (s : Schedule) (m : Instant) : Prop :=
  ∃ utc, m = .ofSeconds utc ∧ ∃ table ∈ s.timetables, table.matchesWall (s.zone.wall utc) = true

/-- The next run after any instant is the first match after it. -/
def Exact (s : Schedule) : Prop :=
  ∀ t, Finds (fun m => s.IsMatch m ∧ t < m) (s.nextAfter? t)

variable {s : Schedule}

/-- **In a zone of one offset the next run is the first match.** -/
theorem exact_of_fixed (ordered : ∀ table ∈ s.timetables, table.Ordered)
    (fixed : s.zone.IsFixed) : s.Exact := by
  have hs : s.Searchable := ⟨fixed.repeats, ordered⟩
  obtain ⟨offset, hoffset⟩ := fixed
  have hwall : ∀ u, s.zone.wall u = u + offset := by
    intro u
    unfold Zone.wall
    rw [hoffset]
  -- a match after `t` shows a wall time that is still to come
  have hupcoming : ∀ t u, (∃ table ∈ s.timetables, table.matchesWall (s.zone.wall u) = true) →
      t < .ofSeconds u → s.Upcoming t (s.zone.wall u) := by
    intro t u hmatch hlt
    rw [Instant.lt_ofSeconds_iff] at hlt
    refine ⟨?_, hmatch, u, rfl⟩
    rw [hwall, hwall]
    omega
  intro t
  cases hn : s.nextAfter? t with
  | none =>
    intro m hc
    obtain ⟨⟨u, rfl, hmatch⟩, hlt⟩ := hc
    exact (nextAfter?_eq_none_iff ordered).mp hn _ (hupcoming t u hmatch hlt)
  | some n =>
    have hlater : t < n := by
      refine lt_nextAfter?_of_ascending hs (fun u v huv => ?_) hn
      rw [hwall, hwall]
      omega
    obtain ⟨c, utc, hc, hutc, rfl⟩ := (nextAfter?_eq_some_iff hs).mp hn
    have hshow : s.zone.wall utc = c := hutc.1
    refine ⟨⟨⟨utc, rfl, ?_⟩, hlater⟩, ?_⟩
    · rw [hshow]
      exact hc.1.2.1
    · intro m hm
      obtain ⟨⟨u, rfl, hmatch⟩, hlt⟩ := hm
      have hle := hc.2 (hupcoming t u hmatch hlt)
      rw [← hshow, hwall, hwall] at hle
      rw [Instant.ofSeconds_le_iff]
      omega

namespace Exact

variable {t t' n : Instant}

theorem isMatch (exact : s.Exact) (h : s.nextAfter? t = some n) : s.IsMatch n := by
  have hfinds := exact t
  rw [h] at hfinds
  exact hfinds.1.1

theorem lt (exact : s.Exact) (h : s.nextAfter? t = some n) : t < n := by
  have hfinds := exact t
  rw [h] at hfinds
  exact hfinds.1.2

theorem le_of_isMatch (exact : s.Exact) (h : s.nextAfter? t = some n) {m : Instant}
    (hm : s.IsMatch m) (hlt : t < m) : n ≤ m := by
  have hfinds := exact t
  rw [h] at hfinds
  exact hfinds.2 m ⟨hm, hlt⟩

theorem not_lt_of_isMatch (exact : s.Exact) (h : s.nextAfter? t = none) {m : Instant}
    (hm : s.IsMatch m) : ¬ t < m := by
  have hfinds := exact t
  rw [h] at hfinds
  exact fun hlt => hfinds m ⟨hm, hlt⟩

/-- Until the next run is reached, it is the next run. -/
theorem nextAfter?_of_le (exact : s.Exact) (hle : t ≤ t')
    (h : ∀ n, s.nextAfter? t = some n → t' < n) : s.nextAfter? t' = s.nextAfter? t := by
  rw [Instant.le_iff] at hle
  cases hn : s.nextAfter? t with
  | none =>
    cases hn' : s.nextAfter? t' with
    | none => rfl
    | some n' =>
      have hlt := exact.lt hn'
      rw [Instant.lt_iff] at hlt
      refine absurd ?_ (exact.not_lt_of_isMatch hn (exact.isMatch hn'))
      rw [Instant.lt_iff]
      omega
  | some n =>
    have hlt := h n hn
    cases hn' : s.nextAfter? t' with
    | none => exact absurd hlt (exact.not_lt_of_isMatch hn' (exact.isMatch hn))
    | some n' =>
      -- each is a match that the other look-up could have found
      have hlt' := exact.lt hn'
      have hle' := exact.le_of_isMatch hn' (exact.isMatch hn) hlt
      rw [Instant.lt_iff] at hlt'
      have hge := exact.le_of_isMatch hn (exact.isMatch hn') (by rw [Instant.lt_iff]; omega)
      rw [Instant.le_iff] at hle' hge
      obtain ⟨a⟩ := n
      obtain ⟨b⟩ := n'
      simp only [Option.some.injEq, Instant.mk.injEq]
      exact Int.le_antisymm hle' hge

end Exact

end Cron.Schedule

end CronSupervisor
