/-
  CronSupervisor.Proofs.Cron.Expression — what the five words of an expression mean.

  `Meaning` holds the values of the words and whether a day may match in either of two ways, and
  `Matches` says from these alone which wall times an expression admits.  When every word is a
  complete field by itself, the timetables of the expression admit the same wall times, though there
  are two of them where both day words restrict the day.  So the next run is told by the meaning.

  Main statements:
    * `matchesWall_iff_matches` — the timetables of an expression admit what it means.
    * `nextAfter?_of_meaning` — the next run is that of the least wall time that is meant.
-/
import CronSupervisor.Proofs.Cron.NextRun

namespace CronSupervisor.Cron

open Calendar Text

/-! ## §1. Meanings -/

/-- What the five words denote. -/
structure Meaning where
  minutes : List Nat
  hours : List Nat
  days : List Nat
  months : List Nat
  /-- From 1 for Sunday. -/
  weekdays : List Nat
  /-- Both day words restrict the day, and it matches if either does. -/
  either : Bool

/-- The wall time is a full minute of the years 1970 to 2100 whose parts are as the words say. -/
def Meaning.Matches (m : Meaning) (c : Int) : Prop :=
  let day := c / secondsPerDay
  let date := Date.ofDayNumber day
  c % 60 = 0 ∧ (c / 60 % 60).toNat ∈ m.minutes ∧ (c / 3600 % 24).toNat ∈ m.hours ∧
    date.month ∈ m.months ∧
    (if m.either then date.day ∈ m.days ∨ weekday day ∈ m.weekdays
      else date.day ∈ m.days ∧ weekday day ∈ m.weekdays) ∧
    1970 ≤ date.year ∧ date.year ≤ 2100

/-- The expression has five words, each a complete field once the weekdays are renumbered, and this
is what they denote. -/
def Denotes (expr : String) (m : Meaning) : Prop :=
  ∃ minute hour day month weekday renumbered,
    words expr.toList = [minute, hour, day, month, weekday] ∧
    renumberWeekdays weekday = .ok renumbered ∧
    FieldKind.minute.Reads minute m.minutes ∧ FieldKind.hour.Reads hour m.hours ∧
    FieldKind.dayOfMonth.Reads day m.days ∧ FieldKind.month.Reads month m.months ∧
    FieldKind.dayOfWeek.Reads renumbered m.weekdays ∧
    m.either = (Schedule.isRestricted day && Schedule.isRestricted weekday)

/-! ## §2. Timetables of expressions -/

/-- The years that are searched are those from 1970 to 2100. -/
theorem searched_iff {day : Int} : 0 ≤ day ∧ day < Timetable.endDay
    ↔ 1970 ≤ (Date.ofDayNumber day).year ∧ (Date.ofDayNumber day).year ≤ 2100 := by
  have hfirst : newYear 1970 = 0 := by decide
  have hlast : newYear 2101 = Timetable.endDay := rfl
  have hyears := year_ofDayNumber_mem_iff (n := day) (y := 1970) (z := 2101)
  rw [hfirst, hlast] at hyears
  rw [← hyears]
  omega

/-- Matching of a timetable without years in which only full minutes match. -/
theorem matchesWall_fields {minutes hours days months weekdays : List Nat} {c : Int} :
    (⟨[0], minutes, hours, days, months, weekdays, none⟩ : Timetable).matchesWall c = true
      ↔ Meaning.Matches ⟨minutes, hours, days, months, weekdays, false⟩ c := by
  rw [Timetable.matchesWall_iff, searched_iff]
  unfold Timetable.matchesDay Timetable.matchesSecond Meaning.Matches secondsPerDay
  simp only [Bool.and_eq_true, List.contains_iff_mem, List.mem_singleton, Bool.false_eq_true,
    if_false, and_true]
  have hhour : (c % (86400 : Nat)).toNat / 3600 = (c / 3600 % 24).toNat := by omega
  have hminute : (c % (86400 : Nat)).toNat / 60 % 60 = (c / 60 % 60).toNat := by omega
  have hsecond : (c % (86400 : Nat)).toNat % 60 = 0 ↔ c % 60 = 0 := by omega
  rw [hhour, hminute, hsecond]
  constructor
  · intro hc
    obtain ⟨hyears, ⟨⟨hmonth, hday⟩, hweekday⟩, ⟨hh, hm⟩, hs⟩ := hc
    exact ⟨hs, hm, hh, hmonth, ⟨hday, hweekday⟩, hyears⟩
  · intro hc
    obtain ⟨hs, hm, hh, hmonth, ⟨hday, hweekday⟩, hyears⟩ := hc
    exact ⟨hyears, ⟨⟨hmonth, hday⟩, hweekday⟩, ⟨hh, hm⟩, hs⟩

theorem weekday_mem_all (day : Int) : weekday day ∈ FieldKind.dayOfWeek.all :=
  mem_all_iff.mpr ⟨weekday_pos day, weekday_le day⟩

theorem day_mem_all (n : Int) : (Date.ofDayNumber n).day ∈ FieldKind.dayOfMonth.all := by
  refine mem_all_iff.mpr ⟨day_ofDayNumber_pos n, ?_⟩
  exact Nat.le_trans (day_le_daysInMonth n) (daysInMonth_bounds _ _).2

/-- **The timetables of an expression admit what it means.** -/
theorem matchesWall_iff_matches [ZoneBook] {expr timezone : String} {s : Schedule} {m : Meaning}
    (accepted : Schedule.parse expr timezone = .ok s) (denotes : Denotes expr m) (c : Int) :
    (∃ table ∈ s.timetables, table.matchesWall c = true) ↔ m.Matches c := by
  obtain ⟨minutes, hours, days, months, weekdays, either⟩ := m
  obtain ⟨minute, hour, day, month, weekday, renumbered, hwords, hrenumbered, hminute, hhour, hday,
    hmonth, hweekday, heither⟩ := denotes
  obtain ⟨_, _, _, _, _, _, hwords', hrenumbered', htables, -⟩ := Schedule.parse_eq_ok accepted
  rw [hwords] at hwords'
  cases hwords'
  rw [hrenumbered] at hrenumbered'
  cases hrenumbered'
  rw [timetables?_of_reads hminute hhour hday hmonth hweekday] at htables
  rw [← Option.some.inj htables]
  simp only at heither
  rw [← heither]
  cases either with
  | true =>
    -- the days of the month with any weekday, or any day of the month with the weekdays
    rw [if_pos rfl]
    simp only [List.mem_cons, List.not_mem_nil, or_false, exists_eq_or_imp, exists_eq_left,
      matchesWall_fields, Meaning.Matches, Bool.false_eq_true, if_false, if_true, day_mem_all,
      weekday_mem_all, true_and, and_true]
    rw [← and_or_left, ← and_or_left, ← and_or_left, ← and_or_left, ← or_and_right]
  | false =>
    rw [if_neg Bool.false_ne_true]
    simp only [List.mem_cons, List.not_mem_nil, or_false, exists_eq_left, matchesWall_fields]

/-! ## §3. The next run -/

/-- The wall times that are still to come in the zone of a schedule, by the meaning of its words. -/
def Meaning.Upcoming (m : Meaning) (z : Zone) (t : Instant) (c : Int) : Prop :=
  z.wall (t.seconds + 1) ≤ c ∧ m.Matches c ∧ ∃ utc, z.wall utc = c

section NextRun

variable [ZoneBook] {expr timezone : String} {s : Schedule} {m : Meaning}
  (accepted : Schedule.parse expr timezone = .ok s) (denotes : Denotes expr m)
include accepted denotes

theorem upcoming_iff_meaning (t : Instant) (c : Int) :
    s.Upcoming t c ↔ m.Upcoming s.zone t c := by
  unfold Schedule.Upcoming Meaning.Upcoming
  rw [matchesWall_iff_matches accepted denotes]

/-- Where the clock repeats what it is set back by, the next run is told by the meaning. -/
theorem nextAfter?_eq_some_iff_meaning (repeats : s.zone.Repeats) (t n : Instant) :
    s.nextAfter? t = some n ↔ ∃ c utc, IsLeast {c | m.Upcoming s.zone t c} c ∧
      IsLeast {u | s.zone.wall u = c} utc ∧ n = .ofSeconds utc := by
  rw [Schedule.nextAfter?_eq_some_iff ⟨repeats, Schedule.ordered_of_parse accepted⟩]
  unfold Schedule.IsNext
  simp only [upcoming_iff_meaning accepted denotes]

theorem nextAfter?_eq_none_iff_meaning (t : Instant) :
    s.nextAfter? t = none ↔ ¬ ∃ c, m.Upcoming s.zone t c := by
  rw [Schedule.nextAfter?_eq_none_iff (Schedule.ordered_of_parse accepted), not_exists]
  exact forall_congr' fun c => not_congr (upcoming_iff_meaning accepted denotes t c)

/-- **The next run is the first instant of the least wall time that is meant**, not before the wall
time of the second after `t`, in the years 1970 to 2100, and shown by the clock of the zone.  There
is none when there is no such wall time, as when no month that is meant ever has a day that is.  Of
the zone nothing is taken for granted but that its clock repeats what it is set back by. -/
theorem nextAfter?_of_meaning (repeats : s.zone.Repeats) (t : Instant) :
    (∀ n, s.nextAfter? t = some n ↔ ∃ c utc, IsLeast {c | m.Upcoming s.zone t c} c ∧
      IsLeast {u | s.zone.wall u = c} utc ∧ n = .ofSeconds utc) ∧
    (s.nextAfter? t = none ↔ ¬ ∃ c, m.Upcoming s.zone t c) ∧
    (m.either = false → (∀ year : Int, 1970 ≤ year → year ≤ 2100 → ∀ month ∈ m.months,
      ∀ day ∈ m.days, daysInMonth year month < day) → s.nextAfter? t = none) := by
  have hnone := nextAfter?_eq_none_iff_meaning accepted denotes t
  refine ⟨nextAfter?_eq_some_iff_meaning accepted denotes repeats t, hnone, fun both never => ?_⟩
  rw [hnone]
  intro hc
  obtain ⟨c, -, ⟨-, -, -, hmonth, hday, hfirst, hlast⟩, -⟩ := hc
  -- the date of a matching wall time would be a day that its month does not have
  rw [both, if_neg Bool.false_ne_true] at hday
  have hlt := never _ hfirst hlast _ hmonth _ hday.1
  have hle := day_le_daysInMonth (c / secondsPerDay)
  omega

end NextRun

/-- The clocks of Nepal were set forward by a quarter of an hour as 1986 began. -/
def nepal : Zone := .era 504901800 (.fixed 19800) (.fixed 20700)

@[reducible]
def nepalOnly : ZoneBook := ⟨fun name => if name = "Asia/Kathmandu" then some nepal else none⟩

theorem repeats_nepal : nepal.Repeats := by
  intro u v hlt hback
  unfold nepal Zone.wall at hback
  simp only [Zone.offsetAt] at hback
  split at hback <;> split at hback <;> omega

/-- In that year there was no run at five past midnight on New Year's Day. -/
theorem nextAfter?_of_meaning_nepal : ∃ s,
    @Schedule.parse nepalOnly "5 0 1 1 *" "Asia/Kathmandu" = .ok s ∧
      Denotes "5 0 1 1 *" ⟨[5], [0], [1], [1], FieldKind.dayOfWeek.all, false⟩ ∧
      s.zone.Repeats ∧ s.nextAfter? (.ofSeconds 504900000) = some (.ofSeconds 536437200) ∧
      ∃ c utc, IsLeast {c | Meaning.Upcoming ⟨[5], [0], [1], [1], FieldKind.dayOfWeek.all, false⟩
        s.zone (.ofSeconds 504900000) c} c ∧ IsLeast {u | s.zone.wall u = c} utc ∧
        Instant.ofSeconds 536437200 = .ofSeconds utc := by
  have denotes : Denotes "5 0 1 1 *" ⟨[5], [0], [1], [1], FieldKind.dayOfWeek.all, false⟩ :=
    ⟨['5'], ['0'], ['1'], ['1'], ['*'], ['*'], rfl, rfl, rfl, rfl, rfl, rfl, rfl, rfl⟩
  obtain ⟨s, accepted, hzone, hnext⟩ : ∃ s,
      @Schedule.parse nepalOnly "5 0 1 1 *" "Asia/Kathmandu" = .ok s ∧ s.zone = nepal ∧
        s.nextAfter? (.ofSeconds 504900000) = some (.ofSeconds 536437200) :=
    ⟨_, rfl, rfl, by decide +kernel⟩
  have repeats : s.zone.Repeats := hzone ▸ repeats_nepal
  have hspec := @nextAfter?_of_meaning nepalOnly _ _ _ _ accepted denotes repeats
    (.ofSeconds 504900000)
  exact ⟨s, accepted, denotes, repeats, hnext, (hspec.1 _).mp hnext⟩

end CronSupervisor.Cron
