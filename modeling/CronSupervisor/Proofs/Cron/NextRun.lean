/-
  CronSupervisor.Proofs.Cron.NextRun — what the next run of a schedule is.

  The search for the next run goes through wall times, one timetable at a time, and the earlier of
  the instants found is the next run.  Because first instants are in the order of their wall times,
  this is the first instant of the least wall time that any of the timetables admits.  It need not
  lie after the instant it was asked for: a clock that was set back comes to wall times whose first
  instant has passed.

  Main statements:
    * `nextAfter?_eq_some_iff`, `nextAfter?_eq_none_iff` — the next run of any schedule.
    * `lt_nextAfter?_iff` — exactly when the next run is later than the instant it was asked for.
    * `nextAfter?_of_fields` — the next run in terms of the five words.
-/
import CronSupervisor.Proofs.Calendar.Zone.Table
import CronSupervisor.Proofs.Cron.Field
import Mathlib.Data.Set.Basic

namespace CronSupervisor.Cron

open Calendar Text

/-! ## §1. The earlier of the runs -/

/-- What is looked for by going through a list and keeping the earlier instant. -/
theorem finds_foldl_earlier (ns : List Instant) :
    Finds (· ∈ ns) (ns.foldl
      (fun best n => some (match best with | some b => b.earlier n | none => n)) none) := by
  -- with an instant in hand, going on keeps the earlier one
  have hfold : ∀ (ns : List Instant) (b : Instant), ∃ n, ns.foldl
      (fun best n => some (match best with | some b => b.earlier n | none => n)) (some b) = some n ∧
        (n = b ∨ n ∈ ns) ∧ n ≤ b ∧ ∀ m ∈ ns, n ≤ m := by
    intro ns
    induction ns with
    | nil => exact fun b => ⟨b, rfl, .inl rfl, Int.le_refl _, nofun⟩
    | cons m ns ih =>
      intro b
      obtain ⟨n, hn, hmem, hle, hall⟩ := ih (b.earlier m)
      have hleft : b.earlier m ≤ b := by
        unfold Instant.earlier
        split
        next => exact Int.le_refl _
        next h => exact Int.le_of_lt (Int.not_le.mp h)
      have hright : b.earlier m ≤ m := by
        unfold Instant.earlier
        split
        next h => exact h
        next => exact Int.le_refl _
      refine ⟨n, hn, ?_, Int.le_trans hle hleft, ?_⟩
      · rcases hmem with rfl | hmem
        · unfold Instant.earlier
          split
          next => exact .inl rfl
          next => exact .inr List.mem_cons_self
        · exact .inr (List.mem_cons_of_mem _ hmem)
      · intro k hk
        rcases List.mem_cons.mp hk with rfl | hk
        · exact Int.le_trans hle hright
        · exact hall k hk
  cases ns with
  | nil => exact nofun
  | cons m ns =>
    obtain ⟨n, hn, hmem, hle, hall⟩ := hfold ns m
    rw [List.foldl_cons, hn]
    refine ⟨?_, fun k hk => ?_⟩
    · rcases hmem with rfl | hmem
      · exact List.mem_cons_self
      · exact List.mem_cons_of_mem _ hmem
    · rcases List.mem_cons.mp hk with rfl | hk
      · exact hle
      · exact hall k hk

namespace Schedule

/-! ## §2. Schedules that were read -/

/-- What a schedule needs for a search to find its next run: its clock repeats what it is set back
by, and its timetables are ascending. -/
structure Searchable (s : Schedule) : Prop where
  repeats : s.zone.Repeats
  ordered : ∀ table ∈ s.timetables, table.Ordered

theorem exists_of_mem_mapM {α β : Type} {f : α → Option β} {xs : List α} {ys : List β}
    (h : xs.mapM f = some ys) : ∀ y ∈ ys, ∃ x ∈ xs, f x = some y := by
  induction xs generalizing ys with
  | nil =>
    cases h
    exact nofun
  | cons x xs ih =>
    rw [List.mapM_cons] at h
    simp only [Option.bind_eq_bind, Option.bind_eq_some_iff, Option.pure_def,
      Option.some.injEq] at h
    obtain ⟨y, hy, zs, hzs, rfl⟩ := h
    intro w hw
    rcases List.mem_cons.mp hw with rfl | hw
    · exact ⟨x, List.mem_cons_self, hy⟩
    · obtain ⟨v, hv, hfv⟩ := ih hzs w hw
      exact ⟨v, List.mem_cons_of_mem _ hv, hfv⟩

section Parse

variable [ZoneBook]

/-- What reading an expression goes through. -/
theorem parse_eq_ok {expr timezone : String} {s : Schedule} (h : parse expr timezone = .ok s) :
    ∃ minute hour day month weekday renumbered,
      words expr.toList = [minute, hour, day, month, weekday] ∧
      renumberWeekdays weekday = .ok renumbered ∧
      timetables? minute hour day month weekday renumbered = some s.timetables ∧
      resolveZone timezone = .ok (s.zoneName, s.zone) := by
  unfold parse at h
  split at h
  next minute hour day month weekday hwords =>
    cases hr : renumberWeekdays weekday with
    | error e =>
      rw [hr] at h
      cases h
    | ok renumbered =>
      rw [hr] at h
      simp only [Except.mapError, bind, Except.bind] at h
      split at h
      next => cases h
      next tables ht =>
        cases hz : resolveZone timezone with
        | error e =>
          rw [hz] at h
          cases h
        | ok p =>
          rw [hz] at h
          cases h
          exact ⟨minute, hour, day, month, weekday, renumbered, hwords, hr, ht, rfl⟩
  next => cases h

/-- An accepted schedule keeps its expression, without the blanks on its ends. -/
theorem expression_of_parse {expr timezone : String} {s : Schedule}
    (h : parse expr timezone = .ok s) : s.expression = trim expr := by
  obtain ⟨minute, hour, day, month, weekday, renumbered, hwords, hr, htables, hzone⟩ :=
    parse_eq_ok h
  unfold parse at h
  rw [hwords] at h
  simp only [hr, htables, hzone, Except.mapError, bind, Except.bind] at h
  exact congrArg expression (Except.ok.inj h).symm

theorem named_of_resolveZone {name zoneName : String} {z : Zone}
    (h : resolveZone name = .ok (zoneName, z)) : ZoneBook.named? zoneName = some z := by
  unfold resolveZone at h
  simp only at h
  split at h
  next hz =>
    cases h
    exact hz
  next => cases h

/-- The zone of an accepted schedule is one of the book. -/
theorem named_of_parse {expr timezone : String} {s : Schedule} (h : parse expr timezone = .ok s) :
    ZoneBook.named? s.zoneName = some s.zone := by
  obtain ⟨_, _, _, _, _, _, -, -, -, hzone⟩ := parse_eq_ok h
  exact named_of_resolveZone hzone

/-- The timetables of an accepted schedule are ascending. -/
theorem ordered_of_parse {expr timezone : String} {s : Schedule} (h : parse expr timezone = .ok s) :
    ∀ table ∈ s.timetables, table.Ordered := by
  obtain ⟨_, _, _, _, _, _, -, -, htables, -⟩ := parse_eq_ok h
  intro table htable
  obtain ⟨_, -, hread⟩ := exists_of_mem_mapM htables table htable
  exact ordered_of_ofChars? hread

/-- **Accepted schedules can be searched**, if the book is a lawful one. -/
theorem searchable_of_parse [LawfulZoneBook] {expr timezone : String} {s : Schedule}
    (h : parse expr timezone = .ok s) : s.Searchable :=
  ⟨LawfulZoneBook.repeats (named_of_parse h), ordered_of_parse h⟩

end Parse

/-! ## §3. The next run -/

/-- The wall time is still to come, one of the timetables admits it, and the clock shows it. -/
def Upcoming (s : Schedule) (t : Instant) (c : Int) : Prop :=
  s.zone.wall (t.seconds + 1) ≤ c ∧ (∃ table ∈ s.timetables, table.matchesWall c = true) ∧
    ∃ utc, s.zone.wall utc = c

/-- The first instant of the least wall time that is still to come. -/
def IsNext (s : Schedule) (t n : Instant) : Prop :=
  ∃ c utc, IsLeast {c | s.Upcoming t c} c ∧ IsLeast {u | s.zone.wall u = c} utc ∧
    n = .ofSeconds utc

section NextRun

variable {s : Schedule} {t n : Instant}

theorem IsNext.unique {m : Instant} (hn : s.IsNext t n) (hm : s.IsNext t m) : n = m := by
  obtain ⟨c, u, hc, hu, rfl⟩ := hn
  obtain ⟨d, v, hd, hv, rfl⟩ := hm
  have hcd : c = d := hc.unique hd
  subst hcd
  rw [hu.unique hv]

/-- The next run is the earliest of those of the timetables. -/
theorem finds_nextAfter? (s : Schedule) (t : Instant) :
    Finds (fun n => ∃ table ∈ s.timetables, nextOf? s.zone t table = some n) (s.nextAfter? t) := by
  have hfold := finds_foldl_earlier (s.timetables.filterMap (nextOf? s.zone t))
  exact hfold.congr fun n => List.mem_filterMap

section Ordered

variable (ordered : ∀ table ∈ s.timetables, table.Ordered)
include ordered

/-- The next run of one timetable is the first instant of a wall time that is still to come. -/
theorem exists_of_nextOf? {table : Timetable} (htable : table ∈ s.timetables)
    (h : nextOf? s.zone t table = some n) :
    ∃ c utc, s.Upcoming t c ∧ IsLeast {u | s.zone.wall u = c} utc ∧ n = .ofSeconds utc := by
  have hfinds := Timetable.finds_nextWall? (ordered table htable) s.zone
    (s.zone.wall (t.seconds + 1))
  unfold nextOf? at h
  obtain ⟨c, hc, hn⟩ := Option.bind_eq_some_iff.mp h
  obtain ⟨utc, hutc, rfl⟩ := Option.map_eq_some_iff.mp hn
  rw [hc] at hfinds
  obtain ⟨⟨hle, hmatch, hshown⟩, -⟩ := hfinds
  exact ⟨c, utc, ⟨hle, ⟨table, htable, hmatch⟩, hshown⟩, Zone.earliest?_eq_some_iff.mp hutc, rfl⟩

/-- Every wall time that is still to come is no earlier than one that a timetable leads to. -/
theorem exists_nextOf? {c : Int} (hc : s.Upcoming t c) :
    ∃ table ∈ s.timetables, ∃ d utc, d ≤ c ∧ IsLeast {u | s.zone.wall u = d} utc ∧
      nextOf? s.zone t table = some (.ofSeconds utc) := by
  obtain ⟨hle, ⟨table, htable, hmatch⟩, hshown⟩ := hc
  have hfinds := Timetable.finds_nextWall? (ordered table htable) s.zone
    (s.zone.wall (t.seconds + 1))
  cases hw : table.nextWall? s.zone (s.zone.wall (t.seconds + 1)) with
  | none =>
    rw [hw] at hfinds
    exact absurd ⟨hle, hmatch, hshown⟩ (hfinds c)
  | some d =>
    rw [hw] at hfinds
    obtain ⟨⟨-, -, hdshown⟩, hleast⟩ := hfinds
    obtain ⟨utc, hutc⟩ := Option.isSome_iff_exists.mp (Zone.earliest?_isSome_iff.mpr hdshown)
    refine ⟨table, htable, d, utc, hleast c ⟨hle, hmatch, hshown⟩,
      Zone.earliest?_eq_some_iff.mp hutc, ?_⟩
    unfold nextOf?
    rw [hw, Option.bind_some, hutc, Option.map_some]

/-- Every next run is the first instant of a wall time that is still to come. -/
theorem exists_of_nextAfter? (h : s.nextAfter? t = some n) :
    ∃ c utc, s.Upcoming t c ∧ IsLeast {u | s.zone.wall u = c} utc ∧ n = .ofSeconds utc := by
  have hfinds := finds_nextAfter? s t
  rw [h] at hfinds
  obtain ⟨⟨table, htable, hnext⟩, -⟩ := hfinds
  exact exists_of_nextOf? ordered htable hnext

/-- **There is no next run exactly when no wall time is still to come.** -/
theorem nextAfter?_eq_none_iff : s.nextAfter? t = none ↔ ∀ c, ¬ s.Upcoming t c := by
  constructor
  · intro h c hc
    have hfinds := finds_nextAfter? s t
    rw [h] at hfinds
    obtain ⟨table, htable, d, u, -, -, hnext⟩ := exists_nextOf? ordered hc
    exact hfinds _ ⟨table, htable, hnext⟩
  · intro hnone
    cases hn : s.nextAfter? t with
    | none => rfl
    | some n =>
      obtain ⟨c, _, hc, -, -⟩ := exists_of_nextAfter? ordered hn
      exact absurd hc (hnone c)

end Ordered

/-- The earliest instant that the timetables lead to is that of the least wall time. -/
theorem isNext_of_nextAfter? (hs : s.Searchable) (h : s.nextAfter? t = some n) : s.IsNext t n := by
  have hfinds := finds_nextAfter? s t
  rw [h] at hfinds
  obtain ⟨⟨table, htable, hnext⟩, hearliest⟩ := hfinds
  obtain ⟨c, utc, hc, hutc, rfl⟩ := exists_of_nextOf? hs.ordered htable hnext
  refine ⟨c, utc, ⟨hc, fun c' hc' => ?_⟩, hutc, rfl⟩
  by_contra hlt
  -- a lesser wall time would lead to an earlier instant
  obtain ⟨table', htable', d, u, hd, hu, hnext'⟩ := exists_nextOf? hs.ordered hc'
  have hle := hearliest _ ⟨table', htable', hnext'⟩
  rw [Instant.ofSeconds_le_iff] at hle
  have hbefore := hs.repeats.earliest_lt (show d < c by omega) hu hutc
  omega

/-- **The next run is the first instant of the least wall time that is still to come.** -/
theorem nextAfter?_eq_some_iff (hs : s.Searchable) : s.nextAfter? t = some n ↔ s.IsNext t n := by
  constructor
  · exact isNext_of_nextAfter? hs
  · intro hn
    cases hm : s.nextAfter? t with
    | some m => rw [(isNext_of_nextAfter? hs hm).unique hn]
    | none =>
      obtain ⟨c, _, hc, -, -⟩ := hn
      exact absurd hc.1 ((nextAfter?_eq_none_iff hs.ordered).mp hm c)

/-! ## §4. Whether the next run is later -/

/-- The next run has passed exactly when the clock has already shown a matching wall time that is
still to come. -/
theorem IsNext.lt_iff (hs : s.Searchable) (hn : s.IsNext t n) :
    t < n ↔ ∀ u, u ≤ t.seconds → ¬ s.Upcoming t (s.zone.wall u) := by
  obtain ⟨c, utc, hc, hutc, rfl⟩ := hn
  have hshow : s.zone.wall utc = c := hutc.1
  rw [Instant.lt_ofSeconds_iff]
  constructor
  · intro hlater u hu hupcoming
    obtain ⟨v, hv⟩ := Option.isSome_iff_exists.mp
      (Zone.earliest?_isSome_iff.mpr ⟨u, (rfl : s.zone.wall u = s.zone.wall u)⟩)
    have hfirst := Zone.earliest?_eq_some_iff.mp hv
    have hvu : v ≤ u := hfirst.2 rfl
    -- the least wall time is first shown no later than this one
    rcases Int.lt_or_eq_of_le (hc.2 hupcoming) with hlt | heq
    · have hbefore := hs.repeats.earliest_lt hlt hutc hfirst
      omega
    · -- it is this one itself
      have hle : utc ≤ u := hutc.2 heq.symm
      omega
  · intro hnone
    by_contra hpassed
    -- otherwise the clock has shown the wall time of the next run already
    refine hnone utc (by omega) ?_
    rw [hshow]
    exact hc.1

/-- Where the clock is never set back, the next run is always later. -/
theorem lt_nextAfter?_of_ascending (hs : s.Searchable)
    (ascending : ∀ u v, u < v → s.zone.wall u < s.zone.wall v) (h : s.nextAfter? t = some n) :
    t < n := by
  rw [(isNext_of_nextAfter? hs h).lt_iff hs]
  intro u hu hupcoming
  have hlt := ascending u (t.seconds + 1) (by omega)
  have hle := hupcoming.1
  omega

/-- **Exactly when the next run is later than the instant that it was asked for.**  It is not later
just when the clock was set back in the meantime and has shown, at that instant or before, a wall
time which matches and which it comes to again. -/
theorem lt_nextAfter?_iff [ZoneBook] [LawfulZoneBook] {expr timezone : String}
    (accepted : parse expr timezone = .ok s)
    (found : s.nextAfter? t = some n) :
    t < n ↔ ¬ ∃ u, u ≤ t.seconds ∧ s.zone.wall (t.seconds + 1) ≤ s.zone.wall u ∧
      ∃ table ∈ s.timetables, table.matchesWall (s.zone.wall u) = true := by
  have hs := searchable_of_parse accepted
  rw [(isNext_of_nextAfter? hs found).lt_iff hs]
  constructor
  · intro hnone hc
    obtain ⟨u, hu, hle, hmatch⟩ := hc
    exact hnone u hu ⟨hle, hmatch, u, rfl⟩
  · intro hnone u hu hc
    obtain ⟨hle, hmatch, -⟩ := hc
    exact hnone ⟨u, hu, hle, hmatch⟩

end NextRun

section Berlin

open Platform

/-- At ten past two of the second pass through the hour that Berlin repeats, the next half past two
is the one of the first pass. -/
theorem lt_nextAfter?_iff_berlin : ∃ s n,
    parse "30 2 * * *" "Europe/Berlin" = .ok s ∧ s.nextAfter? (.ofSeconds 1729991400) = some n ∧
      n < .ofSeconds 1729991400 ∧
      (.ofSeconds 1729991400 < n ↔ ¬ ∃ u, u ≤ (Instant.ofSeconds 1729991400).seconds ∧
        s.zone.wall ((Instant.ofSeconds 1729991400).seconds + 1) ≤ s.zone.wall u ∧
        ∃ table ∈ s.timetables, table.matchesWall (s.zone.wall u) = true) := by
  have found : (parse "30 2 * * *" "Europe/Berlin").toOption.bind
      (fun s => s.nextAfter? (.ofSeconds 1729991400)) = some (.ofSeconds 1729989000) := by
    decide +kernel
  obtain ⟨s, hs, hn⟩ := Option.bind_eq_some_iff.mp found
  have accepted : parse "30 2 * * *" "Europe/Berlin" = .ok s := by
    cases hp : parse "30 2 * * *" "Europe/Berlin" with
    | ok s' =>
      rw [hp] at hs
      cases hs
      rfl
    | error e =>
      rw [hp] at hs
      cases hs
  exact ⟨s, _, accepted, hn, by decide, lt_nextAfter?_iff accepted hn⟩

end Berlin

end Schedule

end CronSupervisor.Cron
