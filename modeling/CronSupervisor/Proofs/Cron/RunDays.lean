/-
  CronSupervisor.Proofs.Cron.RunDays — on which weekdays a schedule runs.

  Where the other four words are stars, a schedule runs in every full minute of the days of its
  weekday word.  The word is accepted unless a step leaves the bounds or a stepped range ends in the
  second Sunday, and the days are those that its items stand for, with one exception: the second
  Sunday alone under a step is read as every so many days of the week.

  Main statements:
    * `exists_reads_weekdayWord_iff`, `mem_of_reads_weekdayWord` — fields of weekday words.
    * `runsOn_of_denotes` — the runs of a schedule whose other words are stars.
    * `RunsOn.unique` — a schedule runs on one set of weekdays only.
    * `runs_on_weekdays` — which weekday words are accepted, and on which days they run.
-/
import CronSupervisor.Proofs.Cron.Week

namespace CronSupervisor.Cron

open Calendar Text

/-! ## §1. Fields of weekday words -/

section Word

variable {items : List WeekdayItem} {renumbered : List Char}

theorem renumbered_of_weekdayWord (hne : items ≠ [])
    (h : renumberWeekdays (weekdayWord items) = .ok renumbered) :
    ∃ outs, outs ≠ [] ∧ renumbered = joinWith ',' outs ∧
      List.Forall₂ (fun (i : WeekdayItem) out => renumberItem i.text = .ok out) items outs := by
  obtain ⟨outs, rfl, houts⟩ := renumberWeekdays_eq_ok h
  rw [splitOn_weekdayWord hne, List.forall₂_map_left_iff] at houts
  refine ⟨outs, ?_, rfl, houts⟩
  rintro rfl
  exact hne (List.forall₂_nil_right_iff.mp houts)

/-- Every item of an accepted word is accepted. -/
theorem supported_of_renumberWeekdays (hne : items ≠ [])
    (h : renumberWeekdays (weekdayWord items) = .ok renumbered) :
    ∀ i ∈ items, ¬ i.EndsInSunday := by
  obtain ⟨outs, -, -, houts⟩ := renumbered_of_weekdayWord hne h
  intro i hi
  obtain ⟨out, -, hout⟩ := exists_of_mem_forall₂ houts.flip i hi
  exact i.exists_renumberItem_iff.mp ⟨out, hout⟩

theorem exists_renumberWeekdays (hne : items ≠ []) (h : ∀ i ∈ items, ¬ i.EndsInSunday) :
    ∃ renumbered, renumberWeekdays (weekdayWord items) = .ok renumbered := by
  have hmap : ∀ is : List WeekdayItem, (∀ i ∈ is, ¬ i.EndsInSunday) →
      ∃ outs, (is.map WeekdayItem.text).mapM renumberItem = .ok outs := by
    intro is his
    induction is with
    | nil => exact ⟨[], rfl⟩
    | cons i is ih =>
      obtain ⟨hi, his⟩ := List.forall_mem_cons.mp his
      obtain ⟨out, hout⟩ := i.exists_renumberItem_iff.mpr hi
      obtain ⟨outs, houts⟩ := ih his
      refine ⟨out :: outs, ?_⟩
      rw [List.map_cons, List.mapM_cons, hout, houts]
      rfl
  obtain ⟨outs, houts⟩ := hmap items h
  refine ⟨joinWith ',' outs, ?_⟩
  unfold renumberWeekdays
  rw [splitOn_weekdayWord hne, houts]
  rfl

theorem lists_renumberItems_iff {outs : List (List Char)} {groups : List (List Root)}
    (houts : List.Forall₂ (fun (i : WeekdayItem) out => renumberItem i.text = .ok out) items outs) :
    List.Forall₂ (Lists .dayOfWeek) outs groups ↔
      (∀ i ∈ items, StepFits i.step) ∧ groups = items.map WeekdayItem.roots := by
  induction houts generalizing groups with
  | nil =>
    rw [List.forall₂_nil_left_iff]
    exact (and_iff_right nofun).symm
  | cons hout _ ih =>
    rw [List.forall₂_cons_left_iff, List.forall_mem_cons, List.map_cons]
    constructor
    · rintro ⟨ys, groups, hys, hrest, rfl⟩
      obtain ⟨hfits, rfl⟩ := (lists_renumberItem_iff hout).mp hys
      obtain ⟨hall, rfl⟩ := ih.mp hrest
      exact ⟨⟨hfits, hall⟩, rfl⟩
    · rintro ⟨⟨hfits, hall⟩, rfl⟩
      exact ⟨_, _, (lists_renumberItem_iff hout).mpr ⟨hfits, rfl⟩, ih.mpr ⟨hall, rfl⟩, rfl⟩

variable (compact : Compact (weekdayWord items))

include compact in
/-- The roots of a renumbered word. -/
theorem roots?_weekdayWord_iff (hne : items ≠ [])
    (h : renumberWeekdays (weekdayWord items) = .ok renumbered) {rs : List Root} :
    roots? .dayOfWeek renumbered = some (rs, []) ↔
      (∀ i ∈ items, StepFits i.step) ∧ rs = items.flatMap WeekdayItem.roots := by
  obtain ⟨outs, houtsne, hjoin, houts⟩ := renumbered_of_weekdayWord hne h
  rw [roots?_eq_some_iff (compact_renumbered h compact), hjoin, lists_joinWith_iff houtsne]
  simp only [lists_renumberItems_iff houts]
  constructor
  · rintro ⟨groups, rfl, hfits, rfl⟩
    exact ⟨hfits, rfl⟩
  · rintro ⟨hfits, rfl⟩
    exact ⟨_, rfl, hfits, rfl⟩

theorem reads_iff {k : FieldKind} {word : List Char} {vs : List Nat} : k.Reads word vs ↔
    ∃ rs, roots? k word = some (rs, []) ∧ rootsValues? k rs = some vs := by
  refine ⟨FieldKind.Reads.roots, ?_⟩
  rintro ⟨rs, hrs, hvs⟩
  unfold FieldKind.Reads field?
  rw [hrs]
  simp only [hvs, Option.map_some]

theorem forall_mem_flatMap_roots {P : Root → Prop} :
    (∀ r ∈ items.flatMap WeekdayItem.roots, P r) ↔ ∀ i ∈ items, ∀ r ∈ i.roots, P r := by
  simp only [List.mem_flatMap, forall_exists_index, and_imp]
  exact ⟨fun h i hi r hr => h r i hi hr, fun h r i hi hr => h i hi r hr⟩

include compact in
/-- The numbers of a renumbered word are those of the roots of its items. -/
theorem reads_weekdayWord_iff (hne : items ≠ [])
    (h : renumberWeekdays (weekdayWord items) = .ok renumbered) {vs : List Nat} :
    FieldKind.dayOfWeek.Reads renumbered vs ↔
      (∀ i ∈ items, i.StepInBounds) ∧
        rootsValues? .dayOfWeek (items.flatMap WeekdayItem.roots) = some vs := by
  have supported := supported_of_renumberWeekdays hne h
  simp only [reads_iff, roots?_weekdayWord_iff compact hne h]
  constructor
  · rintro ⟨rs, ⟨-, rfl⟩, hvs⟩
    refine ⟨fun i hi => ?_, hvs⟩
    have hsome := forall_mem_flatMap_roots.mp (rootsValues?_eq_some_iff.mp ⟨vs, hvs⟩)
    exact (WeekdayItem.rooted (supported i hi)).isSome_iff.mp (hsome i hi)
  · rintro ⟨hbounds, hvs⟩
    refine ⟨_, ⟨fun i hi s hs => ?_, rfl⟩, hvs⟩
    have hstep := hbounds i hi s.value (by rw [WeekdayItem.step?, Option.mem_def.mp hs]; rfl)
    exact le_maxOrdinal (by omega)

include compact in
/-- **Which weekday words are complete fields.** -/
theorem exists_reads_weekdayWord_iff (hne : items ≠ []) :
    (∃ renumbered vs, renumberWeekdays (weekdayWord items) = .ok renumbered ∧
      FieldKind.dayOfWeek.Reads renumbered vs) ↔
      ∀ i ∈ items, i.StepInBounds ∧ ¬ i.EndsInSunday := by
  constructor
  · rintro ⟨renumbered, vs, h, hvs⟩ i hi
    exact ⟨((reads_weekdayWord_iff compact hne h).mp hvs).1 i hi,
      supported_of_renumberWeekdays hne h i hi⟩
  · intro hall
    obtain ⟨renumbered, h⟩ := exists_renumberWeekdays hne fun i hi => (hall i hi).2
    have hsome : ∀ r ∈ items.flatMap WeekdayItem.roots,
        (r.values? .dayOfWeek).isSome = true := forall_mem_flatMap_roots.mpr fun i hi =>
      (WeekdayItem.rooted (hall i hi).2).isSome_iff.mpr (hall i hi).1
    obtain ⟨vs, hvs⟩ := rootsValues?_eq_some_iff.mpr hsome
    exact ⟨renumbered, vs, h,
      (reads_weekdayWord_iff compact hne h).mpr ⟨fun i hi => (hall i hi).1, hvs⟩⟩

include compact in
/-- **The days of a weekday word**, from 1 for Sunday, are those that its items are read as. -/
theorem mem_of_reads_weekdayWord (hne : items ≠ [])
    (h : renumberWeekdays (weekdayWord items) = .ok renumbered) {vs : List Nat}
    (hvs : FieldKind.dayOfWeek.Reads renumbered vs) (d : Nat) :
    d + 1 ∈ vs ↔ ∃ i ∈ items, i.Reads d := by
  have supported := supported_of_renumberWeekdays hne h
  obtain ⟨hbounds, hvalues⟩ := (reads_weekdayWord_iff compact hne h).mp hvs
  have hdays : ∀ i ∈ items, (∃ r ∈ i.roots, r.Has (d + 1)) ↔ i.Reads d := fun i hi =>
    (WeekdayItem.rooted (supported i hi)).has_iff (hbounds i hi) d
  rw [mem_of_rootsValues? hvalues]
  constructor
  · rintro ⟨-, r, hr, hset⟩
    obtain ⟨i, hi, hr⟩ := List.mem_flatMap.mp hr
    exact ⟨i, hi, (hdays i hi).mp ⟨r, hr, hset⟩⟩
  · rintro ⟨i, hi, hd⟩
    have hlt := WeekdayItem.reads_lt hd
    obtain ⟨r, hr, hset⟩ := (hdays i hi).mpr hd
    refine ⟨⟨Nat.le_add_left 1 d, ?_⟩, r, List.mem_flatMap.mpr ⟨i, hi, hr⟩, hset⟩
    show d + 1 ≤ 7
    omega

end Word

/-! ## §2. Runs in all minutes of some weekdays -/

/-- The wall time is a full minute of the years 1970 to 2100 on one of the days, from 0 for
Sunday. -/
def IsMinuteOn (days : Set Nat) (c : Int) : Prop :=
  let day := c / secondsPerDay
  let year := (Date.ofDayNumber day).year
  c % 60 = 0 ∧ 1970 ≤ year ∧ year ≤ 2100 ∧ weekday day - 1 ∈ days

/-- The schedule runs in every full minute of these days and at no other time; where the clock shows
a minute twice, it runs the first time. -/
def Schedule.RunsOn (s : Schedule) (days : Set Nat) : Prop :=
  ∀ n, (∃ t, s.nextAfter? t = some n) ↔
    ∃ c utc, IsMinuteOn days c ∧ IsLeast {u | s.zone.wall u = c} utc ∧ n = .ofSeconds utc

/-- What words of stars mean beside a weekday word. -/
def Meaning.ofWeekdays (weekdays : List Nat) : Meaning where
  minutes := FieldKind.minute.all
  hours := FieldKind.hour.all
  days := FieldKind.dayOfMonth.all
  months := FieldKind.month.all
  weekdays := weekdays
  either := false

theorem matches_ofWeekdays_iff {weekdays : List Nat} {days : Set Nat}
    (hdays : ∀ d, d + 1 ∈ weekdays ↔ d ∈ days) (c : Int) :
    (Meaning.ofWeekdays weekdays).Matches c ↔ IsMinuteOn days c := by
  unfold Meaning.Matches Meaning.ofWeekdays IsMinuteOn
  simp only [Bool.false_eq_true, if_false]
  have hpos := weekday_pos (c / secondsPerDay)
  have hweekday := hdays (weekday (c / secondsPerDay) - 1)
  rw [Nat.sub_add_cancel hpos] at hweekday
  have hminute : (c / 60 % 60).toNat ∈ FieldKind.minute.all :=
    mem_all_iff.mpr ⟨Nat.zero_le _, by show _ ≤ 59; omega⟩
  have hhour : (c / 3600 % 24).toNat ∈ FieldKind.hour.all :=
    mem_all_iff.mpr ⟨Nat.zero_le _, by show _ ≤ 23; omega⟩
  have hmonth : (Date.ofDayNumber (c / secondsPerDay)).month ∈ FieldKind.month.all :=
    mem_all_iff.mpr (month_ofDayNumber _)
  rw [hweekday]
  constructor
  · rintro ⟨hs, -, -, -, ⟨-, hd⟩, hyears⟩
    exact ⟨hs, hyears.1, hyears.2, hd⟩
  · rintro ⟨hs, hfirst, hlast, hd⟩
    exact ⟨hs, hminute, hhour, hmonth, ⟨day_mem_all _, hd⟩, hfirst, hlast⟩

section Accepted

variable [ZoneBook] [LawfulZoneBook] {expr timezone : String} {s : Schedule}
  (accepted : Schedule.parse expr timezone = .ok s)
include accepted

/-- **The runs of a schedule whose other words are stars.** -/
theorem runsOn_of_denotes {weekdays : List Nat} (denotes : Denotes expr (.ofWeekdays weekdays))
    {days : Set Nat} (hdays : ∀ d, d + 1 ∈ weekdays ↔ d ∈ days) : s.RunsOn days := by
  have repeats := LawfulZoneBook.repeats (Schedule.named_of_parse accepted)
  intro n
  simp only [nextAfter?_eq_some_iff_meaning accepted denotes repeats]
  constructor
  · rintro ⟨t, c, utc, hc, hutc, rfl⟩
    exact ⟨c, utc, (matches_ofWeekdays_iff hdays c).mp hc.1.2.1, hutc, rfl⟩
  · rintro ⟨c, utc, hc, hutc, rfl⟩
    -- a second before, nothing is nearer
    refine ⟨.ofSeconds (utc - 1), c, utc, ⟨⟨?_, (matches_ofWeekdays_iff hdays c).mpr hc, utc,
      hutc.1⟩, fun c' hc' => ?_⟩, hutc, rfl⟩
    · rw [Instant.seconds_ofSeconds, Int.sub_add_cancel]
      exact Int.le_of_eq hutc.1
    · have hle := hc'.1
      rw [Instant.seconds_ofSeconds, Int.sub_add_cancel] at hle
      have hshown : s.zone.wall utc = c := hutc.1
      omega

/-! ## §3. One set of weekdays -/

theorem exists_isMinuteOn {days : Set Nat} {d : Nat} (hlt : d < 7) (hd : d ∈ days) :
    ∃ utc, IsMinuteOn days (s.zone.wall utc) ∧
      weekday (s.zone.wall utc / secondsPerDay) - 1 = d := by
  have keepsWeek := LawfulZoneBook.keepsWeek (Schedule.named_of_parse accepted)
  obtain ⟨utc, day, hwall, hfirst, hlast, hweekday⟩ := keepsWeek.exists_shown hlt
  have hmidnight : day * secondsPerDay / (secondsPerDay : Int) = day :=
    Int.mul_ediv_cancel _ (by decide)
  have hyears := searched_iff.mp ⟨hfirst, hlast⟩
  refine ⟨utc, ?_, ?_⟩
  · simp only [IsMinuteOn, hwall, hmidnight, hweekday]
    exact ⟨by unfold secondsPerDay; omega, hyears.1, hyears.2, hd⟩
  · rw [hwall, hmidnight, hweekday]
    exact Nat.add_sub_cancel d 1

/-- A weekday that a schedule runs on belongs to every set that it is said to run on. -/
theorem Schedule.RunsOn.subset {days days' : Set Nat} (h : s.RunsOn days) (h' : s.RunsOn days')
    {d : Nat} (hlt : d < 7) (hd : d ∈ days) : d ∈ days' := by
  obtain ⟨u, hminute, hday⟩ := exists_isMinuteOn accepted hlt hd
  obtain ⟨utc, hutc⟩ := Option.isSome_iff_exists.mp
    (Zone.earliest?_isSome_iff.mpr ⟨u, (rfl : s.zone.wall u = s.zone.wall u)⟩)
  have hleast := Zone.earliest?_eq_some_iff.mp hutc
  -- it runs in that minute, and the second set has a minute for every run
  obtain ⟨c, v, hminute', hv, heq⟩ := (h' _).mp ((h _).mpr ⟨_, utc, hminute, hleast, rfl⟩)
  have huv : utc = v := by
    have hsame := congrArg Instant.seconds heq
    rwa [Instant.seconds_ofSeconds, Instant.seconds_ofSeconds] at hsame
  have hc : s.zone.wall u = c := hleast.1.symm.trans (huv ▸ hv.1)
  rw [← hday, hc]
  exact hminute'.2.2.2

/-- **A schedule runs on one set of weekdays only.** -/
theorem Schedule.RunsOn.unique {days days' : Set Nat} (h : s.RunsOn days) (h' : s.RunsOn days')
    (hlt : ∀ d ∈ days, d < 7) (hlt' : ∀ d ∈ days', d < 7) : days = days' :=
  Set.ext fun _ => ⟨fun hd => subset accepted h h' (hlt _ hd) hd,
    fun hd => subset accepted h' h (hlt' _ hd) hd⟩

end Accepted

/-! ## §4. Weekday words among stars -/

/-- The expression has stars in front of a weekday word. -/
def WeekdaysOnly (expr : String) (word : List Char) : Prop :=
  words expr.toList = [['*'], ['*'], ['*'], ['*'], word]

section WeekdaysOnly

variable {expr timezone : String} {word : List Char} (five : WeekdaysOnly expr word)

include five in
theorem compact_of_weekdaysOnly : Compact word := by
  have hmem : word ∈ words expr.toList := by
    rw [five]
    simp
  exact (isWord_of_mem_words hmem).compact

include five in
theorem denotes_of_weekdaysOnly {renumbered : List Char} {weekdays : List Nat}
    (h : renumberWeekdays word = .ok renumbered)
    (hreads : FieldKind.dayOfWeek.Reads renumbered weekdays) :
    Denotes expr (.ofWeekdays weekdays) :=
  ⟨['*'], ['*'], ['*'], ['*'], word, renumbered, five, h, rfl, rfl, rfl, rfl, hreads, rfl⟩

include five in
/-- What an accepted expression says about weekdays. -/
theorem reads_of_weekdaysOnly [ZoneBook] (whole : IsWhole word) {s : Schedule}
    (accepted : Schedule.parse expr timezone = .ok s) :
    ∃ renumbered weekdays, renumberWeekdays word = .ok renumbered ∧
      FieldKind.dayOfWeek.Reads renumbered weekdays := by
  have hwhole : ∀ w ∈ words expr.toList, IsWhole w := by
    have hstar : IsWhole ['*'] := by decide
    rw [five]
    simp only [List.forall_mem_cons, List.not_mem_nil, false_implies, implies_true, and_true]
    exact ⟨hstar, hstar, hstar, hstar, whole⟩
  obtain ⟨m, _, _, _, _, w, renumbered, hwords, h, -, -, -, -, hreads, -⟩ :=
    denotes_of_isWhole accepted hwhole
  rw [five] at hwords
  cases hwords
  exact ⟨renumbered, m.weekdays, h, hreads⟩

include five in
/-- **An expression is accepted if its zone is known and its weekday word is a field.** -/
theorem exists_parse_iff [ZoneBook] (whole : IsWhole word) :
    (∃ s, Schedule.parse expr timezone = .ok s) ↔
      (∃ p, Schedule.resolveZone timezone = .ok p) ∧ ∃ renumbered weekdays,
        renumberWeekdays word = .ok renumbered ∧
          FieldKind.dayOfWeek.Reads renumbered weekdays := by
  constructor
  · rintro ⟨s, accepted⟩
    obtain ⟨_, _, _, _, _, _, -, -, -, hzone⟩ := Schedule.parse_eq_ok accepted
    exact ⟨⟨_, hzone⟩, reads_of_weekdaysOnly five whole accepted⟩
  · rintro ⟨⟨p, hzone⟩, renumbered, weekdays, h, hreads⟩
    have hstar : ∀ k : FieldKind,
        k.Reads ['*'] (k.all.filter fun v => [k.all].any (·.contains v)) := fun _ => rfl
    have htables : Schedule.timetables? ['*'] ['*'] ['*'] ['*'] word renumbered = _ :=
      timetables?_of_reads (hstar .minute) (hstar .hour) (hstar .dayOfMonth) (hstar .month) hreads
    unfold Schedule.parse
    rw [five]
    simp only [h, htables, hzone, Except.mapError, bind, Except.bind]
    exact ⟨_, rfl⟩

end WeekdaysOnly

/-! ## §5. The days of the items -/

/-- The days that an item is read as are the days that all of them stand for, if each stepped second
Sunday only has days that some item stands for. -/
theorem reads_eq_means_iff {items : List WeekdayItem} :
    {d | ∃ i ∈ items, i.Reads d} = {d | ∃ i ∈ items, i.Means d} ↔
      ∀ i ∈ items, i.Overruns → ∀ d, i.Reads d → ∃ j ∈ items, j.Means d := by
  constructor
  · intro heq i hi _ d hd
    exact (Set.ext_iff.mp heq d).mp ⟨i, hi, hd⟩
  · intro hall
    ext d
    constructor
    · rintro ⟨i, hi, hd⟩
      by_cases hover : i.Overruns
      · exact hall i hi hover d hd
      · exact ⟨i, hi, (WeekdayItem.reads_iff_means hover d).mp hd⟩
    · rintro ⟨i, hi, hd⟩
      exact ⟨i, hi, WeekdayItem.reads_of_means hd⟩

/-- **On which weekdays a schedule runs** whose other words are stars.  Its weekday word is accepted
unless a step leaves the bounds or a stepped range ends in the second Sunday.  It runs on the days
that its items are read as; these are the days that the items stand for, unless the second Sunday
alone under a step brings in another one. -/
theorem runs_on_weekdays [ZoneBook] [LawfulZoneBook] {expr timezone : String}
    (head : WeekdayItem) (rest : List WeekdayItem)
    (five : WeekdaysOnly expr (weekdayWord (head :: rest))) :
    ((∃ s, Schedule.parse expr timezone = .ok s) ↔
      (∃ p, Schedule.resolveZone timezone = .ok p) ∧
        ∀ i ∈ head :: rest, i.StepInBounds ∧ ¬ i.EndsInSunday) ∧
    ∀ s, Schedule.parse expr timezone = .ok s →
      s.RunsOn {d | ∃ i ∈ head :: rest, i.Reads d} ∧
      (s.RunsOn {d | ∃ i ∈ head :: rest, i.Means d} ↔
        ∀ i ∈ head :: rest, i.Overruns → ∀ d, i.Reads d → ∃ j ∈ head :: rest, j.Means d) := by
  have hne : head :: rest ≠ [] := List.cons_ne_nil _ _
  have compact := compact_of_weekdaysOnly five
  refine ⟨?_, fun s accepted => ?_⟩
  · rw [exists_parse_iff five (isWhole_weekdayWord hne), exists_reads_weekdayWord_iff compact hne]
  · obtain ⟨renumbered, weekdays, h, hreads⟩ :=
      reads_of_weekdaysOnly five (isWhole_weekdayWord hne) accepted
    have hruns : s.RunsOn {d | ∃ i ∈ head :: rest, i.Reads d} :=
      runsOn_of_denotes accepted (denotes_of_weekdaysOnly five h hreads)
        (mem_of_reads_weekdayWord compact hne h hreads)
    refine ⟨hruns, ?_⟩
    rw [← reads_eq_means_iff]
    constructor
    · intro hmeans
      refine Schedule.RunsOn.unique accepted hruns hmeans ?_ ?_
      · rintro d ⟨i, -, hd⟩
        exact WeekdayItem.reads_lt hd
      · rintro d ⟨i, -, hd⟩
        exact WeekdayItem.means_lt hd
    · intro heq
      rwa [← heq]

/-- From Monday to Friday every second day, `1-5/2`. -/
def everySecondWorkday : WeekdayItem :=
  ⟨.range ⟨['1'], 1, by decide⟩ ⟨['5'], 5, by decide⟩ (by decide) (by decide),
    some ⟨['2'], 2, by decide⟩, nofun⟩

/-- The second Sunday under a step, `7-7/2`. -/
def sundayByTwo : WeekdayItem :=
  ⟨.range ⟨['7'], 7, by decide⟩ ⟨['7'], 7, by decide⟩ (by decide) (by decide),
    some ⟨['2'], 2, by decide⟩, nofun⟩

section Platform

open Platform

/-- Beside every second workday the second Sunday under a step brings in the Tuesday. -/
theorem runs_on_tuesday :
    WeekdaysOnly "* * * * 1-5/2,7-7/2" (weekdayWord [everySecondWorkday, sundayByTwo]) ∧
    ∃ s, Schedule.parse "* * * * 1-5/2,7-7/2" "UTC" = .ok s ∧
      s.RunsOn {d | ∃ i ∈ [everySecondWorkday, sundayByTwo], i.Reads d} ∧
      sundayByTwo.Reads 2 ∧
      ¬ s.RunsOn {d | ∃ i ∈ [everySecondWorkday, sundayByTwo], i.Means d} := by
  have five : WeekdaysOnly "* * * * 1-5/2,7-7/2"
      (weekdayWord [everySecondWorkday, sundayByTwo]) := by
    unfold WeekdaysOnly
    decide
  have hover : sundayByTwo.Overruns := ⟨rfl, nofun⟩
  have htuesday : sundayByTwo.Reads 2 := .inr ⟨hover, 1, by decide, rfl⟩
  obtain ⟨accepted, runs⟩ :=
    @runs_on_weekdays _ _ _ "UTC" everySecondWorkday [sundayByTwo] five
  obtain ⟨s, hs⟩ := accepted.mpr ⟨⟨_, rfl⟩, by
    rintro i hi
    simp only [List.mem_cons, List.not_mem_nil, or_false] at hi
    rcases hi with rfl | rfl
    · exact ⟨by rintro _ ⟨⟩; decide, by rintro ⟨-, -, -, h⟩; cases h⟩
    · exact ⟨by rintro _ ⟨⟩; decide, by rintro ⟨-, -, h, -⟩; exact absurd h (by decide)⟩⟩
  obtain ⟨hreads, hmeans⟩ := runs s hs
  refine ⟨five, s, hs, hreads, htuesday, fun h => ?_⟩
  -- no item stands for the Tuesday
  obtain ⟨j, hj, k, hk, hd⟩ := hmeans.mp h sundayByTwo (by simp) hover 2 htuesday
  simp only [List.mem_cons, List.not_mem_nil, or_false] at hj
  rcases hj with rfl | rfl
  · replace hk : 1 + k * 2 ≤ 5 := hk
    replace hd : 2 = (1 + k * 2) % 7 := hd
    omega
  · replace hk : 7 + k * 2 ≤ 7 := hk
    replace hd : 2 = (7 + k * 2) % 7 := hd
    omega

end Platform

end CronSupervisor.Cron
