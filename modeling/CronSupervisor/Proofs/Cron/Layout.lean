/-
  CronSupervisor.Proofs.Cron.Layout — when an accepted expression keeps its five fields.

  The words of an expression are counted, but what is read is their text in a row.  A word that ends
  or begins with a joint, or that falls into two pieces, can be shared among fields: `-5 ** * * *`
  runs in the first six seconds of a minute, and `* * * * 1*` has a seventh field for the years.
  This is the only way to lose the layout.  An accepted expression whose words hold together has
  five fields, each read from its own word, no seconds but zero, no years, and every weekday in the
  numbers from 0 to 7 in which it was written.

  Main statements:
    * `denotes_of_isWhole` — words that hold together are the five fields.
    * `isWhole_of_denotes` — five fields hold together.
    * `layout_of_parse` — an accepted expression keeps its layout just if its words hold together.
-/
import CronSupervisor.Proofs.Cron.Expression
import CronSupervisor.Proofs.Cron.Renumbering

namespace CronSupervisor.Cron

open Calendar Text

/-! ## §1. Layouts -/

/-- The timetables of five fields: full minutes only, and no years. -/
def Meaning.timetables (m : Meaning) : List Timetable :=
  if m.either then
    [⟨[0], m.minutes, m.hours, m.days, m.months, FieldKind.dayOfWeek.all, none⟩,
     ⟨[0], m.minutes, m.hours, FieldKind.dayOfMonth.all, m.months, m.weekdays, none⟩]
  else [⟨[0], m.minutes, m.hours, m.days, m.months, m.weekdays, none⟩]

/-- The schedule is that of five fields with this meaning. -/
structure Schedule.KeepsLayout (s : Schedule) (expr : String) (m : Meaning) : Prop where
  timetables : s.timetables = m.timetables
  /-- The items of the weekday word are read in the numbers from 0 to 7. -/
  weekdays : ∃ weekday groups, (words expr.toList).getLast? = some weekday ∧
    List.Forall₂ Renders (splitOn ',' weekday) groups ∧
    rootsValues? .dayOfWeek groups.flatten = some m.weekdays
  /-- The clock of the zone shows a full minute at every run. -/
  runs : ∀ t n, s.nextAfter? t = some n → ∃ utc, n = .ofSeconds utc ∧ s.zone.wall utc % 60 = 0

/-! ## §2. Whole words -/

theorem isFieldBlank_of_not_isBlank {c : Char} (h : isBlank c = false) :
    isFieldBlank c = false := by
  unfold isFieldBlank
  simp only [Bool.or_eq_false_iff, beq_eq_false_iff_ne, ne_eq]
  refine ⟨⟨⟨?_, ?_⟩, ?_⟩, ?_⟩ <;> rintro rfl <;> revert h <;> decide

theorem isWord_of_mem_words {cs word : List Char} (h : word ∈ words cs) : IsWord word where
  ne_nil := (of_mem_words h).1
  compact c hc := isFieldBlank_of_not_isBlank ((of_mem_words h).2 c hc)

section Words

variable {minute hour day month weekday renumbered : List Char}

/-- The words of an accepted expression that hold together are complete fields, also when the two
day words are read in two rows. -/
theorem reads_of_timetables? (isWord : ∀ w ∈ [minute, hour, day, month, weekday], IsWord w)
    (whole : ∀ w ∈ [minute, hour, day, month, weekday], IsWhole w)
    (hrenumbered : renumberWeekdays weekday = .ok renumbered) {ts : List Timetable}
    (h : Schedule.timetables? minute hour day month weekday renumbered = some ts) :
    ∃ minutes hours days months weekdays, FieldKind.minute.Reads minute minutes ∧
      FieldKind.hour.Reads hour hours ∧ FieldKind.dayOfMonth.Reads day days ∧
      FieldKind.month.Reads month months ∧ FieldKind.dayOfWeek.Reads renumbered weekdays := by
  simp only [List.forall_mem_cons, List.not_mem_nil, false_implies, implies_true, and_true]
    at isWord whole
  obtain ⟨iminute, ihour, iday, imonth, iweekday⟩ := isWord
  obtain ⟨wminute, whour, wday, wmonth, wweekday⟩ := whole
  obtain ⟨irenumbered, head, bonds⟩ := isWhole_renumbered hrenumbered iweekday wweekday
  have istar : IsWord ['*'] := ⟨by simp, by decide⟩
  have wstar : IsWhole ['*'] := by decide
  unfold Schedule.timetables? at h
  simp only at h
  split at h
  next =>
    -- the first row shows what the day word is, and the second what the weekday word is
    simp only [List.mapM_cons, Option.bind_eq_bind, Option.bind_eq_some_iff] at h
    obtain ⟨t, ht, -, ⟨t', ht', -⟩, -⟩ := h
    obtain ⟨minutes, hours, days, months, -, hminute, hhour, hday, hmonth, -⟩ :=
      reads_of_ofChars? iminute ihour iday imonth istar wminute whour wday wmonth wstar.head
        wstar.bonds ht
    obtain ⟨-, -, -, -, weekdays, -, -, -, -, hweekday⟩ :=
      reads_of_ofChars? iminute ihour istar imonth irenumbered wminute whour wstar wmonth head
        bonds ht'
    exact ⟨minutes, hours, days, months, weekdays, hminute, hhour, hday, hmonth, hweekday⟩
  next =>
    simp only [List.mapM_cons, Option.bind_eq_bind, Option.bind_eq_some_iff] at h
    obtain ⟨t, ht, -⟩ := h
    exact reads_of_ofChars? iminute ihour iday imonth irenumbered wminute whour wday wmonth head
      bonds ht

end Words

/-- The items of a weekday word that is a complete field once it is renumbered. -/
theorem renders_of_reads {weekday renumbered : List Char} {weekdays : List Nat}
    (compact : Compact weekday) (hrenumbered : renumberWeekdays weekday = .ok renumbered)
    (h : FieldKind.dayOfWeek.Reads renumbered weekdays) :
    ∃ groups : List (List Root), List.Forall₂ Renders (splitOn ',' weekday) groups ∧
      rootsValues? .dayOfWeek groups.flatten = some weekdays := by
  obtain ⟨roots, hroots, hvalues⟩ := h.roots
  obtain ⟨groups, rfl, hgroups⟩ := renders_of_renumberWeekdays hrenumbered compact hroots
  exact ⟨groups, hgroups, hvalues⟩

/-- **Five fields hold together.** -/
theorem isWhole_of_denotes {expr : String} {m : Meaning} (denotes : Denotes expr m) :
    ∀ word ∈ words expr.toList, IsWhole word := by
  obtain ⟨minute, hour, day, month, weekday, renumbered, hwords, hrenumbered, hminute, hhour, hday,
    hmonth, hweekday, -⟩ := denotes
  have compact : ∀ w ∈ words expr.toList, Compact w := fun w hw => (isWord_of_mem_words hw).compact
  rw [hwords] at compact ⊢
  simp only [List.forall_mem_cons, List.not_mem_nil, false_implies, implies_true, and_true]
    at compact ⊢
  obtain ⟨cminute, chour, cday, cmonth, cweekday⟩ := compact
  obtain ⟨groups, hgroups, -⟩ := renders_of_reads cweekday hrenumbered hweekday
  exact ⟨hminute.isWhole cminute, hhour.isWhole chour, hday.isWhole cday, hmonth.isWhole cmonth,
    isWhole_of_renders cweekday hgroups⟩

section Parse

variable [ZoneBook] {expr timezone : String} {s : Schedule}
  (accepted : Schedule.parse expr timezone = .ok s)
include accepted

/-- **Words that hold together are the five fields.** -/
theorem denotes_of_isWhole (whole : ∀ word ∈ words expr.toList, IsWhole word) :
    ∃ m, Denotes expr m := by
  obtain ⟨minute, hour, day, month, weekday, renumbered, hwords, hrenumbered, htables, -⟩ :=
    Schedule.parse_eq_ok accepted
  have isWord : ∀ w ∈ words expr.toList, IsWord w := fun w => isWord_of_mem_words
  rw [hwords] at whole isWord
  obtain ⟨minutes, hours, days, months, weekdays, hminute, hhour, hday, hmonth, hweekday⟩ :=
    reads_of_timetables? isWord whole hrenumbered htables
  exact ⟨⟨minutes, hours, days, months, weekdays, _⟩, minute, hour, day, month, weekday,
    renumbered, hwords, hrenumbered, hminute, hhour, hday, hmonth, hweekday, rfl⟩

/-! ## §3. The layout -/

theorem keepsLayout_of_denotes {m : Meaning} (denotes : Denotes expr m) : s.KeepsLayout expr m where
  timetables := by
    obtain ⟨minute, hour, day, month, weekday, renumbered, hwords, hrenumbered, hminute, hhour,
      hday, hmonth, hweekday, heither⟩ := denotes
    obtain ⟨_, _, _, _, _, _, hwords', hrenumbered', htables, -⟩ := Schedule.parse_eq_ok accepted
    rw [hwords] at hwords'
    cases hwords'
    rw [hrenumbered] at hrenumbered'
    cases hrenumbered'
    rw [timetables?_of_reads hminute hhour hday hmonth hweekday, ← heither] at htables
    exact (Option.some.inj htables).symm
  weekdays := by
    obtain ⟨minute, hour, day, month, weekday, renumbered, hwords, hrenumbered, -, -, -, -,
      hweekday, -⟩ := denotes
    have hmem : weekday ∈ words expr.toList := by
      rw [hwords]
      simp
    obtain ⟨groups, hgroups, hvalues⟩ :=
      renders_of_reads (isWord_of_mem_words hmem).compact hrenumbered hweekday
    exact ⟨weekday, groups, by rw [hwords]; rfl, hgroups, hvalues⟩
  runs t n h := by
    obtain ⟨c, utc, hc, hfirst, rfl⟩ :=
      Schedule.exists_of_nextAfter? (Schedule.ordered_of_parse accepted) h
    refine ⟨utc, rfl, ?_⟩
    rw [hfirst.1]
    exact ((upcoming_iff_meaning accepted denotes t c).mp hc).2.1.1

/-- **An accepted expression keeps its layout exactly if its words hold together**: no word begins
or ends with a joint or falls into two pieces.  Then each word is by itself a complete field of its
own place, the weekday word after renumbering; the values of each field are those of its own word;
every weekday is read in the numbers from 0 to 7; and the schedule runs in full minutes, in all
years. -/
theorem layout_of_parse :
    ((∃ m, Denotes expr m) ↔ ∀ word ∈ words expr.toList, IsWhole word) ∧
      ∀ m, Denotes expr m → s.KeepsLayout expr m := by
  refine ⟨⟨?_, denotes_of_isWhole accepted⟩, ?_⟩
  · rintro ⟨m, denotes⟩
    exact isWhole_of_denotes denotes
  · intro m denotes
    exact keepsLayout_of_denotes accepted denotes

end Parse

section Platform

open Platform

/-- Every quarter of an hour from 9 to 17 o'clock, from Sunday to Friday. -/
theorem layout_of_parse_quarters :
    ∃ s m, Schedule.parse "*/15 9-17 * * 0-5" "Europe/Berlin" = .ok s ∧
      Denotes "*/15 9-17 * * 0-5" m ∧ s.KeepsLayout "*/15 9-17 * * 0-5" m ∧
      m.minutes = [0, 15, 30, 45] ∧ m.weekdays = [1, 2, 3, 4, 5, 6] := by
  have denotes : Denotes "*/15 9-17 * * 0-5" ⟨[0, 15, 30, 45], [9, 10, 11, 12, 13, 14, 15, 16, 17],
      FieldKind.dayOfMonth.all, FieldKind.month.all, [1, 2, 3, 4, 5, 6], false⟩ :=
    ⟨['*', '/', '1', '5'], ['9', '-', '1', '7'], ['*'], ['*'], ['0', '-', '5'], ['1', '-', '6'],
      rfl, rfl, rfl, rfl, rfl, rfl, rfl, rfl⟩
  obtain ⟨s, accepted⟩ : ∃ s, Schedule.parse "*/15 9-17 * * 0-5" "Europe/Berlin" = .ok s := ⟨_, rfl⟩
  exact ⟨s, _, accepted, denotes, (layout_of_parse accepted).2 _ denotes, rfl, rfl⟩

/-- A dash in front of the minutes makes them the end of a range of seconds, and the two stars that
follow are the minutes and the hours. -/
theorem seconds_of_dash : (∃ s table, Schedule.parse "-5 ** * * *" "UTC" = .ok s ∧
    s.timetables = [table] ∧ table.seconds = [0, 1, 2, 3, 4, 5] ∧
    table.minutes = FieldKind.minute.all) ∧ ¬ ∃ m, Denotes "-5 ** * * *" m := by
  refine ⟨⟨_, _, rfl, rfl, rfl, rfl⟩, ?_⟩
  rintro ⟨m, denotes⟩
  exact absurd (isWhole_of_denotes denotes) (by decide)

end Platform

end CronSupervisor.Cron
