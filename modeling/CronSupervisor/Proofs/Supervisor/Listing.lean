/-
  CronSupervisor.Proofs.Supervisor.Listing — what the listing of a supervisor says.

  The listing of a configuration has a row for every job, in ascending order of names: the name, the
  schedule without blanks on its ends, the timezone as it was configured, and the next run.  Rows
  are written as lines, and their cells with tabs between them.  Nothing is escaped, so the rows can
  be read back just if no cell has a tab or a line feed in it.

  Main statements:
    * `readBack_written_iff` — which rows can be read back.
    * `Config.map_columns_statuses` — the rows of a configuration.
    * `Config.readBack_listing_iff` — which listings can be read back.
-/
import CronSupervisor.Proofs.Supervisor.Building
import Mathlib.Data.List.Sort

namespace CronSupervisor

open Calendar Cron Text

/-! ## §1. Rows as text -/

/-- A text that can be a cell: it has no tab and no line feed. -/
def Plain (s : String) : Prop := '\t' ∉ s.toList ∧ '\n' ∉ s.toList

instance (s : String) : Decidable (Plain s) := inferInstanceAs (Decidable (_ ∧ _))

/-- Rows as lines, with tabs between the cells. -/
def written (rows : List (List String)) : String :=
  String.join (rows.map fun row => "\t".intercalate row ++ "\n")

/-- The cells of the lines of a text; what comes after the last line feed is no line. -/
def readBack (text : String) : List (List String) :=
  (splitOn '\n' text.toList).dropLast.map fun line => (splitOn '\t' line).map String.ofList

/-- The characters of a row. -/
def rowChars (row : List String) : List Char := joinWith '\t' (row.map String.toList)

theorem toList_written (rows : List (List String)) :
    (written rows).toList = rows.flatMap fun row => rowChars row ++ ['\n'] := by
  unfold written rowChars
  rw [String.toList_join, List.flatMap_map]
  refine List.flatMap_congr fun row _ => ?_
  rw [String.toList_append, String.toList_intercalate]
  exact congrArg (· ++ ['\n']) (intercalate_eq_joinWith '\t' _)

/-- The lines are those of the rows. -/
theorem splitOn_written {rows : List (List String)}
    (plain : ∀ row ∈ rows, ∀ cell ∈ row, Plain cell) :
    splitOn '\n' (written rows).toList = rows.map rowChars ++ [[]] := by
  rw [toList_written]
  induction rows with
  | nil => rfl
  | cons row rows ih =>
    have hline : '\n' ∉ rowChars row := by
      intro hmem
      rcases mem_joinWith hmem with heq | ⟨p, hp, hc⟩
      · cases heq
      · obtain ⟨cell, hcell, rfl⟩ := List.mem_map.mp hp
        exact (plain row List.mem_cons_self cell hcell).2 hc
    rw [List.flatMap_cons, List.append_assoc, List.singleton_append, splitOn_append hline,
      ih fun r hr => plain r (List.mem_cons_of_mem row hr)]
    rfl

/-- What is read back has no separators in it. -/
theorem plain_of_mem_readBack {text : String} {row : List String} (hrow : row ∈ readBack text)
    {cell : String} (hcell : cell ∈ row) : Plain cell := by
  obtain ⟨line, hline, rfl⟩ := List.mem_map.mp hrow
  obtain ⟨piece, hpiece, rfl⟩ := List.mem_map.mp hcell
  rw [Plain, String.toList_ofList]
  refine ⟨not_mem_of_mem_splitOn hpiece, fun hmem => ?_⟩
  exact not_mem_of_mem_splitOn (List.dropLast_subset _ hline) (mem_of_mem_splitOn hpiece hmem)

/-- The cells are those of the row. -/
theorem map_splitOn_rowChars {row : List String} (filled : row ≠ [])
    (plain : ∀ cell ∈ row, Plain cell) : (splitOn '\t' (rowChars row)).map String.ofList = row := by
  have hcells : ∀ p ∈ row.map String.toList, '\t' ∉ p := by
    intro p hp
    obtain ⟨cell, hcell, rfl⟩ := List.mem_map.mp hp
    exact (plain cell hcell).1
  rw [rowChars, splitOn_joinWith (mt List.map_eq_nil_iff.mp filled) hcells, List.map_map]
  exact (List.map_congr_left fun cell _ => String.ofList_toList).trans (List.map_id row)

/-- **Rows can be read back just if no cell has a tab or a line feed in it.** -/
theorem readBack_written_iff {rows : List (List String)} (filled : ∀ row ∈ rows, row ≠ []) :
    readBack (written rows) = rows ↔ ∀ row ∈ rows, ∀ cell ∈ row, Plain cell := by
  constructor
  · intro h row hrow cell hcell
    rw [← h] at hrow
    exact plain_of_mem_readBack hrow hcell
  · intro plain
    unfold readBack
    rw [splitOn_written plain, List.dropLast_concat, List.map_map]
    refine (List.map_congr_left fun row hrow => ?_).trans (List.map_id rows)
    exact map_splitOn_rowChars (filled row hrow) (plain row hrow)

/-- A line feed between the words of a schedule makes two lines of one. -/
example : readBack (written [["backup", "*/5 *\n* * *", "UTC", "-"]]) =
    [["backup", "*/5 *"], ["* * *", "UTC", "-"]] := by
  decide +kernel

/-! ## §2. Timestamps are plain -/

theorem plain_append {a b : String} : Plain (a ++ b) ↔ Plain a ∧ Plain b := by
  unfold Plain
  rw [String.toList_append, List.mem_append, List.mem_append, not_or, not_or]
  exact and_and_and_comm

/-- A text is plain if all of its characters are digits. -/
theorem plain_of_digits {cs : List Char} (h : ∀ c ∈ cs, c.isDigit = true) :
    Plain (String.ofList cs) := by
  rw [Plain, String.toList_ofList]
  exact ⟨fun hmem => absurd (h _ hmem) (by decide), fun hmem => absurd (h _ hmem) (by decide)⟩

theorem isDigit_of_mem_paddedDigits {width n : Nat} {c : Char} (hc : c ∈ paddedDigits width n) :
    c.isDigit = true := by
  have hdigit : ∀ k < 10, (Char.ofNat (48 + k)).isDigit = true := by decide
  induction width generalizing n with
  | zero => cases hc
  | succ width ih =>
    rcases List.mem_append.mp hc with hc | hc
    · exact ih hc
    · rw [List.mem_singleton.mp hc]
      exact hdigit _ (Nat.mod_lt n (by decide))

theorem plain_padded (width n : Nat) : Plain (padded width n) := by
  unfold padded
  split
  next => exact plain_of_digits fun c hc => isDigit_of_mem_paddedDigits hc
  next => exact plain_of_digits fun c hc => Nat.isDigit_of_mem_toDigits (by decide) (by decide) hc

theorem plain_yearText (y : Int) : Plain (yearText y) := by
  unfold yearText
  split
  next => exact plain_padded 4 _
  next =>
    refine plain_append.mpr ⟨?_, plain_padded 4 _⟩
    split <;> decide

theorem plain_fractionText (nanos : Nat) : Plain (fractionText nanos) := by
  have hpoint : Plain "." := by decide
  unfold fractionText
  split
  next => decide
  next =>
    split
    next => exact plain_append.mpr ⟨hpoint, plain_padded 3 _⟩
    next =>
      split
      next => exact plain_append.mpr ⟨hpoint, plain_padded 6 _⟩
      next => exact plain_append.mpr ⟨hpoint, plain_padded 9 _⟩

theorem plain_offsetText (t : Instant) : Plain t.offsetText := by
  unfold Instant.offsetText Instant.localText
  simp only [plain_append, plain_yearText, plain_padded, plain_fractionText, and_true, true_and]
  decide

/-! ## §3. The rows of a configuration -/

/-- The jobs in ascending order of names. -/
def sortedByName (js : List JobConfig) : List JobConfig :=
  js.mergeSort fun i j => decide (i.name ≤ j.name)

theorem perm_sortedByName (js : List JobConfig) : (sortedByName js).Perm js :=
  List.mergeSort_perm js _

/-- Names that are distinct are in strictly ascending order then. -/
theorem ascending_sortedByName {js : List JobConfig} (distinct : (js.map (·.name)).Nodup) :
    ((sortedByName js).map (·.name)).Pairwise (· < ·) := by
  have hsorted : (sortedByName js).Pairwise fun i j => i.name ≤ j.name := by
    refine (List.pairwise_mergeSort (fun i j k hij hjk => ?_) (fun i j => ?_) js).imp
      of_decide_eq_true
    · exact decide_eq_true (String.le_trans (of_decide_eq_true hij) (of_decide_eq_true hjk))
    · rw [Bool.or_eq_true, decide_eq_true_eq, decide_eq_true_eq]
      exact String.le_total i.name j.name
  have hdistinct := ((perm_sortedByName js).map (·.name)).nodup_iff.mpr distinct
  rw [List.pairwise_map]
  refine (hsorted.and (List.pairwise_map.mp hdistinct)).imp fun h => ?_
  by_contra hnot
  exact h.2 (String.le_antisymm h.1 (String.not_lt.mp hnot))

/-- The order of jobs with distinct names is lost when they are sorted. -/
theorem sortedByName_of_perm {js js' : List JobConfig} (distinct : (js.map (·.name)).Nodup)
    (perm : js'.Perm js) : sortedByName js' = sortedByName js := by
  have hdistinct := (perm.map (·.name)).nodup_iff.mpr distinct
  have hperm := (perm_sortedByName js').trans (perm.trans (perm_sortedByName js).symm)
  have hfirst := List.pairwise_map.mp (ascending_sortedByName hdistinct)
  have hsecond := List.pairwise_map.mp (ascending_sortedByName distinct)
  refine hperm.eq_of_pairwise ?_ hfirst hsecond
  intro i j _ _ hij hji
  exact absurd hji (String.lt_asymm hij)

variable [ZoneBook]

/-- The next run of a job after an instant. -/
def JobConfig.nextRun? (j : JobConfig) (now : Instant) : Option Instant :=
  match Schedule.parse j.schedule j.timezone with
  | .ok schedule => schedule.nextAfter? now
  | .error _ => none

/-- The row of a job: its name, its schedule without blanks on its ends, its timezone as it was
configured, and its next run. -/
def JobConfig.row (j : JobConfig) (now : Instant) : List String :=
  [j.name, trim j.schedule, j.timezone, ((j.nextRun? now).map Instant.offsetText).getD "-"]

/-- Of a row, the next run can always be read back. -/
theorem JobConfig.plain_row_iff {j : JobConfig} {now : Instant} : (∀ cell ∈ j.row now, Plain cell) ↔
    Plain j.name ∧ Plain (trim j.schedule) ∧ Plain j.timezone := by
  have hnext : Plain (((j.nextRun? now).map Instant.offsetText).getD "-") := by
    cases j.nextRun? now with
    | none => decide
    | some t => exact plain_offsetText t
  unfold JobConfig.row
  simp only [List.forall_mem_cons, List.not_mem_nil, false_imp_iff, implies_true, and_true, hnext]

namespace Config

variable [PatternSyntax] [Memory] {clock : Clock} {c : Config} {s : Supervisor}

/-- The names that a supervisor knows are those of its jobs, in ascending order. -/
theorem names_of_prepare (h : c.prepare clock = .ok s) :
    s.scheduler.names = (sortedByName c.jobs).map (·.name) := by
  refine List.Pairwise.eq_of_mem_iff (registers_of_prepare h).linked.sorted
    (ascending_sortedByName (added_of_prepare h).1.distinct) fun name => ?_
  rw [mem_names_of_prepare h, List.mem_map]
  exact exists_congr fun j => and_congr_left' (perm_sortedByName c.jobs).mem_iff.symm

/-- What is reported about a job after its registration. -/
theorem columns_of_prepare (h : c.prepare clock = .ok s) {j : JobConfig} (hj : j ∈ c.jobs) :
    (s.scheduler.refreshAll.find? j.name).map (fun w => Supervisor.columns w.job.status) =
      some (j.row clock.now) := by
  obtain ⟨schedule, number, id, hparse, hold⟩ :=
    (registers_of_prepare h).new j.registration (List.mem_map_of_mem hj)
  have hrow : j.row clock.now = [j.name, schedule.expression, j.timezone,
      ((schedule.nextAfter? clock.now).map Instant.offsetText).getD "-"] := by
    unfold JobConfig.row JobConfig.nextRun?
    rw [show Schedule.parse j.schedule j.timezone = .ok schedule from hparse,
      Schedule.expression_of_parse hparse]
    rfl
  have hfind : s.scheduler.refreshAll.find? j.name = _ :=
    (Scheduler.find?_of_number? hold.refreshAll.number_eq).trans hold.refreshAll.worker_eq
  rw [hfind, Scheduler.next_entryAt, hrow]
  rfl

/-- **The rows of a configuration are those of its jobs**, in ascending order of names. -/
theorem map_columns_statuses (h : c.prepare clock = .ok s) :
    s.statuses.map Supervisor.columns = (sortedByName c.jobs).map (·.row clock.now) := by
  have hnames : s.scheduler.refreshAll.names = (sortedByName c.jobs).map (·.name) := by
    obtain ⟨workers, heq⟩ := s.scheduler.refreshAll_eq
    rw [heq]
    exact names_of_prepare h
  unfold Supervisor.statuses
  rw [List.map_map, (registers_of_prepare h).linked.refreshAll.map_registered, hnames,
    List.filterMap_map, ← List.filterMap_eq_map]
  refine List.filterMap_congr fun j hj => ?_
  exact columns_of_prepare h ((perm_sortedByName c.jobs).mem_iff.mp hj)

/-- The listing has these rows as lines. -/
theorem listing_eq_written (h : c.prepare clock = .ok s) :
    s.listing = written ((sortedByName c.jobs).map (·.row clock.now)) := by
  rw [← map_columns_statuses h, written, List.map_map]
  rfl

/-- A file is listed just if it writes a configuration that can be prepared. -/
theorem check_eq_ok_iff {file : Option (List UInt8)} (hfile : parsed file = .ok c)
    {listing : String} :
    check clock file = .ok listing ↔ ∃ s, c.prepare clock = .ok s ∧ s.listing = listing := by
  rw [check_eq_of_parsed hfile]
  cases c.prepare clock with
  | error e => exact iff_of_false nofun nofun
  | ok s =>
    show Except.ok s.listing = Except.ok listing ↔ _
    rw [Except.ok.injEq]
    constructor
    · exact fun h => ⟨s, rfl, h⟩
    · rintro ⟨_, h, hlisting⟩
      cases h
      exact hlisting

/-- **A listing says of every job what is configured, but it can be read back only if that has no
tabs and no line feeds in it.**  There is a row of four cells for every job, in ascending order of
names.  Nothing keeps tabs and line feeds out of names, of the blanks between the words of a
schedule and of those around a timezone; where there is one, the row takes more than a line or more
than four columns. -/
theorem readBack_listing_iff (clock : Clock) (c : Config) :
    (∀ file, parsed file = .ok c → ∀ listing, check clock file = .ok listing ↔
      ∃ s, c.prepare clock = .ok s ∧ s.listing = listing) ∧
    ∀ s, c.prepare clock = .ok s →
      let jobs := sortedByName c.jobs
      jobs.Perm c.jobs ∧ (jobs.map (·.name)).Pairwise (· < ·) ∧
      s.listing = written (jobs.map (·.row clock.now)) ∧
      (readBack s.listing = jobs.map (·.row clock.now) ↔
        ∀ j ∈ c.jobs, Plain j.name ∧ Plain (trim j.schedule) ∧ Plain j.timezone) := by
  refine ⟨fun file hfile listing => check_eq_ok_iff hfile, fun s hs =>
    ⟨perm_sortedByName c.jobs, ascending_sortedByName (added_of_prepare hs).1.distinct,
      listing_eq_written hs, ?_⟩⟩
  have hfilled : ∀ row ∈ (sortedByName c.jobs).map (·.row clock.now), row ≠ [] := by
    intro row hrow
    obtain ⟨j, -, rfl⟩ := List.mem_map.mp hrow
    exact List.cons_ne_nil _ _
  rw [listing_eq_written hs, readBack_written_iff hfilled, List.forall_mem_map]
  exact forall_congr' fun j => imp_congr (perm_sortedByName c.jobs).mem_iff JobConfig.plain_row_iff

end Config

end CronSupervisor
