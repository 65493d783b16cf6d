/-
  CronSupervisor.Proofs.History.Figures — what the figures of a history say about its entries.

  The figures sort the kept entries into running ones, successes and failures, and draw the share,
  the mean and the times from the closed ones.  An entry is sorted by what it shows now, so it does
  not matter in which order entries were closed, whether they were closed again, and what the clock
  showed.  The mean is exact as long as the number of closed entries fits its 32-bit divisor, which
  a capacity below that guarantees.

  Main statements:
    * `isGreatest_latestEnd` — the time of the last end.
    * `successRate_stats` — the two ways to the share of successes agree.
    * `averageDuration_stats` — the mean, with its narrow divisor.
    * `figures_of_run` — all figures, for every capacity and every order of requests.
-/
import CronSupervisor.Proofs.History.Log
import Mathlib.Order.Bounds.Basic

namespace CronSupervisor

open Calendar

/-! ## §1. Classes of entries -/

namespace Entry

/-- Closed as a success. -/
def succeeded (e : Entry) : Bool := e.success && !e.isRunning

/-- Closed as a failure. -/
def failed (e : Entry) : Bool := !e.success && !e.isRunning

/-- How long a closed entry took; a clock that was set back yields zero. -/
def nanosTaken? (e : Entry) : Option Nat :=
  e.endTime.map fun t => (t.nanos - e.startTime.nanos).toNat

/-- **Every entry is in one class.** -/
theorem classes (e : Entry) : (if e.succeeded then 1 else 0) + (if e.failed then 1 else 0)
    + (if e.isRunning then 1 else 0) = 1 := by
  unfold succeeded failed
  cases e.isRunning <;> cases e.success <;> rfl

/-- A closed entry is a success or a failure. -/
theorem closed_eq (e : Entry) : (if !e.isRunning then 1 else 0)
    = (if e.succeeded then 1 else 0) + (if e.failed then 1 else 0) := by
  unfold succeeded failed
  cases e.isRunning <;> cases e.success <;> rfl

end Entry

namespace History

/-- How many entries are closed. -/
def closedCount (es : List Entry) : Nat := es.countP (·.succeeded) + es.countP (·.failed)

theorem closedCount_add_running (es : List Entry) :
    closedCount es + es.countP (·.isRunning) = es.length := by
  unfold closedCount
  induction es with
  | nil => rfl
  | cons e es ih =>
    have hone := e.classes
    simp only [List.countP_cons, List.length_cons]
    omega

theorem length_closed (es : List Entry) :
    (es.filter (!·.isRunning)).length = closedCount es := by
  unfold closedCount
  rw [← List.countP_eq_length_filter]
  induction es with
  | nil => rfl
  | cons e es ih =>
    have hone := e.closed_eq
    simp only [List.countP_cons]
    omega

theorem length_succeeded (es : List Entry) :
    ((es.filter (!·.isRunning)).filter (·.success)).length = es.countP (·.succeeded) := by
  rw [List.filter_filter, ← List.countP_eq_length_filter]
  rfl

theorem length_failed (es : List Entry) :
    ((es.filter (!·.isRunning)).filter (!·.success)).length = es.countP (·.failed) := by
  rw [List.filter_filter, ← List.countP_eq_length_filter]
  rfl

/-! ## §2. Times -/

/-- The ends of the entries of one kind. -/
def ends (p : Entry → Bool) (es : List Entry) : Set Instant :=
  {t | ∃ e ∈ es, p e = true ∧ e.endTime = some t}

theorem latestEnd_eq_none_iff {es : List Entry} :
    latestEnd es = none ↔ ∀ e ∈ es, e.endTime = none := by
  induction es with
  | nil => exact iff_of_true rfl nofun
  | cons e es ih =>
    rw [List.forall_mem_cons, ← ih]
    show latest (latestEnd es) e.endTime = none ↔ _
    cases latestEnd es <;> cases e.endTime <;> simp [latest]

theorem le_later (a b : Instant) : a ≤ a.later b ∧ b ≤ a.later b := by
  unfold Instant.later
  simp only [Instant.le_iff]
  split <;> omega

/-- **The time of the last end** is the greatest end. -/
theorem isGreatest_latestEnd {es : List Entry} {t : Instant} (h : latestEnd es = some t) :
    IsGreatest {x | ∃ e ∈ es, e.endTime = some x} t := by
  induction es generalizing t with
  | nil => cases h
  | cons e es ih =>
    change latest (latestEnd es) e.endTime = some t at h
    cases hes : latestEnd es with
    | none =>
      -- the other entries have no ends
      have hothers := latestEnd_eq_none_iff.mp hes
      rw [hes] at h
      refine ⟨⟨e, List.mem_cons_self, h⟩, ?_⟩
      rintro x ⟨o, ho, hx⟩
      rcases List.mem_cons.mp ho with rfl | ho
      · cases h.symm.trans hx
        exact Int.le_refl _
      · rw [hothers o ho] at hx
        cases hx
    | some b =>
      obtain ⟨⟨o, ho, hb⟩, hle⟩ := ih hes
      cases he : e.endTime with
      | none =>
        rw [hes, he] at h
        cases h
        refine ⟨⟨o, List.mem_cons_of_mem _ ho, hb⟩, ?_⟩
        rintro x ⟨y, hy, hx⟩
        rcases List.mem_cons.mp hy with rfl | hy
        · rw [he] at hx
          cases hx
        · exact hle ⟨y, hy, hx⟩
      | some a =>
        rw [hes, he] at h
        cases h
        obtain ⟨hba, hab⟩ := le_later b a
        constructor
        · unfold Instant.later
          split
          · exact ⟨e, List.mem_cons_self, he⟩
          · exact ⟨o, List.mem_cons_of_mem _ ho, hb⟩
        · rintro x ⟨y, hy, hx⟩
          rcases List.mem_cons.mp hy with rfl | hy
          · cases he.symm.trans hx
            exact hab
          · exact Int.le_trans (hle ⟨y, hy, hx⟩) hba

/-- Among entries of one kind, it is the greatest of their ends, and absent if they have none. -/
theorem latestEnd_filter (p : Entry → Bool) (es : List Entry) :
    (∀ t, latestEnd ((es.filter (!·.isRunning)).filter p) = some t → IsGreatest (ends p es) t) ∧
      (latestEnd ((es.filter (!·.isRunning)).filter p) = none ↔ ends p es = ∅) := by
  have hmem : ∀ x, (∃ e ∈ (es.filter (!·.isRunning)).filter p, e.endTime = some x) ↔
      x ∈ ends p es := by
    intro x
    constructor
    · rintro ⟨e, he, hx⟩
      rw [List.mem_filter, List.mem_filter] at he
      exact ⟨e, he.1.1, he.2, hx⟩
    · rintro ⟨e, he, hp, hx⟩
      refine ⟨e, List.mem_filter.mpr ⟨List.mem_filter.mpr ⟨he, ?_⟩, hp⟩, hx⟩
      unfold Entry.isRunning
      rw [hx]
      rfl
  constructor
  · intro t h
    rw [← show {x | ∃ e ∈ (es.filter (!·.isRunning)).filter p, e.endTime = some x} = ends p es
      from Set.ext hmem]
    exact isGreatest_latestEnd h
  · rw [latestEnd_eq_none_iff, Set.eq_empty_iff_forall_notMem]
    constructor
    · intro h x hx
      obtain ⟨e, he, hend⟩ := (hmem x).mpr hx
      rw [h e he] at hend
      cases hend
    · intro h e he
      refine Option.eq_none_iff_forall_ne_some.mpr fun x hx => ?_
      exact h x ((hmem x).mp ⟨e, he, hx⟩)

/-! ## §3. The share and the mean -/

/-- **The two ways to the share of successes agree.** -/
theorem successRate_stats (h : History) : h.stats.successRate = h.successRate := by
  have hcount : (h.entries.filter (!·.isRunning)).countP (·.success)
      = h.entries.countP (·.succeeded) := List.countP_filter
  unfold stats successRate
  simp only [length_succeeded, length_failed, length_closed, hcount]
  rfl

/-- The nanoseconds that closed entries took. -/
def nanosTaken (es : List Entry) : Nat := (es.filterMap (·.nanosTaken?)).foldr (· + ·) 0

theorem total_eq (es : List Entry) :
    ((es.filter (!·.isRunning)).map fun e => (e.duration e.startTime).nanos).foldr (· + ·) 0
      = nanosTaken es := by
  unfold nanosTaken
  induction es with
  | nil => rfl
  | cons e es ih =>
    cases he : e.endTime with
    | none =>
      have hrunning : e.isRunning = true := congrArg Option.isNone he
      have htaken : e.nanosTaken? = none := congrArg (Option.map _) he
      rw [List.filterMap_cons_none htaken, List.filter_cons_of_neg (by simp [hrunning])]
      exact ih
    | some t =>
      have hclosed : e.isRunning = false := congrArg Option.isNone he
      have htaken : e.nanosTaken? = some (e.duration e.startTime).nanos := by
        unfold Entry.nanosTaken? Entry.duration
        rw [he]
        rfl
      rw [List.filterMap_cons_some htaken, List.filter_cons_of_pos (by simp [hclosed]),
        List.map_cons, List.foldr_cons, List.foldr_cons, ih]

/-- The mean, with a divisor that keeps 32 bits of the number of closed entries. -/
theorem averageDuration_stats (h : History) : h.stats.averageDuration
    = ⟨nanosTaken h.entries / (closedCount h.entries % Nat.pow 2 32)⟩ := by
  unfold stats
  simp only [total_eq, length_closed]
  split
  next hempty =>
    rw [List.isEmpty_iff_length_eq_zero, length_closed] at hempty
    rw [hempty]
    simp
  next => rfl

/-- **The mean is exact where the capacity keeps the divisor from wrapping**, and the divisor is
not zero then. -/
theorem averageDuration_of_capacity {capacity : Nat} {h : History} {l : Log}
    (hs : Shows capacity h l) (fits : capacity < Nat.pow 2 32) :
    closedCount h.entries % Nat.pow 2 32 = closedCount h.entries := by
  have hle : closedCount h.entries ≤ capacity := by
    have hsize := hs.size_eq
    have hclasses := closedCount_add_running h.entries
    unfold size at hsize
    omega
  exact Nat.mod_eq_of_lt (Nat.lt_of_le_of_lt hle fits)

/-! ## §4. Every capacity, every order of requests -/

/-- **The figures agree with the kept entries**, whatever was opened and closed at whatever readings
of the clock.  The three counts add up to the length, since every entry is in one class; the share
is that of `successRate`; the times are the start of the newest entry and the greatest ends; and the
mean is exact if the capacity is below 2 ^ 32. -/
theorem figures_of_run (size : Nat) (requests : List (Instant × Request)) :
    let h := ((empty size).respondAll requests).1
    let s := h.stats
    -- counts
    s.totalExecutions = h.size ∧
    s.successCount = h.entries.countP (·.succeeded) ∧
    s.failureCount = h.entries.countP (·.failed) ∧
    s.runningCount = h.entries.countP (·.isRunning) ∧
    s.successCount + s.failureCount + s.runningCount = s.totalExecutions ∧
    s.droppedCompletions = h.droppedCompletions ∧
    -- the share and the mean
    s.successRate = h.successRate ∧
    s.successRate = percentage s.successCount (s.successCount + s.failureCount) ∧
    (max size 1 < Nat.pow 2 32 →
      s.averageDuration = ⟨nanosTaken h.entries / (s.successCount + s.failureCount)⟩) ∧
    (s.successCount + s.failureCount = 0 → s.successRate = 0.0 ∧ s.averageDuration = ⟨0⟩) ∧
    -- times
    s.lastExecutionTime = h.last?.map (·.startTime) ∧
    (∀ t, s.lastSuccessTime = some t → IsGreatest (ends (·.success) h.entries) t) ∧
    (s.lastSuccessTime = none ↔ ends (·.success) h.entries = ∅) ∧
    (∀ t, s.lastFailureTime = some t → IsGreatest (ends (!·.success) h.entries) t) ∧
    (s.lastFailureTime = none ↔ ends (!·.success) h.entries = ∅) := by
  intro h s
  have hshows : Shows (max size 1) h (Log.applyAll [] requests) :=
    respondAll_shows (.empty size) requests
  have hsuccess : s.successCount = h.entries.countP (·.succeeded) := length_succeeded h.entries
  have hfailure : s.failureCount = h.entries.countP (·.failed) := length_failed h.entries
  have hclosed : s.successCount + s.failureCount = closedCount h.entries := by
    rw [hsuccess, hfailure]
    rfl
  have hmean : s.averageDuration
      = ⟨nanosTaken h.entries / (closedCount h.entries % Nat.pow 2 32)⟩ := averageDuration_stats h
  have hsucceeded := latestEnd_filter (·.success) h.entries
  have hfailed := latestEnd_filter (!·.success) h.entries
  refine ⟨rfl, hsuccess, hfailure, rfl, ?_, rfl, successRate_stats h, rfl, fun fits => ?_,
    fun hzero => ⟨if_pos hzero, ?_⟩, ?_, hsucceeded.1, hsucceeded.2, hfailed.1, hfailed.2⟩
  · rw [hclosed]
    exact closedCount_add_running h.entries
  · rw [hmean, hclosed, averageDuration_of_capacity hshows fits]
  · rw [hmean, ← hclosed, hzero]
    simp
  · rfl

end History

end CronSupervisor
