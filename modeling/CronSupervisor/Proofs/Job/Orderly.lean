/-
  CronSupervisor.Proofs.Job.Orderly — the executions of a job follow one another.

  Between the moments at which something is done to a job only its executor acts, and `settle`
  accounts for that.  `Orderly` says what a job is like at a moment: its records agree, the
  execution under way is not overdue, nothing is recorded ahead of time, and every execution was
  started when the ones before it had ended.  What was recorded at the start of an execution is
  never changed, so `beginnings` tells which triggers were accepted.

  Main statements:
    * `Orderly.settle`, `Orderly.accept` — time passes, and a trigger is accepted.
    * `beginnings_settle`, `beginnings_launch` — only an accepted trigger adds a beginning.
    * `tick_of_idle`, `tick_of_not_idle` — what a scheduled trigger does.
-/
import CronSupervisor.Proofs.Clock
import CronSupervisor.Proofs.Job.Account

namespace CronSupervisor

open Calendar

/-! ## §1. Beginnings -/

/-- What is recorded at the start of an execution, newest first: its identifier, when it started
and what started it. -/
def History.beginnings (h : History) : List (Int × Instant × Trigger) :=
  h.entries.map fun e => (e.id, e.startTime, e.trigger)

theorem History.beginnings_finish (h : History) (now : Instant) (id exitCode : Int)
    (success : Bool) (error : String) :
    (h.finish now id exitCode success error).beginnings = h.beginnings :=
  h.map_finish now id exitCode success error fun _ => rfl

theorem History.beginnings_start (h : History) (now : Instant) (trigger : Trigger) :
    (h.start now trigger).beginnings =
      (h.nextId, now, trigger) :: h.beginnings.take (h.capacity - 1) := by
  unfold History.beginnings
  rw [h.entries_start, List.map_cons, List.map_take]
  rfl

/-- Nothing is recorded ahead of time, and no entry ends before its start. -/
def History.Past (h : History) (now : Instant) : Prop :=
  ∀ e ∈ h.entries, e.startTime ≤ now ∧ ∀ d, e.endTime = some d → e.startTime ≤ d ∧ d ≤ now

/-- Every entry starts when the ones before it have ended. -/
def History.Apart (h : History) : Prop :=
  h.entries.Pairwise fun newer older => ∃ d, older.endTime = some d ∧ d ≤ newer.startTime

theorem History.Past.mono {h : History} {a b : Instant} (past : h.Past a) (hab : a ≤ b) :
    h.Past b := by
  intro e he
  obtain ⟨hstart, hend⟩ := past e he
  exact ⟨Int.le_trans hstart hab, fun d hd => ⟨(hend d hd).1, Int.le_trans (hend d hd).2 hab⟩⟩

namespace Job

/-! ## §2. Orderly jobs -/

/-- What a job is like at a moment. -/
structure Orderly (j : Job) (c : Clock) : Prop where
  inStep : InStep j
  timely : ∀ run, j.gate = some run → c.elapsed ≤ run.due
  past : j.history.Past c.now
  apart : j.history.Apart

variable {j : Job} {c c' : Clock} {cancelled : List Scope}

theorem orderly_create (name : String) (schedule : Cron.Schedule) (timezone : String)
    (historySize : Nat) (timeout : Option Nat) (maxConcurrent : Nat) (c : Clock) :
    (create name schedule timezone historySize timeout maxConcurrent).Orderly c where
  inStep := inStep_create _ _ _ _ _ _
  timely := nofun
  past := nofun
  apart := .nil

namespace Orderly

/-- What a job knows of its entry and its next run is no part of that. -/
theorem relabel (h : j.Orderly c) (entry : Option Nat) (nextRun : Option Instant) :
    ({ j with entry, nextRun } : Job).Orderly c where
  inStep := ⟨h.inStep.gate_eq, h.inStep.executing_iff, h.inStep.running, h.inStep.quiet,
    h.inStep.lastRun_eq, h.inStep.dropped_eq⟩
  timely := h.timely
  past := h.past
  apart := h.apart

theorem pause (h : j.Orderly c) {j' : Job} (hp : j.pause = .ok j') : j'.Orderly c := by
  unfold Job.pause at hp
  split at hp
  next => cases hp
  next =>
    cases hp
    exact h
  next idle =>
    cases hp
    exact ⟨h.inStep.pause idle, h.timely, h.past, h.apart⟩

theorem resume (h : j.Orderly c) {j' : Job} (hp : j.resume = .ok j') : j'.Orderly c := by
  unfold Job.resume at hp
  split at hp
  next paused =>
    cases hp
    exact ⟨h.inStep.resume paused, h.timely, h.past, h.apart⟩
  next => cases hp

/-- **A job stays orderly when its execution ends**, now or since the last moment. -/
theorem concluded (h : j.Orderly c) (hc : c.Goes c') {run : Run} (held : j.gate = some run)
    {now : Instant} (since : c.now ≤ now) (before : now ≤ c'.now) (ending : Ending) :
    (j.concluded now run.execution ending).Orderly c' := by
  obtain ⟨e, older, hentries, hid, -, -⟩ := h.inStep.head_of_held held
  have hfinish := fun a b d => History.finish_head hentries now a b d
  rw [hid] at hfinish
  have hpast := h.past.mono hc.now_le
  have hapart := h.apart
  have hstart := (h.past e (hentries ▸ List.mem_cons_self)).1
  unfold History.Apart at hapart
  rw [hentries, List.pairwise_cons] at hapart
  refine ⟨h.inStep.concluded held now ending, nofun, ?_, ?_⟩
  · show (j.history.finish _ _ _ _ _).Past c'.now
    rw [hfinish]
    intro o ho
    rcases List.mem_cons.mp ho with rfl | ho
    · refine ⟨Int.le_trans hstart hc.now_le, fun d hd => ?_⟩
      cases hd
      exact ⟨Int.le_trans hstart since, before⟩
    · exact hpast o (hentries ▸ List.mem_cons_of_mem _ ho)
  · show (j.history.finish _ _ _ _ _).Apart
    rw [hfinish]
    exact List.pairwise_cons.mpr hapart

/-- **A job stays orderly while time passes.** -/
theorem settle (h : j.Orderly c) (hc : c.Goes c') (cancelled : List Scope) :
    (j.settle c' cancelled).Orderly c' := by
  cases hg : j.gate with
  | none =>
    rw [settle_of_free hg]
    refine ⟨h.inStep, fun run hrun => ?_, h.past.mono hc.now_le, h.apart⟩
    cases hg.symm.trans hrun
  | some run =>
    cases ht : run.endTime? cancelled c'.elapsed with
    | none =>
      rw [settle_of_running hg ht]
      refine ⟨h.inStep, fun run' hrun => ?_, h.past.mono hc.now_le, h.apart⟩
      cases hg.symm.trans hrun
      exact Nat.le_of_lt (Run.lt_due_of_endTime?_eq_none ht)
    | some t =>
      -- it returned at a time that is neither before the last moment nor after this one
      obtain ⟨hle, hwhen⟩ := Run.endTime?_eq_some ht
      have hdue := h.timely run hg
      have hfrom : c.elapsed ≤ t := by
        rcases hwhen with rfl | rfl
        · exact hdue
        · exact hc.2
      have hsince : c.now ≤ c'.instantAt t := by
        rw [hc.instantAt_eq]
        exact Clock.instantAt_le hfrom
      have huntil : c'.instantAt t ≤ c'.now := Clock.instantAt_le hle
      rw [settle_of_returned hg ht, finish_eq_concluded]
      exact h.concluded hc hg hsince huntil _

/-- **A job stays orderly when an execution is opened.** -/
theorem begin (h : j.Orderly c) (free : j.refusal? = none) (tag : Trigger) {run : Int → Run}
    (named : ∀ id, (run id).execution = id) (later : ∀ id, c.elapsed ≤ (run id).due) :
    (j.begin c.now tag run).Orderly c := by
  have hentries := j.history.entries_start c.now tag
  refine ⟨h.inStep.begin free c.now tag named, fun run' hrun => ?_, ?_, ?_⟩
  · cases hrun
    exact later _
  · show (j.history.start c.now tag).Past c.now
    intro e he
    rw [hentries] at he
    rcases List.mem_cons.mp he with rfl | he
    · exact ⟨Int.le_refl _, nofun⟩
    · exact h.past e (List.mem_of_mem_take he)
  · show (j.history.start c.now tag).Apart
    unfold History.Apart
    rw [hentries, List.pairwise_cons]
    refine ⟨fun o ho => ?_, h.apart.sublist (List.take_sublist _ _)⟩
    -- the gate was free, so all older executions have ended
    have ho := List.mem_of_mem_take ho
    have hquiet := h.inStep.quiet
      (h.inStep.current_eq_none (refusal?_eq_none_iff.mp free).1) o ho
    unfold Entry.isRunning at hquiet
    cases hd : o.endTime with
    | none =>
      rw [hd] at hquiet
      cases hquiet
    | some d => exact ⟨d, rfl, ((h.past o ho).2 d hd).2⟩

end Orderly

theorem beginnings_settle (j : Job) (c : Clock) (cancelled : List Scope) :
    (j.settle c cancelled).history.beginnings = j.history.beginnings := by
  unfold settle
  split
  next =>
    split
    next => exact History.beginnings_finish _ _ _ _ _ _
    next => rfl
  next => rfl

theorem lastRun_settle (j : Job) (c : Clock) (cancelled : List Scope) :
    (j.settle c cancelled).lastRun = j.lastRun := by
  unfold settle
  split
  next => split <;> rfl
  next => rfl

/-- What had to return has returned. -/
theorem settle_settle (j : Job) (c : Clock) (cancelled : List Scope) :
    (j.settle c cancelled).settle c cancelled = j.settle c cancelled := by
  cases hg : (j.settle c cancelled).gate with
  | none => exact settle_of_free hg
  | some run =>
    cases hj : j.gate with
    | none =>
      rw [settle_of_free hj]
      exact settle_of_free hj
    | some r =>
      cases ht : r.endTime? cancelled c.elapsed with
      | none => rw [settle_of_running hj ht, settle_of_running hj ht]
      | some t =>
        rw [settle_of_returned hj ht] at hg
        cases hg

end Job

/-! ## §3. Triggers -/

namespace Worker

variable {w : Worker} {c : Clock} {cancelled : List Scope} {calls : CallLog}

/-- An accepted trigger opens an execution. -/
theorem accept_eq_ok {tag : Trigger} {context : Context} {w' : Worker} {calls' : CallLog}
    (h : w.accept c calls tag context = .ok (w', calls')) :
    w.job.refusal? = none ∧ ∃ run : Int → Run, (∀ id, (run id).execution = id) ∧
      ((∀ d, context.deadline = some d → c.elapsed ≤ d) → ∀ id, c.elapsed ≤ (run id).due) ∧
      w' = { w with job := w.job.begin c.now tag run } := by
  unfold accept at h
  split at h
  next => cases h
  next free =>
    cases h
    refine ⟨free, _, fun _ => rfl, fun hd id => ?_, rfl⟩
    exact Behaviour.le_due_run _ (w.le_deadline_bounds c hd) id

/-- A trigger that is launched is accepted, and what takes no time is done at once. -/
theorem launch_eq_ok {tag : Trigger} {context : Context} {w' : Worker} {calls' : CallLog}
    (h : w.launch c cancelled calls tag context = .ok (w', calls')) :
    ∃ started, w.accept c calls tag context = .ok (started, calls') ∧
      w' = started.settle c cancelled := by
  unfold launch at h
  split at h
  next started calls'' ha =>
    cases h
    exact ⟨started, ha, rfl⟩
  next => cases h

theorem launch_of_refusal {error : JobError} (h : w.job.refusal? = some error) (tag : Trigger)
    (context : Context) : w.launch c cancelled calls tag context = .error error := by
  unfold launch accept
  rw [h]

theorem launch_of_free (free : w.job.refusal? = none) (c : Clock) (cancelled : List Scope)
    (calls : CallLog) (tag : Trigger) (context : Context) : ∃ w' calls',
      w.launch c cancelled calls tag context = .ok (w', calls') := by
  unfold launch accept
  rw [free]
  exact ⟨_, _, rfl⟩

/-- **What an accepted trigger adds**: one beginning, now, at the expense of the oldest. -/
theorem beginnings_launch {tag : Trigger} {context : Context} {w' : Worker} {calls' : CallLog}
    (h : w.launch c cancelled calls tag context = .ok (w', calls')) :
    w'.job.history.beginnings = (w.job.history.nextId, c.now, tag) ::
        w.job.history.beginnings.take (w.job.history.capacity - 1) ∧
      w'.job.lastRun = some c.now := by
  obtain ⟨started, ha, rfl⟩ := launch_eq_ok h
  obtain ⟨-, run, -, -, rfl⟩ := accept_eq_ok ha
  refine ⟨?_, ?_⟩
  · show ((w.job.begin c.now tag run).settle c cancelled).history.beginnings = _
    rw [Job.beginnings_settle]
    exact w.job.history.beginnings_start c.now tag
  · show ((w.job.begin c.now tag run).settle c cancelled).lastRun = _
    rw [Job.lastRun_settle]
    rfl

theorem orderly_launch (hw : w.job.Orderly c) {tag : Trigger} {context : Context}
    (hd : ∀ d, context.deadline = some d → c.elapsed ≤ d) {w' : Worker} {calls' : CallLog}
    (h : w.launch c cancelled calls tag context = .ok (w', calls')) : w'.job.Orderly c := by
  obtain ⟨started, ha, rfl⟩ := launch_eq_ok h
  obtain ⟨free, run, named, later, rfl⟩ := accept_eq_ok ha
  exact (hw.begin free tag named (later hd)).settle (.refl c) cancelled

/-! ### Scheduled triggers -/

/-- **A scheduled trigger is accepted by an idle job.** -/
theorem tick_of_idle (hw : (w.settle c cancelled).job.Orderly c)
    (idle : (w.settle c cancelled).job.state = .idle) (calls : CallLog) :
    ∃ calls', (w.settle c cancelled).launch c cancelled calls .schedule .background =
      .ok ((w.tick c cancelled calls).1, calls') := by
  obtain ⟨w', calls', hl⟩ := launch_of_free (hw.inStep.refusal?_eq_none.mpr idle) c cancelled calls
    .schedule .background
  refine ⟨calls', ?_⟩
  simp only [tick, hl]

/-- **A scheduled trigger that is not accepted leaves nothing behind.** -/
theorem tick_of_not_idle (hw : (w.settle c cancelled).job.Orderly c)
    (busy : (w.settle c cancelled).job.state ≠ .idle) (calls : CallLog) :
    w.tick c cancelled calls = (w.settle c cancelled, calls) := by
  cases hr : (w.settle c cancelled).job.refusal? with
  | none => exact absurd (hw.inStep.refusal?_eq_none.mp hr) busy
  | some error =>
    simp only [tick, launch_of_refusal hr]

theorem orderly_tick {c' : Clock} (hw : w.job.Orderly c) (hc : c.Goes c') (cancelled : List Scope)
    (calls : CallLog) :
    (w.tick c' cancelled calls).1.job.Orderly c' := by
  have hs : (w.settle c' cancelled).job.Orderly c' := hw.settle hc cancelled
  by_cases idle : (w.settle c' cancelled).job.state = .idle
  · obtain ⟨calls', hl⟩ := tick_of_idle hs idle calls
    refine orderly_launch hs (fun d hd => ?_) hl
    cases hd
  · rw [tick_of_not_idle hs idle]
    exact hs

end Worker

end CronSupervisor
