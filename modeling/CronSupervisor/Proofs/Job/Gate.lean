/-
  CronSupervisor.Proofs.Job.Gate — gate, state, current execution and history stay in step.

  A job keeps the same fact in four places: the gate is held, the state is executing, there is a
  current execution, and an entry of the history is running.  The invariant `InStep` says that the
  four agree in every life, and with it that the running entry is the newest.  This is why a history
  of capacity one never loses the end of an execution.

  Main statements:
    * `run_inStep` — the invariant holds throughout a life that starts with a new job.
    * `leaves_paused`, `leaves_executing` — the only events that end the two states.
    * `records_agree` — all of it for new jobs, and that sessions are such lives.
-/
import CronSupervisor.Proofs.Job.Requests

namespace CronSupervisor.Job

open Calendar

/-! ## §1. The invariant -/

/-- The records that a job keeps of its execution tell the same. -/
structure InStep (j : Job) : Prop where
  /-- The gate is held by the current execution. -/
  gate_eq : j.gate.map (·.execution) = j.current
  executing_iff : j.state = .executing ↔ j.current.isSome = true
  /-- The current execution is the newest entry, and the only one that is running. -/
  running : ∀ id, j.current = some id → ∃ e older, j.history.entries = e :: older ∧ e.id = id ∧
    e.isRunning = true ∧ ∀ o ∈ older, o.isRunning = false
  quiet : j.current = none → ∀ e ∈ j.history.entries, e.isRunning = false
  lastRun_eq : j.lastRun = j.history.last?.map (·.startTime)
  dropped_eq : j.history.droppedCompletions = 0

theorem inStep_create (name : String) (schedule : Cron.Schedule) (timezone : String)
    (historySize : Nat) (timeout : Option Nat) (maxConcurrent : Nat) :
    InStep (create name schedule timezone historySize timeout maxConcurrent) where
  gate_eq := rfl
  executing_iff := by simp [create]
  running := by simp [create]
  quiet := by simp [create, History.empty]
  lastRun_eq := rfl
  dropped_eq := rfl

/-- A trigger is accepted when the gate is free and the job is idle. -/
theorem refusal?_eq_none_iff {j : Job} : j.refusal? = none ↔ j.gate = none ∧ j.state = .idle := by
  unfold refusal?
  cases hg : j.gate with
  | some run => simp
  | none => cases hs : j.state <;> simp

namespace InStep

variable {j : Job}

theorem current_eq_none (h : InStep j) (free : j.gate = none) : j.current = none := by
  rw [← h.gate_eq, free]
  rfl

theorem current_eq_some (h : InStep j) {run : Run} (held : j.gate = some run) :
    j.current = some run.execution := by
  rw [← h.gate_eq, held]
  rfl

/-- The gate is free whenever the job is not executing. -/
theorem gate_eq_none (h : InStep j) (idle : j.state ≠ .executing) : j.gate = none := by
  cases hg : j.gate with
  | none => rfl
  | some run =>
    have hc := h.current_eq_some hg
    exact absurd (h.executing_iff.mpr (by rw [hc]; rfl)) idle

theorem refusal?_eq_none (h : InStep j) : j.refusal? = none ↔ j.state = .idle := by
  rw [refusal?_eq_none_iff]
  refine ⟨fun hr => hr.2, fun hs => ⟨h.gate_eq_none ?_, hs⟩⟩
  rw [hs]
  decide

/-- The entry that is closed stands in front of the history. -/
theorem head_of_held (h : InStep j) {run : Run} (held : j.gate = some run) :
    ∃ e older, j.history.entries = e :: older ∧ e.id = run.execution ∧ e.isRunning = true ∧
      ∀ o ∈ older, o.isRunning = false :=
  h.running run.execution (h.current_eq_some held)

/-! ## §2. Steps -/

theorem pause (h : InStep j) (idle : j.state = .idle) : InStep { j with state := .paused } where
  gate_eq := h.gate_eq
  executing_iff := by
    have hn := h.current_eq_none (h.gate_eq_none (by rw [idle]; decide))
    simp [hn]
  running := h.running
  quiet := h.quiet
  lastRun_eq := h.lastRun_eq
  dropped_eq := h.dropped_eq

theorem resume (h : InStep j) (paused : j.state = .paused) :
    InStep { j with state := .idle } where
  gate_eq := h.gate_eq
  executing_iff := by
    have hn := h.current_eq_none (h.gate_eq_none (by rw [paused]; decide))
    simp [hn]
  running := h.running
  quiet := h.quiet
  lastRun_eq := h.lastRun_eq
  dropped_eq := h.dropped_eq

theorem begin (h : InStep j) (free : j.refusal? = none) (now : Instant) (tag : Trigger)
    {run : Int → Run} (named : ∀ id, (run id).execution = id) : InStep (j.begin now tag run) where
  gate_eq := congrArg some (named j.history.nextId)
  executing_iff := by simp [Job.begin]
  running := by
    intro id hid
    have hid : j.history.nextId = id := Option.some.inj hid
    subst hid
    refine ⟨_, _, j.history.entries_start now tag, rfl, rfl, ?_⟩
    -- the gate was free, so no older entry is running
    intro o ho
    exact h.quiet (h.current_eq_none (refusal?_eq_none_iff.mp free).1) o (List.mem_of_mem_take ho)
  quiet := by simp [Job.begin]
  lastRun_eq := by
    show some now = (j.history.start now tag).entries.head?.map _
    rw [j.history.entries_start now tag]
    rfl
  dropped_eq := h.dropped_eq

theorem concluded (h : InStep j) {run : Run} (held : j.gate = some run) (now : Instant)
    (ending : Ending) : InStep (j.concluded now run.execution ending) := by
  obtain ⟨e, older, hentries, hid, -, holder⟩ := h.head_of_held held
  have hfinish := History.finish_head hentries now ending.record.1 ending.record.2.1
    ending.record.2.2
  rw [hid] at hfinish
  have hlast := h.lastRun_eq
  simp only [History.last?, hentries] at hlast
  exact
    { gate_eq := rfl
      executing_iff := by simp [Job.concluded, Job.close]
      running := by simp [Job.concluded, Job.close]
      quiet := by
        intro _ o ho
        simp only [Job.concluded, Job.close, hfinish, List.mem_cons] at ho
        rcases ho with rfl | ho
        · rfl
        · exact holder o ho
      lastRun_eq := by
        simp only [Job.concluded, Job.close, hfinish, History.last?]
        exact hlast
      dropped_eq := by
        simp only [Job.concluded, Job.close, hfinish]
        exact h.dropped_eq }

end InStep

namespace Life

/-- The invariant survives every step. -/
theorem Move.inStep {l l' : Life} {event : Event} {effect : Effect} (m : Move l event l' effect)
    (h : InStep l.job) : InStep l'.job := by
  cases m with
  | kept worker =>
    unfold job at h ⊢
    rwa [worker]
  | paused idle => exact h.pause idle
  | resumed paused => exact h.resume paused
  | accepted tagged free run named => exact h.begin free l.clock.now _ named
  | closed held ending => exact h.concluded held l.clock.now ending

/-- **The invariant holds throughout a life.** -/
theorem run_inStep {l : Life} (h : InStep l.job) (events : List Event) :
    InStep (l.run events).1.job := by
  induction events generalizing l with
  | nil => exact h
  | cons event events ih => exact ih ((l.step_move event).inStep h)

/-! ## §3. How a state is left -/

/-- A paused job is triggered by nobody, and only resuming it makes it idle. -/
theorem leaves_paused {l : Life} (h : InStep l.job) (event : Event)
    (paused : l.job.state = .paused) (left : (l.step event).1.job.state ≠ .paused) :
    event = .resume ∧ (l.step event).2 = .done := by
  have m := l.step_move event
  generalize (l.step event).1 = l' at m left
  generalize (l.step event).2 = effect at m ⊢
  cases m with
  | kept worker =>
    unfold job at left paused
    exact absurd (by rw [worker]; exact paused) left
  | paused idle => exact absurd rfl left
  | resumed _ => exact ⟨rfl, rfl⟩
  | accepted tagged free =>
    have hidle := (refusal?_eq_none_iff.mp free).2
    rw [paused] at hidle
    cases hidle
  | closed held =>
    have hfree := h.gate_eq_none (by rw [paused]; decide)
    rw [held] at hfree
    cases hfree

/-- An execution is over when its executor has returned or it was given up. -/
theorem leaves_executing {l : Life} (event : Event)
    (executing : l.job.state = .executing) (left : (l.step event).1.job.state ≠ .executing) :
    ∃ ending, event = .ended ending := by
  have m := l.step_move event
  generalize (l.step event).1 = l' at m left
  generalize (l.step event).2 = effect at m
  cases m with
  | kept worker =>
    unfold job at left executing
    exact absurd (by rw [worker]; exact executing) left
  | paused idle =>
    rw [executing] at idle
    cases idle
  | resumed paused =>
    rw [executing] at paused
    cases paused
  | accepted => exact absurd rfl left
  | closed held ending => exact ⟨ending, rfl⟩

/-! ## §4. Whether anything was started -/

/-- The history is empty until a trigger is accepted. -/
theorem Move.entries_eq_nil_iff {l l' : Life} {event : Event} {effect : Effect}
    (m : Move l event l' effect) (h : InStep l.job) :
    l'.job.history.entries = [] ↔ l.job.history.entries = [] ∧ effect.opened? = none := by
  cases m with
  | kept worker _ opens =>
    unfold job
    rw [worker]
    simp [opens]
  | paused => simp [Effect.opened?]
  | resumed => simp [Effect.opened?]
  | accepted =>
    show (l.job.history.start _ _).entries = [] ↔ _
    rw [History.entries_start]
    simp [Effect.opened?]
  | closed held ending =>
    obtain ⟨e, older, hentries, hid, -⟩ := h.head_of_held held
    simp [concluded, close, ← hid, History.finish_head hentries, hentries]

theorem run_entries_eq_nil_iff {l : Life} (h : InStep l.job) (events : List Event) :
    (l.run events).1.job.history.entries = []
      ↔ l.job.history.entries = [] ∧ ∀ p ∈ (l.run events).2, p.2.opened? = none := by
  induction events generalizing l with
  | nil => simp
  | cons event events ih =>
    have m := l.step_move event
    rw [run_cons, ih (m.inStep h), m.entries_eq_nil_iff h, List.forall_mem_cons, and_assoc]

end Life

/-! ## §5. Every job, every order of events -/

/-- **The records of a job agree at every moment.**  Executing, holding the gate and having a
current execution are one; that execution is the newest entry and the only one that runs, and no
entry runs otherwise.  The last run is the start of the newest entry, no end is ever lost, and the
two states end only by a resumption that succeeds and by the end of the execution.  The second half
says that sessions are lives, so the first half covers them. -/
theorem records_agree (start : Instant) (name : String) (schedule : Cron.Schedule)
    (timezone : String) (historySize : Nat) (timeout : Option Nat) (maxConcurrent : Nat)
    (script : List Behaviour) :
    let job := create name schedule timezone historySize timeout maxConcurrent
    (∀ events : List Event,
      let (l, log) := (Life.init start job script).run events
      let j := l.job
      (j.state = .executing ↔ j.gate.isSome = true) ∧
      (j.gate.isSome = true ↔ ∃ id, j.current = some id) ∧
      (∀ id, j.current = some id → ∃ e older, j.history.entries = e :: older ∧ e.id = id ∧
        e.isRunning = true ∧ ∀ o ∈ older, o.isRunning = false) ∧
      (j.state = .idle ∨ j.state = .paused → ∀ e ∈ j.history.entries, e.isRunning = false) ∧
      j.lastRun = j.history.last?.map (·.startTime) ∧
      (j.lastRun = none ↔ ∀ p ∈ log, p.2.opened? = none) ∧
      j.history.droppedCompletions = 0 ∧
      (∀ event, j.state = .paused → (l.step event).1.job.state ≠ .paused →
        event = .resume ∧ (l.step event).2 = .done) ∧
      (∀ event, j.state = .executing → (l.step event).1.job.state ≠ .executing →
        ∃ ending, event = .ended ending)) ∧
    (∀ requests : List Request, ∃ events,
      ((Session.init start job script).run (requests.map .request)).1.life
        = ((Life.init start job script).run events).1) := by
  intro job
  have hnew : InStep job := inStep_create _ _ _ _ _ _
  refine ⟨fun events => ?_, fun requests => Session.exists_life start rfl script requests⟩
  have hlog := Life.run_entries_eq_nil_iff (l := Life.init start job script) hnew events
  have h := Life.run_inStep (l := Life.init start job script) hnew events
  generalize (Life.init start job script).run events = r at h hlog
  obtain ⟨l, log⟩ := r
  have hgate : l.job.gate.isSome = l.job.current.isSome := by
    rw [← h.gate_eq]
    simp
  refine ⟨?_, ?_, h.running, ?_, h.lastRun_eq, ?_, h.dropped_eq, Life.leaves_paused h,
    Life.leaves_executing⟩
  · rw [hgate]
    exact h.executing_iff
  · rw [hgate]
    exact Option.isSome_iff_exists
  · intro hstate
    have hne : l.job.state ≠ .executing := by
      rcases hstate with hs | hs <;> rw [hs] <;> decide
    exact h.quiet (h.current_eq_none (h.gate_eq_none hne))
  · have hnil : (Life.init start job script).job.history.entries = [] := rfl
    rw [h.lastRun_eq, Option.map_eq_none_iff, History.last?, List.head?_eq_none_iff, hlog]
    exact and_iff_right hnil

end CronSupervisor.Job
