/-
  CronSupervisor.Proofs.Scheduler.Refusals — requests that are not let in.

  A request may be turned away at several depths: its expression cannot be read, its name is taken
  or unknown, or the job itself refuses, because its gate is held or because of its state.  Whoever
  is turned away has changed nothing, so the session goes on as if nothing had been asked.  In a
  coherent session all refusals can be told beforehand from the names that are registered and the
  states of their jobs, since gate and state of a job never disagree.

  Main statements:
    * `Session.step_of_refused` — a request that is turned away changes nothing.
    * `Session.Refuses` — which requests are turned away, and why.
    * `Session.Coherent.refuses_iff` — no others are, and for no other reason.
    * `Session.refusals_of_run` — all of it, whatever has happened before.
-/
import CronSupervisor.Proofs.Scheduler.Coherence

namespace CronSupervisor

open Calendar Cron

/-- Nothing was let in.  Whatever fails in an execution was, and where memory is exhausted nobody is
answered. -/
def SchedulerError.IsRefusal (e : SchedulerError) : Prop :=
  e ≠ .exhausted ∧ ∀ error, e ≠ .job (.execution error)

/-- The state alone tells why a trigger is refused. -/
theorem Job.InStep.refusal?_eq {j : Job} (h : InStep j) : j.refusal? = match j.state with
    | .idle => none
    | .executing => some (.alreadyExecuting j.name)
    | .paused => some (.paused j.name) := by
  cases hs : j.state with
  | idle => exact h.refusal?_eq_none.mpr hs
  | executing =>
    unfold refusal?
    rw [hs]
    exact ite_self _
  | paused =>
    have hg := h.gate_eq_none (by rw [hs]; decide)
    unfold refusal?
    rw [hs, hg]
    rfl

namespace Scheduler

/-! ## §1. What is asked -/

/-- The name of the job that a request needs to be registered. -/
def Request.lookup? : Request → Option String
  | .removeJob name => some name
  | .pause name => some name
  | .resume name => some name
  | .trigger name _ => some name
  | .triggerSync name _ => some name
  | .status name => some name
  | .history name _ => some name
  | _ => none

/-- The name of the job that a request triggers. -/
def Request.triggers? : Request → Option String
  | .trigger name _ => some name
  | .triggerSync name _ => some name
  | _ => none

namespace Session

/-- Which requests are turned away in a session, and why. -/
inductive Refuses [ZoneBook] (s : Session) : Request → SchedulerError → Prop
  | cron {name expr timezone : String} {options : JobOptions} {error : CronError}
      (h : Schedule.parse expr timezone = .error error) :
      Refuses s (.addJob name expr timezone options) (.cron error)
  | duplicateJob {name expr timezone : String} {options : JobOptions} {schedule : Schedule}
      (parses : Schedule.parse expr timezone = .ok schedule) (known : name ∈ s.scheduler.names) :
      Refuses s (.addJob name expr timezone options) (.duplicateJob name)
  | notFound {r : Request} {name : String} (lookup : r.lookup? = some name)
      (unknown : name ∉ s.scheduler.names) : Refuses s r (.notFound name)
  | alreadyExecuting {r : Request} {name : String} (triggers : r.triggers? = some name)
      (state : s.scheduler.state? name = some .executing) :
      Refuses s r (.job (.alreadyExecuting name))
  | paused {r : Request} {name : String} (triggers : r.triggers? = some name)
      (state : s.scheduler.state? name = some .paused) : Refuses s r (.job (.paused name))
  | pauseWhileExecuting {name : String} (state : s.scheduler.state? name = some .executing) :
      Refuses s (.pause name) (.job (.pauseWhileExecuting name))
  | notPaused {name : String} {state : JobState} (h : s.scheduler.state? name = some state)
      (active : state ≠ .paused) : Refuses s (.resume name) (.job (.notPaused name))

variable {s : Session} {name : String} {tag : Trigger} {bounds : CallerBounds}
  {r : Request} {e : SchedulerError}

theorem Refuses.isRefusal [ZoneBook] (h : s.Refuses r e) : e.IsRefusal := by
  cases h <;> exact ⟨nofun, nofun⟩

theorem change_failed_iff {result : Except SchedulerError Scheduler} :
    (s.change result).2 = .failed e ↔ result = .error e := by
  cases result with
  | ok scheduler => exact iff_of_false nofun nofun
  | error error => exact Reply.failed.injEq error e ▸ Except.error.injEq error e ▸ .rfl

/-! ## §2. Nothing changes -/

/-- Whatever an execution returns, nobody was turned away. -/
theorem replyOf_ne (refusal : e.IsRefusal) (number : Nat) (execution : Int) :
    s.replyOf number execution ≠ .failed e := by
  intro h
  unfold replyOf at h
  split at h
  next outcome _ =>
    cases outcome with
    | ok code => cases h
    | error error => exact refusal.2 error (Reply.failed.inj h).symm
  next => cases h

theorem trigger_failed_iff [ZoneBook] [Memory] :
    (s.step (.trigger name bounds)).2 = .failed e ↔
      s.launch name .manual bounds = .error e := by
  simp only [step]
  cases s.launch name .manual bounds with
  | ok launched => exact iff_of_false (fun h => by cases h) (fun h => by cases h)
  | error error => simp

theorem triggerSync_failed_iff [ZoneBook] [Memory] (refusal : e.IsRefusal) :
    (s.step (.triggerSync name bounds)).2 = .failed e ↔
      s.launch name .api bounds = .error e := by
  simp only [step]
  cases s.launch name .api bounds with
  | ok launched => exact iff_of_false (replyOf_ne refusal _ _) (fun h => by cases h)
  | error error => simp

/-- **A request that is turned away changes nothing.** -/
theorem step_of_refused [ZoneBook] [Memory] (refusal : e.IsRefusal) (h : (s.step r).2 = .failed e) :
    (s.step r).1 = s := by
  have hchange : ∀ result, (s.change result).2 = .failed e → (s.change result).1 = s := by
    intro result hresult
    rw [change_failed_iff.mp hresult]
    rfl
  cases r with
  | addJob | removeJob | pause | resume => exact hchange _ h
  | trigger name bounds =>
    simp only [step, trigger_failed_iff.mp h]
  | triggerSync name bounds =>
    simp only [step, (triggerSync_failed_iff refusal).mp h]
  | status name =>
    simp only [step] at h ⊢
    split at h
    next =>
      split at h
      next => cases h
      next => rfl
    next => rfl
  | history name limit =>
    simp only [step]
    split <;> rfl
  | hold name =>
    simp only [step] at h
    split at h <;> cases h
  | cancel id =>
    simp only [step] at h
    split at h <;> cases h
  | statuses | getJob | held | names | historySize | start | stop | stats | token | advance
  | elapsed | calls => cases h

/-! ## §3. Names and jobs -/

/-- What is known of a name that stands for a job. -/
structure Known (s : Session) (name : String) (number : Nat) (w : Worker) : Prop where
  mem : name ∈ s.scheduler.names
  number_eq : s.scheduler.number? name = some number
  worker_eq : s.scheduler.worker? number = some w
  find_eq : s.scheduler.find? name = some w
  name_eq : w.job.name = name
  state_eq : s.scheduler.state? name = some w.job.state
  inStep : w.job.InStep

namespace Coherent

variable (hs : s.Coherent)
include hs

/-- **A name is unknown, or it stands for a job.** -/
theorem unknown_or_known (name : String) :
    (name ∉ s.scheduler.names ∧ s.scheduler.number? name = none ∧
      s.scheduler.state? name = none) ∨ ∃ number w, s.Known name number w := by
  cases hn : s.scheduler.number? name with
  | none =>
    refine .inl ⟨number?_eq_none_iff.mp hn, rfl, ?_⟩
    unfold state?
    rw [find?_of_unknown hn]
    rfl
  | some number =>
    obtain ⟨w, hw, hname⟩ := hs.linked.exists_worker hn
    have hfind : s.scheduler.find? name = some w := (find?_of_number? hn).trans hw
    refine .inr ⟨number, w, ?_, hn, hw, hfind, hname, congrArg (Option.map _) hfind,
      (hs.orderly number w hw).inStep⟩
    by_contra hunknown
    cases hn.symm.trans (number?_eq_none_iff.mpr hunknown)

/-! ## §4. Why requests fail -/

theorem removeJob_eq_error_iff :
    s.scheduler.removeJob name = .error e ↔ name ∉ s.scheduler.names ∧ e = .notFound name := by
  unfold removeJob
  rcases hs.unknown_or_known name with ⟨hunknown, hn, -⟩ | ⟨number, w, known⟩
  · simp [hn, hunknown, eq_comm]
  · simp [known.number_eq, known.mem]

theorem pause_eq_error_iff :
    s.scheduler.changeJob name Job.pause = .error e ↔
      (name ∉ s.scheduler.names ∧ e = .notFound name) ∨
      (s.scheduler.state? name = some .executing ∧ e = .job (.pauseWhileExecuting name)) := by
  unfold changeJob
  rcases hs.unknown_or_known name with ⟨hunknown, hn, hstate⟩ | ⟨number, w, known⟩
  · simp [hn, hstate, hunknown, eq_comm]
  · simp only [known.number_eq, known.worker_eq, known.state_eq, known.mem, Job.pause,
      known.name_eq]
    cases w.job.state <;> simp [eq_comm]

theorem resume_eq_error_iff :
    s.scheduler.changeJob name Job.resume = .error e ↔
      (name ∉ s.scheduler.names ∧ e = .notFound name) ∨
      ∃ state, s.scheduler.state? name = some state ∧ state ≠ .paused ∧
        e = .job (.notPaused name) := by
  unfold changeJob
  rcases hs.unknown_or_known name with ⟨hunknown, hn, hstate⟩ | ⟨number, w, known⟩
  · simp [hn, hstate, hunknown, eq_comm]
  · simp only [known.number_eq, known.worker_eq, known.state_eq, known.mem, Job.resume,
      known.name_eq]
    cases w.job.state <;> simp [eq_comm]

/-- The gate is looked at before the state, and tells the same. -/
theorem launch_eq_error_iff :
    s.launch name tag bounds = .error e ↔
      (name ∉ s.scheduler.names ∧ e = .notFound name) ∨
      (s.scheduler.state? name = some .executing ∧ e = .job (.alreadyExecuting name)) ∨
      (s.scheduler.state? name = some .paused ∧ e = .job (.paused name)) := by
  unfold launch
  rcases hs.unknown_or_known name with ⟨hunknown, hn, hstate⟩ | ⟨number, w, known⟩
  · simp [hn, hstate, hunknown, eq_comm]
  · have hrefusal := known.inStep.refusal?_eq
    rw [known.name_eq] at hrefusal
    simp only [known.number_eq, known.worker_eq, known.state_eq, known.mem, Worker.launch,
      Worker.accept, hrefusal]
    cases w.job.state <;> simp [eq_comm]

theorem status_failed_iff [ZoneBook] [Memory] :
    (s.step (.status name)).2 = .failed e ↔ name ∉ s.scheduler.names ∧ e = .notFound name := by
  simp only [step]
  rcases hs.unknown_or_known name with ⟨hunknown, hn, -⟩ | ⟨number, w, known⟩
  · simp [hn, hunknown, eq_comm]
  · have hw : (s.scheduler.refreshJob number).worker? number =
        some { w with job := refresh s.scheduler.engine w.job } := by
      unfold refreshJob
      rw [worker?_modifyJob, known.worker_eq]
      simp
    simp [known.number_eq, hw, known.mem]

theorem history_failed_iff [ZoneBook] [Memory] {limit : Nat} :
    (s.step (.history name limit)).2 = .failed e ↔
      name ∉ s.scheduler.names ∧ e = .notFound name := by
  simp only [step]
  rcases hs.unknown_or_known name with ⟨hunknown, hn, -⟩ | ⟨number, w, known⟩
  · simp [find?_of_unknown hn, hunknown, eq_comm]
  · simp [known.find_eq, known.mem]

/-- **Requests are turned away for these reasons and for no other.** -/
theorem refuses_iff [ZoneBook] [Memory] :
    (s.step r).2 = .failed e ∧ e.IsRefusal ↔ s.Refuses r e := by
  constructor
  · rintro ⟨h, refusal⟩
    cases r with
    | addJob name expr timezone options =>
      rcases Scheduler.addJob_eq_error_iff.mp (change_failed_iff.mp h) with
        ⟨error, hp, rfl⟩ | ⟨schedule, hp, ⟨hknown, rfl⟩ | ⟨-, -, rfl⟩⟩
      · exact .cron hp
      · exact .duplicateJob hp hknown
      · exact absurd rfl refusal.1
    | removeJob name =>
      obtain ⟨hunknown, rfl⟩ := hs.removeJob_eq_error_iff.mp (change_failed_iff.mp h)
      exact .notFound rfl hunknown
    | pause name =>
      rcases hs.pause_eq_error_iff.mp (change_failed_iff.mp h) with ⟨hunknown, rfl⟩ | ⟨hstate, rfl⟩
      · exact .notFound rfl hunknown
      · exact .pauseWhileExecuting hstate
    | resume name =>
      rcases hs.resume_eq_error_iff.mp (change_failed_iff.mp h) with
        ⟨hunknown, rfl⟩ | ⟨state, hstate, hactive, rfl⟩
      · exact .notFound rfl hunknown
      · exact .notPaused hstate hactive
    | trigger name bounds =>
      rcases hs.launch_eq_error_iff.mp (trigger_failed_iff.mp h) with
        ⟨hunknown, rfl⟩ | ⟨hstate, rfl⟩ | ⟨hstate, rfl⟩
      · exact .notFound rfl hunknown
      · exact .alreadyExecuting rfl hstate
      · exact .paused rfl hstate
    | triggerSync name bounds =>
      rcases hs.launch_eq_error_iff.mp ((triggerSync_failed_iff refusal).mp h) with
        ⟨hunknown, rfl⟩ | ⟨hstate, rfl⟩ | ⟨hstate, rfl⟩
      · exact .notFound rfl hunknown
      · exact .alreadyExecuting rfl hstate
      · exact .paused rfl hstate
    | status name =>
      obtain ⟨hunknown, rfl⟩ := hs.status_failed_iff.mp h
      exact .notFound rfl hunknown
    | history name limit =>
      obtain ⟨hunknown, rfl⟩ := hs.history_failed_iff.mp h
      exact .notFound rfl hunknown
    | hold name =>
      simp only [step] at h
      split at h <;> cases h
    | cancel id =>
      simp only [step] at h
      split at h <;> cases h
    | statuses | getJob | held | names | historySize | start | stop | stats | token | advance
    | elapsed | calls => cases h
  · intro h
    refine ⟨?_, h.isRefusal⟩
    -- both ways to trigger a job fail when it cannot be launched
    have htriggers : ∀ name, r.triggers? = some name →
        (∀ tag bounds, s.launch name tag bounds = .error e) → (s.step r).2 = .failed e := by
      intro name triggers hl
      cases r <;> cases triggers
      · exact trigger_failed_iff.mpr (hl _ _)
      · exact (triggerSync_failed_iff h.isRefusal).mpr (hl _ _)
    cases h with
    | cron hp => exact change_failed_iff.mpr (Scheduler.addJob_eq_error_iff.mpr (.inl ⟨_, hp, rfl⟩))
    | duplicateJob hp hknown =>
      exact change_failed_iff.mpr
        (Scheduler.addJob_eq_error_iff.mpr (.inr ⟨_, hp, .inl ⟨hknown, rfl⟩⟩))
    | alreadyExecuting triggers hstate =>
      exact htriggers _ triggers fun _ _ =>
        hs.launch_eq_error_iff.mpr (.inr (.inl ⟨hstate, rfl⟩))
    | paused triggers hstate =>
      exact htriggers _ triggers fun _ _ =>
        hs.launch_eq_error_iff.mpr (.inr (.inr ⟨hstate, rfl⟩))
    | pauseWhileExecuting hstate =>
      exact change_failed_iff.mpr (hs.pause_eq_error_iff.mpr (.inr ⟨hstate, rfl⟩))
    | notPaused hstate hactive =>
      exact change_failed_iff.mpr (hs.resume_eq_error_iff.mpr (.inr ⟨_, hstate, hactive, rfl⟩))
    | notFound lookup hunknown =>
      cases r with
      | removeJob =>
        cases lookup
        exact change_failed_iff.mpr (hs.removeJob_eq_error_iff.mpr ⟨hunknown, rfl⟩)
      | pause =>
        cases lookup
        exact change_failed_iff.mpr (hs.pause_eq_error_iff.mpr (.inl ⟨hunknown, rfl⟩))
      | resume =>
        cases lookup
        exact change_failed_iff.mpr (hs.resume_eq_error_iff.mpr (.inl ⟨hunknown, rfl⟩))
      | trigger | triggerSync =>
        cases lookup
        exact htriggers _ rfl fun _ _ => hs.launch_eq_error_iff.mpr (.inl ⟨hunknown, rfl⟩)
      | status =>
        cases lookup
        exact hs.status_failed_iff.mpr ⟨hunknown, rfl⟩
      | history =>
        cases lookup
        exact hs.history_failed_iff.mpr ⟨hunknown, rfl⟩
      | addJob | hold | cancel | statuses | getJob | held | names | historySize | start | stop
      | stats | token | advance | elapsed | calls => cases lookup

end Coherent

/-! ## §5. Whole sessions -/

/-- **Requests that are turned away leave no trace.**  Whatever has happened to a session, a request
is answered by a refusal exactly when the names and states at that moment call for it.  Then the
whole session is as it was, clock and call log included, so every list of requests that follows gets
the answers, and everything that happens next leads to the sessions, that it would have without the
refused request.  The same holds of callers who would have kept nobody waiting. -/
theorem refusals_of_run [ZoneBook] [Memory] (start : Instant) (historySize : Nat)
    (scripts : List (String × List Behaviour)) (events : List Event) (r : Request)
    (e : SchedulerError) :
    let s := (init start historySize scripts).follow events
    ((s.step r).2 = .failed e ∧ e.IsRefusal ↔ s.Refuses r e) ∧
    (s.Refuses r e → (s.step r).1 = s ∧
      (∀ requests, s.run (r :: requests) = ((s.run requests).1, .failed e :: (s.run requests).2)) ∧
      (∀ more, s.follow (.request r :: more) = s.follow more) ∧
      ∀ name bounds more, r = .triggerSync name bounds →
        s.follow (.call name bounds :: more) = s.follow more) := by
  intro s
  have hs : s.Coherent := (coherent_init start historySize scripts).follow events
  refine ⟨hs.refuses_iff, fun h => ?_⟩
  obtain ⟨hfailed, refusal⟩ := hs.refuses_iff.mpr h
  have hsame := step_of_refused refusal hfailed
  refine ⟨hsame, fun requests => ?_, fun more => ?_, fun name bounds more heq => ?_⟩
  · simp only [run, hsame, hfailed]
  · show (s.step r).1.follow more = _
    rw [hsame]
  · subst heq
    have hl := (triggerSync_failed_iff refusal).mp hfailed
    have hcall : s.happen (.call name bounds) = s := by simp only [happen, hl]
    show (s.happen _).follow more = _
    rw [hcall]

end Session

end Scheduler

end CronSupervisor
