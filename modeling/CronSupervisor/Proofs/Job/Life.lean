/-
  CronSupervisor.Proofs.Job.Life — the life of one job, event by event.

  A session lets a scripted executor return at the times of its script.  A life leaves the executor
  and its caller free: the execution under way may return anything at any moment, or be dropped, and
  tokens are cancelled and time passes in any order with that.  So a statement about all lives holds
  for every executor.  The steps are made of the operations of `Job` and `Worker`.

  Main statement:
    * `step_move` — the five things that an event can do to the job and to the calls of its
      executor; everything that is proved about lives goes through it.
-/
import CronSupervisor.Job.Worker

namespace CronSupervisor.Job

open Calendar

/-! ## §1. Events and effects -/

/-- How an execution ended. -/
inductive Ending where
  /-- Its executor returned. -/
  | returned (outcome : Outcome)
  /-- It was given up before that. -/
  | dropped

/-- What a history has to say about an ending: exit code, success, wording of the failure. -/
def Ending.record : Ending → Int × Bool × String
  | .returned (.ok code) => (code, code = 0, "")
  | .returned (.error e) => (e.exitCode, false, e.message)
  | .dropped => (-1, false, "execution cancelled")

/-- What the caller of an execution gets to hear of its end. -/
def Ending.replies (execution : Int) : Ending → List (Int × Outcome)
  | .returned outcome => [(execution, outcome)]
  | .dropped => []

/-- The job after an execution has ended in some way. -/
def concluded (j : Job) (now : Instant) (execution : Int) (ending : Ending) : Job :=
  { j.close now execution ending.record.1 ending.record.2.1 ending.record.2.2 with
    replies := ending.replies execution ++ j.replies }

theorem finish_eq_concluded (j : Job) (now : Instant) (execution : Int) (outcome : Outcome) :
    j.finish now execution outcome = j.concluded now execution (.returned outcome) := by
  cases outcome <;> rfl

theorem abandon_eq_concluded {j : Job} {run : Run} (held : j.gate = some run) (now : Instant) :
    j.abandon now run.execution = j.concluded now run.execution .dropped := by
  simp only [abandon, held, if_pos]
  rfl

/-- One event in the life of a job. -/
inductive Event where
  | pause
  | resume
  /-- The schedule triggers the job. -/
  | run
  /-- Somebody triggers it and does not wait. -/
  | trigger (context : Context)
  /-- Somebody triggers it and waits. -/
  | triggerSync (context : Context)
  /-- The execution under way ends. -/
  | ended (ending : Ending)
  /-- A token is cancelled. -/
  | cancelled (scope : Scope)
  | passed (ms : Nat)

/-- The tag of an entry point. -/
def Event.tag? : Event → Option Trigger
  | .run => some .schedule
  | .trigger _ => some .manual
  | .triggerSync _ => some .api
  | _ => none

/-- What comes of an event. -/
inductive Effect where
  | nothing
  | done
  | failed (error : JobError)
  /-- The trigger was accepted as this execution. -/
  | accepted (execution : Int)
  | refused (error : JobError)
  | closed (execution : Int) (ending : Ending)

/-- The execution that was opened, if one was. -/
def Effect.opened? : Effect → Option Int
  | .accepted execution => some execution
  | _ => none

/-- The execution that was closed and how it ended, if one was. -/
def Effect.closed? : Effect → Option (Int × Ending)
  | .closed execution ending => some (execution, ending)
  | _ => none

/-! ## §2. Steps -/

/-- A job with its executor, the calls so far, the cancelled tokens and the time. -/
structure Life where
  clock : Clock
  cancelled : List Scope := []
  calls : CallLog := {}
  worker : Worker

namespace Life

/-- The job that lives. -/
def job (l : Life) : Job := l.worker.job

/-- The same surroundings with a changed job. -/
def withJob (l : Life) (job : Job) : Life := { l with worker := { l.worker with job } }

/-- How often the executor was called. -/
def callCount (l : Life) : Nat := (l.calls.timesOf l.worker.caller).length

/-- Change the job, or say why not. -/
def change (l : Life) : Except JobError Job → Life × Effect
  | .ok job => (l.withJob job, .done)
  | .error e => (l, .failed e)

/-- Trigger the job. -/
def launch (l : Life) (trigger : Trigger) (context : Context) : Life × Effect :=
  match l.worker.accept l.clock l.calls trigger context with
  | .ok (worker, calls) => ({ l with worker, calls }, .accepted l.job.history.nextId)
  | .error e => (l, .refused e)

/-- End the execution under way, if there is one. -/
def conclude (l : Life) (ending : Ending) : Life × Effect :=
  match l.job.gate with
  | some run =>
    let job := match ending with
      | .returned outcome => l.job.finish l.clock.now run.execution outcome
      | .dropped => l.job.abandon l.clock.now run.execution
    (l.withJob job, .closed run.execution ending)
  | none => (l, .nothing)

/-- Let one event happen. -/
def step (l : Life) : Event → Life × Effect
  | .pause => l.change l.job.pause
  | .resume => l.change l.job.resume
  | .run => l.launch .schedule .background
  | .trigger context => l.launch .manual context
  | .triggerSync context => l.launch .api context
  | .ended ending => l.conclude ending
  | .cancelled scope => ({ l with cancelled := scope :: l.cancelled }, .nothing)
  | .passed ms => ({ l with clock := l.clock.advanceTo (l.clock.elapsed + ms) }, .nothing)

/-- Let a list of events happen in order; yields what came of each. -/
def run (l : Life) : List Event → Life × List (Event × Effect)
  | [] => (l, [])
  | e :: es =>
    let (l, effect) := l.step e
    let (l, log) := l.run es
    (l, (e, effect) :: log)

/-- The life of a new job, from an instant on. -/
def init (start : Instant) (job : Job) (script : List Behaviour) : Life :=
  { clock := ⟨start, 0⟩, worker := { job, caller := .own job.name, script } }

@[simp] theorem job_withJob (l : Life) (j : Job) : (l.withJob j).job = j := rfl

@[simp] theorem run_nil (l : Life) : l.run [] = (l, []) := rfl

theorem run_cons (l : Life) (e : Event) (es : List Event) :
    l.run (e :: es)
      = (((l.step e).1.run es).1, (e, (l.step e).2) :: ((l.step e).1.run es).2) := rfl

theorem run_append (l : Life) (es fs : List Event) :
    (l.run (es ++ fs)).1 = ((l.run es).1.run fs).1 := by
  induction es generalizing l with
  | nil => rfl
  | cons e es ih =>
    rw [List.cons_append, run_cons, run_cons]
    exact ih (l.step e).1

/-! ## §3. What an event can do -/

/-- Everything that an event can do to the job and to the calls of its executor. -/
inductive Move (l : Life) : Event → Life → Effect → Prop where
  /-- Job and calls stay as they are. -/
  | kept {event : Event} {l' : Life} {effect : Effect} (worker : l'.worker = l.worker)
      (calls : l'.calls = l.calls) (opens : effect.opened? = none)
      (closes : effect.closed? = none) : Move l event l' effect
  | paused (idle : l.job.state = .idle) :
      Move l .pause (l.withJob { l.job with state := .paused }) .done
  | resumed (paused : l.job.state = .paused) :
      Move l .resume (l.withJob { l.job with state := .idle }) .done
  /-- An execution is opened and its executor is called. -/
  | accepted {event : Event} {tag : Trigger} (tagged : event.tag? = some tag)
      (free : l.job.refusal? = none) (run : Int → Run) (named : ∀ id, (run id).execution = id) :
      Move l event
        { l with
          worker := { l.worker with job := l.job.begin l.clock.now tag run }
          calls := l.calls.record l.worker.caller l.clock.elapsed }
        (.accepted l.job.history.nextId)
  /-- The execution that holds the gate is closed. -/
  | closed {run : Run} (held : l.job.gate = some run) (ending : Ending) :
      Move l (.ended ending)
        (l.withJob (l.job.concluded l.clock.now run.execution ending))
        (.closed run.execution ending)

/-- A change that leaves the job as it is leaves everything. -/
theorem change_self_or_failed {l : Life} {event : Event} {r : Except JobError Job}
    (h : ∀ job, r = .ok job → job = l.job) : Move l event (l.change r).1 (l.change r).2 := by
  cases r with
  | ok job =>
    have hj := h job rfl
    subst hj
    exact .kept rfl rfl rfl rfl
  | error e => exact .kept rfl rfl rfl rfl

theorem pause_move (l : Life) :
    Move l .pause (l.change l.job.pause).1 (l.change l.job.pause).2 := by
  cases hs : l.job.state with
  | idle =>
    rw [show l.job.pause = .ok { l.job with state := .paused } by simp [Job.pause, hs]]
    exact .paused hs
  | executing => exact change_self_or_failed (by simp [Job.pause, hs])
  | paused => exact change_self_or_failed (by simp [Job.pause, hs])

theorem resume_move (l : Life) :
    Move l .resume (l.change l.job.resume).1 (l.change l.job.resume).2 := by
  cases hs : l.job.state with
  | paused =>
    rw [show l.job.resume = .ok { l.job with state := .idle } by simp [Job.resume, hs]]
    exact .resumed hs
  | idle => exact change_self_or_failed (by simp [Job.resume, hs])
  | executing => exact change_self_or_failed (by simp [Job.resume, hs])

theorem launch_refused {l : Life} {e : JobError} (h : l.job.refusal? = some e) (tag : Trigger)
    (context : Context) : l.launch tag context = (l, .refused e) := by
  simp only [launch, Worker.accept, show l.worker.job.refusal? = some e from h]

theorem launch_move {l : Life} {event : Event} {tag : Trigger} (h : event.tag? = some tag)
    (context : Context) : Move l event (l.launch tag context).1 (l.launch tag context).2 := by
  cases hr : l.job.refusal? with
  | some e =>
    rw [launch_refused hr]
    exact .kept rfl rfl rfl rfl
  | none =>
    simp only [launch, Worker.accept, show l.worker.job.refusal? = none from hr]
    exact .accepted h hr _ (fun _ => rfl)

theorem conclude_move (l : Life) (ending : Ending) :
    Move l (.ended ending) (l.conclude ending).1 (l.conclude ending).2 := by
  cases hg : l.job.gate with
  | none =>
    simp only [conclude, hg]
    exact .kept rfl rfl rfl rfl
  | some run =>
    simp only [conclude, hg]
    have h := Move.closed hg ending
    cases ending with
    | returned outcome => rwa [← finish_eq_concluded] at h
    | dropped => rwa [← abandon_eq_concluded hg] at h

/-- **Every step is a move.** -/
theorem step_move (l : Life) (event : Event) : Move l event (l.step event).1 (l.step event).2 := by
  cases event with
  | pause => exact pause_move l
  | resume => exact resume_move l
  | run => exact launch_move rfl _
  | trigger context => exact launch_move rfl context
  | triggerSync context => exact launch_move rfl context
  | ended ending => exact conclude_move l ending
  | cancelled scope => exact .kept rfl rfl rfl rfl
  | passed ms => exact .kept rfl rfl rfl rfl

/-! ## §4. What triggers and endings lead to -/

/-- Events with a tag are triggers. -/
theorem step_of_tag? (l : Life) {event : Event} {tag : Trigger} (h : event.tag? = some tag) :
    ∃ context, l.step event = l.launch tag context := by
  cases event <;> cases h
  case run => exact ⟨_, rfl⟩
  case trigger context => exact ⟨context, rfl⟩
  case triggerSync context => exact ⟨context, rfl⟩

theorem launch_accepted {l : Life} (free : l.job.refusal? = none) (tag : Trigger)
    (context : Context) : (l.launch tag context).2 = .accepted l.job.history.nextId := by
  simp only [launch, Worker.accept, show l.worker.job.refusal? = none from free]

/-- The executor is called for accepted triggers only. -/
theorem calls_step {l : Life} {event : Event} (h : (l.step event).2.opened? = none) :
    (l.step event).1.calls = l.calls := by
  have m := l.step_move event
  generalize (l.step event).1 = l' at m ⊢
  generalize (l.step event).2 = effect at m h
  cases m with
  | kept _ calls => exact calls
  | paused => rfl
  | resumed => rfl
  | accepted => cases h
  | closed => rfl

/-- An execution is closed by its own end, and in no other way. -/
theorem closed?_step_iff {l : Life} {event : Event} {execution : Int} {ending : Ending} :
    (l.step event).2.closed? = some (execution, ending)
      ↔ event = .ended ending ∧ ∃ run, l.job.gate = some run ∧ run.execution = execution := by
  constructor
  · intro h
    have m := l.step_move event
    generalize (l.step event).1 = l' at m
    generalize (l.step event).2 = effect at m h
    cases m with
    | kept _ _ _ closes =>
      rw [closes] at h
      cases h
    | closed held ending =>
      cases h
      exact ⟨rfl, _, held, rfl⟩
    | paused | resumed | accepted => cases h
  · intro hc
    obtain ⟨rfl, run, held, rfl⟩ := hc
    simp only [step, conclude, held, Effect.closed?]

end Life

end CronSupervisor.Job
