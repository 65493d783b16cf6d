/-
  CronSupervisor.Proofs.Scheduler.Steps — what a session does at once, and when it lets time pass.

  Whatever happens to a session happens in two parts.  First something is done at one moment:
  nothing at all, a change of the registry, an act on one job, or a change of the whole engine.
  Then time may pass, in which the engine fires and executors return.  The first part is what
  requests differ in; `Changes` lists all that it can be, together with the name that it is
  addressed to, so that later modules have no request to take apart.

  Besides requests there are callers who keep nobody waiting: they trigger a job and wait for it on
  their own, while other requests are answered, and they may give the execution up.

  Main statements:
    * `Worker.Acts`, `Changes`, `Session.Begins` — what is done at one moment.
    * `Session.step_begins` — the two parts of a request.
    * `Session.happen_parts` — the two parts of any event.
-/
import CronSupervisor.Proofs.Job.Orderly
import CronSupervisor.Proofs.Scheduler.Wiring
import CronSupervisor.Scheduler.Session

namespace CronSupervisor

open Calendar Cron

/-! ## §1. Acts on one job -/

/-- Give up the execution under way, if there is one. -/
def Job.forsake (j : Job) (now : Instant) : Job :=
  match j.current with
  | some id => j.abandon now id
  | none => j

namespace Job

/-- To give up is to close the execution under way as dropped. -/
theorem forsake_of_held {j : Job} (h : InStep j) {run : Run} (held : j.gate = some run)
    (now : Instant) : j.forsake now = j.concluded now run.execution .dropped := by
  unfold forsake
  rw [h.current_eq_some held]
  exact abandon_eq_concluded held now

theorem forsake_of_free {j : Job} (free : j.gate = none) (now : Instant) : j.forsake now = j := by
  unfold forsake
  split
  next =>
    unfold abandon
    rw [free]
  next => rfl

theorem beginnings_forsake (j : Job) (now : Instant) :
    (j.forsake now).history.beginnings = j.history.beginnings := by
  unfold forsake abandon
  split
  next =>
    split
    next =>
      split
      next => exact History.beginnings_finish _ _ _ _ _ _
      next => rfl
    next => rfl
  next => rfl

theorem Orderly.forsake {j : Job} {c : Clock} (h : j.Orderly c) :
    (j.forsake c.now).Orderly c := by
  cases hg : j.gate with
  | none =>
    rw [forsake_of_free hg]
    exact h
  | some run =>
    rw [forsake_of_held h.inStep hg]
    exact h.concluded (.refl c) hg (Int.le_refl _) (Int.le_refl _) _

end Job

/-- What somebody may do to a job at one moment; its schedule is not among them. -/
inductive Worker.Acts (c : Clock) (w : Worker) : Worker → Prop
  | pause {job : Job} (h : w.job.pause = .ok job) : Acts c w { w with job }
  | resume {job : Job} (h : w.job.resume = .ok job) : Acts c w { w with job }
  | launch {cancelled : List Scope} {calls calls' : CallLog} {tag : Trigger} {context : Context}
      {w' : Worker} (unscheduled : tag ≠ .schedule)
      (later : ∀ d, context.deadline = some d → c.elapsed ≤ d)
      (h : w.launch c cancelled calls tag context = .ok (w', calls')) : Acts c w w'
  | forsake : Acts c w { w with job := w.job.forsake c.now }

namespace Worker

variable {w w' : Worker} {c : Clock} {cancelled : List Scope} {calls calls' : CallLog}
  {tag : Trigger} {context : Context}

theorem label_settle (w : Worker) (c : Clock) (cancelled : List Scope) :
    Scheduler.label (w.settle c cancelled) = Scheduler.label w := by
  unfold settle Job.settle
  split
  next => split <;> rfl
  next => rfl

theorem label_launch (h : w.launch c cancelled calls tag context = .ok (w', calls')) :
    Scheduler.label w' = Scheduler.label w := by
  obtain ⟨started, ha, rfl⟩ := launch_eq_ok h
  obtain ⟨-, run, -, -, rfl⟩ := accept_eq_ok ha
  exact label_settle _ c cancelled

theorem Acts.label_eq (h : w.Acts c w') : Scheduler.label w' = Scheduler.label w := by
  cases h with
  | pause h =>
    unfold Job.pause at h
    split at h <;> cases h <;> rfl
  | resume h =>
    unfold Job.resume at h
    split at h <;> cases h
    rfl
  | launch _ _ h => exact label_launch h
  | forsake =>
    unfold Job.forsake Job.abandon
    split
    next =>
      split
      next => split <;> rfl
      next => rfl
    next => rfl

theorem Acts.orderly (h : w.Acts c w') (hw : w.job.Orderly c) : w'.job.Orderly c := by
  cases h with
  | pause h => exact hw.pause h
  | resume h => exact hw.resume h
  | launch _ later h => exact orderly_launch hw later h
  | forsake => exact hw.forsake

end Worker

/-- What has been settled has returned, or it is due later. -/
theorem Job.lt_due_settle {j : Job} {c : Clock} {cancelled : List Scope} {run : Run}
    (h : (j.settle c cancelled).gate = some run) : c.elapsed < run.due := by
  cases hg : j.gate with
  | none =>
    rw [settle_of_free hg, hg] at h
    cases h
  | some r =>
    cases ht : r.endTime? cancelled c.elapsed with
    | none =>
      rw [settle_of_running hg ht, hg] at h
      cases h
      exact Run.lt_due_of_endTime?_eq_none ht
    | some t =>
      rw [settle_of_returned hg ht] at h
      cases h

/-- What takes no time is over when its trigger is answered, so the rest is due later. -/
theorem Worker.lt_due_launch {w w' : Worker} {c : Clock} {cancelled : List Scope}
    {calls calls' : CallLog} {tag : Trigger} {context : Context} {id : Int} {due : Nat}
    (h : w.launch c cancelled calls tag context = .ok (w', calls'))
    (hd : w'.job.dueOf? id = some due) : c.elapsed < due := by
  obtain ⟨started, -, rfl⟩ := launch_eq_ok h
  change (started.job.settle c cancelled).dueOf? id = some due at hd
  unfold Job.dueOf? at hd
  cases hg : (started.job.settle c cancelled).gate with
  | none =>
    rw [hg] at hd
    cases hd
  | some run =>
    simp only [hg, Option.ite_none_right_eq_some] at hd
    obtain ⟨-, heq⟩ := hd
    cases heq
    exact Job.lt_due_settle hg

/-- An accepted trigger is logged under the caller of its job alone. -/
theorem Worker.calls_launch {w w' : Worker} {c : Clock} {cancelled : List Scope}
    {calls calls' : CallLog} {tag : Trigger} {context : Context}
    (h : w.launch c cancelled calls tag context = .ok (w', calls')) :
    calls' = calls.record w.caller c.elapsed := by
  obtain ⟨started, ha, -⟩ := launch_eq_ok h
  unfold accept at ha
  split at ha
  next => cases ha
  next =>
    cases ha
    rfl

namespace Scheduler

/-! ## §2. Changes of a scheduler -/

/-- What changing a job leads to. -/
theorem changeJob_eq_ok {s s' : Scheduler} {name : String} {f : Job → Except JobError Job}
    (h : s.changeJob name f = .ok s') : ∃ number w job, s.number? name = some number ∧
      s.worker? number = some w ∧ f w.job = .ok job ∧
      s' = s.setWorker number { w with job } := by
  unfold changeJob at h
  split at h
  next => cases h
  next number hnumber =>
    split at h
    next => cases h
    next w hw =>
      split at h
      next job hf =>
        cases h
        exact ⟨number, w, job, hnumber, hw, hf, rfl⟩
      next => cases h

namespace Session

variable {s s' : Session} {name : String} {tag : Trigger} {bounds : CallerBounds}
  {number : Nat} {execution : Int}

/-- What launching a job leads to. -/
theorem launch_eq_ok (h : s.launch name tag bounds = .ok (s', number, execution)) :
    s.scheduler.number? name = some number ∧ ∃ w w' calls,
      s.scheduler.worker? number = some w ∧
      w.launch s.clock s.cancelled s.calls tag (bounds.context s.tokens s.clock.elapsed)
        = .ok (w', calls) ∧
      s' = { s with scheduler := s.scheduler.setWorker number w', calls } ∧
      execution = w.job.history.nextId := by
  unfold launch at h
  split at h
  next => cases h
  next number' hnumber =>
    split at h
    next => cases h
    next w hw =>
      simp only at h
      split at h
      next => cases h
      next w' calls hl =>
        cases h
        exact ⟨hnumber, w, w', calls, hw, hl, rfl, rfl⟩

/-- Whoever waits for an execution that was launched now waits for some time. -/
theorem lt_due_launch (h : s.launch name tag bounds = .ok (s', number, execution)) {due : Nat}
    (hd : (s'.scheduler.worker? number).bind (·.job.dueOf? execution) = some due) :
    s.clock.elapsed < due := by
  obtain ⟨-, w, w', calls, hw, hl, rfl, -⟩ := launch_eq_ok h
  have hset : (s.scheduler.setWorker number w').worker? number = some w' := by
    rw [worker?_setWorker _ hw, if_pos rfl]
  rw [show ({ s with scheduler := s.scheduler.setWorker number w', calls } :
      Session).scheduler.worker? number = some w' from hset, Option.bind_some] at hd
  exact Worker.lt_due_launch hl hd

end Session

variable [ZoneBook] [Memory]

/-- What may be done to a scheduler at one moment, and the name of the job that it is addressed to,
if it is addressed to one. -/
inductive Changes (c : Clock) (s : Scheduler) : Option String → Scheduler → Prop
  | nothing (target : Option String) : Changes c s target s
  | add {name expr timezone : String} {options : JobOptions} {script : List Behaviour}
      {s' : Scheduler} (h : s.addJob c name expr timezone options script = .ok s') :
      Changes c s (some name) s'
  | remove {name : String} {s' : Scheduler} (h : s.removeJob name = .ok s') :
      Changes c s (some name) s'
  | act {name : String} {number : Nat} {w w' : Worker} (hn : s.number? name = some number)
      (hw : s.worker? number = some w) (h : w.Acts c w') :
      Changes c s (some name) (s.setWorker number w')
  | refresh {name : String} {number : Nat} (hn : s.number? name = some number) :
      Changes c s (some name) (s.refreshJob number)
  | refreshAll : Changes c s none s.refreshAll
  | start : Changes c s none (s.start c)
  | stop : Changes c s none (s.stop c).1

/-! ## §3. Events -/

/-- The name that a request is addressed to, if it is addressed to one. -/
def Request.target? : Request → Option String
  | .addJob name _ _ _ => some name
  | .removeJob name => some name
  | .pause name => some name
  | .resume name => some name
  | .trigger name _ => some name
  | .triggerSync name _ => some name
  | .status name => some name
  | .getJob name => some name
  | .hold name => some name
  | .history name _ => some name
  | _ => none

/-- What can happen to a session. -/
inductive Event where
  | request (r : Request)
  /-- A caller triggers a job and waits for it, and keeps nobody else waiting. -/
  | call (name : String) (bounds : CallerBounds)
  /-- Whoever waits for the execution under way of a job gives it up. -/
  | abandon (name : String)

/-- The name that an event is addressed to, if it is addressed to one. -/
def Event.target? : Event → Option String
  | .request r => r.target?
  | .call name _ => some name
  | .abandon name => some name

namespace Session

/-- Let one event happen. -/
def happen (s : Session) : Event → Session
  | .request r => (s.step r).1
  | .call name bounds =>
    match s.launch name .api bounds with
    | .ok (s, _) => s
    | .error _ => s
  | .abandon name => (s.change (s.scheduler.changeJob name fun j => .ok (j.forsake s.clock.now))).1

/-- Let a list of events happen in order. -/
def follow (s : Session) (events : List Event) : Session := events.foldl happen s

/-- The session that a request lets time pass for, and up to when. -/
def passes (s : Session) : Request → Option (Session × Nat)
  | .triggerSync name bounds =>
    match s.launch name .api bounds with
    | .ok (s, number, execution) =>
      ((s.scheduler.worker? number).bind (·.job.dueOf? execution)).map fun due => (s, due)
    | .error _ => none
  | .cancel id =>
    (s.tokens.lookup id).map fun scope =>
      ({ s with cancelled := scope :: s.cancelled }, s.clock.elapsed)
  | .advance ms => some (s, s.clock.elapsed + ms)
  | _ => none

/-- The session that an event lets time pass for, and up to when.  Callers who wait on their own let
none pass. -/
def passage? (s : Session) : Event → Option (Session × Nat)
  | .request r => s.passes r
  | .call _ _ | .abandon _ => none

/-! ## §4. The beginning of a step -/

/-- What is done at one moment; what is addressed to a job leaves everybody else's tokens, scripts
and calls alone. -/
structure Begins (s : Session) (target : Option String) (s' : Session) : Prop where
  clock : s'.clock = s.clock
  scheduler : s.scheduler.Changes s.clock target s'.scheduler
  scripts : s'.scripts = s.scripts
  scopes : target ≠ none →
    s'.cancelled = s.cancelled ∧ s'.tokens = s.tokens ∧ s'.fresh = s.fresh
  calls : ∀ caller, s'.calls.timesOf caller ≠ s.calls.timesOf caller →
    ∃ name number w, target = some name ∧ s.scheduler.number? name = some number ∧
      s.scheduler.worker? number = some w ∧ caller = w.caller

namespace Begins

variable {s s' : Session} {target : Option String}

/-- Nobody is called. -/
theorem of_calls (clock : s'.clock = s.clock)
    (scheduler : s.scheduler.Changes s.clock target s'.scheduler) (scripts : s'.scripts = s.scripts)
    (scopes : target ≠ none →
      s'.cancelled = s.cancelled ∧ s'.tokens = s.tokens ∧ s'.fresh = s.fresh)
    (calls : s'.calls = s.calls) : s.Begins target s' :=
  ⟨clock, scheduler, scripts, scopes,
    fun caller hne => absurd (congrArg (CallLog.timesOf · caller) calls) hne⟩

/-- The scheduler changes, and nothing else. -/
theorem of_changes {scheduler : Scheduler}
    (h : s.scheduler.Changes s.clock target scheduler) :
    s.Begins target { s with scheduler } :=
  of_calls rfl h rfl (fun _ => ⟨rfl, rfl, rfl⟩) rfl

theorem refl (s : Session) (target : Option String) : s.Begins target s :=
  of_changes (.nothing target)

theorem of_change {r : Except SchedulerError Scheduler}
    (h : ∀ scheduler, r = .ok scheduler → s.scheduler.Changes s.clock target scheduler) :
    s.Begins target (s.change r).1 := by
  cases r with
  | ok scheduler => exact of_changes (h scheduler rfl)
  | error e => exact refl s target

end Begins

variable {s s' : Session} {name : String} {tag : Trigger} {bounds : CallerBounds}
  {number : Nat} {execution : Int}

theorem begins_launch (h : s.launch name tag bounds = .ok (s', number, execution))
    (unscheduled : tag ≠ .schedule) : s.Begins (some name) s' := by
  obtain ⟨hnumber, w, w', calls, hw, hl, rfl, -⟩ := launch_eq_ok h
  refine ⟨rfl, .act hnumber hw (.launch unscheduled (bounds.le_deadline _ _) hl), rfl,
    fun _ => ⟨rfl, rfl, rfl⟩, fun caller hne => ⟨name, number, w, rfl, hnumber, hw, ?_⟩⟩
  by_contra hother
  refine hne ?_
  show calls.timesOf caller = _
  rw [Worker.calls_launch hl, CallLog.timesOf_record_ne _ hother]

/-! ## §5. The two parts of a step -/

/-- **A request does something at once, and then it may let time pass.**  If it is addressed to a
job, the time that it lets pass is not nothing. -/
theorem step_begins (s : Session) (r : Request) :
    (∃ s' ms, s.passes r = some (s', ms) ∧ s.Begins r.target? s' ∧
      (r.target? ≠ none → s.clock.elapsed < ms) ∧ (s.step r).1 = s'.passTo ms) ∨
      (s.passes r = none ∧ s.Begins r.target? (s.step r).1) := by
  cases r with
  | addJob name expr timezone options =>
    exact .inr ⟨rfl, .of_change fun _ h => .add h⟩
  | removeJob name => exact .inr ⟨rfl, .of_change fun _ h => .remove h⟩
  | pause name =>
    refine .inr ⟨rfl, .of_change fun scheduler h => ?_⟩
    obtain ⟨number, w, job, hnumber, hw, hf, rfl⟩ := changeJob_eq_ok h
    exact .act hnumber hw (.pause hf)
  | resume name =>
    refine .inr ⟨rfl, .of_change fun scheduler h => ?_⟩
    obtain ⟨number, w, job, hnumber, hw, hf, rfl⟩ := changeJob_eq_ok h
    exact .act hnumber hw (.resume hf)
  | trigger name bounds =>
    refine .inr ⟨rfl, ?_⟩
    simp only [step]
    split
    next s' _ hl => exact begins_launch hl nofun
    next => exact .refl s _
  | triggerSync name bounds =>
    -- time passes if the job was launched and its end is known
    cases hl : s.launch name .api bounds with
    | error e =>
      refine .inr ⟨?_, ?_⟩
      · simp only [passes, hl]
      · simp only [step, hl]
        exact .refl s _
    | ok p =>
      obtain ⟨s', number, execution⟩ := p
      have hbegins := begins_launch hl nofun
      cases hd : (s'.scheduler.worker? number).bind (·.job.dueOf? execution) with
      | none =>
        refine .inr ⟨?_, ?_⟩
        · simp only [passes, hl, hd, Option.map_none]
        · simp only [step, hl, await, hd]
          exact hbegins
      | some due =>
        refine .inl ⟨s', due, ?_, hbegins, fun _ => lt_due_launch hl hd, ?_⟩
        · simp only [passes, hl, hd, Option.map_some]
        · simp only [step, hl, await, hd]
  | cancel id =>
    -- the jobs of a token notice that it is cancelled without time going by
    cases hl : s.tokens.lookup id with
    | none =>
      refine .inr ⟨?_, ?_⟩
      · simp only [passes, hl, Option.map_none]
      · simp only [step, hl]
        exact .refl s _
    | some scope =>
      refine .inl ⟨{ s with cancelled := scope :: s.cancelled }, s.clock.elapsed, ?_, ?_, ?_, ?_⟩
      · simp only [passes, hl, Option.map_some]
      · exact .of_calls rfl (.nothing none) rfl (fun h => absurd rfl h) rfl
      · exact fun h => absurd rfl h
      · simp only [step, hl]
  | advance ms => exact .inl ⟨s, _, rfl, .refl s none, fun h => absurd rfl h, rfl⟩
  | status name =>
    refine .inr ⟨rfl, ?_⟩
    simp only [step]
    split
    next number hnumber =>
      split
      next => exact .of_changes (.refresh hnumber)
      next => exact .refl s _
    next => exact .refl s _
  | statuses => exact .inr ⟨rfl, .of_changes .refreshAll⟩
  | hold name =>
    refine .inr ⟨rfl, ?_⟩
    simp only [step]
    split
    next => exact .of_calls rfl (.nothing _) rfl (fun _ => ⟨rfl, rfl, rfl⟩) rfl
    next => exact .refl s _
  | history name limit =>
    refine .inr ⟨rfl, ?_⟩
    simp only [step]
    split <;> exact .refl s _
  | start => exact .inr ⟨rfl, .of_changes .start⟩
  | stop => exact .inr ⟨rfl, .of_changes .stop⟩
  | token id => exact .inr ⟨rfl, .of_calls rfl (.nothing none) rfl (fun h => absurd rfl h) rfl⟩
  | getJob | held | names | historySize | stats | elapsed | calls =>
    exact .inr ⟨rfl, .refl s _⟩

/-- **Whatever happens does something at once, and then it may let time pass.** -/
theorem happen_parts (s : Session) (e : Event) :
    (∃ s' ms, s.passage? e = some (s', ms) ∧ s.Begins e.target? s' ∧
      (e.target? ≠ none → s.clock.elapsed < ms) ∧ s.happen e = s'.passTo ms) ∨
      (s.passage? e = none ∧ s.Begins e.target? (s.happen e)) := by
  cases e with
  | request r => exact s.step_begins r
  | call name bounds =>
    refine .inr ⟨rfl, ?_⟩
    simp only [happen]
    split
    next s' _ hl => exact begins_launch hl nofun
    next => exact .refl s _
  | abandon name =>
    refine .inr ⟨rfl, .of_change fun scheduler h => ?_⟩
    obtain ⟨number, w, job, hnumber, hw, hf, rfl⟩ := changeJob_eq_ok h
    cases hf
    exact .act hnumber hw .forsake

theorem happen_begins (s : Session) (e : Event) : ∃ s', s.Begins e.target? s' ∧
    (s.happen e = s' ∨
      ∃ ms, (e.target? ≠ none → s.clock.elapsed < ms) ∧ s.happen e = s'.passTo ms) := by
  rcases s.happen_parts e with ⟨s', ms, -, hbegins, hlater, heq⟩ | ⟨-, hbegins⟩
  · exact ⟨s', hbegins, .inr ⟨ms, hlater, heq⟩⟩
  · exact ⟨_, hbegins, .inl rfl⟩

end Session

end Scheduler

end CronSupervisor
