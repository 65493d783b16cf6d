/-
  CronSupervisor.Scheduler.Session — requests to a scheduler in simulated time.

  A session adds to the scheduler the clock, cancellation tokens, the scripts that the shared
  executor follows for each job, the log of its calls, and one job that is kept in sight.  A trigger
  whose caller waits lets time pass until that execution has returned.
-/
import CronSupervisor.Job.Session
import CronSupervisor.Scheduler.Basic

namespace CronSupervisor.Scheduler

open Calendar

/-- What can be asked of the session. -/
inductive Request where
  | addJob (name expr timezone : String) (options : JobOptions)
  | removeJob (name : String)
  | pause (name : String)
  | resume (name : String)
  | trigger (name : String) (bounds : CallerBounds)
  | triggerSync (name : String) (bounds : CallerBounds)
  | status (name : String)
  | statuses
  | getJob (name : String)
  /-- Keep a job in sight, also once it is removed; an unknown name changes nothing. -/
  | hold (name : String)
  | held
  | names
  | history (name : String) (limit : Nat)
  | historySize
  | start
  | stop
  | stats
  | token (id : String)
  | cancel (id : String)
  | advance (ms : Nat)
  | elapsed
  | calls

/-- The answer to a request. -/
inductive Reply where
  | done
  | exitCode (code : Int)
  | failed (error : SchedulerError)
  | abandoned
  | status (s : Job.Status)
  | statuses (ss : List Job.Status)
  | job (j : Option Job)
  | held (j : Option Job)
  | names (ns : List String)
  | entries (es : List Entry)
  | size (n : Nat)
  | started (isStarted : Bool)
  | stats (s : SchedulerStats)
  | elapsed (ms : Nat)
  | calls (log : CallLog)

/-- The reply that reports an outcome. -/
def Reply.ofOutcome : Outcome → Reply
  | .ok code => .exitCode code
  | .error e => .failed (.job (.execution e))

/-- A scheduler and what surrounds it. -/
structure Session where
  clock : Clock
  fresh : Scope := 0
  cancelled : List Scope := []
  tokens : List (String × Scope) := []
  /-- What the shared executor does for each job. -/
  scripts : List (String × List Behaviour) := []
  calls : CallLog := {}
  scheduler : Scheduler
  /-- The number of the job in sight. -/
  heldJob : Option Nat := none

namespace Session

/-- A session at the start of its clock, without jobs. -/
def init (start : Instant) (historySize : Nat) (scripts : List (String × List Behaviour)) :
    Session :=
  { clock := ⟨start, 0⟩, scripts, scheduler := { historySize } }

/-- Let time pass up to a moment. -/
def passTo (s : Session) (ms : Nat) : Session :=
  let clock := s.clock.advanceTo ms
  let (scheduler, calls) := s.scheduler.passTime clock s.cancelled s.calls
  { s with clock, scheduler, calls }

/-- Trigger a job; yields its number and the identifier of the admitted execution. -/
def launch (s : Session) (name : String) (trigger : Trigger) (bounds : CallerBounds) :
    Except SchedulerError (Session × Nat × Int) :=
  match s.scheduler.number? name with
  | none => .error (.notFound name)
  | some number =>
    match s.scheduler.worker? number with
    | none => .error (.notFound name)
    | some w =>
      let context := bounds.context s.tokens s.clock.elapsed
      match w.launch s.clock s.cancelled s.calls trigger context with
      | .error e => .error (.job e)
      | .ok (w', calls) =>
        .ok ({ s with scheduler := s.scheduler.setWorker number w', calls }, number,
          w.job.history.nextId)

/-- Let time pass until an execution of a job has returned. -/
def await (s : Session) (number : Nat) (execution : Int) : Session :=
  match (s.scheduler.worker? number).bind (·.job.dueOf? execution) with
  | some due => s.passTo due
  | none => s

/-- The reply to the caller of an execution that is over. -/
def replyOf (s : Session) (number : Nat) (execution : Int) : Reply :=
  match (s.scheduler.worker? number).bind (·.job.reply? execution) with
  | some outcome => .ofOutcome outcome
  | none => .abandoned

/-- Go on with a changed scheduler, or say why not. -/
def change (s : Session) : Except SchedulerError Scheduler → Session × Reply
  | .ok scheduler => ({ s with scheduler }, .done)
  | .error e => (s, .failed e)

variable [ZoneBook] [Memory]

/-- Answer one request. -/
def step (s : Session) : Request → Session × Reply
  | .addJob name expr timezone options =>
    s.change (s.scheduler.addJob s.clock name expr timezone options
      ((s.scripts.lookup name).getD []))
  | .removeJob name => s.change (s.scheduler.removeJob name)
  | .pause name => s.change (s.scheduler.changeJob name Job.pause)
  | .resume name => s.change (s.scheduler.changeJob name Job.resume)
  | .trigger name bounds =>
    match s.launch name .manual bounds with
    | .ok (s, _) => (s, .done)
    | .error e => (s, .failed e)
  | .triggerSync name bounds =>
    match s.launch name .api bounds with
    | .ok (s, number, execution) =>
      let s := s.await number execution
      (s, s.replyOf number execution)
    | .error e => (s, .failed e)
  | .status name =>
    match s.scheduler.number? name with
    | some number =>
      let scheduler := s.scheduler.refreshJob number
      match scheduler.worker? number with
      | some w => ({ s with scheduler }, .status w.job.status)
      | none => (s, .failed (.notFound name))
    | none => (s, .failed (.notFound name))
  | .statuses =>
    let scheduler := s.scheduler.refreshAll
    ({ s with scheduler }, .statuses (scheduler.registered.map (·.job.status)))
  | .getJob name => (s, .job ((s.scheduler.find? name).map (·.job)))
  | .hold name =>
    match s.scheduler.number? name with
    | some number => ({ s with heldJob := some number }, .done)
    | none => (s, .job none)
  | .held => (s, .held ((s.heldJob.bind s.scheduler.worker?).map (·.job)))
  | .names => (s, .names s.scheduler.names)
  | .history name limit =>
    match s.scheduler.find? name with
    | some w => (s, .entries (w.job.history.recent limit))
    | none => (s, .failed (.notFound name))
  | .historySize => (s, .size s.scheduler.historySize)
  | .start =>
    let scheduler := s.scheduler.start s.clock
    ({ s with scheduler }, .started scheduler.startTime.isSome)
  | .stop =>
    let (scheduler, _) := s.scheduler.stop s.clock
    ({ s with scheduler }, .started scheduler.startTime.isSome)
  | .stats => (s, .stats s.scheduler.stats)
  | .token id => ({ s with tokens := (id, s.fresh) :: s.tokens, fresh := s.fresh + 1 }, .done)
  | .cancel id =>
    match s.tokens.lookup id with
    | some scope =>
      let s := { s with cancelled := scope :: s.cancelled }
      (s.passTo s.clock.elapsed, .done)
    | none => (s, .done)
  | .advance ms =>
    let s := s.passTo (s.clock.elapsed + ms)
    (s, .elapsed s.clock.elapsed)
  | .elapsed => (s, .elapsed s.clock.elapsed)
  | .calls => (s, .calls s.calls)

/-- Answer a list of requests in order. -/
def run (s : Session) : List Request → Session × List Reply
  | [] => (s, [])
  | r :: rs =>
    let (s, reply) := s.step r
    let (s, replies) := s.run rs
    (s, reply :: replies)

end Session

end CronSupervisor.Scheduler
