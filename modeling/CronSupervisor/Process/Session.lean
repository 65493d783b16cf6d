/-
  CronSupervisor.Process.Session — requests to a registry of processes and to jobs that run them.

  A caller waits for every run, so runs follow one another.  The deadline and the cancellation of a
  caller are given as times after the start of the run.
-/
import CronSupervisor.Process.Execution
import CronSupervisor.Scheduler.Basic

namespace CronSupervisor.ProcessRegistry

open Calendar

/-- The bounds that a caller sets to a run. -/
structure RunBounds where
  timeout : Option Nat := none
  /-- When the run is cancelled; at zero it is before it starts. -/
  cancelledAt : Option Nat := none

/-- What can be asked of the session. -/
inductive Request where
  | register (name : String) (settings : ProcessSettings)
  | unregister (name : String)
  | isRegistered (name : String)
  | execute (name : String) (bounds : RunBounds)
  /-- The captured lines; those of other streams are left out after the limit is applied. -/
  | logs (name : String) (limit : Nat) (stream : Option Stream)
  | addJob (name : String) (timeout : Option Nat)
  | triggerSync (name : String) (bounds : RunBounds)
  | history (name : String) (limit : Nat)

/-- The answer to a request. -/
inductive Reply where
  | done
  | refused (error : RegistrationError)
  | registered (found : Bool)
  | exitCode (code : Int)
  | failed (error : SchedulerError)
  | lines (es : List LogEntry)
  | entries (es : List Entry)

/-- The reply that reports an outcome. -/
def Reply.ofOutcome : Outcome → Reply
  | .ok code => .exitCode code
  | .error e => .failed (.job (.execution e))

/-- Processes, the jobs that run them, and the time. -/
structure Session where
  clock : Clock
  processes : ProcessRegistry
  scheduler : Scheduler := { historySize := History.defaultCapacity }

namespace Session

/-- The schedule of a job that is only triggered by hand. -/
def everyMinute : String := "* * * * *"

/-- Run the process of a name within a context of which the times count from now. -/
def execute (system : System) (s : Session) (name : String) (context : Context)
    (cancelledAt : Option Nat) : Session × Outcome :=
  let (processes, outcome, elapsed) :=
    s.processes.execute system s.clock.now name context cancelledAt
  ({ s with processes, clock := s.clock.advanceTo (s.clock.elapsed + elapsed) }, outcome)

/-- The context of a caller. -/
def callerContext (bounds : RunBounds) : Context := { scopes := [], deadline := bounds.timeout }

/-- Trigger a job and wait for it. -/
def trigger (system : System) (s : Session) (name : String) (bounds : RunBounds) :
    Session × Reply :=
  match s.scheduler.number? name with
  | none => (s, .failed (.notFound name))
  | some number =>
    match s.scheduler.worker? number with
    | none => (s, .failed (.notFound name))
    | some w =>
      match w.job.refusal? with
      | some e => (s, .failed (.job e))
      | none =>
        let context := match w.job.timeout with
          | some timeout => (callerContext bounds).limit 0 timeout
          | none => callerContext bounds
        let (after, outcome) := s.execute system name context bounds.cancelledAt
        let id := w.job.history.nextId
        let run := fun (execution : Int) =>
          { execution, context, heedsContext := true
            workDone := after.clock.elapsed, outcome : Run }
        let job := (w.job.begin s.clock.now .api run).finish after.clock.now id outcome
        ({ after with scheduler := after.scheduler.setWorker number { w with job } },
          .ofOutcome outcome)

variable [ZoneBook] [PatternSyntax] [Memory]

/-- Answer one request. -/
def step (system : System) (s : Session) : Request → Session × Reply
  | .register name settings =>
    match s.processes.register name settings with
    | .ok processes => ({ s with processes }, .done)
    | .error e => (s, .refused e)
  | .unregister name => ({ s with processes := s.processes.unregister name }, .done)
  | .isRegistered name => (s, .registered (s.processes.find? name).isSome)
  | .execute name bounds =>
    let (s, outcome) := s.execute system name (callerContext bounds) bounds.cancelledAt
    (s, .ofOutcome outcome)
  | .logs name limit stream =>
    let es := s.processes.logs name limit
    (s, .lines (match stream with
      | some stream => es.filter (·.stream = stream)
      | none => es))
  | .addJob name timeout =>
    match s.scheduler.addJob s.clock name everyMinute "UTC" { timeout } [] with
    | .ok scheduler => ({ s with scheduler }, .done)
    | .error e => (s, .failed e)
  | .triggerSync name bounds => s.trigger system name bounds
  | .history name limit =>
    match s.scheduler.find? name with
    | some w => (s, .entries (w.job.history.recent limit))
    | none => (s, .failed (.notFound name))

/-- Answer a list of requests in order. -/
def run (system : System) (s : Session) : List Request → Session × List Reply
  | [] => (s, [])
  | r :: rs =>
    let (s, reply) := s.step system r
    let (s, replies) := s.run system rs
    (s, reply :: replies)

end Session

end CronSupervisor.ProcessRegistry
