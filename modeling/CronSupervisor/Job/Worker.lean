/-
  CronSupervisor.Job.Worker — a job together with the script of its executor.

  `accept` takes a trigger and calls the executor, `launch` also lets it return at once; `passTime`
  lets time pass, with scheduled triggers on the way.  Nothing but its own triggers, its own
  execution and cancelled scopes ever touches a worker, so the workers of different jobs can be
  moved through time one by one.
-/
import CronSupervisor.Execution.Script

namespace CronSupervisor

open Calendar

/-- A job and the executor that is called for it. -/
structure Worker where
  job : Job
  caller : Caller
  script : List Behaviour

namespace Worker

/-- The bounds of an execution that starts now: the caller's, and the job's own timeout. -/
def bounds (w : Worker) (clock : Clock) (context : Context) : Context :=
  match w.job.timeout with
  | some timeout => context.limit clock.elapsed timeout
  | none => context

/-- Let the execution under way return, if it has by now. -/
def settle (w : Worker) (clock : Clock) (cancelled : List Scope) : Worker :=
  { w with job := w.job.settle clock cancelled }

/-- Accept a trigger and call the executor, or say why not. -/
def accept (w : Worker) (clock : Clock) (calls : CallLog) (trigger : Trigger) (context : Context) :
    Except JobError (Worker × CallLog) :=
  match w.job.refusal? with
  | some e => .error e
  | none =>
    let behaviour := behaviourAt w.script (calls.timesOf w.caller).length
    let run := behaviour.run (w.bounds clock context) clock.elapsed
    .ok ({ w with job := w.job.begin clock.now trigger run }, calls.record w.caller clock.elapsed)

/-- Accept a trigger, or say why not.  What takes no time is done at once. -/
def launch (w : Worker) (clock : Clock) (cancelled : List Scope) (calls : CallLog)
    (trigger : Trigger) (context : Context) : Except JobError (Worker × CallLog) :=
  match w.accept clock calls trigger context with
  | .ok (started, calls) => .ok (started.settle clock cancelled, calls)
  | .error e => .error e

/-- A scheduled trigger; a refusal drops it. -/
def tick (w : Worker) (clock : Clock) (cancelled : List Scope) (calls : CallLog) :
    Worker × CallLog :=
  let w := w.settle clock cancelled
  match w.launch clock cancelled calls .schedule .background with
  | .ok started => started
  | .error _ => (w, calls)

/-- Let time pass up to the clock's present, with scheduled triggers at the given milliseconds. -/
def passTime (w : Worker) (clock : Clock) (cancelled : List Scope) (calls : CallLog) :
    List Nat → Worker × CallLog
  | [] => (w.settle clock cancelled, calls)
  | t :: ts =>
    let (w, calls) := w.tick { clock with elapsed := t } cancelled calls
    w.passTime clock cancelled calls ts

end Worker

end CronSupervisor
