/-
  CronSupervisor.Job.Basic — a job, its gate and its history.

  A job is idle, executing or paused.  Only an idle job admits a trigger, so two executions of one
  job never overlap: a trigger that comes while one is under way is refused, not queued.  The
  execution under way holds the gate until its executor returns or its caller abandons it;
  cancellation and deadlines reach the executor, not the gate.  Times inside an execution are
  milliseconds of a `Clock`.
-/
import CronSupervisor.Clock
import CronSupervisor.Context.Basic
import CronSupervisor.Cron.Schedule
import CronSupervisor.History.Basic

namespace CronSupervisor

open Calendar Cron Text

/-! ## §1. States and refusals -/

/-- The state of a job. -/
inductive JobState where
  | idle
  | executing
  /-- Triggers are refused until the job is resumed. -/
  | paused
  deriving DecidableEq

/-- The name of a state. -/
def JobState.name : JobState → String
  | idle => "idle"
  | executing => "executing"
  | paused => "paused"

/-- The title of a state in descriptions. -/
def JobState.title : JobState → String
  | idle => "Idle"
  | executing => "Executing"
  | paused => "Paused"

/-- All states. -/
def JobState.all : List JobState := [idle, executing, paused]

/-- Why a request to a job failed; the name is that of the job. -/
inductive JobError where
  | paused (name : String)
  | alreadyExecuting (name : String)
  | pauseWhileExecuting (name : String)
  | notPaused (name : String)
  /-- The request was admitted and its execution failed. -/
  | execution (error : ExecutionError)
  deriving DecidableEq

namespace JobError

/-- The wording of a failure. -/
def message : JobError → String
  | paused name => s!"job {quote name} is paused"
  | alreadyExecuting name => s!"job {quote name} is already executing"
  | pauseWhileExecuting name => s!"cannot pause job {quote name} while it is executing"
  | notPaused name => s!"job {quote name} is not paused"
  | execution e => e.message

/-- The exit code that is reported for a failure. -/
def exitCode : JobError → Int
  | execution e => e.exitCode
  | _ => noExitCode

end JobError

/-! ## §2. Executions under way -/

/-- What an execution returns: an exit code, or a failure. -/
abbrev Outcome := Except ExecutionError Int

/-- The exit code of an outcome. -/
def Outcome.exitCode : Outcome → Int
  | .ok code => code
  | .error e => e.exitCode

/-- An outcome is a success when it is exit code zero. -/
def Outcome.isSuccess : Outcome → Bool
  | .ok code => code = 0
  | .error _ => false

/-- The wording of the failure, or nothing. -/
def Outcome.errorText : Outcome → String
  | .ok _ => ""
  | .error e => e.message

/-- An execution under way. -/
structure Run where
  /-- Its entry in the history. -/
  execution : Int
  context : Context
  /-- Whether the executor stops when its context is done. -/
  heedsContext : Bool
  /-- When the work is done. -/
  workDone : Nat
  /-- What the executor returns if it is left to finish. -/
  outcome : Outcome

namespace Run

/-- When the executor returns, if nothing is cancelled before. -/
def due (r : Run) : Nat :=
  match r.heedsContext, r.context.deadline with
  | true, some d => min d r.workDone
  | _, _ => r.workDone

/-- When the executor returned, if that was not after `now`; a cancelled scope is noticed at
once. -/
def endTime? (r : Run) (cancelled : List Scope) (now : Nat) : Option Nat :=
  if r.due ≤ now then some r.due
  else if r.heedsContext && r.context.isCancelled cancelled then some now
  else none

/-- What the executor returns at a time: the reason of its context, if that is done. -/
def outcomeAt (r : Run) (cancelled : List Scope) (now : Nat) : Outcome :=
  match r.heedsContext, r.context.error? cancelled now with
  | true, some e => .error e.toExecutionError
  | _, _ => r.outcome

end Run

/-! ## §3. Jobs -/

/-- A job and what is known about it. -/
structure Job where
  name : String
  schedule : Schedule
  /-- The zone's name as it was given. -/
  timezone : String
  /-- The bound on each execution, in milliseconds; none if it is zero. -/
  timeout : Option Nat
  /-- Reported only: executions never overlap. -/
  maxConcurrent : Nat
  history : History
  state : JobState := .idle
  lastRun : Option Instant := none
  nextRun : Option Instant := none
  /-- The identifier of the execution under way. -/
  current : Option Int := none
  /-- The entry of the timer engine that triggers the job. -/
  entry : Option Nat := none
  /-- The execution that holds the gate. -/
  gate : Option Run := none
  /-- What finished executions returned, newest first. -/
  replies : List (Int × Outcome) := []

namespace Job

/-- An idle job that never ran. -/
def create (name : String) (schedule : Schedule) (timezone : String) (historySize : Nat)
    (timeout : Option Nat) (maxConcurrent : Nat) : Job :=
  { name, schedule, timezone
    timeout := timeout.filter (0 < ·)
    maxConcurrent := max maxConcurrent 1
    history := .empty historySize }

/-- Whether a trigger would be admitted. -/
def canExecute (j : Job) : Bool := j.state == .idle

/-- Refuse triggers from now on. -/
def pause (j : Job) : Except JobError Job :=
  match j.state with
  | .executing => .error (.pauseWhileExecuting j.name)
  | .paused => .ok j
  | .idle => .ok { j with state := .paused }

/-- Admit triggers again. -/
def resume (j : Job) : Except JobError Job :=
  match j.state with
  | .paused => .ok { j with state := .idle }
  | _ => .error (.notPaused j.name)

/-- Why a trigger is refused at present, if it is: the gate is looked at first. -/
def refusal? (j : Job) : Option JobError :=
  if j.gate.isSome then some (.alreadyExecuting j.name)
  else match j.state with
    | .paused => some (.paused j.name)
    | .executing => some (.alreadyExecuting j.name)
    | .idle => none

/-- Open an execution and hand it the gate. -/
def begin (j : Job) (now : Instant) (trigger : Trigger) (run : Int → Run) : Job :=
  { j with
    history := j.history.start now trigger
    state := .executing
    lastRun := some now
    current := some j.history.nextId
    gate := some (run j.history.nextId) }

/-- Close an execution and free the gate. -/
def close (j : Job) (now : Instant) (id exitCode : Int) (success : Bool) (error : String) : Job :=
  { j with
    history := j.history.finish now id exitCode success error
    state := .idle
    current := none
    gate := none }

/-- Record what the execution under way returned. -/
def finish (j : Job) (now : Instant) (id : Int) (outcome : Outcome) : Job :=
  { j.close now id outcome.exitCode outcome.isSuccess outcome.errorText with
    replies := (id, outcome) :: j.replies }

/-- Give up an execution, if it is still under way; it is recorded as cancelled. -/
def abandon (j : Job) (now : Instant) (id : Int) : Job :=
  match j.gate with
  | some run =>
    if run.execution = id then
      j.close now id noExitCode false ExecutionError.cancelled.message
    else j
  | none => j

/-- Let the execution under way return, if it has by the present time of the clock. -/
def settle (j : Job) (clock : Clock) (cancelled : List Scope) : Job :=
  match j.gate with
  | some run =>
    match run.endTime? cancelled clock.elapsed with
    | some t => j.finish (clock.instantAt t) run.execution (run.outcomeAt cancelled t)
    | none => j
  | none => j

/-- When the execution under way returns, if it has a given identifier. -/
def dueOf? (j : Job) (id : Int) : Option Nat :=
  match j.gate with
  | some run => if run.execution = id then some run.due else none
  | none => none

/-- What a finished execution returned. -/
def reply? (j : Job) (id : Int) : Option Outcome := j.replies.lookup id

/-! ## §4. Descriptions -/

/-- One line on the job. -/
def description (j : Job) : String :=
  s!"ScheduledJob \x7b name: {quote j.name}, schedule: {quote j.schedule.expression}, "
    ++ s!"state: {j.state.title} \x7d"

/-- What is reported about a job at one moment. -/
structure Status where
  name : String
  schedule : String
  timezone : String
  state : JobState
  lastRun : Option Instant
  nextRun : Option Instant
  currentExecution : Option Int
  stats : History.Stats

/-- The report at present. -/
def status (j : Job) : Status :=
  { name := j.name
    schedule := j.schedule.expression
    timezone := j.timezone
    state := j.state
    lastRun := j.lastRun
    nextRun := j.nextRun
    currentExecution := j.current
    stats := j.history.stats }

end Job

end CronSupervisor
