/-
  CronSupervisor.Scheduler.Basic — a registry of jobs on a timer engine.

  Every job that was ever added has a number and keeps it; the registry maps the names of the jobs
  that are registered now to their numbers, in ascending order of names.  The payload of an engine
  entry is the number of the job that it triggers.  A job that was removed is no longer triggered,
  but an execution of it that was under way goes on.
-/
import CronSupervisor.Engine.Basic
import CronSupervisor.Job.Worker

namespace CronSupervisor

open Calendar Cron Text

/-! ## §1. Refusals -/

/-- Why a request to the scheduler failed. -/
inductive SchedulerError where
  | duplicateJob (name : String)
  | notFound (name : String)
  | cron (error : CronError)
  | job (error : JobError)
  /-- There is no memory for the history of the job. -/
  | exhausted
  deriving DecidableEq

namespace SchedulerError

/-- The wording of a failure, where it has one. -/
def message? : SchedulerError → Option String
  | duplicateJob name => some s!"job {quote name} already exists"
  | notFound name => some s!"job {quote name} not found"
  | cron e => e.message?
  | job e => some e.message
  | exhausted => none

/-- The exit code that is reported for a failure. -/
def exitCode : SchedulerError → Int
  | job e => e.exitCode
  | _ => noExitCode

end SchedulerError

/-! ## §2. The registry -/

/-- Names with numbers, in ascending order of names. -/
abbrev Registry := List (String × Nat)

namespace Registry

/-- Put a name in its place. -/
def insert (name : String) (number : Nat) : Registry → Registry
  | [] => [(name, number)]
  | (n, k) :: rest =>
    if name < n then (name, number) :: (n, k) :: rest else (n, k) :: insert name number rest

/-- Drop a name. -/
def remove (name : String) (r : Registry) : Registry := r.filter (·.1 ≠ name)

end Registry

/-! ## §3. Schedulers -/

/-- What a job is registered with. -/
structure JobOptions where
  /-- The bound on each execution, in milliseconds. -/
  timeout : Option Nat := none
  maxConcurrent : Nat := 0
  /-- The script of the job's own executor; the shared one is used without it. -/
  script : Option (List Behaviour) := none

/-- Jobs, by number, and the engine that triggers them. -/
structure Scheduler where
  historySize : Nat
  engine : Engine Nat := {}
  registry : Registry := []
  /-- Every job that was ever added, in the order of their numbers. -/
  workers : List Worker := []
  /-- When triggering was started; absent while it is stopped. -/
  startTime : Option Instant := none

/-- How many jobs are in which state. -/
structure SchedulerStats where
  totalJobs : Nat
  idleJobs : Nat
  executingJobs : Nat
  pausedJobs : Nat
  isStarted : Bool
  startTime : Option Instant

namespace Scheduler

/-- The number of a registered job. -/
def number? (s : Scheduler) (name : String) : Option Nat := s.registry.lookup name

/-- A job by its number. -/
def worker? (s : Scheduler) (number : Nat) : Option Worker := s.workers[number]?

/-- A registered job. -/
def find? (s : Scheduler) (name : String) : Option Worker :=
  (s.number? name).bind s.worker?

/-- Replace a job. -/
def setWorker (s : Scheduler) (number : Nat) (w : Worker) : Scheduler :=
  { s with workers := s.workers.set number w }

/-- Change a job by its number. -/
def modifyJob (s : Scheduler) (number : Nat) (f : Job → Job) : Scheduler :=
  { s with workers := s.workers.modify number fun w => { w with job := f w.job } }

/-- The registered names, in ascending order. -/
def names (s : Scheduler) : List String := s.registry.map (·.1)

/-- The registered jobs, in ascending order of names. -/
def registered (s : Scheduler) : List Worker := s.registry.filterMap fun (_, n) => s.worker? n

/-- Register a job and put its schedule into the engine.  The expression is looked at before the
name, and both before memory is reserved. -/
def addJob [ZoneBook] [Memory] (s : Scheduler) (clock : Clock) (name expr timezone : String)
    (options : JobOptions) (sharedScript : List Behaviour) : Except SchedulerError Scheduler :=
  match Schedule.parse expr timezone with
  | .error e => .error (.cron e)
  | .ok schedule =>
    if (s.number? name).isSome then .error (.duplicateJob name)
    else if ¬ History.Fits s.historySize then .error .exhausted
    else
      let number := s.workers.length
      let (engine, entry) := s.engine.add clock schedule number
      let job := Job.create name schedule timezone s.historySize options.timeout
        options.maxConcurrent
      let job := { job with entry := some entry, nextRun := engine.next? entry }
      let worker : Worker := match options.script with
        | some script => { job, caller := .own name, script }
        | none => { job, caller := .shared name, script := sharedScript }
      .ok { s with
        engine
        registry := Registry.insert name number s.registry
        workers := s.workers ++ [worker] }

/-- Take a job out of the registry and its schedule out of the engine. -/
def removeJob (s : Scheduler) (name : String) : Except SchedulerError Scheduler :=
  match s.number? name with
  | none => .error (.notFound name)
  | some number =>
    let engine := match (s.worker? number).bind (·.job.entry) with
      | some entry => s.engine.remove entry
      | none => s.engine
    .ok ({ s with engine, registry := s.registry.remove name }.modifyJob number
      fun j => { j with entry := none })

/-- What the engine knows about a job's next run, as the job itself reports it. -/
def refresh (engine : Engine Nat) (j : Job) : Job :=
  match j.entry with
  | some entry => { j with nextRun := engine.next? entry }
  | none => j

/-- Let the job of a number report its next run anew. -/
def refreshJob (s : Scheduler) (number : Nat) : Scheduler := s.modifyJob number (refresh s.engine)

/-- Let all registered jobs report their next runs anew. -/
def refreshAll (s : Scheduler) : Scheduler :=
  s.registry.foldl (fun s (_, number) => s.refreshJob number) s

/-- Start triggering, unless it is started. -/
def start (s : Scheduler) (clock : Clock) : Scheduler :=
  if s.startTime.isSome then s
  else { s with engine := s.engine.start clock, startTime := some clock.now }.refreshAll

/-- Stop triggering; executions under way go on.  Yields what the engine's tasks are waited for
with. -/
def stop (s : Scheduler) (clock : Clock) : Scheduler × Engine.StopHandle :=
  let (engine, handle) := s.engine.stop clock
  ({ s with engine, startTime := none }, handle)

/-- Change a registered job, or say why not. -/
def changeJob (s : Scheduler) (name : String) (f : Job → Except JobError Job) :
    Except SchedulerError Scheduler :=
  match s.number? name with
  | none => .error (.notFound name)
  | some number =>
    match s.worker? number with
    | none => .error (.notFound name)
    | some w =>
      match f w.job with
      | .ok job => .ok (s.setWorker number { w with job })
      | .error e => .error (.job e)

/-- How many jobs are in which state. -/
def stats (s : Scheduler) : SchedulerStats :=
  let states := s.registered.map (·.job.state)
  { totalJobs := s.registry.length
    idleJobs := states.count .idle
    executingJobs := states.count .executing
    pausedJobs := states.count .paused
    isStarted := s.startTime.isSome
    startTime := s.startTime }

/-- Let time pass up to the clock's present for one job, with its firings. -/
def passJob (clock : Clock) (cancelled : List Scope) (s : Scheduler × CallLog)
    (firing : Nat × List Nat) : Scheduler × CallLog :=
  match s.1.worker? firing.1 with
  | some w =>
    let (w, calls) := w.passTime clock cancelled s.2 firing.2
    (s.1.setWorker firing.1 w, calls)
  | none => s

/-- Let time pass up to the clock's present: the engine fires, and every job that it fires for is
triggered at those times; all others merely let their executions return. -/
def passTime (s : Scheduler) (clock : Clock) (cancelled : List Scope) (calls : CallLog) :
    Scheduler × CallLog :=
  let (engine, firings) := s.engine.fireUntil clock
  let (s, calls) := firings.foldl (passJob clock cancelled) ({ s with engine }, calls)
  ({ s with workers := s.workers.map (·.settle clock cancelled) }, calls)

end Scheduler

end CronSupervisor
