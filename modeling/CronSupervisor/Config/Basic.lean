/-
  CronSupervisor.Config.Basic — configurations and which of them are valid.

  A configuration lists jobs.  It is valid if every job has a name that is not blank, a command
  that is not blank, and a name that no earlier job has.  The first offence in the order of the
  jobs is the one that is reported.
-/
import CronSupervisor.Calendar.Timestamp
import CronSupervisor.History.Basic
import CronSupervisor.Log.Entry
import CronSupervisor.Process.Settings
import CronSupervisor.Scheduler.Basic

namespace CronSupervisor

open Text

/-! ## §1. Configurations -/

/-- A job as it is configured. -/
structure JobConfig where
  name : String
  /-- A cron expression of five fields. -/
  schedule : String
  timezone : String := "UTC"
  /-- The program and its arguments. -/
  command : List String
  workingDirectory : Option String := none
  environment : List (String × String) := []
  /-- The bound on the whole execution, in milliseconds. -/
  timeout : Option Nat := none
  /-- The bound on the process, in milliseconds. -/
  processTimeout : Option Nat := none
  /-- Stored and reported; executions of one job never overlap. -/
  maxConcurrent : Nat := 1
  logCapacity : Option Nat := none
  redact : List String := []
  deriving DecidableEq

/-- The settings of the job's process. -/
def JobConfig.processSettings (j : JobConfig) : ProcessSettings :=
  { command := j.command
    workingDirectory := j.workingDirectory
    environment := j.environment
    timeout := j.processTimeout
    logCapacity := j.logCapacity
    redact := j.redact }

/-- What the job is registered with. -/
def JobConfig.options (j : JobConfig) : JobOptions :=
  { timeout := j.timeout, maxConcurrent := j.maxConcurrent, script := none }

/-- A configuration. -/
structure Config where
  /-- How much is logged, and in which layout; the lines that are logged are left out. -/
  logLevel : String := "info"
  logFormat : LogFormat := .default
  /-- Executions that are kept per job. -/
  historySize : Nat := History.defaultCapacity
  /-- Seconds between two lines on the state of the jobs; none for zero. -/
  statusInterval : Nat := 60
  jobs : List JobConfig := []
  deriving DecidableEq

/-! ## §2. Validity -/

/-- What is wrong with a configuration. -/
inductive ConfigProblem where
  /-- A job without a name; its schedule tells which one. -/
  | emptyName (schedule : String)
  | emptyCommand (name : String)
  | repeatedName (name : String)
  deriving DecidableEq

/-- The wording of a problem. -/
def ConfigProblem.message : ConfigProblem → String
  | emptyName schedule => s!"job with schedule {quote schedule} has an empty name"
  | emptyCommand name => s!"job {quote name} has an empty command"
  | repeatedName name => s!"job {quote name} is defined more than once"

/-- Nothing to run: no program, or a blank one. -/
def isBlankCommand : List String → Bool
  | [] => true
  | program :: _ => isBlankText program

/-- What is wrong with a job that comes after those of the given names. -/
def JobConfig.problem? (earlier : List String) (j : JobConfig) : Option ConfigProblem :=
  if isBlankText j.name then some (.emptyName j.schedule)
  else if isBlankCommand j.command then some (.emptyCommand j.name)
  else if earlier.contains j.name then some (.repeatedName j.name)
  else none

/-- The first problem of a list of jobs that comes after those of the given names. -/
def firstProblem? (earlier : List String) : List JobConfig → Option ConfigProblem
  | [] => none
  | j :: js => (j.problem? earlier).or (firstProblem? (j.name :: earlier) js)

/-- The first problem of a configuration. -/
def Config.problem? (c : Config) : Option ConfigProblem := firstProblem? [] c.jobs

/-! ## §3. Descriptions -/

/-- One line on what a job is registered with. -/
def JobOptions.description (o : JobOptions) : String :=
  let timeout := match o.timeout with
    | some ms => s!"Some({(Calendar.Span.ofMillis ms).text})"
    | none => "None"
  s!"JobOptions \x7b timeout: {timeout}, max_concurrent: {o.maxConcurrent}, "
    ++ s!"executor: {o.script.isSome} \x7d"

end CronSupervisor
