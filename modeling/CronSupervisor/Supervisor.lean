/-
  CronSupervisor.Supervisor — a scheduler and its processes, built from a configuration.

  The jobs are taken in the order of the configuration, and of each one first the process and then
  the schedule; the first of them that is refused ends it.  A built supervisor can be listed: one
  line per job, in ascending order of names.  What is logged on the way is left out.
-/
import CronSupervisor.Calendar.Timestamp
import CronSupervisor.Config.File
import CronSupervisor.Process.Registry

namespace CronSupervisor

open Calendar

/-! ## §1. Building -/

/-- Why no supervisor could be built. -/
inductive BuildError where
  | process (name : String) (cause : RegistrationError)
  | job (name : String) (cause : SchedulerError)

/-- What runs the jobs of a configuration. -/
structure Supervisor where
  scheduler : Scheduler
  processes : ProcessRegistry

variable [ZoneBook] [PatternSyntax] [Memory]

namespace Supervisor

/-- A supervisor without jobs, whose histories have a capacity. -/
def empty (historySize : Nat) : Supervisor :=
  { scheduler := { historySize }, processes := { captures := true } }

/-- Add a configured job. -/
def add (clock : Clock) (s : Supervisor) (j : JobConfig) : Except BuildError Supervisor :=
  match s.processes.register j.name j.processSettings with
  | .error e => .error (.process j.name e)
  | .ok processes =>
    match s.scheduler.addJob clock j.name j.schedule j.timezone j.options [] with
    | .error e => .error (.job j.name e)
    | .ok scheduler => .ok { scheduler, processes }

/-- The supervisor of a configuration. -/
def build (clock : Clock) (c : Config) : Except BuildError Supervisor :=
  c.jobs.foldlM (add clock) (empty c.historySize)

/-! ## §2. Listing -/

/-- The columns of a job: its name, its schedule, its timezone and its next run. -/
def columns (s : Job.Status) : List String :=
  [s.name, s.schedule, s.timezone, (s.nextRun.map Instant.offsetText).getD "-"]

/-- The report on all jobs, in ascending order of names. -/
def statuses (s : Supervisor) : List Job.Status :=
  s.scheduler.refreshAll.registered.map (·.job.status)

/-- A line per job, of columns with tabs between them. -/
def listing (s : Supervisor) : String :=
  String.join (s.statuses.map fun status => "\t".intercalate (columns status) ++ "\n")

end Supervisor

/-! ## §3. Checking a configuration file -/

/-- Why a configuration file cannot be run. -/
inductive CheckError where
  | config (cause : ConfigError)
  | build (cause : BuildError)

/-- The first line of the wording, with a name for the file. -/
def CheckError.headline (file : String) : CheckError → String
  | config (.unreadable _) => s!"read {file}"
  | config .malformed => s!"parse {file}"
  | config (.invalid _) => s!"validate {file}"
  | build (.process name _) => s!"register process {name}"
  | build (.job name _) => s!"add job {name}"

/-- The listing of what a configuration file says, from its content. -/
def check (clock : Clock) (file : Option (List UInt8)) : Except CheckError String :=
  match Config.load file with
  | .error e => .error (.config e)
  | .ok c =>
    match Supervisor.build clock c with
    | .error e => .error (.build e)
    | .ok s => .ok s.listing

end CronSupervisor
