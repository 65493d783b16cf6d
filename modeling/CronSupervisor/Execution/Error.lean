/-
  CronSupervisor.Execution.Error — how an execution fails.

  Every failure has a wording and an exit code; the code is -1 unless a process ended with a code
  of its own.
-/
import CronSupervisor.Text.Quoted

namespace CronSupervisor

open Text

/-- The exit code of an execution without one of its own. -/
def noExitCode : Int := -1

/-- How an execution failed. -/
inductive ExecutionError where
  /-- No process is registered under the name of the job. -/
  | notRegistered (name : String)
  /-- The command registered for the job has no words. -/
  | emptyCommand (name : String)
  /-- The process ended with a code other than zero. -/
  | nonZeroExit (code : Int)
  /-- The process could not be started; the system's words for it. -/
  | spawnFailed (cause : String)
  /-- A deadline was reached first. -/
  | timedOut
  /-- The caller cancelled it. -/
  | cancelled
  | other (text : String)
  deriving DecidableEq

namespace ExecutionError

/-- The wording of a failure. -/
def message : ExecutionError → String
  | notRegistered name => s!"process {quote name} not registered"
  | emptyCommand name => s!"process {quote name} has an empty command"
  | nonZeroExit code => s!"process exited with code {code}"
  | spawnFailed cause => s!"failed to start process: {cause}"
  | timedOut => "execution timed out"
  | cancelled => "execution cancelled"
  | other text => text

/-- The exit code that is reported for a failure. -/
def exitCode : ExecutionError → Int
  | nonZeroExit code => code
  | _ => noExitCode

end ExecutionError

end CronSupervisor
