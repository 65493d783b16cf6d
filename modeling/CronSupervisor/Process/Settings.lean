/-
  CronSupervisor.Process.Settings — how the process of a job is run.
-/
namespace CronSupervisor

/-- The settings of a process. -/
structure ProcessSettings where
  /-- The program and its arguments. -/
  command : List String
  workingDirectory : Option String := none
  /-- Variables on top of the inherited ones. -/
  environment : List (String × String) := []
  /-- The bound on each run, in milliseconds; zero is no bound. -/
  timeout : Option Nat := none
  /-- The number of captured lines that are kept. -/
  logCapacity : Option Nat := none
  /-- The patterns that are masked in captured lines. -/
  redact : List String := []
  deriving DecidableEq

end CronSupervisor
