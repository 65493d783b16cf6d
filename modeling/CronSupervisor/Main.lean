/-
  CronSupervisor.Main — the command line program.
-/
import CronSupervisor.CommandLine
import CronSupervisor.Platform
import Std.Time.DateTime.Timestamp

namespace CronSupervisor

open Calendar Platform

/-- The present instant of the system's clock. -/
def presentInstant : IO Instant := do
  let since := (← Std.Time.Timestamp.now).toNanosecondsSinceUnixEpoch
  return ⟨since.toInt⟩

/-- The content of a file, if it can be read. -/
def readContent (file : String) : IO (Option (List UInt8)) := do
  try
    return some (← IO.FS.readBinFile file).data.toList
  catch _ =>
    return none

/-- Answer the arguments. -/
def runProgram (args : List String) : IO UInt32 := do
  let a ← match Arguments.read? {} args with
    | some a =>
      let content ← match a.file with
        | some file => readContent file
        | none => pure none
      pure (answer (← presentInstant) a content)
    | none => pure { code := 2, output := "", errors := usageLine }
  (← IO.getStdout).putStr a.output
  (← IO.getStderr).putStr a.errors
  return a.code.toUInt32

end CronSupervisor

/-- Answer the arguments of the command line. -/
def main (args : List String) : IO UInt32 := CronSupervisor.runProgram args
