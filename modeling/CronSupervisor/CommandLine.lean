/-
  CronSupervisor.CommandLine — what the command line asks for, and the answer to it.

  The program checks a configuration file and lists its jobs.  The answer is a text for each of the
  two output streams and an exit code; only asking for the version does not look at the file.  Lines
  that are logged are left out: the answer is the one of a program that logs nothing, so how much is
  to be logged is read, from the arguments and from the file, and has no effect.
-/
import CronSupervisor.Supervisor

namespace CronSupervisor

open Calendar

/-! ## §1. Arguments -/

/-- What the arguments say. -/
structure Arguments where
  /-- The configuration file. -/
  file : Option String := none
  check : Bool := false
  /-- How often more to log was asked for; it changes nothing but what is logged. -/
  verbosity : Nat := 0
  version : Bool := false

namespace Arguments

/-- The count of letters, if a cluster of short options is nothing but the letter `v`. -/
def verboseCluster? (arg : String) : Option Nat :=
  match arg.toList with
  | '-' :: 'v' :: vs => if vs.all (· == 'v') then some (vs.length + 1) else none
  | _ => none

/-- Read further arguments; nothing for one without a meaning. -/
def read? (a : Arguments) : List String → Option Arguments
  | [] => some a
  | "--config" :: file :: rest => read? { a with file } rest
  | "-c" :: file :: rest => read? { a with file } rest
  | "--check" :: rest => read? { a with check := true } rest
  | "--verbose" :: rest => read? { a with verbosity := a.verbosity + 1 } rest
  | "--version" :: rest => read? { a with version := true } rest
  | "-V" :: rest => read? { a with version := true } rest
  | arg :: rest =>
    match verboseCluster? arg with
    | some n => read? { a with verbosity := a.verbosity + n } rest
    | none => none

end Arguments

/-! ## §2. Answers -/

/-- What the program writes and how it ends. -/
structure Answer where
  code : Nat
  output : String
  errors : String
  deriving DecidableEq

/-- The name and the version of the program. -/
def versionLine : String := "overseer 0.1.0\n"

/-- The line that says how the program is called. -/
def usageLine : String := "usage: overseer --config FILE --check [-v] [--version]\n"

/-- The answer of a program that comes down because memory is exhausted.  The report begins with an
empty line; the place in the program is left out of it. -/
def crash : Answer := { code := 101, output := "", errors := "\ncapacity overflow\n" }

/-- The answer to arguments, at an instant and from the content of the configuration file. -/
def answer [ZoneBook] [PatternSyntax] [Memory] (now : Instant) (a : Arguments)
    (content : Option (List UInt8)) : Answer :=
  if a.version then { code := 0, output := versionLine, errors := "" }
  else match a.check, a.file with
    | true, some file =>
      match check { start := now, elapsed := 0 } content with
      | .ok listing => { code := 0, output := listing, errors := "" }
      | .error (.build (.job _ .exhausted)) => crash
      | .error e => { code := 1, output := "", errors := s!"Error: {e.headline file}\n" }
    | _, _ => { code := 2, output := "", errors := usageLine }

end CronSupervisor
