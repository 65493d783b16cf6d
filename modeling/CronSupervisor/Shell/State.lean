/-
  CronSupervisor.Shell.State — what commands act on.

  A command reads its input, writes bytes to where its two output streams go, takes time, and
  leaves a status.  A shell has variables besides, may end before its script does, and may start
  commands that go on beside it.
-/
import CronSupervisor.Process.Child
import CronSupervisor.Text.Decimal
import CronSupervisor.Text.Utf8

namespace CronSupervisor.Shell

open Text

/-- Where an output stream goes. -/
inductive Target where
  | pipe (p : Pipe)
  /-- The input of the next command, or an expansion. -/
  | held
  | nowhere
  deriving DecidableEq

/-- A variable of the shell. -/
structure Variable where
  name : String
  value : String
  /-- Whether programs see it. -/
  exported : Bool

/-- A command that goes on beside the shell that started it, and after its end. -/
structure Background where
  /-- When it was started. -/
  start : Nat
  /-- When it ends, if it does. -/
  finish : Option Nat
  /-- The pipes that it keeps open. -/
  pipes : List Pipe
  /-- What it writes, last one first. -/
  chunks : List Chunk

/-- The state of a shell. -/
structure State where
  /-- The name under which the shell was called. -/
  name : String
  arguments : List String := []
  bindings : List Variable := []
  directory : String
  /-- What is done on a signal; number zero stands for the end of the shell. -/
  traps : List (Signal × String) := []
  status : Nat := 0
  /-- Milliseconds since the start of the process. -/
  time : Nat := 0
  input : List UInt8 := []
  out : Target := .pipe .out
  err : Target := .pipe .err
  /-- What was written, last one first. -/
  chunks : List Chunk := []
  /-- What goes on in the background. -/
  background : List Background := []
  /-- What was written to be held. -/
  held : List UInt8 := []
  /-- How the shell ended, once it has. -/
  ended : Option Ending := none
  /-- The script goes on for longer than is followed. -/
  endless : Bool := false

namespace State

/-- The number that stands for the process of a shell. -/
def processNumber : Nat := 4321

/-- Write bytes to where a stream goes. -/
def writeTo (s : State) (target : Target) (bytes : List UInt8) : State :=
  if bytes.isEmpty then s
  else match target with
    | .pipe p => { s with chunks := ⟨s.time, p, bytes⟩ :: s.chunks }
    | .held => { s with held := s.held ++ bytes }
    | .nowhere => s

/-- Write bytes to the standard output. -/
def write (s : State) (bytes : List UInt8) : State := s.writeTo s.out bytes

/-- Write a line to the standard error. -/
def complain (s : State) (line : String) : State := s.writeTo s.err (utf8Bytes (line ++ "\n"))

/-- Leave a status. -/
def leave (s : State) (status : Nat) : State := { s with status }

/-- Complain in the name of the shell, and leave a status. -/
def fail (s : State) (status : Nat) (message : String) : State :=
  (s.complain s!"{s.name}: 1: {message}").leave status

/-- The value of a variable. -/
def valueOf? (s : State) (name : String) : Option String :=
  (s.bindings.find? (·.name == name)).map (·.value)

/-- Give a variable a value. -/
def assign (s : State) (name value : String) (exported : Bool) : State :=
  let before := (s.bindings.find? (·.name == name)).any (·.exported)
  { s with bindings :=
      ⟨name, value, exported || before⟩ :: s.bindings.filter (·.name != name) }

/-- The value of a parameter: an argument, something that the shell knows, or a variable. -/
def parameter? (s : State) (name : String) : Option String :=
  match name with
  | "#" => some (toString s.arguments.length)
  | "?" => some (toString s.status)
  | "$" => some (toString processNumber)
  | "@" => some (" ".intercalate s.arguments)
  | "*" => some (" ".intercalate s.arguments)
  | "-" => some ""
  | "!" => none
  | "0" => some s.name
  | name =>
    match numeral? name.toList with
    | some n => s.arguments[n - 1]?
    | none => s.valueOf? name

/-- The pipes that a command keeps open which writes to where the state says. -/
def pipes (s : State) : List Pipe := Pipe.all.filter fun p => s.out = .pipe p ∨ s.err = .pipe p

/-- End with the present status. -/
def exit (s : State) (status : Nat) : State :=
  { s with status := status % 256, ended := some (.exited (status % 256)) }

/-- The status of a shell that has ended, as the shell around it sees it. -/
def endStatus (s : State) : Nat :=
  match s.ended with
  | some (.exited code) => code
  | some (.killed signal) => 128 + signal
  | none => s.status

/-- Go on after another shell has ended: what it wrote and the time that it took remain, and so
does what it has left in the background. -/
def resumeAfter (s inner : State) : State :=
  { s with status := inner.endStatus, time := inner.time, chunks := inner.chunks,
           background := inner.background, held := inner.held, input := inner.input,
           endless := inner.endless, ended := if inner.endless then inner.ended else s.ended }

end State

end CronSupervisor.Shell
