/-
  CronSupervisor.Process.Execution — one run of a registered process.

  The child is started, its output captured, and it is left to end unless its context is done
  first, in which case it is killed.  Its pipes may stay open after that, held by what the child has
  started: they are read for a limited time more and then given up, with the bytes that are held
  back of a line.  A mark is logged at the start and at the end.  What a command does to the world
  is not decided here: a `System` says it.
-/
import CronSupervisor.Calendar.Timestamp
import CronSupervisor.Context.Basic
import CronSupervisor.Process.Capture
import CronSupervisor.Process.Child
import CronSupervisor.Process.Registry

namespace CronSupervisor

open Calendar

/-! ## §1. Starting a child -/

/-- What happens when a process is started under a name: it cannot be, for a cause in the system's
words, or a child runs. -/
abbrev System := String → ProcessSettings → Except String ChildRun

/-- The variable that holds the name of the process. -/
def nameVariable : String := "OVERSEER_PROCESS_NAME"

/-- The variable that marks a process as run by the supervisor. -/
def scheduledVariable : String := "OVERSEER_SCHEDULED"

/-- The variables of a child on top of the inherited ones, those of the supervisor last. -/
def childVariables (name : String) (settings : ProcessSettings) : List (String × String) :=
  settings.environment ++ [(nameVariable, name), (scheduledVariable, "1")]

/-! ## §2. The end of a run -/

/-- When a context ends a run, if it does: at its deadline or, if that comes before it, at the
moment of a cancellation. -/
def stopTime? (context : Context) (cancelledAt : Option Nat) : Option (Nat × ContextError) :=
  match context.deadline, cancelledAt with
  | some d, some c => if d ≤ c then some (d, .deadlineExceeded) else some (c, .cancelled)
  | some d, none => some (d, .deadlineExceeded)
  | none, some c => some (c, .cancelled)
  | none, none => none

/-- What the way in which a process ended means. -/
def Ending.toOutcome : Ending → Except ExecutionError Int
  | exited 0 => .ok 0
  | exited code => .error (.nonZeroExit code)
  | killed signal => .error (.other s!"process terminated: {signal.description}")

/-- The mark for the end of a run that took some time. -/
def endMark (outcome : Except ExecutionError Int) (elapsed : Span) : String :=
  match outcome with
  | .ok code => s!"exited normally with code {code} after {elapsed.text}"
  | .error (.nonZeroExit code) => s!"exited with code {code} after {elapsed.text}"
  | .error .timedOut => s!"timeout exceeded after {elapsed.text}"
  | .error .cancelled => s!"cancelled after {elapsed.text}"
  | .error e => s!"failed: {e.message}"

/-- The end of a child under supervision. -/
structure ChildEnd where
  outcome : Except ExecutionError Int
  time : Nat
  /-- When it was killed, if that is why it ended. -/
  killedAt : Option Nat

/-- The end of a child that is killed at some time unless it ends before, if it ever ends. -/
def ChildRun.endOf? (c : ChildRun) (stop : Option (Nat × ContextError)) : Option ChildEnd :=
  match c.ending, stop with
  | some (t, ending), none => some ⟨ending.toOutcome, t, none⟩
  | some (t, ending), some (s, e) =>
    if t < s then some ⟨ending.toOutcome, t, none⟩ else some ⟨.error e.toExecutionError, s, some s⟩
  | none, some (s, e) => some ⟨.error e.toExecutionError, s, some s⟩
  | none, none => none

/-! ## §3. What is read -/

/-- For how many milliseconds pipes are read that are still open when the child has ended. -/
def drainLimit : Nat := 2000

/-- Until when the pipes of a child are read that ended at some time: until both are at their end,
or for the limit. -/
def Output.readUntil (o : Output) (ended : Nat) : Nat :=
  match o.endOf? .out, o.endOf? .err with
  | some out, some err => min (ended + drainLimit) (max ended (max out err))
  | _, _ => ended + drainLimit

namespace ChildRun

/-- All that comes out of the pipes of a child, whether it is read or not. -/
def written (c : ChildRun) (stop : Option (Nat × ContextError)) : Output :=
  c.output ((c.endOf? stop).bind (·.killedAt))

/-- The part of it that is read. -/
def heard (c : ChildRun) (stop : Option (Nat × ContextError)) : Output :=
  match c.endOf? stop with
  | some e => (c.written stop).upTo ((c.written stop).readUntil e.time)
  | none => c.written stop

end ChildRun

/-- What is captured of a run. -/
structure Captured where
  /-- Milliseconds since the start of the run. -/
  time : Nat
  stream : Stream
  line : String

/-- The lines of both pipes, each when it becomes complete or its pipe ends.  Of each pipe the
bytes after the last line feed are held back. -/
def outputLines (held : Pipe → List UInt8) : List Arrival → List Captured
  | [] => []
  | a :: rest =>
    let (lines, left) := Capture.take (held a.pipe) a.bytes?
    lines.map (fun l => ⟨a.time, a.pipe.stream, Capture.lineText l⟩)
      ++ outputLines (fun pipe => if pipe = a.pipe then left else held pipe) rest

/-- The lines that are read where nothing is held back yet. -/
def Output.lines (o : Output) : List Captured := outputLines (fun _ => []) o.arrivals

/-! ## §4. Runs -/

/-- A run that is over. -/
structure FinishedRun where
  outcome : Except ExecutionError Int
  /-- Milliseconds from the start to the end; a run that never ends has no use for them. -/
  elapsed : Nat
  captured : List Captured

/-- Run a process under a name.  The context's times count from the start of the run. -/
def runProcess (system : System) (name : String) (settings : ProcessSettings)
    (stop : Option (Nat × ContextError)) : FinishedRun :=
  if settings.command.isEmpty then
    { outcome := .error (.emptyCommand name), elapsed := 0, captured := [] }
  else
    let mark := fun (time : Nat) (line : String) => Captured.mk time .event line
    let first := mark 0 ("starting: " ++ " ".intercalate settings.command)
    match system name settings with
    | .error cause =>
      { outcome := .error (.spawnFailed cause), elapsed := 0
        captured := [first, mark 0 s!"failed to start: {cause}"] }
    | .ok child =>
      let lines := (child.heard stop).lines
      match child.endOf? stop with
      | some e =>
        let elapsed := (child.written stop).readUntil e.time
        { outcome := e.outcome, elapsed
          captured := first :: lines ++ [mark elapsed (endMark e.outcome (.ofMillis elapsed))] }
      | none => { outcome := .error .cancelled, elapsed := 0, captured := first :: lines }

/-- Store what was captured of a run that began at an instant, and make it visible. -/
def Sink.recordRun (s : Sink) (start : Instant) (captured : List Captured) : Sink :=
  (captured.foldl (fun s c => s.record (start.addMillis c.time) c.stream c.line) s).flush

namespace ProcessRegistry

/-- The bounds of a run at the start of which the context is given: its own, and the timeout of the
process. -/
def runContext (settings : ProcessSettings) (context : Context) : Context :=
  match settings.timeout with
  | some timeout => if timeout = 0 then context else context.limit 0 timeout
  | none => context

/-- Execute the process of a name; times count from the start of the run. -/
def execute (r : ProcessRegistry) (system : System) (start : Instant) (name : String)
    (context : Context) (cancelledAt : Option Nat) :
    ProcessRegistry × Except ExecutionError Int × Nat :=
  match r.find? name with
  | none => (r, .error (.notRegistered name), 0)
  | some p =>
    let stop := stopTime? (runContext p.settings context) cancelledAt
    let run := runProcess system name p.settings stop
    (r.modifySink name (·.recordRun start run.captured), run.outcome, run.elapsed)

end ProcessRegistry

end CronSupervisor
