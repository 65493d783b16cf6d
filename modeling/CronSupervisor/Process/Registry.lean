/-
  CronSupervisor.Process.Registry — the processes that are known by name.

  Where output is captured, every process has a sink of its own from its registration on.  A name
  that is registered again gets a new process and a new sink.
-/
import CronSupervisor.Log.Sink
import CronSupervisor.Process.Settings

namespace CronSupervisor

open Calendar Text

/-- Why a process could not be registered: no sink could be made for it. -/
structure RegistrationError where
  process : String
  cause : PatternError
  deriving DecidableEq

/-- The wording of the error. -/
def RegistrationError.message (e : RegistrationError) : String :=
  s!"create log sink for process {quote e.process}"

/-- A registered process. -/
structure RegisteredProcess where
  settings : ProcessSettings
  /-- Where its lines are kept, if they are captured. -/
  sink : Option Sink

/-- The registered processes. -/
structure ProcessRegistry where
  /-- Whether output is captured. -/
  captures : Bool
  processes : List (String × RegisteredProcess) := []

namespace ProcessRegistry

/-- The process of a name. -/
def find? (r : ProcessRegistry) (name : String) : Option RegisteredProcess :=
  r.processes.lookup name

/-- Forget a name. -/
def unregister (r : ProcessRegistry) (name : String) : ProcessRegistry :=
  { r with processes := r.processes.filter (·.1 ≠ name) }

/-- Put a process under a name. -/
def insert (r : ProcessRegistry) (name : String) (p : RegisteredProcess) : ProcessRegistry :=
  { r with processes := (name, p) :: (r.unregister name).processes }

/-- Register a process, or replace it. -/
def register [PatternSyntax] (r : ProcessRegistry) (name : String) (settings : ProcessSettings) :
    Except RegistrationError ProcessRegistry :=
  if r.captures then
    match Sink.create name settings.logCapacity settings.redact with
    | .ok sink => .ok (r.insert name { settings, sink := some sink })
    | .error cause => .error ⟨name, cause⟩
  else .ok (r.insert name { settings, sink := none })

/-- Change the sink of a process. -/
def modifySink (r : ProcessRegistry) (name : String) (f : Sink → Sink) : ProcessRegistry :=
  match r.find? name with
  | some p => r.insert name { p with sink := p.sink.map f }
  | none => r

/-- Put an entry into its place in a list from the newest to the oldest, in front of those with the
same time. -/
def insertByTime (e : LogEntry) : List LogEntry → List LogEntry
  | [] => [e]
  | f :: fs => if f.time ≤ e.time then e :: f :: fs else f :: insertByTime e fs

/-- Entries from the newest to the oldest; those with the same time stay as they are. -/
def sortByTime (es : List LogEntry) : List LogEntry := es.foldr insertByTime []

/-- Up to `limit` of the captured lines of a process, by time; all of them for zero. -/
def logs (r : ProcessRegistry) (name : String) (limit : Nat) : List LogEntry :=
  match (r.find? name).bind (·.sink) with
  | some sink => sortByTime (sink.recent limit)
  | none => []

theorem find?_insert_self (r : ProcessRegistry) (name : String) (p : RegisteredProcess) :
    (r.insert name p).find? name = some p := by
  simp [find?, insert]

theorem find?_unregister_self (r : ProcessRegistry) (name : String) :
    (r.unregister name).find? name = none := by
  simp only [find?, unregister, List.lookup_eq_none_iff, List.mem_filter]
  rintro p ⟨_, h⟩
  have h : p.1 ≠ name := by simpa using h
  simpa using h.symm

end ProcessRegistry

end CronSupervisor
