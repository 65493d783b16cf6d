/-
  CronSupervisor.Proofs.Process.Registry — what a registry of processes knows.

  Registering a process puts it under its name, unless one of the patterns that it masks is none.
  Executing a process changes what is captured of it and nothing else, so whatever was registered
  with a command can be executed at any later time: it may fail in many ways, but not for want of a
  process or of a command.

  Main statements:
    * `register_eq_ok_iff`, `register_eq_error_iff` — what registering leads to.
    * `settings_respond` — executions leave all settings alone.
    * `Runs.executeAll`, `Runs.performed` — what has a command runs, whatever was executed before.
-/
import CronSupervisor.Process.Execution
import CronSupervisor.Proofs.Log.Patterns

namespace CronSupervisor.ProcessRegistry

open Calendar

variable {r r' : ProcessRegistry} {name other : String} {settings : ProcessSettings}

/-! ## §1. Names -/

theorem find?_insert_of_ne (h : other ≠ name) (p : RegisteredProcess) :
    (r.insert name p).find? other = r.find? other := by
  show List.lookup other ((name, p) :: r.processes.filter (·.1 ≠ name)) = r.processes.lookup other
  rw [List.lookup_cons, beq_false_of_ne h]
  show (r.processes.filter (·.1 ≠ name)).lookup other = _
  induction r.processes with
  | nil => rfl
  | cons q qs ih =>
    rw [List.filter_cons]
    by_cases hq : q.1 = name
    · rw [if_neg (by simpa using hq), List.lookup_cons, beq_false_of_ne fun h' => h (h'.trans hq)]
      exact ih
    · rw [if_pos (by simpa using hq), List.lookup_cons, List.lookup_cons, ih]

/-! ## §2. Registering -/

/-- A process that has not run yet, with an empty sink. -/
def newcomer (name : String) (settings : ProcessSettings) (ps : List Pattern) : RegisteredProcess :=
  { settings, sink := some (.empty name (settings.logCapacity.getD Sink.defaultCapacity) ps) }

/-- **A process is registered with a new sink.** -/
theorem register_eq_ok_iff [PatternSyntax] (captures : r.captures = true) :
    r.register name settings = .ok r' ↔ ∃ ps, Sink.patternsOf settings.redact = .ok ps ∧
      r' = r.insert name (newcomer name settings ps) := by
  unfold register Sink.create
  rw [if_pos captures]
  cases Sink.patternsOf settings.redact with
  | ok ps =>
    show Except.ok _ = Except.ok r' ↔ _
    rw [Except.ok.injEq]
    constructor
    · rintro rfl
      exact ⟨ps, rfl, rfl⟩
    · rintro ⟨_, h, rfl⟩
      cases h
      rfl
  | error e => exact iff_of_false nofun fun ⟨_, h, _⟩ => by cases h

/-- **It is turned away for the first pattern that is none.** -/
theorem register_eq_error_iff [PatternSyntax] (captures : r.captures = true)
    {e : RegistrationError} : r.register name settings = .error e ↔
      ∃ cause, FirstFault (fun _ => Sink.Unreadable) settings.redact cause ∧ e = ⟨name, cause⟩ := by
  unfold register Sink.create
  rw [if_pos captures]
  simp only [← Sink.patternsOf_eq_error_iff]
  cases Sink.patternsOf settings.redact with
  | ok ps => exact iff_of_false nofun fun ⟨_, h, _⟩ => by cases h
  | error cause =>
    show Except.error _ = Except.error e ↔ _
    rw [Except.error.injEq]
    constructor
    · rintro rfl
      exact ⟨cause, rfl, rfl⟩
    · rintro ⟨_, h, rfl⟩
      cases h
      rfl

/-! ## §3. Executing -/

/-- A request to execute the process of a name. -/
structure Call where
  system : System
  start : Instant
  name : String
  context : Context
  cancelledAt : Option Nat

/-- The registry after an execution, and what the execution returned. -/
def respond (r : ProcessRegistry) (c : Call) : ProcessRegistry × Except ExecutionError Int :=
  let answer := r.execute c.system c.start c.name c.context c.cancelledAt
  (answer.1, answer.2.1)

/-- The registry after a list of executions. -/
def executeAll (r : ProcessRegistry) (calls : List Call) : ProcessRegistry :=
  calls.foldl (fun r c => (r.respond c).1) r

theorem settings_modifySink (r : ProcessRegistry) (name other : String) (f : Sink → Sink) :
    ((r.modifySink name f).find? other).map (·.settings) = (r.find? other).map (·.settings) := by
  unfold modifySink
  cases hp : r.find? name with
  | none => rfl
  | some p =>
    by_cases h : other = name
    · rw [h, find?_insert_self, hp]
      rfl
    · rw [find?_insert_of_ne h]

/-- **Executions leave all settings alone.** -/
theorem settings_respond (r : ProcessRegistry) (c : Call) (name : String) :
    ((r.respond c).1.find? name).map (·.settings) = (r.find? name).map (·.settings) := by
  unfold respond execute
  cases r.find? c.name with
  | none => rfl
  | some p => exact settings_modifySink r c.name name _

/-- What an execution returns that has a process and a command. -/
def Performed (outcome : Except ExecutionError Int) : Prop :=
  ∀ name, outcome ≠ .error (.notRegistered name) ∧ outcome ≠ .error (.emptyCommand name)

theorem performed_toOutcome (ending : Ending) : Performed ending.toOutcome := by
  unfold Ending.toOutcome
  split <;> exact fun name => ⟨nofun, nofun⟩

theorem performed_endOf {c : ChildRun} {stop : Option (Nat × ContextError)} {e : ChildEnd}
    (h : c.endOf? stop = some e) : Performed e.outcome := by
  have hstopped : ∀ e : ContextError, Performed (.error e.toExecutionError) := by
    rintro (_ | _) <;> exact fun name => ⟨nofun, nofun⟩
  unfold ChildRun.endOf? at h
  split at h
  · cases h
    exact performed_toOutcome _
  · -- whichever comes first
    split at h
    · cases h
      exact performed_toOutcome _
    · cases h
      exact hstopped _
  · cases h
    exact hstopped _
  · cases h

/-- **What has a command is run**, whatever becomes of it. -/
theorem performed_runProcess (h : settings.command ≠ []) (system : System) (name : String)
    (stop : Option (Nat × ContextError)) :
    Performed (runProcess system name settings stop).outcome := by
  unfold runProcess
  rw [if_neg (mt List.isEmpty_iff.mp h)]
  cases system name settings with
  | error cause => exact fun name => ⟨nofun, nofun⟩
  | ok child =>
    dsimp only
    split
    · next hend => exact performed_endOf hend
    · exact fun name => ⟨nofun, nofun⟩

/-- A process with a command is registered under a name. -/
def Runs (r : ProcessRegistry) (name : String) : Prop :=
  ∃ settings, (r.find? name).map (·.settings) = some settings ∧ settings.command ≠ []

namespace Runs

theorem respond (h : r.Runs name) (c : Call) : (r.respond c).1.Runs name := by
  unfold Runs
  rw [settings_respond]
  exact h

theorem executeAll (h : r.Runs name) (calls : List Call) : (r.executeAll calls).Runs name := by
  induction calls generalizing r with
  | nil => exact h
  | cons c calls ih => exact ih (h.respond c)

/-- **What is registered with a command is executed.** -/
theorem performed {c : Call} (h : r.Runs c.name) : Performed (r.respond c).2 := by
  obtain ⟨settings, hsettings, hcommand⟩ := h
  obtain ⟨p, hp, rfl⟩ := Option.map_eq_some_iff.mp hsettings
  unfold ProcessRegistry.respond execute
  rw [hp]
  exact performed_runProcess hcommand c.system c.name _

end Runs

end CronSupervisor.ProcessRegistry
