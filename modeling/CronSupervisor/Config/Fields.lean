/-
  CronSupervisor.Config.Fields — configurations as structured values.

  A record is written as a table of its fields, or as the list of their values in order.  Fields
  that are not known are ignored, and fields that are absent take their defaults, if they have one.
-/
import CronSupervisor.Config.Basic
import CronSupervisor.Value

namespace CronSupervisor

/-- The language in which a value was written. -/
inductive ValueLanguage where
  | toml
  | json
  deriving DecidableEq

namespace Value

/-! ## §1. Single values -/

/-- A text. -/
def text? : Value → Option String
  | text s => some s
  | _ => none

/-- The greatest number that fits a 64-bit word. -/
def maxCount : Nat := 18446744073709551615

/-- A number that is not negative. -/
def count? : Value → Option Nat
  | integer n => if 0 ≤ n ∧ n ≤ maxCount then some n.toNat else none
  | _ => none

/-- A list of values of one kind. -/
def listOf? {α : Type} (read : Value → Option α) : Value → Option (List α)
  | list vs => vs.mapM read
  | _ => none

/-- A table of texts. -/
def texts? : Value → Option (List (String × String))
  | table fields => fields.mapM fun (k, v) => v.text?.map (k, ·)
  | _ => none

/-- A value that may be absent. -/
def optional? {α : Type} (read : Value → Option α) : Value → Option (Option α)
  | null => some none
  | v => (read v).map some

/-- Nothing, as each language writes it. -/
def isNothing (language : ValueLanguage) : Value → Bool
  | null => language == .json
  | list vs => language == .toml && vs.isEmpty
  | table fields => language == .toml && fields.isEmpty
  | _ => false

/-- A name of a format, alone or as the key of nothing. -/
def logFormat? (language : ValueLanguage) (v : Value) : Option LogFormat :=
  let named := fun (n : String) => LogFormat.all.find? (·.name == n)
  match v with
  | text n => named n
  | table [(n, v)] => if v.isNothing language then named n else none
  | _ => none

/-! ## §2. Records -/

/-- The fields of a record of `size` fields, by place and name.  In one of the languages a list
must not be longer than the record. -/
def record? (language : ValueLanguage) (size : Nat) :
    Value → Option (Nat → String → Option Value)
  | table fields => some fun _ name => fields.lookup name
  | list vs =>
    if language = .json ∧ size < vs.length then none else some fun place _ => vs[place]?
  | _ => none

/-- A field with a default. -/
def orDefault {α : Type} (default : α) (read : Value → Option α) : Option Value → Option α
  | some v => read v
  | none => some default

/-- The configuration of a job. -/
def jobConfig? (language : ValueLanguage) (v : Value) : Option JobConfig := do
  let field ← v.record? language 11
  let name ← (← field 0 "name").text?
  let schedule ← (← field 1 "schedule").text?
  let timezone ← orDefault "UTC" text? (field 2 "timezone")
  let command ← (← field 3 "command").listOf? text?
  let workingDirectory ← orDefault none (optional? text?) (field 4 "working_dir")
  let environment ← orDefault [] texts? (field 5 "env")
  let timeout ← orDefault none (optional? count?) (field 6 "timeout_ms")
  let processTimeout ← orDefault none (optional? count?) (field 7 "process_timeout_ms")
  let maxConcurrent ← orDefault 1 count? (field 8 "max_concurrent")
  let logCapacity ← orDefault none (optional? count?) (field 9 "log_capacity")
  let redact ← orDefault [] (listOf? text?) (field 10 "redact")
  return { name, schedule, timezone, command, workingDirectory, environment, timeout,
           processTimeout, maxConcurrent, logCapacity, redact }

/-- A configuration. -/
def config? (language : ValueLanguage) (v : Value) : Option Config := do
  let field ← v.record? language 5
  let logLevel ← (← field 0 "log_level").text?
  let logFormat ← orDefault .default (logFormat? language) (field 1 "log_format")
  let historySize ← orDefault History.defaultCapacity count? (field 2 "history_size")
  let statusInterval ← orDefault 60 count? (field 3 "status_interval_secs")
  let jobs ← orDefault [] (listOf? (jobConfig? language)) (field 4 "jobs")
  return { logLevel, logFormat, historySize, statusInterval, jobs }

end Value

end CronSupervisor
