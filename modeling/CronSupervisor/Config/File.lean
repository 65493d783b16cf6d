/-
  CronSupervisor.Config.File — configuration files.

  A file holds a configuration in TOML.  Loading fails at the first of three stages: reading the
  file as text, reading the text as a configuration, and finding it valid.  Where a configuration
  is to be had in any case, a file that is missing is written with the defaults.
-/
import CronSupervisor.Config.Fields
import CronSupervisor.Text.Lower
import CronSupervisor.Text.Utf8
import CronSupervisor.Toml.Document

namespace CronSupervisor

open Text

/-! ## §1. Loading -/

/-- Why a file could not be read. -/
inductive FileProblem where
  | missing
  | notText
  deriving DecidableEq

/-- The wording of the system. -/
def FileProblem.message : FileProblem → String
  | missing => "No such file or directory (os error 2)"
  | notText => "stream did not contain valid UTF-8"

/-- Why a configuration could not be loaded. -/
inductive ConfigError where
  | unreadable (problem : FileProblem)
  /-- No document, or not one of a configuration. -/
  | malformed
  | invalid (problem : ConfigProblem)
  deriving DecidableEq

namespace Config

/-- A configuration, if it is valid. -/
def validated (c : Config) : Except ConfigError Config :=
  match c.problem? with
  | some p => .error (.invalid p)
  | none => .ok c

/-- The configuration that a text writes. -/
def ofText (text : List Char) : Except ConfigError Config :=
  match (Toml.document? text).bind (Value.config? .toml) with
  | some c => c.validated
  | none => .error .malformed

/-- The configuration in a file, of which the content is given if it exists. -/
def load (file : Option (List UInt8)) : Except ConfigError Config :=
  match file with
  | none => .error (.unreadable .missing)
  | some bytes =>
    match utf8Text? bytes with
    | none => .error (.unreadable .notText)
    | some text => ofText text

/-! ## §2. The default file -/

/-- A configuration without jobs as a document; its texts need no escapes. -/
def documentWithoutJobs (c : Config) : String :=
  s!"log_level = \x22{c.logLevel}\x22\n"
    ++ s!"log_format = \x22{c.logFormat.name}\x22\n"
    ++ s!"history_size = {c.historySize}\n"
    ++ s!"status_interval_secs = {c.statusInterval}\n"
    ++ "jobs = []\n"

/-- The content of the file that is written where there is none. -/
def defaultFile : List UInt8 := utf8Bytes ({} : Config).documentWithoutJobs

/-- Load a configuration, or write the defaults; the result, and the content of the file then. -/
def loadOrCreate (file : Option (List UInt8)) : Except ConfigError Config × List UInt8 :=
  match file with
  | some bytes => (load (some bytes), bytes)
  | none => (.ok {}, defaultFile)

/-- The directory of an application's configuration: its name in lower case, without blanks. -/
def directory (application : String) : String :=
  String.ofList ((words application.toList).flatMap lowerChars)

end Config

end CronSupervisor
