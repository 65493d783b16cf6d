/-
  CronSupervisor.Log.Entry — captured lines.
-/
import CronSupervisor.Calendar.Instant

namespace CronSupervisor

open Calendar

/-- How severe a line is. -/
inductive LogLevel where
  | info
  | error
  deriving DecidableEq

namespace LogLevel

/-- The name of a level, as it is recorded. -/
def name : LogLevel → String
  | info => "info"
  | error => "error"

/-- All levels. -/
def all : List LogLevel := [info, error]

end LogLevel

/-- Where a line comes from. -/
inductive Stream where
  /-- The standard output of a process. -/
  | stdout
  /-- Its standard error. -/
  | stderr
  /-- A mark in the life of a process. -/
  | event
  deriving DecidableEq

namespace Stream

/-- The name of a stream, as it is recorded. -/
def name : Stream → String
  | stdout => "stdout"
  | stderr => "stderr"
  | event => "event"

/-- All streams. -/
def all : List Stream := [stdout, stderr, event]

/-- What comes from standard error counts as an error. -/
def level : Stream → LogLevel
  | stderr => .error
  | stdout => .info
  | event => .info

end Stream

/-- The layout of the lines that the supervisor itself logs. -/
inductive LogFormat where
  | text
  /-- One object per line. -/
  | json
  deriving DecidableEq

namespace LogFormat

/-- The name of a format, as it is configured. -/
def name : LogFormat → String
  | text => "text"
  | json => "json"

/-- All formats. -/
def all : List LogFormat := [text, json]

/-- The format where none is configured. -/
def default : LogFormat := text

end LogFormat

/-- A captured line. -/
structure LogEntry where
  time : Instant
  process : String
  stream : Stream
  /-- The line without its end, and masked. -/
  message : String
  deriving DecidableEq

/-- The severity of a line. -/
def LogEntry.level (e : LogEntry) : LogLevel := e.stream.level

end CronSupervisor
