/-
  CronSupervisor.Log.Sink — where the lines of a process are kept.

  Lines collect as pending ones and become visible together: on demand, or as soon as a batch is
  full.  Of the visible lines the newest are kept, up to a capacity of at least one.  Every line is
  masked before it is stored, by one pattern after another.
-/
import CronSupervisor.Log.Entry
import CronSupervisor.Pattern.Search
import CronSupervisor.Text.Quoted

namespace CronSupervisor

open Calendar Text

/-- The lines captured from one process. -/
structure Sink where
  process : String
  capacity : Nat
  capacity_pos : 0 < capacity
  /-- What is masked in a line, in this order. -/
  patterns : List Pattern
  /-- The lines that are not visible yet, newest first. -/
  pending : List LogEntry
  /-- The visible lines, newest first. -/
  entries : List LogEntry

/-- A text that is no pattern. -/
structure PatternError where
  text : String
  deriving DecidableEq

/-- The wording of the error. -/
def PatternError.message (e : PatternError) : String :=
  s!"compile redact pattern {quote e.text}"

namespace Sink

/-! ## §1. Masking -/

/-- The capacity where none is configured. -/
def defaultCapacity : Nat := 1000

/-- The number of pending lines that become visible by themselves. -/
def batchSize : Nat := 64

/-- What stands for a masked part. -/
def maskText : List Char := "[REDACTED]".toList

/-- The line without the carriage returns and line feeds at its end. -/
def trimLineEnd (line : List Char) : List Char :=
  (line.reverse.dropWhile fun c => c == '\r' || c == '\n').reverse

/-- The text masked by one pattern after another. -/
def redact (patterns : List Pattern) (text : List Char) : List Char :=
  patterns.foldl (fun text p => p.mask maskText text) text

/-- The message that is stored for a line. -/
def stored (patterns : List Pattern) (line : String) : String :=
  String.ofList (redact patterns (trimLineEnd line.toList))

/-! ## §2. Sinks -/

theorem capacity_pos_max (capacity : Nat) : 0 < max capacity 1 := by omega

/-- A sink without lines; a capacity of zero counts as one. -/
def empty (process : String) (capacity : Nat) (patterns : List Pattern) : Sink :=
  { process, capacity := max capacity 1, capacity_pos := capacity_pos_max capacity, patterns,
    pending := [], entries := [] }

section Create

variable [PatternSyntax]

/-- The patterns of a list of texts, or the first text that is none. -/
def patternsOf : List String → Except PatternError (List Pattern)
  | [] => .ok []
  | text :: texts =>
    match PatternSyntax.read? text with
    | none => .error ⟨text⟩
    | some p => (patternsOf texts).map (p :: ·)

/-- A sink for the configured capacity and patterns. -/
def create (process : String) (capacity : Option Nat) (patterns : List String) :
    Except PatternError Sink :=
  (patternsOf patterns).map (empty process (capacity.getD defaultCapacity))

end Create

/-- Make the pending lines visible, at the expense of the oldest ones. -/
def flush (s : Sink) : Sink :=
  { s with pending := [], entries := (s.pending ++ s.entries).take s.capacity }

/-- Capture a line. -/
def record (s : Sink) (now : Instant) (stream : Stream) (line : String) : Sink :=
  let entry := { time := now, process := s.process, stream, message := stored s.patterns line }
  let s := { s with pending := entry :: s.pending }
  if batchSize ≤ s.pending.length then s.flush else s

/-- Up to `n` visible lines, newest first; all of them for zero. -/
def recent (s : Sink) (n : Nat) : List LogEntry := if n = 0 then s.entries else s.entries.take n

end Sink

end CronSupervisor
