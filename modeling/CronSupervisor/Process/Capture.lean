/-
  CronSupervisor.Process.Capture — lines from bytes that arrive in pieces.

  A line goes up to a line feed and includes it.  The bytes after the last line feed are held back:
  the next piece may complete them to a line, and at the end of the pipe they are a line themselves.
-/
import CronSupervisor.Text.Utf8

namespace CronSupervisor.Capture

open Text

/-- The byte that ends a line. -/
def lineFeed : UInt8 := 10

/-- The complete lines, and the bytes after the last line feed. -/
def cut : List UInt8 → List (List UInt8) × List UInt8
  | [] => ([], [])
  | b :: bs =>
    let (lines, rest) := cut bs
    if b = lineFeed then ([b] :: lines, rest)
    else match lines with
      | [] => ([], b :: rest)
      | l :: ls => ((b :: l) :: ls, rest)

/-- The last line of a pipe that ends without a line feed. -/
def lastLine : List UInt8 → List (List UInt8)
  | [] => []
  | bs => [bs]

/-- The lines that a piece completes after some bytes without a line feed, and what is left. -/
def feed (held piece : List UInt8) : List (List UInt8) × List UInt8 :=
  let (lines, rest) := cut piece
  match lines with
  | [] => ([], held ++ rest)
  | l :: ls => ((held ++ l) :: ls, rest)

/-- The lines that a read brings, of some bytes or of the end, and what is held back after it. -/
def take (held : List UInt8) : Option (List UInt8) → List (List UInt8) × List UInt8
  | some piece => feed held piece
  | none => (lastLine held, [])

/-- The lines of a pipe that is read piece by piece. -/
def readLines (held : List UInt8) : List (Option (List UInt8)) → List (List UInt8)
  | [] => []
  | bytes? :: rest =>
    let (lines, held) := take held bytes?
    lines ++ readLines held rest

/-- The text of a line, with a replacement character for each flaw. -/
def lineText (bytes : List UInt8) : String := String.ofList (utf8Lossy bytes)

end CronSupervisor.Capture
