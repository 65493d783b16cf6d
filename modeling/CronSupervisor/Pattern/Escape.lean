/-
  CronSupervisor.Pattern.Escape — flags, and what a backslash makes of the characters after it.

  A backslash takes the special meaning from a punctuation character and gives one to some letters.
  A letter without a meaning, a digit and anything beyond ASCII may not follow a backslash.
-/
import CronSupervisor.Pattern.Basic
import CronSupervisor.Text.Decimal

namespace CronSupervisor.Pattern

open Text

/-! ## §1. Flags -/

/-- How the pattern is read. -/
structure Flags where
  ignoreCase : Bool := false
  /-- The anchors of a text stand for those of a line. -/
  multiLine : Bool := false
  /-- The dot includes the line feed. -/
  dotAll : Bool := false
  /-- Repetitions prefer few rounds, and many with a question mark. -/
  swapGreed : Bool := false

namespace Flags

/-- Switch the flag of a letter.  Text is always read as Unicode, so `u` can only be set. -/
def switch? (f : Flags) (on : Bool) : Char → Option Flags
  | 'i' => some { f with ignoreCase := on }
  | 'm' => some { f with multiLine := on }
  | 's' => some { f with dotAll := on }
  | 'U' => some { f with swapGreed := on }
  | 'u' => if on then some f else none
  | _ => none

/-- A set with the case variants of its members, if case is ignored. -/
def fold (f : Flags) (s : CharSet) : CharSet := if f.ignoreCase then .folded s else s

end Flags

/-! ## §2. Escapes -/

/-- What a single item of a pattern stands for. -/
inductive Atom where
  | literal (c : Char)
  | set (s : CharSet)
  | anchor (a : Anchor)

/-- The value of a hexadecimal digit. -/
def hexValue? (c : Char) : Option Nat :=
  if isDigit c then some (digitValue c)
  else if 'a' ≤ c ∧ c ≤ 'f' then some (c.toNat - 87)
  else if 'A' ≤ c ∧ c ≤ 'F' then some (c.toNat - 55)
  else none

/-- The number that hexadecimal digits write. -/
def hexNumber? (cs : List Char) : Option Nat :=
  if cs.isEmpty then none
  else cs.foldl (fun n c => do return 16 * (← n) + (← hexValue? c)) (some 0)

/-- The character of a number. -/
def charOfNumber? (n : Nat) : Option Char := if n.isValidChar then some (Char.ofNat n) else none

/-- A character by its number: some digits, or any number of them in braces. -/
def byNumber? (width : Nat) (cs : List Char) : Option (Atom × List Char) :=
  let (digits, rest) := match cs with
    | '\x7b' :: cs =>
      let digits := cs.takeWhile (· != '\x7d')
      match cs.drop digits.length with
      | _ :: rest => (digits, rest)
      | [] => ([], [])
    | cs => if (cs.take width).length = width then (cs.take width, cs.drop width) else ([], [])
  (hexNumber? digits).bind charOfNumber? |>.map fun c => (.literal c, rest)

/-- The kinds of word boundaries that have a name. -/
def namedBoundaries : List (String × Anchor) :=
  [("start", .wordStart), ("end", .wordEnd), ("start-half", .halfStart), ("end-half", .halfEnd)]

/-- A letter or a hyphen. -/
def isBoundaryNameChar (c : Char) : Bool :=
  ('a' ≤ c && c ≤ 'z') || ('A' ≤ c && c ≤ 'Z') || c == '-'

/-- A word boundary, which may be followed by its kind in braces. -/
def boundary? (cs : List Char) : Option (Atom × List Char) :=
  match cs with
  | '\x7b' :: inner =>
    match inner with
    | [] => none
    | c :: _ =>
      if isBoundaryNameChar c then
        let name := inner.takeWhile isBoundaryNameChar
        match inner.drop name.length, namedBoundaries.lookup (String.ofList name) with
        | '\x7d' :: rest, some a => some (.anchor a, rest)
        | _, _ => none
      else some (.anchor .boundary, cs)
  | _ => some (.anchor .boundary, cs)

/-- An ASCII character other than letters, digits and angle brackets. -/
def isEscapable (c : Char) : Bool :=
  c.toNat < 128 && !c.isAlphanum && c != '<' && c != '>'

/-- What follows a backslash. -/
def escape? : List Char → Option (Atom × List Char)
  | [] => none
  | c :: rest =>
    match c with
    | 'd' => some (.set .digit, rest)
    | 'D' => some (.set (.complement .digit), rest)
    | 's' => some (.set .space, rest)
    | 'S' => some (.set (.complement .space), rest)
    | 'w' => some (.set .word, rest)
    | 'W' => some (.set (.complement .word), rest)
    | 'x' => byNumber? 2 rest
    | 'u' => byNumber? 4 rest
    | 'U' => byNumber? 8 rest
    | 'A' => some (.anchor .textStart, rest)
    | 'z' => some (.anchor .textEnd, rest)
    | 'b' => boundary? rest
    | 'B' => some (.anchor .noBoundary, rest)
    | '<' => some (.anchor .wordStart, rest)
    | '>' => some (.anchor .wordEnd, rest)
    | 'a' => some (.literal '\x07', rest)
    | 'f' => some (.literal '\x0c', rest)
    | 't' => some (.literal '\t', rest)
    | 'n' => some (.literal '\n', rest)
    | 'r' => some (.literal '\r', rest)
    | 'v' => some (.literal '\x0b', rest)
    | c => if isEscapable c then some (.literal c, rest) else none

end CronSupervisor.Pattern
