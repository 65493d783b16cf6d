/-
  CronSupervisor.Calendar.Timestamp — instants and spans as text.

  A timestamp is a date, the letter T, a time of day and the sign of universal time, `Z` or
  `+00:00`.  Its fraction has the fewest digits out of 0, 3, 6 and 9 that lose nothing.  A span is
  written in the largest of the units s, ms, µs and ns of which it holds at least one.
-/
import CronSupervisor.Calendar.Date
import CronSupervisor.Calendar.Instant
import CronSupervisor.Text.Decimal

namespace CronSupervisor.Calendar

open Text

/-! ## §1. Writing timestamps -/

/-- Four digits for years 0 to 9999, a sign and at least four digits outside of them. -/
def yearText (y : Int) : String :=
  if 0 ≤ y ∧ y ≤ 9999 then padded 4 y.toNat
  else (if y < 0 then "-" else "+") ++ padded 4 y.natAbs

/-- The fraction of a second, with its point. -/
def fractionText (nanos : Nat) : String :=
  if nanos == 0 then ""
  else if nanos % 1000000 == 0 then "." ++ padded 3 (nanos / 1000000)
  else if nanos % 1000 == 0 then "." ++ padded 6 (nanos / 1000)
  else "." ++ padded 9 nanos

/-- The timestamp up to the sign of universal time. -/
def Instant.localText (t : Instant) : String :=
  let date := Date.ofDayNumber (t.seconds / secondsPerDay)
  let second := (t.seconds % secondsPerDay).toNat
  yearText date.year ++ "-" ++ padded 2 date.month ++ "-" ++ padded 2 date.day ++ "T"
    ++ padded 2 (second / 3600) ++ ":" ++ padded 2 (second / 60 % 60) ++ ":"
    ++ padded 2 (second % 60) ++ fractionText t.subsecond

/-- The timestamp that ends in `Z`. -/
def Instant.text (t : Instant) : String := t.localText ++ "Z"

/-- The timestamp that ends in `+00:00`. -/
def Instant.offsetText (t : Instant) : String := t.localText ++ "+00:00"

/-! ## §2. Reading timestamps -/

/-- A numeral of exactly `width` digits in front of the rest. -/
def fixedNumeral? (width : Nat) (cs : List Char) : Option (Nat × List Char) :=
  if (cs.take width).length = width then
    (numeral? (cs.take width)).map fun n => (n, cs.drop width)
  else none

/-- A given character in front of the rest. -/
def expectChar? (c : Char) : List Char → Option (List Char)
  | d :: rest => if d = c then some rest else none
  | [] => none

/-- An optional fraction of a second, in nanoseconds; digits after the ninth are dropped. -/
def fraction? : List Char → Option (Nat × List Char)
  | '.' :: cs =>
    let digits := cs.takeWhile isDigit
    if digits.isEmpty then none
    else
      let nine := (digits ++ List.replicate 9 '0').take 9
      some (digitsValue nine, cs.dropWhile isDigit)
  | cs => some (0, cs)

/-- Read a timestamp in universal time, with a four-digit year. -/
def Instant.ofText? (s : String) : Option Instant := do
  let (year, cs) ← fixedNumeral? 4 s.toList
  let (month, cs) ← fixedNumeral? 2 (← expectChar? '-' cs)
  let (day, cs) ← fixedNumeral? 2 (← expectChar? '-' cs)
  let (hour, cs) ← fixedNumeral? 2 (← expectChar? 'T' cs)
  let (minute, cs) ← fixedNumeral? 2 (← expectChar? ':' cs)
  let (second, cs) ← fixedNumeral? 2 (← expectChar? ':' cs)
  let (nanos, cs) ← fraction? cs
  if cs = ['Z'] ∨ cs = "+00:00".toList then
    let seconds := Date.dayNumber ⟨year, month, day⟩ * secondsPerDay
      + (hour * 3600 + minute * 60 + second : Nat)
    return (Instant.ofSeconds seconds).addNanos nanos
  else none

/-! ## §3. Spans -/

/-- A span in its largest unit. -/
def Span.text (d : Span) : String :=
  if 0 < d.seconds then decimal d.seconds d.subsecond 9 ++ "s"
  else if 1000000 ≤ d.nanos then decimal (d.nanos / 1000000) (d.nanos % 1000000) 6 ++ "ms"
  else if 1000 ≤ d.nanos then decimal (d.nanos / 1000) (d.nanos % 1000) 3 ++ "µs"
  else toString d.nanos ++ "ns"

end CronSupervisor.Calendar
