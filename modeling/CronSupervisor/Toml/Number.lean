/-
  CronSupervisor.Toml.Number — integers, fractions and dates of TOML.

  Single underscores may stand between the digits of a number.  Integers fit 64 bits with a sign.
  Dates and times of day exist, and what is left of the text decides whether a number was read as
  a whole.
-/
import CronSupervisor.Calendar.Date
import CronSupervisor.Toml.Lexeme
import CronSupervisor.Value

namespace CronSupervisor.Toml

open Text

/-! ## §1. Digits -/

/-- Further digits, each after an optional underscore. -/
def moreDigits (p : Char → Bool) : List Char → List Char × List Char
  | [] => ([], [])
  | [c] => if p c then ([c], []) else ([], [c])
  | c :: d :: cs =>
    if p c then
      let (ds, rest) := moreDigits p (d :: cs)
      (c :: ds, rest)
    else if c == '_' && p d then
      let (ds, rest) := moreDigits p cs
      (d :: ds, rest)
    else ([], c :: d :: cs)

/-- One or more digits of a class. -/
def digits? (p : Char → Bool) (cs : List Char) : Option (List Char × List Char) :=
  match cs with
  | c :: _ => if p c then some (moreDigits p cs) else none
  | [] => none

/-- A sign, and whether it is a minus. -/
def sign : List Char → Bool × List Char
  | '+' :: cs => (false, cs)
  | '-' :: cs => (true, cs)
  | cs => (false, cs)

/-- Decimal digits without a leading zero. -/
def wholeDigits? : List Char → Option (List Char × List Char)
  | '0' :: cs => some (['0'], cs)
  | cs => digits? isDigit cs

/-! ## §2. Integers -/

/-- The number that digits write in a base. -/
def baseValue (base : Nat) (cs : List Char) : Nat :=
  cs.foldl (fun n c => base * n + (hexDigit? c).getD 0) 0

/-- The integers of 64 bits with a sign. -/
def integerOf? (n : Int) : Option Value :=
  if -Int.pow 2 63 ≤ n ∧ n < Int.pow 2 63 then some (.integer n) else none

/-- The digits of a base below ten. -/
def isDigitBelow (base : Nat) (c : Char) : Bool := isDigit c && digitValue c < base

/-- An integer: decimal, or with a base. -/
def integer? (cs : List Char) : Option (Value × List Char) :=
  let based := fun (base : Nat) (p : Char → Bool) (cs : List Char) => do
    let (ds, rest) ← digits? p cs
    return (← integerOf? (baseValue base ds), rest)
  match cs with
  | '0' :: 'x' :: cs => based 16 (fun c => (hexDigit? c).isSome) cs
  | '0' :: 'o' :: cs => based 8 (isDigitBelow 8) cs
  | '0' :: 'b' :: cs => based 2 (isDigitBelow 2) cs
  | cs => do
    let (negative, cs) := sign cs
    let (ds, rest) ← wholeDigits? cs
    let n : Int := digitsValue ds
    return (← integerOf? (if negative then -n else n), rest)

/-! ## §3. Fractions -/

/-- The part after the point. -/
def pointPart? : List Char → Option (List Char × List Char)
  | '.' :: cs => digits? isDigit cs
  | _ => none

/-- The power of ten after the letter. -/
def powerPart? : List Char → Option (Int × List Char)
  | c :: cs =>
    if c == 'e' || c == 'E' then
      let (negative, cs) := sign cs
      (digits? isDigit cs).map fun (ds, rest) =>
        (if negative then -(digitsValue ds : Int) else digitsValue ds, rest)
    else none
  | [] => none

/-- Whether `n` times a power of ten is too large for a double: it is if rounding takes it to
`2 ^ 1024`, which half a unit below is enough for. -/
def exceedsDouble (n : Nat) (power : Int) : Bool :=
  let magnitude := power + (toString n).length
  if n = 0 ∨ magnitude < 309 then false
  else if 310 < magnitude then true
  else Nat.pow 2 1024 - Nat.pow 2 970
    ≤ if 0 ≤ power then n * Nat.pow 10 power.toNat else n / Nat.pow 10 (-power).toNat

/-- A number with a point, a power of ten, or both; or one of the words for no number and for
infinity.  One that is too large is refused if it is positive. -/
def fraction? (cs : List Char) : Option (Value × List Char) :=
  let (negative, cs) := sign cs
  match cs with
  | 'i' :: 'n' :: 'f' :: rest => some (.fraction, rest)
  | 'n' :: 'a' :: 'n' :: rest => some (.fraction, rest)
  | cs => do
    let (whole, rest) ← wholeDigits? cs
    let (part, power, rest) ← match pointPart? rest with
      | some (part, rest) =>
        match powerPart? rest with
        | some (power, rest) => some (part, power, rest)
        | none => some (part, 0, rest)
      | none => (powerPart? rest).map fun (power, rest) => ([], power, rest)
    if !negative && exceedsDouble (digitsValue (whole ++ part)) (power - part.length) then none
    return (.fraction, rest)

/-! ## §4. Dates and times -/

/-- A number of exactly `width` digits within bounds. -/
def fixed? (width low high : Nat) (cs : List Char) : Option (Nat × List Char) :=
  match numeral? (cs.take width) with
  | some n =>
    if (cs.take width).length = width ∧ low ≤ n ∧ n ≤ high then some (n, cs.drop width) else none
  | none => none

/-- A given character, and then a number of two digits within bounds. -/
def afterMark? (mark : Char) (low high : Nat) : List Char → Option (Nat × List Char)
  | c :: cs => if c == mark then fixed? 2 low high cs else none
  | [] => none

/-- A day that exists. -/
def day? (cs : List Char) : Option (List Char) := do
  let (year, cs) ← fixed? 4 0 9999 cs
  let (month, cs) ← afterMark? '-' 1 12 cs
  let (_, cs) ← afterMark? '-' 1 (Calendar.daysInMonth year month) cs
  return cs

/-- A time of day; a leap second may end a minute. -/
def timeOfDay? (cs : List Char) : Option (List Char) := do
  let (_, cs) ← fixed? 2 0 23 cs
  let (_, cs) ← afterMark? ':' 0 59 cs
  let (_, cs) ← afterMark? ':' 0 60 cs
  match cs with
  | '.' :: c :: rest => if isDigit c then some (rest.dropWhile isDigit) else some cs
  | _ => return cs

/-- An offset from universal time, if there is one. -/
def skipOffset (cs : List Char) : List Char :=
  match cs with
  | [] => []
  | c :: rest =>
    if c == 'Z' || c == 'z' then rest
    else if c == '+' || c == '-' then
      match fixed? 2 0 23 rest with
      | some (_, rest) => ((afterMark? ':' 0 59 rest).map (·.2)).getD cs
      | none => cs
    else cs

/-- A time of day behind a day, with its mark in front and an offset, if there is one. -/
def skipTime (cs : List Char) : List Char :=
  match cs with
  | [] => []
  | c :: rest =>
    if c == 'T' || c == 't' || c == ' ' then ((timeOfDay? rest).map skipOffset).getD cs else cs

/-- A day, a day with a time, or a time. -/
def date? (cs : List Char) : Option (Value × List Char) :=
  match day? cs with
  | some rest => some (.date, skipTime rest)
  | none => (timeOfDay? cs).map (.date, ·)

/-- A date, a fraction or an integer. -/
def number? (cs : List Char) : Option (Value × List Char) :=
  (date? cs).or ((fraction? cs).or (integer? cs))

end CronSupervisor.Toml
