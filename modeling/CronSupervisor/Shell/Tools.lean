/-
  CronSupervisor.Shell.Tools — the programs that read, write, wait and compare.

  Every tool takes its words and changes the state: it reads the input, writes, lets time pass and
  leaves a status.
-/
import CronSupervisor.Shell.Files
import CronSupervisor.Shell.Printing
import CronSupervisor.Shell.State

namespace CronSupervisor.Shell

open Text

/-! ## §1. Input -/

/-- Where a tool reads from. -/
inductive Source where
  | bytes (bs : List UInt8)
  /-- Zeros without an end. -/
  | zeros

/-- What a file holds, if it can be read; a hyphen stands for the input. -/
def sourceOf? (s : State) (file : String) : Option Source :=
  if file == "-" then some (.bytes s.input)
  else
    let path := resolve s.directory file
    if path == "/dev/zero" then some .zeros
    else if fileKind? path = some .plain then some (.bytes [])
    else none

/-- Complain that a file cannot be read. -/
def noFile (s : State) (tool file : String) : State :=
  let reason := match fileKind? (resolve s.directory file) with
    | some .directory => "Is a directory"
    | _ => "No such file or directory"
  (s.complain s!"{tool}: {file}: {reason}").leave 1

/-- The end of a program that was called in a wrong way. -/
def State.misuse (s : State) (tool : String) : State :=
  (s.complain s!"Try '{tool} --help' for more information.").leave 1

/-- Write all input, or the content of files. -/
def cat (s : State) (files : List String) : State :=
  (if files.isEmpty then ["-"] else files).foldl (fun s file =>
    match sourceOf? s file with
    | some (.bytes bs) => { s.write bs with input := if file == "-" then [] else s.input }
    | some .zeros => { s with endless := true, ended := some (.exited 0) }
    | none => noFile s "cat" file) (s.leave 0)

/-- The number of bytes or lines that is asked for, and the words after it. -/
def headCount (words : List String) : Bool × Nat × List String :=
  match words with
  | [] => (false, 10, [])
  | w :: ws =>
    match w.toList, ws with
    | ['-', 'c'], n :: ws => (true, (numeral? n.toList).getD 0, ws)
    | ['-', 'n'], n :: ws => (false, (numeral? n.toList).getD 0, ws)
    | '-' :: 'c' :: n, ws => (true, (numeral? n).getD 0, ws)
    | '-' :: 'n' :: n, ws => (false, (numeral? n).getD 0, ws)
    | '-' :: n, ws =>
      match numeral? n with
      | some n => (false, n, ws)
      | none => (false, 10, w :: ws)
    | _, _ => (false, 10, w :: ws)

/-- The first lines of some bytes. -/
def firstLines : Nat → List UInt8 → List UInt8
  | 0, _ => []
  | _ + 1, [] => []
  | n + 1, b :: bs => b :: if b = 10 then firstLines n bs else firstLines (n + 1) bs

/-- Write the first bytes or lines. -/
def head (s : State) (words : List String) : State :=
  let (counted, n, files) := headCount words
  let file := files.headD "-"
  match sourceOf? s file with
  | some (.bytes bs) =>
    { s.write (if counted then bs.take n else firstLines n bs) with
      input := if file == "-" then [] else s.input, status := 0 }
  | some .zeros => (s.write (if counted then List.replicate n 0 else [])).leave 0
  | none =>
    (s.complain s!"head: cannot open '{file}' for reading: No such file or directory").leave 1

/-! ## §2. Exchange of bytes -/

/-- The bytes that a set names: single ones, escapes, and ranges. -/
def byteSet : Nat → List UInt8 → List UInt8
  | fuel + 1, a :: 45 :: b :: rest =>
    List.map UInt8.ofNat (List.range' a.toNat (b.toNat + 1 - a.toNat)) ++ byteSet fuel rest
  | fuel + 1, a :: rest => a :: byteSet fuel rest
  | _, _ => []

/-- The bytes that a word names as a set. -/
def setOf (word : String) : List UInt8 :=
  let bytes := (unescape false false word.toList).1
  byteSet bytes.length bytes

/-- What a byte becomes if every byte of one set becomes its counterpart in another one, of which
the last byte repeats. -/
def exchange (source target : List UInt8) (b : UInt8) : UInt8 :=
  match source.idxOf? b with
  | some n => (target[n]?.or target.getLast?).getD b
  | none => b

/-- Exchange or delete bytes of the input. -/
def tr (s : State) (words : List String) : State :=
  let read := { s with input := [] }
  match words with
  | ["-d", set] => (read.write (s.input.filter fun b => !(setOf set).contains b)).leave 0
  | [source, target] =>
    (read.write (s.input.map (exchange (setOf source) (setOf target)))).leave 0
  | _ => (s.complain "tr: missing operand").misuse "tr"

/-! ## §3. Time -/

/-- The milliseconds of a number with a fraction and a unit. -/
def interval? (word : String) : Option Nat :=
  let cs := word.toList
  let whole := cs.takeWhile isDigit
  let rest := cs.drop whole.length
  let (part, rest) := match rest with
    | '.' :: rest => (rest.takeWhile isDigit, rest.dropWhile isDigit)
    | rest => ([], rest)
  let unit := match rest with
    | [] => some 1
    | ['s'] => some 1
    | ['m'] => some 60
    | ['h'] => some 3600
    | ['d'] => some 86400
    | _ => none
  if whole.isEmpty && part.isEmpty then none
  else unit.map fun u =>
    (digitsValue whole * 1000 + digitsValue ((part ++ ['0', '0', '0']).take 3)) * u

/-- Let time pass. -/
def sleep (s : State) (words : List String) : State :=
  if words.isEmpty then (s.complain "sleep: missing operand").misuse "sleep"
  else if words.contains "infinity" then { s with endless := true, ended := some (.exited 0) }
  else match words.mapM interval? with
    | some ms => { s with time := s.time + ms.foldr (· + ·) 0, status := 0 }
    | none =>
      let bad := (words.find? fun w => (interval? w).isNone).getD ""
      (s.complain s!"sleep: invalid time interval '{bad}'").misuse "sleep"

/-! ## §4. Comparison -/

/-- A whole number, if the word is one. -/
def integer? (word : String) : Option Int :=
  match word.toList with
  | '-' :: cs => (numeral? cs).map fun n => -(n : Int)
  | '+' :: cs => (numeral? cs).map Int.ofNat
  | cs => (numeral? cs).map Int.ofNat

/-- Why a condition is neither true nor false. -/
inductive ConditionProblem where
  | unexpectedOperator (word : String)
  | illegalNumber (word : String)

/-- The wording of a problem. -/
def ConditionProblem.message : ConditionProblem → String
  | unexpectedOperator word => s!"{word}: unexpected operator"
  | illegalNumber word => s!"Illegal number: {word}"

/-- A word that has to be a number. -/
def integerOrProblem (word : String) : Except ConditionProblem Int :=
  match integer? word with
  | some n => .ok n
  | none => .error (.illegalNumber word)

/-- A comparison of two words. -/
def compareWords (a operator b : String) : Except ConditionProblem Bool :=
  let numbers := fun (f : Int → Int → Bool) => do
    return f (← integerOrProblem a) (← integerOrProblem b)
  match operator with
  | "=" => .ok (a == b)
  | "!=" => .ok (a != b)
  | "-eq" => numbers (· == ·)
  | "-ne" => numbers (· != ·)
  | "-lt" => numbers fun x y => decide (x < y)
  | "-le" => numbers fun x y => decide (x ≤ y)
  | "-gt" => numbers fun x y => decide (y < x)
  | "-ge" => numbers fun x y => decide (y ≤ x)
  | _ => .error (.unexpectedOperator a)

/-- A property of a word.  No stream is a terminal. -/
def examineWord? (s : State) (operator word : String) : Option Bool :=
  let kind := fileKind? (resolve s.directory word)
  match operator with
  | "-n" => some (word != "")
  | "-z" => some (word == "")
  | "-t" => some false
  | "-e" => some kind.isSome
  | "-d" => some (kind = some .directory)
  | "-f" => some (kind.isSome && kind ≠ some .directory)
  | "-r" => some kind.isSome
  | "-x" => some (kind.isSome && kind ≠ some .plain)
  | _ => none

/-- Whether a condition holds. -/
def condition (s : State) : List String → Except ConditionProblem Bool
  | [] => .ok false
  | [word] => .ok (word != "")
  | [operator, word] =>
    if operator == "!" then .ok (word == "")
    else match examineWord? s operator word with
      | some holds => .ok holds
      | none => .error (.unexpectedOperator operator)
  | "!" :: words => (condition s words).map (!·)
  | [a, operator, b] => compareWords a operator b
  | a :: operator :: b :: connective :: rest => do
    let first ← compareWords a operator b
    let second ← condition s rest
    if connective == "-a" then .ok (first && second)
    else if connective == "-o" then .ok (first || second)
    else .error (.unexpectedOperator connective)

/-- Leave the status of a condition. -/
def test (s : State) (tool : String) (words : List String) : State :=
  match condition s words with
  | .ok true => s.leave 0
  | .ok false => s.leave 1
  | .error e => s.fail 2 s!"{tool}: {e.message}"

/-! ## §5. Programs -/

/-- Run a program that is no shell. -/
def runTool (name : String) (words : List String) (s : State) : State :=
  match name with
  | "echo" => (s.write (echoProgram words)).leave 0
  | "printf" =>
    match words with
    | format :: ws => (s.write (formatWords format.toList (ws.length + 1) ws)).leave 0
    | [] => (s.complain "printf: missing operand").leave 1
  | "cat" => cat s words
  | "head" => head s words
  | "tr" => tr s words
  | "sleep" => sleep s words
  | "pwd" => (s.write (utf8Bytes (s.directory ++ "\n"))).leave 0
  | "true" => s.leave 0
  | "test" => test s "test" words
  | "[" =>
    if words.getLast? = some "]" then test s "[" words.dropLast else s.fail 2 "[: missing ]"
  | _ => s.leave 1

end CronSupervisor.Shell
