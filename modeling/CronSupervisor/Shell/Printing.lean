/-
  CronSupervisor.Shell.Printing — the texts that commands print.

  `echo` joins its words, and the one that is built into the shell knows escapes.  `printf` follows
  a format, as often as there are words left for it.
-/
import CronSupervisor.Text.Decimal
import CronSupervisor.Text.Utf8

namespace CronSupervisor.Shell

open Text

/-! ## §1. Escapes -/

/-- An octal digit. -/
def isOctal (c : Char) : Bool := '0' ≤ c && c ≤ '7'

/-- The byte that octal digits write. -/
def octalByte (cs : List Char) : UInt8 :=
  UInt8.ofNat (cs.foldl (fun n c => 8 * n + digitValue c) 0)

/-- The byte of a letter after a backslash. -/
def escapedByte? : Char → Option UInt8
  | 'a' => some 7
  | 'b' => some 8
  | 't' => some 9
  | 'n' => some 10
  | 'v' => some 11
  | 'f' => some 12
  | 'r' => some 13
  | '\\' => some 92
  | _ => none

/-- What a text with escapes stands for.  An octal number follows a backslash, with a zero in front
where `zeroFirst` asks for it.  With `stops`, one escape ends all output. -/
def unescape (zeroFirst stops : Bool) : List Char → List UInt8 × Bool
  | [] => ([], false)
  | c :: cs =>
    let onwards := fun (bytes : List UInt8) (taken : Nat) =>
      let (rest, stopped) := unescape zeroFirst stops (cs.drop taken)
      (bytes ++ rest, stopped)
    match c, cs with
    | '\\', d :: more =>
      if stops && d == 'c' then ([], true)
      else match escapedByte? d with
        | some b => onwards [b] 1
        | none =>
          let digits := if zeroFirst then (more.takeWhile isOctal).take 3
            else (cs.takeWhile isOctal).take 3
          if zeroFirst && d == '0' then onwards [octalByte digits] (1 + digits.length)
          else if !zeroFirst && isOctal d then onwards [octalByte digits] digits.length
          else onwards [92] 0
    | _, _ => onwards (String.utf8EncodeChar c) 0
termination_by cs => cs.length

/-! ## §2. Lines of words -/

/-- What the shell's own `echo` prints. -/
def echoWords (words : List String) : List UInt8 :=
  let (newline, words) := match words with
    | "-n" :: ws => (false, ws)
    | ws => (true, ws)
  let (bytes, stopped) := unescape true true (" ".intercalate words).toList
  bytes ++ if newline && !stopped then [10] else []

/-- The options of the program `echo`: whether it ends the line and knows escapes. -/
def echoOptions (newline escapes : Bool) : List String → Bool × Bool × List String
  | [] => (newline, escapes, [])
  | w :: ws =>
    match w.toList with
    | '-' :: o :: os =>
      if (o :: os).all fun c => c == 'n' || c == 'e' || c == 'E' then
        let letters := (o :: os).filter (· != 'n')
        echoOptions (newline && !(o :: os).contains 'n')
          (match letters.getLast? with | some l => l == 'e' | none => escapes) ws
      else (newline, escapes, w :: ws)
    | _ => (newline, escapes, w :: ws)

/-- What the program `echo` prints. -/
def echoProgram (words : List String) : List UInt8 :=
  let (newline, escapes, words) := echoOptions true false words
  let line := " ".intercalate words
  let (bytes, stopped) :=
    if escapes then unescape true true line.toList else (utf8Bytes line, false)
  bytes ++ if newline && !stopped then [10] else []

/-! ## §3. Formats -/

/-- How a word is to be printed. -/
structure Directive where
  left : Bool := false
  zeros : Bool := false
  width : Nat := 0
  precision : Option Nat := none
  kind : Char

/-- A directive, read after its percent sign. -/
def directive? (cs : List Char) : Option (Directive × List Char) :=
  let flags := cs.takeWhile fun c => c == '-' || c == '0' || c == '+' || c == ' ' || c == '#'
  let cs := cs.drop flags.length
  let width := cs.takeWhile isDigit
  let cs := cs.drop width.length
  let (precision, cs) := match cs with
    | '.' :: cs => (some (digitsValue (cs.takeWhile isDigit)), cs.dropWhile isDigit)
    | cs => (none, cs)
  match cs with
  | kind :: rest =>
    some ({ left := flags.contains '-', zeros := flags.contains '0', width := digitsValue width,
            precision, kind }, rest)
  | [] => none

/-- A number with a sign. -/
def integerOf (word : String) : Int :=
  match word.toList with
  | '-' :: cs => -((numeral? cs).getD 0 : Nat)
  | '+' :: cs => ((numeral? cs).getD 0 : Nat)
  | cs => ((numeral? cs).getD 0 : Nat)

/-- The bytes of a word under a directive, before they are padded. -/
def directiveBytes (d : Directive) (word : String) : Option (List UInt8) :=
  let cut := fun (bytes : List UInt8) => match d.precision with
    | some n => bytes.take n
    | none => bytes
  match d.kind with
  | 's' => some (cut (utf8Bytes word))
  | 'b' => some (cut (unescape true true word.toList).1)
  | 'c' => some ((utf8Bytes word).take 1)
  | 'd' => some (utf8Bytes (toString (integerOf word)))
  | 'i' => some (utf8Bytes (toString (integerOf word)))
  | 'u' => some (utf8Bytes (toString (integerOf word).toNat))
  | 'x' => some (utf8Bytes (String.ofList (Nat.toDigits 16 (integerOf word).toNat)))
  | 'o' => some (utf8Bytes (String.ofList (Nat.toDigits 8 (integerOf word).toNat)))
  | _ => none

/-- Bytes filled up to the width of a directive. -/
def fill (d : Directive) (bytes : List UInt8) : List UInt8 :=
  let missing := d.width - bytes.length
  if d.left then bytes ++ List.replicate missing 32
  else if d.zeros && d.kind != 's' then
    match bytes with
    | 45 :: digits => 45 :: List.replicate missing 48 ++ digits
    | bytes => List.replicate missing 48 ++ bytes
  else List.replicate missing 32 ++ bytes

/-- Follow a format once; yields the bytes and the words that are left. -/
def formatOnce : Nat → List Char → List String → List UInt8 × List String
  | 0, _, words => ([], words)
  | _ + 1, [], words => ([], words)
  | fuel + 1, '%' :: '%' :: cs, words =>
    let (bytes, words) := formatOnce fuel cs words
    (37 :: bytes, words)
  | fuel + 1, '%' :: cs, words =>
    match directive? cs with
    | some (d, rest) =>
      match directiveBytes d (words.headD "") with
      | some here =>
        let (bytes, words) := formatOnce fuel rest words.tail
        (fill d here ++ bytes, words)
      | none => ([], words)
    | none => ([], words)
  | fuel + 1, cs, words =>
    let text := cs.takeWhile (· != '%')
    let (bytes, words) := formatOnce fuel (cs.drop text.length) words
    ((unescape false false text).1 ++ bytes, words)

/-- Follow a format until no word is left; a format that takes none is followed once. -/
def formatWords (format : List Char) : Nat → List String → List UInt8
  | 0, _ => []
  | fuel + 1, words =>
    let (bytes, rest) := formatOnce (format.length + 1) format words
    if rest.isEmpty || rest.length = words.length then bytes
    else bytes ++ formatWords format fuel rest

end CronSupervisor.Shell
