/-
  CronSupervisor.Toml.Lexeme — blanks, comments, strings and keys of TOML.

  Every reader takes its lexeme from the front of a text and returns the rest.  Lines end in a line
  feed alone; `unixLines?` brings a text into that form first.
-/
import CronSupervisor.Text.Decimal

namespace CronSupervisor.Toml

open Text

/-! ## §1. Lines, blanks and comments -/

/-- The text with every line end as a single line feed; a carriage return belongs nowhere else. -/
def unixLines? : List Char → Option (List Char)
  | [] => some []
  | '\r' :: '\n' :: cs => (unixLines? cs).map ('\n' :: ·)
  | '\r' :: _ => none
  | c :: cs => (unixLines? cs).map (c :: ·)

/-- A blank within a line. -/
def isLineBlank (c : Char) : Bool := c == ' ' || c == '\t'

/-- A character of a comment or a string: no control character but the tab. -/
def isTextChar (c : Char) : Bool := c == '\t' || (' ' ≤ c && c != '\x7f')

/-- Drop the blanks. -/
def skipLineBlanks (cs : List Char) : List Char := cs.dropWhile isLineBlank

/-- Drop the blanks and a comment. -/
def skipComment (cs : List Char) : List Char :=
  match skipLineBlanks cs with
  | '#' :: cs => cs.dropWhile isTextChar
  | cs => cs

/-- Nothing but blanks and a comment up to the end of the line; the next lines. -/
def endOfLine? (cs : List Char) : Option (List Char) :=
  match skipComment cs with
  | [] => some []
  | '\n' :: cs => some cs
  | _ => none

/-- Drop blanks, comments and line ends; `inComment` says where the text begins. -/
def skipLines (inComment : Bool) : List Char → List Char
  | [] => []
  | c :: cs =>
    if c == '\n' then skipLines false cs
    else if inComment then if isTextChar c then skipLines true cs else c :: cs
    else if c == '#' then skipLines true cs
    else if isLineBlank c then skipLines false cs
    else c :: cs

/-! ## §2. Strings -/

/-- The value of a hexadecimal digit. -/
def hexDigit? (c : Char) : Option Nat :=
  if isDigit c then some (digitValue c)
  else if 'a' ≤ c ∧ c ≤ 'f' then some (c.toNat - 87)
  else if 'A' ≤ c ∧ c ≤ 'F' then some (c.toNat - 55)
  else none

/-- The character with a number of exactly `width` hexadecimal digits. -/
def numberedChar? (width : Nat) (cs : List Char) : Option Char := do
  if (cs.take width).length ≠ width then none
  let n ← (cs.take width).foldlM (fun n c => (hexDigit? c).map (16 * n + ·)) 0
  if n.isValidChar then some (Char.ofNat n) else none

/-- What a backslash and the characters after it stand for, and how many these are. -/
def escape? : List Char → Option (Char × Nat)
  | [] => none
  | c :: cs =>
    match c with
    | 'b' => some ('\x08', 1)
    | 't' => some ('\t', 1)
    | 'n' => some ('\n', 1)
    | 'f' => some ('\x0c', 1)
    | 'r' => some ('\r', 1)
    | '\x22' => some ('\x22', 1)
    | '\\' => some ('\\', 1)
    | 'u' => (numberedChar? 4 cs).map (·, 5)
    | 'U' => (numberedChar? 8 cs).map (·, 9)
    | _ => none

/-- Put a character in front of what was read. -/
def withChar (c : Char) : Option (List Char × List Char) → Option (List Char × List Char)
  | some (cs, rest) => some (c :: cs, rest)
  | none => none

/-- The body of a string on one line up to its closing quotation mark.  Without escapes a backslash
stands for itself. -/
def lineBody? (quote : Char) (escapes : Bool) : List Char → Option (List Char × List Char)
  | [] => none
  | c :: cs =>
    if c == quote then some ([], cs)
    else if escapes && c == '\\' then
      match escape? cs with
      | some (e, taken) => withChar e (lineBody? quote escapes (cs.drop taken))
      | none => none
    else if isTextChar c then withChar c (lineBody? quote escapes cs)
    else none
termination_by cs => cs.length

/-- Three quotation marks, after which up to two of five belong to the string. -/
def closing? (quote : Char) (cs : List Char) : Option (List Char × List Char) :=
  let marks := (cs.takeWhile (· == quote)).take 5
  if marks.length < 3 then none else some (marks.drop 3, cs.drop marks.length)

/-- The body of a string over several lines up to its closing quotation marks.  A backslash at the
end of a line takes the blanks and line ends after it away. -/
def linesBody? (quote : Char) (escapes skipping : Bool) :
    List Char → Option (List Char × List Char)
  | [] => none
  | c :: cs =>
    if skipping && (isLineBlank c || c == '\n') then linesBody? quote escapes true cs
    else
      match closing? quote (c :: cs) with
      | some closed => some closed
      | none =>
        if escapes && c == '\\' then
          match escape? cs with
          | some (e, taken) => withChar e (linesBody? quote escapes false (cs.drop taken))
          | none =>
            if (skipLineBlanks cs).head? == some '\n' then linesBody? quote escapes true cs
            else none
        else if isTextChar c || c == '\n' then withChar c (linesBody? quote escapes false cs)
        else none
termination_by cs => cs.length

/-- The text without a line feed at its start. -/
def dropLineFeed : List Char → List Char
  | '\n' :: cs => cs
  | cs => cs

/-- A string on one line, in either kind of quotation marks. -/
def lineString? : List Char → Option (String × List Char)
  | c :: cs =>
    if c == '\x22' || c == '\'' then
      (lineBody? c (c == '\x22') cs).map fun (s, rest) => (String.ofList s, rest)
    else none
  | [] => none

/-- A string. -/
def string? (cs : List Char) : Option (String × List Char) :=
  match cs with
  | a :: b :: c :: rest =>
    if (a == '\x22' || a == '\'') && b == a && c == a then
      (linesBody? a (a == '\x22') false (dropLineFeed rest)).map
        fun (s, rest) => (String.ofList s, rest)
    else lineString? cs
  | _ => lineString? cs

/-! ## §3. Keys -/

/-- A character of a key without quotation marks. -/
def isBareKeyChar (c : Char) : Bool :=
  ('a' ≤ c && c ≤ 'z') || ('A' ≤ c && c ≤ 'Z') || isDigit c || c == '_' || c == '-'

/-- A part of a key, with blanks around it. -/
def keyPart? (cs : List Char) : Option (String × List Char) :=
  let cs := skipLineBlanks cs
  let bare := cs.takeWhile isBareKeyChar
  let read := if bare.isEmpty then lineString? cs
    else some (String.ofList bare, cs.dropWhile isBareKeyChar)
  read.map fun (part, rest) => (part, skipLineBlanks rest)

/-- The most parts that a key may have, and the deepest nesting of values. -/
def depthLimit : Nat := 79

/-- The parts of a key, joined by points. -/
def keyParts? : Nat → List Char → Option (List String × List Char)
  | 0, _ => none
  | fuel + 1, cs =>
    match keyPart? cs with
    | some (part, '.' :: rest) => (keyParts? fuel rest).map fun (ps, rest) => (part :: ps, rest)
    | some (part, rest) => some ([part], rest)
    | none => none

/-- A key. -/
def key? (cs : List Char) : Option (List String × List Char) := keyParts? depthLimit cs

end CronSupervisor.Toml
