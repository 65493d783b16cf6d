/-
  CronSupervisor.Shell.Reader — shell scripts as text.

  A script is cut into words, operators and redirections, and these are read as commands.  Nested
  scripts and the words inside of parameters are kept as text and read when they are expanded.
-/
import CronSupervisor.Shell.Command
import CronSupervisor.Text.Decimal

namespace CronSupervisor.Shell

open Text

/-! ## §1. Words -/

/-- A character of a name. -/
def isNameChar (c : Char) : Bool := c.isAlphanum || c == '_'

/-- A character that a name may begin with. -/
def isNameStart (c : Char) : Bool := c.isAlpha || c == '_'

/-- A parameter that is written as a single character. -/
def isSpecialParameter (c : Char) : Bool := isDigit c || "#?$!@*-".toList.contains c

/-- The text up to the mark that closes what `depth` marks have opened. -/
def enclosed? (opening closing : Char) : Nat → List Char → Option (List Char × List Char)
  | _, [] => none
  | depth, c :: cs =>
    if c == closing then
      match depth with
      | 0 => some ([], cs)
      | depth + 1 => (enclosed? opening closing depth cs).map fun (a, b) => (c :: a, b)
    else
      let depth := if c == opening then depth + 1 else depth
      (enclosed? opening closing depth cs).map fun (a, b) => (c :: a, b)

/-- What follows the name of a parameter in braces. -/
def fallback? : List Char → Option Fallback
  | [] => some .plain
  | ':' :: '-' :: w => some (.orWord true w)
  | ':' :: '=' :: w => some (.orAssign true w)
  | ':' :: '+' :: w => some (.insteadWord true w)
  | ':' :: '?' :: w => some (.orFail true w)
  | '-' :: w => some (.orWord false w)
  | '=' :: w => some (.orAssign false w)
  | '+' :: w => some (.insteadWord false w)
  | '?' :: w => some (.orFail false w)
  | _ => none

/-- The name of a parameter, and what follows it. -/
def parameterName? (cs : List Char) : Option (String × List Char) :=
  match cs with
  | [] => none
  | c :: rest =>
    if isNameStart c then
      some (String.ofList (cs.takeWhile isNameChar), cs.dropWhile isNameChar)
    else if isSpecialParameter c then some (c.toString, rest)
    else none

/-- A parameter that was written in braces. -/
def bracedParameter? (inner : List Char) (quoted : Bool) : Option Part :=
  match inner with
  | '#' :: c :: rest =>
    match parameterName? (c :: rest) with
    | some (name, []) => some (.parameter name .length quoted)
    | _ => none
  | _ =>
    match parameterName? inner with
    | some (name, rest) => (fallback? rest).map fun f => .parameter name f quoted
    | none => none

/-- An expansion, read after its dollar sign; a sign without one stands for itself. -/
def expansion? (cs : List Char) (quoted : Bool) : Option (Part × List Char) :=
  match cs with
  | '(' :: '(' :: rest =>
    match enclosed? '(' ')' 0 rest with
    | some (expression, ')' :: rest) => some (.arithmetic expression quoted, rest)
    | _ => none
  | '(' :: rest =>
    (enclosed? '(' ')' 0 rest).map fun (script, rest) => (.output script quoted, rest)
  | '\x7b' :: rest =>
    match enclosed? '\x7b' '\x7d' 0 rest with
    | some (inner, rest) => (bracedParameter? inner quoted).map (·, rest)
    | none => none
  | cs =>
    match parameterName? cs with
    | some (name, rest) => some (.parameter name .plain quoted, rest)
    | none => some (.text ['$'] quoted, cs)

/-- A character that ends a word. -/
def endsWord (c : Char) : Bool := " \t\n;&|<>()".toList.contains c

/-- The parts of a word.  Inside of quotation marks it goes up to the closing one; each part takes
a character, so the length bounds their number. -/
def parts? : Nat → Bool → List Char → Option (List Part × List Char)
  | 0, _, _ => none
  | _ + 1, quoted, [] => if quoted then none else some ([], [])
  | fuel + 1, quoted, c :: cs =>
    let onwards := fun (p : Part) (rest : List Char) =>
      (parts? fuel quoted rest).map fun (ps, rest) => (p :: ps, rest)
    if c == '$' then (expansion? cs quoted).bind fun (p, rest) => onwards p rest
    else if c == '\x60' then
      match cs.span (· != '\x60') with
      | (script, _ :: rest) => onwards (.output script quoted) rest
      | _ => none
    else if quoted then
      match c, cs with
      | '\x22', _ => some ([], cs)
      | '\\', d :: rest =>
        if "$\x60\x22\\".toList.contains d then onwards (.text [d] true) rest
        else if d == '\n' then parts? fuel true rest
        else onwards (.text ['\\', d] true) rest
      | _, _ => onwards (.text [c] true) cs
    else
      match c, cs with
      | '\'', _ =>
        match cs.span (· != '\'') with
        | (inner, _ :: rest) => onwards (.text inner true) rest
        | _ => none
      | '\x22', _ =>
        match parts? fuel true cs with
        | some (inner, rest) =>
          (parts? fuel false rest).map fun (ps, rest) => (.text [] true :: inner ++ ps, rest)
        | none => none
      | '\\', '\n' :: rest => parts? fuel false rest
      | '\\', d :: rest => onwards (.text [d] true) rest
      | _, _ =>
        if endsWord c then some ([], c :: cs)
        else
          let run := cs.takeWhile fun d => !endsWord d && !"$\x60'\x22\\".toList.contains d
          onwards (.text (c :: run) false) (cs.drop run.length)

/-- A word up to its end. -/
def word? (cs : List Char) : Option (Word × List Char) := parts? (cs.length + 1) false cs

/-- A text as the inside of quotation marks, or as words without their ends. -/
def looseWord? (quoted : Bool) (cs : List Char) : Option Word :=
  (parts? (cs.length + 2) quoted (if quoted then cs ++ ['\x22'] else cs)).map (·.1)

/-! ## §2. Tokens -/

/-- A piece of a script. -/
inductive Token where
  | word (w : Word)
  | operator (s : String)
  | redirection (r : Redirection)

/-- The operators, those that begin with another one before it. -/
def operators : List String := [";;", ";", "&&", "&", "||", "|", "(", ")", "\n"]

/-- The text after another one that it begins with. -/
def after? (start cs : List Char) : Option (List Char) :=
  if start.isPrefixOf cs then some (cs.drop start.length) else none

/-- Blanks within a line. -/
def skipBlanks (cs : List Char) : List Char := cs.dropWhile fun c => c == ' ' || c == '\t'

/-- A redirection of a stream, read from its angle bracket on. -/
def redirection? (stream : Option Nat) (cs : List Char) : Option (Redirection × List Char) :=
  match cs with
  | '>' :: '&' :: d :: rest =>
    if isDigit d then some (.duplicate (stream.getD 1) (digitValue d), rest) else none
  | '>' :: '>' :: rest => (word? (skipBlanks rest)).map fun (w, r) => (.toFile (stream.getD 1) w, r)
  | '>' :: rest => (word? (skipBlanks rest)).map fun (w, r) => (.toFile (stream.getD 1) w, r)
  | '<' :: rest => (word? (skipBlanks rest)).map fun (w, r) => (.fromFile w, r)
  | _ => none

/-- The number of a stream in front of an angle bracket. -/
def streamNumber : List Char → Option Nat × List Char
  | d :: bracket :: rest =>
    if isDigit d && (bracket == '>' || bracket == '<') then (some (digitValue d), bracket :: rest)
    else (none, d :: bracket :: rest)
  | cs => (none, cs)

/-- The next token. -/
def token? (cs : List Char) : Option (Token × List Char) :=
  match operators.findSome? fun o => (after? o.toList cs).map (o, ·) with
  | some (o, rest) => some (.operator o, rest)
  | none =>
    let (stream, unnumbered) := streamNumber cs
    if unnumbered.head?.any fun c => c == '>' || c == '<' then
      (redirection? stream unnumbered).map fun (r, rest) => (.redirection r, rest)
    else (word? cs).map fun (w, rest) => (.word w, rest)

/-- All tokens; comments are dropped. -/
def tokens? : Nat → List Char → Option (List Token)
  | fuel, cs =>
    match fuel, skipBlanks cs with
    | _, [] => some []
    | 0, _ => none
    | fuel + 1, '#' :: rest => tokens? fuel (rest.dropWhile (· != '\n'))
    | fuel + 1, '\\' :: '\n' :: rest => tokens? fuel rest
    | fuel + 1, cs =>
      match token? cs with
      | some (t, rest) => (tokens? fuel rest).map (t :: ·)
      | none => none

/-! ## §3. Commands -/

/-- The word that a token is, if it has a meaning of its own at the start of a command. -/
def keyword? : List Token → Option String
  | .word w :: _ =>
    w.plain?.filter ["if", "then", "elif", "else", "fi", "while", "until", "for", "do", "done",
      "\x7b", "\x7d", "!"].contains
  | _ => none

/-- A given keyword. -/
def keyword (k : String) (ts : List Token) : Option (List Token) :=
  if keyword? ts = some k then some ts.tail else none

/-- A given operator. -/
def operator (o : String) : List Token → Option (List Token)
  | .operator p :: ts => if p = o then some ts else none
  | _ => none

/-- Drop line ends. -/
def skipLineEnds (ts : List Token) : List Token :=
  ts.dropWhile fun
    | .operator "\n" => true
    | _ => false

/-- The name and the value of a word that is an assignment. -/
def assignment? : Word → Option (String × Word)
  | .text cs false :: rest =>
    match cs.span (· != '=') with
    | (name, _ :: value) =>
      if (name.head?.any isNameStart) && name.all isNameChar then
        some (String.ofList name, if value.isEmpty then rest else .text value false :: rest)
      else none
    | _ => none
  | _ => none

/-- The redirections at the start. -/
def redirections : List Token → List Redirection × List Token
  | .redirection r :: ts =>
    let (rs, ts) := redirections ts
    (r :: rs, ts)
  | ts => ([], ts)

/-- The words and redirections of a simple command. -/
def simpleRest : List Token → List Word × List Redirection × List Token
  | .word w :: ts =>
    let (ws, rs, ts) := simpleRest ts
    (w :: ws, rs, ts)
  | .redirection r :: ts =>
    let (ws, rs, ts) := simpleRest ts
    (ws, r :: rs, ts)
  | ts => ([], [], ts)

/-- A simple command: its assignments come first. -/
def simple? (ts : List Token) : Option (Command × List Token) :=
  let (words, rs, rest) := simpleRest ts
  let assigned := words.takeWhile fun w => (assignment? w).isSome
  if words.isEmpty && rs.isEmpty then none
  else some (.simple (assigned.filterMap assignment?) (words.drop assigned.length) rs, rest)

mutual

/-- Commands one after another, up to something that ends a list. -/
def list? : Nat → List Token → Option (Command × List Token)
  | 0, _ => none
  | fuel + 1, ts =>
    match skipLineEnds ts with
    | [] => some (.nothing, [])
    | .operator ")" :: ts => some (.nothing, .operator ")" :: ts)
    | ts =>
      if ["then", "elif", "else", "fi", "do", "done", "\x7d"].contains ((keyword? ts).getD "") then
        some (.nothing, ts)
      else
        match chain? fuel ts with
        | some (c, .operator o :: rest) =>
          if o = ";" ∨ o = "\n" ∨ o = "&" then
            let first := if o = "&" then .background c else c
            (list? fuel rest).map fun (d, rest) => (.sequence first d, rest)
          else some (c, .operator o :: rest)
        | read => read

/-- Pipelines that depend on each other's success. -/
def chain? : Nat → List Token → Option (Command × List Token)
  | 0, _ => none
  | fuel + 1, ts =>
    match pipeline? fuel ts with
    | some (c, rest) => chainRest? fuel c rest
    | none => none

/-- What depends on the success of a command. -/
def chainRest? : Nat → Command → List Token → Option (Command × List Token)
  | 0, _, _ => none
  | fuel + 1, c, ts =>
    match operator "&&" ts, operator "||" ts with
    | some rest, _ =>
      match pipeline? fuel (skipLineEnds rest) with
      | some (d, rest) => chainRest? fuel (.both c d) rest
      | none => none
    | none, some rest =>
      match pipeline? fuel (skipLineEnds rest) with
      | some (d, rest) => chainRest? fuel (.either c d) rest
      | none => none
    | none, none => some (c, ts)

/-- Commands of which each reads what the one before it writes. -/
def pipeline? : Nat → List Token → Option (Command × List Token)
  | 0, _ => none
  | fuel + 1, ts =>
    match keyword "!" ts with
    | some rest => (pipeline? fuel rest).map fun (c, rest) => (.negated c, rest)
    | none =>
      match command? fuel ts with
      | some (c, rest) =>
        match operator "|" rest with
        | some rest => (pipeline? fuel (skipLineEnds rest)).map fun (d, rest) => (.pipe c d, rest)
        | none => some (c, rest)
      | none => none

/-- A condition and what depends on it, read after its first keyword. -/
def choice? : Nat → List Token → Option (Command × List Token)
  | 0, _ => none
  | fuel + 1, ts => do
    let (condition, ts) ← list? fuel ts
    let (first, ts) ← list? fuel (← keyword "then" ts)
    match keyword? ts with
    | some "elif" =>
      let (second, ts) ← choice? fuel ts.tail
      return (.choice condition first second, ts)
    | some "else" =>
      let (second, ts) ← list? fuel ts.tail
      return (.choice condition first second, ← keyword "fi" ts)
    | _ => return (.choice condition first .nothing, ← keyword "fi" ts)

/-- A single command. -/
def command? : Nat → List Token → Option (Command × List Token)
  | 0, _ => none
  | fuel + 1, ts =>
    match operator "(" ts with
    | some ts => do
      let (body, ts) ← list? fuel ts
      let (rs, ts) := redirections (← operator ")" ts)
      return (.subshell body rs, ts)
    | none =>
      match keyword? ts with
      | some "\x7b" => do
        let (body, ts) ← list? fuel ts.tail
        let (rs, ts) := redirections (← keyword "\x7d" ts)
        return (.group body rs, ts)
      | some "if" => do
        let (c, ts) ← choice? fuel ts.tail
        let (rs, ts) := redirections ts
        return (.group c rs, ts)
      | some "for" => do
        let (head, _, rest) := simpleRest ts.tail
        match head with
        | name :: _ :: words =>
          let rest := skipLineEnds ((operator ";" rest).getD rest)
          let (body, ts) ← list? fuel (← keyword "do" rest)
          let (rs, ts) := redirections (← keyword "done" ts)
          return (.group (.each (← name.plain?) words body) rs, ts)
        | _ => none
      | some k =>
        if k = "while" ∨ k = "until" then do
          let (condition, ts) ← list? fuel ts.tail
          let (body, ts) ← list? fuel (← keyword "do" ts)
          let (rs, ts) := redirections (← keyword "done" ts)
          return (.group (.repeated (k = "until") condition body) rs, ts)
        else none
      | none => simple? ts

end

/-- The command of a script.  Every level of reading takes a token or goes down one of a few levels,
so a multiple of the length is enough. -/
def script? (cs : List Char) : Option Command :=
  match tokens? (cs.length + 1) cs with
  | some ts =>
    match list? (8 * ts.length + 8) ts with
    | some (c, []) => some c
    | _ => none
  | none => none

/-- What is wrong with a script that is not one. -/
def syntaxProblem (cs : List Char) : String :=
  if (tokens? (cs.length + 1) cs).isNone then "Syntax error: Unterminated quoted string"
  else "Syntax error: end of file unexpected"

end CronSupervisor.Shell
