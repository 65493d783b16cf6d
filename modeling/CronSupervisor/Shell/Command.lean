/-
  CronSupervisor.Shell.Command — shell commands.

  Jobs are often written as scripts of a shell.  This is the part of its language that jobs of a few
  lines need: lists, pipelines, conditions, loops, redirections, and words with expansions.
-/
namespace CronSupervisor.Shell

/-! ## §1. Words -/

/-- What a parameter stands for besides its value.  The flag says whether an empty value counts as
none, and the word is kept as it was written. -/
inductive Fallback where
  | plain
  /-- The number of characters. -/
  | length
  /-- The word, if there is no value. -/
  | orWord (emptyToo : Bool) (word : List Char)
  /-- The word, which becomes the value, if there is none. -/
  | orAssign (emptyToo : Bool) (word : List Char)
  /-- The end of the shell with the word as its complaint, if there is no value. -/
  | orFail (emptyToo : Bool) (word : List Char)
  /-- The word, if there is a value. -/
  | insteadWord (emptyToo : Bool) (word : List Char)

/-- A part of a word.  What comes out of an unquoted expansion is split at blanks. -/
inductive Part where
  | text (cs : List Char) (quoted : Bool)
  | parameter (name : String) (fallback : Fallback) (quoted : Bool)
  | arithmetic (expression : List Char) (quoted : Bool)
  /-- What a script prints. -/
  | output (script : List Char) (quoted : Bool)

/-- A word. -/
abbrev Word := List Part

/-- The characters of a word without quotation marks and expansions. -/
def Word.plain? : Word → Option String
  | [.text cs false] => some (String.ofList cs)
  | _ => none

/-! ## §2. Commands -/

/-- Where a stream of a command goes or comes from. -/
inductive Redirection where
  /-- Let one stream go where another goes. -/
  | duplicate (stream target : Nat)
  | toFile (stream : Nat) (file : Word)
  | fromFile (file : Word)

/-- A command. -/
inductive Command where
  | nothing
  | simple (assignments : List (String × Word)) (words : List Word)
      (redirections : List Redirection)
  | pipe (first second : Command)
  | sequence (first second : Command)
  /-- The second only after success of the first. -/
  | both (first second : Command)
  /-- The second only after failure of the first. -/
  | either (first second : Command)
  | negated (command : Command)
  /-- A command that is not waited for. -/
  | background (command : Command)
  /-- Repeat the body as long as the condition succeeds, or as long as it fails. -/
  | repeated (whileFails : Bool) (condition body : Command)
  | choice (condition first second : Command)
  /-- Repeat the body for every word. -/
  | each (name : String) (words : List Word) (body : Command)
  | group (body : Command) (redirections : List Redirection)
  /-- A group that changes nothing around it. -/
  | subshell (body : Command) (redirections : List Redirection)

/-- The redirections of a command as a whole. -/
def Command.redirections : Command → List Redirection
  | simple _ _ rs => rs
  | group _ rs => rs
  | subshell _ rs => rs
  | _ => []

end CronSupervisor.Shell
