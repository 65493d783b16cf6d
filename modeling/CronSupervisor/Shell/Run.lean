/-
  CronSupervisor.Shell.Run — running commands.

  Commands run one after another; those of a pipeline do so too, each on what the one before it has
  written.  A command in the background goes on by itself, and the shell does not wait for it unless
  it is told to.  Only waiting takes time.  A script is followed for a number of steps, after which
  it counts as one that never ends.
-/
import CronSupervisor.Process.Execution
import CronSupervisor.Shell.Expansion
import CronSupervisor.Shell.Tools

namespace CronSupervisor.Shell

open Text

/-! ## §1. Redirections -/

/-- Let a stream of the state go somewhere else. -/
def State.setTarget (s : State) (stream : Nat) (target : Target) : State :=
  if stream = 2 then { s with err := target } else { s with out := target }

/-- Where a stream goes that is written to a file; nothing if there cannot be such a file. -/
def fileTarget? (s : State) (file : String) : Option Target :=
  let path := resolve s.directory file
  if path = "/dev/stdout" then some s.out
  else if path = "/dev/stderr" then some s.err
  else
    let parent := pathOf (pathParts path.toList).dropLast
    if fileKind? path = some .directory then none
    else if fileKind? parent = some .directory then some .nowhere
    else none

/-- Let a redirection take effect, or complain. -/
def redirect (run : Substitution) (s : State) (r : Redirection) : Except State State :=
  match r with
  | .duplicate stream target =>
    .ok (s.setTarget stream (if target = 2 then s.err else s.out))
  | .toFile stream w =>
    let (file, s) := expandText run w s
    match fileTarget? s file with
    | some target => .ok (s.setTarget stream target)
    | none => .error (s.fail 2 s!"cannot create {file}: Directory nonexistent")
  | .fromFile w =>
    let (file, s) := expandText run w s
    match sourceOf? s file with
    | some (.bytes bs) => .ok { s with input := bs }
    | some .zeros => .ok s
    | none => .error (s.fail 2 s!"cannot open {file}: No such file")

/-- Run something under redirections. -/
def redirected (run : Substitution) (rs : List Redirection) (body : State → State) (s : State) :
    State :=
  match rs.foldlM (redirect run) s with
  | .error s' => { s' with out := s.out, err := s.err, input := s.input }
  | .ok s' =>
    let done := body s'
    let reads := rs.any fun
      | .fromFile _ => true
      | _ => false
    { done with out := s.out, err := s.err, input := if reads then s.input else done.input }

/-! ## §2. Commands of the shell itself -/

/-- The signal of a name, with or without its beginning, or of a number. -/
def signal? (word : String) : Option Signal :=
  match numeral? word.toList with
  | some n => if n < 65 then some n else none
  | none =>
    let name := word.toUpper
    if name = "EXIT" then some 0
    else (Signal.ofName? name).or
      ((after? "SIG".toList name.toList).bind fun n => Signal.ofName? (String.ofList n))

/-- The signal and the processes that the words of `kill` name. -/
def killTargets (words : List String) : Option Signal × List String :=
  match words with
  | "-s" :: name :: targets => (signal? name, targets)
  | w :: targets =>
    match w.toList with
    | '-' :: name => (signal? (String.ofList name), targets)
    | _ => (some 15, w :: targets)
  | [] => (some 15, [])

/-- Set or clear what is done on signals. -/
def trap (s : State) (words : List String) : State :=
  match words with
  | [] => s.leave 0
  | action :: names =>
    match names.mapM signal? with
    | none => s.fail 1 "trap: bad trap"
    | some signals =>
      let others := s.traps.filter fun t => !signals.contains t.1
      if action = "-" then { s with traps := others, status := 0 }
      else { s with traps := signals.map (·, action) ++ others, status := 0 }

/-- Go to a directory. -/
def changeDirectory (s : State) (words : List String) : State :=
  let target := words.headD ((s.valueOf? "HOME").getD "/")
  match findDirectory (resolve s.directory target) with
  | .ok directory => { s.assign "PWD" directory false with directory, status := 0 }
  | .error _ => s.fail 2 s!"cd: can't cd to {target}"

/-- Let programs see variables, which may get a value. -/
def exportVariables (s : State) (words : List String) : State :=
  (words.foldl (fun (s : State) w =>
    match w.toList.span (· != '=') with
    | (name, _ :: value) => s.assign (String.ofList name) (String.ofList value) true
    | (name, []) =>
      s.assign (String.ofList name) ((s.valueOf? (String.ofList name)).getD "") true) s).leave 0

/-- Share a line out among names: a word to each of them, and the rest to the last one. -/
def shareOut (line : List Char) : List String → List (String × String)
  | [] => []
  | [name] =>
    let line := (line.dropWhile isSplitting).reverse.dropWhile isSplitting
    [(name, String.ofList line.reverse)]
  | name :: names =>
    let line := line.dropWhile isSplitting
    let isInner := fun c => !isSplitting c
    (name, String.ofList (line.takeWhile isInner)) :: shareOut (line.dropWhile isInner) names

/-- Take a line from the input and give its words to names. -/
def readLine (s : State) (words : List String) : State :=
  match words.filter (· != "-r") with
  | [] => s.fail 2 "read: arg count"
  | names =>
    let (line, rest) := s.input.span (· != 10)
    let s := (shareOut (utf8Lossy line) names).foldl
      (fun s (name, value) => s.assign name value false) s
    { s with input := rest.tail, status := if rest.isEmpty then 1 else 0 }

/-- The time at which the last one of several things is over, if all of them ever are. -/
def latest (times : List (Option Nat)) : Option Nat :=
  (times.mapM id).map fun ts => ts.foldl max 0

/-- Wait for what goes on in the background. -/
def waitForAll (s : State) : State :=
  match latest (s.background.map (·.finish)) with
  | some t => { s with time := max s.time t, status := 0 }
  | none => { s with endless := true, ended := s.ended.or (some (.exited 0)) }

/-- Commands of the shell that run no other command. -/
def builtin? (name : String) (words : List String) (s : State) : Option State :=
  match name with
  | ":" => some (s.leave 0)
  | "echo" => some ((s.write (echoWords words)).leave 0)
  | "exit" =>
    match words with
    | [] => some (s.exit s.status)
    | w :: _ =>
      match numeral? w.toList with
      | some n => some (s.exit n)
      | none => some ((s.fail 2 s!"exit: Illegal number: {w}").exit 2)
  | "trap" => some (trap s words)
  | "cd" => some (changeDirectory s words)
  | "read" => some (readLine s words)
  | "export" => some (exportVariables s words)
  | "unset" =>
    some { s with bindings := s.bindings.filter fun v => !words.contains v.name, status := 0 }
  | "shift" =>
    let n := ((words.head?.map String.toList).bind numeral?).getD 1
    if n ≤ s.arguments.length then some { s with arguments := s.arguments.drop n, status := 0 }
    else some ((s.fail 2 "shift: can't shift that many").exit 2)
  | "set" =>
    match words with
    | "--" :: arguments => some { s with arguments, status := 0 }
    | _ => some (s.leave 0)
  | "wait" => some (waitForAll s)
  | _ =>
    if ["printf", "test", "[", "true", "false", "pwd"].contains name then
      some (runTool name words s)
    else none

/-! ## §3. Commands -/

/-- A state in which a new shell or program starts, which sees the exported variables. -/
def State.spawned (s : State) : State :=
  { s with bindings := s.bindings.filter (·.exported), traps := s.traps.filter (·.2 = ""),
           status := 0 }

/-- The number of steps for which a script is followed. -/
def stepLimit : Nat := 50000

mutual

/-- Run a command. -/
def runCommand : Nat → Command → State → State
  | 0, _, s => { s with endless := true, ended := s.ended.or (some (.exited 0)) }
  | fuel + 1, c, s =>
    if s.ended.isSome then s
    else match c with
      | .nothing => s
      | .simple assignments words rs => runSimple fuel assignments words rs s
      | .pipe a b =>
        let first := runCommand fuel a { s with out := .held, held := [] }
        let second := runCommand fuel b
          { s with time := first.time, chunks := first.chunks, background := first.background,
                   input := first.held, endless := first.endless,
                   ended := if first.endless then first.ended else none }
        { s.resumeAfter second with input := s.input }
      | .sequence a b => runCommand fuel b (runCommand fuel a s)
      | .both a b =>
        let s := runCommand fuel a s
        if s.status = 0 then runCommand fuel b s else s
      | .either a b =>
        let s := runCommand fuel a s
        if s.status = 0 then s else runCommand fuel b s
      | .negated a =>
        let s := runCommand fuel a s
        if s.ended.isSome then s else s.leave (if s.status = 0 then 1 else 0)
      | .background a =>
        let inside := match a.redirections.foldlM (redirect (runOutput fuel)) s with
          | .ok inside => inside
          | .error inside => inside
        -- what another command reads is waited for by that command
        if inside.out = .held ∨ inside.err = .held then
          (runCommand fuel (.subshell a []) s).leave 0
        else
          let done := runCommand fuel (.subshell a [])
            { s with input := [], chunks := [], background := [] }
          let finish := if done.endless then none else some done.time
          { s with
            status := 0
            background := s.background
              ++ ⟨s.time, finish, inside.pipes, done.chunks⟩ :: done.background }
      | .repeated whileFails condition body => runLoop fuel whileFails condition body 0 s
      | .choice condition a b =>
        let s := runCommand fuel condition s
        if s.ended.isSome then s
        else if s.status = 0 then runCommand fuel a s else runCommand fuel b (s.leave 0)
      | .each name words body =>
        let (fields, s) := expandWords (runOutput fuel) words s
        fields.foldl (fun s field => runCommand fuel body (s.assign name field false)) (s.leave 0)
      | .group body rs => redirected (runOutput fuel) rs (runCommand fuel body) s
      | .subshell body rs =>
        s.resumeAfter (runEnd fuel (redirected (runOutput fuel) rs (runCommand fuel body)
          { s with traps := s.traps.filter (·.2 = "") }))

/-- Repeat a body; `last` is the status that it left last. -/
def runLoop : Nat → Bool → Command → Command → Nat → State → State
  | 0, _, _, _, _, s => { s with endless := true, ended := s.ended.or (some (.exited 0)) }
  | fuel + 1, whileFails, condition, body, last, s =>
    let s := runCommand fuel condition s
    if s.ended.isSome then s
    else if (s.status = 0) = whileFails then s.leave last
    else
      let s := runCommand fuel body s
      if s.ended.isSome then s else runLoop fuel whileFails condition body s.status s

/-- Run a simple command: only assignments, a command of the shell, or a program. -/
def runSimple : Nat → List (String × Word) → List Word → List Redirection → State → State
  | 0, _, _, _, s => { s with endless := true, ended := s.ended.or (some (.exited 0)) }
  | fuel + 1, assignments, words, rs, s =>
    let run := runOutput fuel
    let (fields, s) := expandWords run words s
    let assignAll := fun (exported : Bool) (s : State) =>
      assignments.foldl (fun s (name, w) =>
        let (value, s) := expandText run w s
        s.assign name value exported) s
    if s.ended.isSome then s
    else match fields with
      | [] =>
        redirected run rs (fun s => assignAll false (if words.isEmpty then s.leave 0 else s)) s
      | ["exec"] =>
        match rs.foldlM (redirect run) s with
        | .ok s => s.leave 0
        | .error s => s.exit s.status
      | name :: arguments =>
        redirected run rs (fun s =>
          let done := runWords fuel name arguments (assignAll true s)
          if assignments.isEmpty then done else { done with bindings := s.bindings }) s

/-- Run a command of expanded words. -/
def runWords : Nat → String → List String → State → State
  | 0, _, _, s => { s with endless := true, ended := s.ended.or (some (.exited 0)) }
  | fuel + 1, name, words, s =>
    match name with
    | "kill" => runKill fuel words s
    | "exec" =>
      match words with
      | [] => s.leave 0
      | name :: words =>
        let s := runProgram fuel name words s
        if s.ended.isSome then s else { s.exit s.status with traps := [] }
    | "eval" => runScript fuel (" ".intercalate words).toList s
    | "command" =>
      match words with
      | [] => s.leave 0
      | name :: words => runWords fuel name words s
    | _ =>
      match builtin? name words s with
      | some s => s
      | none => runProgram fuel name words s

/-- Run a program of the system, if there is one. -/
def runProgram : Nat → String → List String → State → State
  | 0, _, _, s => { s with endless := true, ended := s.ended.or (some (.exited 0)) }
  | fuel + 1, name, words, s =>
    let searchPath := (s.valueOf? "PATH").getD defaultSearchPath
    match findProgram s.directory searchPath name with
    | .error .denied => s.fail 126 s!"{name}: Permission denied"
    | .error _ => s.fail 127 s!"{name}: not found"
    | .ok program =>
      if program = "sh" ∨ program = "dash" then
        s.resumeAfter (runShell fuel name words s.spawned)
      else runTool program words s

/-- Send a signal to the shell itself. -/
def runKill : Nat → List String → State → State
  | 0, _, s => { s with endless := true, ended := s.ended.or (some (.exited 0)) }
  | fuel + 1, words, s =>
    match killTargets words with
    | (some signal, [target]) =>
      if target = toString State.processNumber then
        if signal = 0 then s.leave 0
        else
          let action := if signal.isInescapable then none else s.traps.lookup signal
          match action with
          | some "" => s.leave 0
          | some script => runScript fuel script.toList (s.leave 0)
          | none =>
            if signal = 19 then { s with endless := true, ended := some (.exited 0) }
            else if signal.isHarmless then s.leave 0
            else { s with ended := some (.killed signal) }
      else s.fail 1 "kill: No such process"
    | _ => s.fail 2 "kill: Usage: kill [-s sigspec | -signum | -sigspec] [pid | job]..."

/-- Run a script in the present shell. -/
def runScript : Nat → List Char → State → State
  | 0, _, s => { s with endless := true, ended := s.ended.or (some (.exited 0)) }
  | fuel + 1, script, s =>
    match script? script with
    | some c => runCommand fuel c s
    | none => (s.fail 2 (syntaxProblem script)).exit 2

/-- Run a script and yield what it prints. -/
def runOutput : Nat → List Char → State → List UInt8 × State
  | 0, _, s => ([], { s with endless := true, ended := s.ended.or (some (.exited 0)) })
  | fuel + 1, script, s =>
    let inner := runEnd fuel (runScript fuel script { s with out := .held, held := [] })
    (inner.held, { s.resumeAfter inner with held := s.held })

/-- Do what is to be done at the end of a shell. -/
def runEnd : Nat → State → State
  | 0, s => { s with endless := true, ended := s.ended.or (some (.exited 0)) }
  | fuel + 1, s =>
    match s.ended, s.traps.lookup 0 with
    | some (.killed _), _ => s
    | _, none => s
    | _, some script =>
      if s.endless then s
      else
        let status := s.endStatus
        let done := runScript fuel script.toList { s with ended := none, traps := [], status }
        if done.ended.isSome then done else done.exit status

/-- Run a shell with its own words: a script with a name and arguments, or nothing. -/
def runShell : Nat → String → List String → State → State
  | 0, _, _, s => { s with endless := true, ended := s.ended.or (some (.exited 0)) }
  | fuel + 1, name, words, s =>
    match words with
    | "-c" :: script :: rest =>
      let s := { s with name := rest.headD name, arguments := rest.tail }
      runEnd fuel (runScript fuel script.toList s)
    | [] => runScript fuel (utf8Lossy s.input) { s with name, input := [] }
    | ["-c"] => (s.complain s!"{name}: 0: -c requires an argument").leave 2
    | file :: _ => (s.complain s!"{name}: 0: cannot open {file}: No such file").leave 2

end

/-! ## §4. Starting a process -/

/-- The variables that every process inherits. -/
def inheritedVariables : List (String × String) :=
  [("HOME", "/root"), ("PATH", defaultSearchPath)]

/-- The directory in which processes run where nothing else is said. -/
def defaultDirectory : String := "/"

/-- The words of the system for a zero inside of a text. -/
def zeroProblem : String := "nul byte found in provided data"

/-- Whether a text has a zero in it. -/
def hasZero (s : String) : Bool := s.toList.contains '\x00'

/-- The texts that are handed to the system when a process is started. -/
def handedTexts (settings : ProcessSettings) (bindings : List (String × String)) : List String :=
  settings.command ++ settings.workingDirectory.toList ++ bindings.flatMap fun (k, v) => [k, v]

/-- What comes out of the pipes of a process that was run and killed at some time, or left alone.
What is in the background by then goes on, and keeps pipes open. -/
def State.output (s : State) (killedAt : Option Nat) : Output :=
  let own := s.chunks.reverse.filter fun c => killedAt.all (c.time < ·)
  let others := s.background.filter fun b => killedAt.all (b.start < ·)
  let finish := match killedAt with
    | some t => some t
    | none => if s.endless then none else some s.time
  .assemble (own ++ others.flatMap (·.chunks.reverse)) fun pipe =>
    latest (finish :: (others.filter (·.pipes.contains pipe)).map (·.finish))

/-- What a process that was run has done. -/
def State.toChildRun (s : State) : ChildRun :=
  { ending := if s.endless then none
      else some (s.time, s.ended.getD (.exited (s.status % 256)))
    output := s.output }

/-- Start a process as the model has it. -/
def spawn : System := fun name settings =>
  let bindings := childVariables name settings
  if (handedTexts settings bindings).any hasZero then .error zeroProblem
  else match settings.command with
    | [] => .error PathProblem.missing.message
    | program :: words =>
      let start := fun (directory : String) => do
        let state : State := { name := program, directory }
        let state := (inheritedVariables ++ bindings ++ [("PWD", directory)]).foldl
          (fun (s : State) (k, v) => s.assign k v true) state
        let searchPath := (state.valueOf? "PATH").getD defaultSearchPath
        let found ← findProgram directory searchPath program
        return (if found = "sh" ∨ found = "dash" then runShell stepLimit program words state
          else runTool found words state).toChildRun
      let directory : Except PathProblem String := match settings.workingDirectory with
        | some "" => .error .missing
        | some d => findDirectory (resolve defaultDirectory d)
        | none => .ok defaultDirectory
      (directory.bind start).mapError PathProblem.message

end CronSupervisor.Shell
