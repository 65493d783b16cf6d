/-
  CronSupervisor.Process.Signal — the signals that may end a process.
-/
namespace CronSupervisor

/-- A signal, by its number. -/
abbrev Signal := Nat

namespace Signal

/-- The names of the signals from the first one on. -/
def names : List String :=
  ["HUP", "INT", "QUIT", "ILL", "TRAP", "ABRT", "BUS", "FPE", "KILL", "USR1", "SEGV", "USR2",
   "PIPE", "ALRM", "TERM", "STKFLT", "CHLD", "CONT", "STOP", "TSTP", "TTIN", "TTOU", "URG", "XCPU",
   "XFSZ", "VTALRM", "PROF", "WINCH", "IO", "PWR", "SYS"]

/-- The signal of a name. -/
def ofName? (name : String) : Option Signal := (names.idxOf? name).map (· + 1)

/-- The number of a signal and its name, if it has one. -/
def description (s : Signal) : String :=
  match s with
  | 0 => "signal: 0"
  | n + 1 =>
    match names[n]? with
    | some name => s!"signal: {n + 1} (SIG{name})"
    | none => s!"signal: {n + 1}"

/-- Signals that a process may neither ignore nor handle. -/
def isInescapable (s : Signal) : Bool := s == 9 || s == 19

/-- Signals that leave a process alone unless it asks for them. -/
def isHarmless (s : Signal) : Bool := s == 17 || s == 18 || s == 23 || s == 28

end Signal

end CronSupervisor
