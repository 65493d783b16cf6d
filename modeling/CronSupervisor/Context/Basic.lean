/-
  CronSupervisor.Context.Basic — deadlines and cancellation of executions.

  A context has a deadline, if any, and a chain of scopes: its own first, then that of the context
  it was derived from, and so on.  Scopes are numbers.  Cancelling a scope ends every context that
  has it in its chain, so cancellation reaches descendants and nothing else.  Times here are
  milliseconds since the clock was started.
-/
import CronSupervisor.Execution.Error

namespace CronSupervisor

/-- Why a context is done. -/
inductive ContextError where
  | deadlineExceeded
  | cancelled
  deriving DecidableEq

namespace ContextError

/-- The wording of the reason. -/
def message : ContextError → String
  | deadlineExceeded => "deadline exceeded"
  | cancelled => "context cancelled"

/-- The failure of an execution whose context ended for this reason. -/
def toExecutionError : ContextError → ExecutionError
  | deadlineExceeded => .timedOut
  | cancelled => .cancelled

end ContextError

/-- A number that names a cancellation scope. -/
abbrev Scope := Nat

/-- The bounds of an execution. -/
structure Context where
  /-- The scopes whose cancellation ends this context, its own first. -/
  scopes : List Scope
  deadline : Option Nat

namespace Context

/-- Neither cancelled by anyone nor bounded. -/
def background : Context := { scopes := [], deadline := none }

/-- Bounded by a scope alone. -/
def ofScope (s : Scope) : Context := { scopes := [s], deadline := none }

/-- The same scopes, ending `timeout` from `now` unless a deadline comes first. -/
def limit (c : Context) (now timeout : Nat) : Context :=
  let candidate := now + timeout
  { c with deadline := match c.deadline with
    | some d => if d < candidate then some d else some candidate
    | none => some candidate }

/-- A derived context with a scope of its own and a timeout from `now`. -/
def child (c : Context) (own : Scope) (now timeout : Nat) : Context :=
  { c.limit now timeout with scopes := own :: c.scopes }

/-- Whether a scope of the chain was cancelled. -/
def isCancelled (c : Context) (cancelled : List Scope) : Bool :=
  c.scopes.any fun s => cancelled.contains s

/-- Whether the deadline has been reached. -/
def isExpired (c : Context) (now : Nat) : Bool :=
  match c.deadline with
  | some d => d ≤ now
  | none => false

/-- Why the context is done, if it is; the deadline is looked at first. -/
def error? (c : Context) (cancelled : List Scope) (now : Nat) : Option ContextError :=
  if c.isExpired now then some .deadlineExceeded
  else if c.isCancelled cancelled then some .cancelled
  else none

/-- The moment from `now` on at which a waiter is told that the context is done, if nothing more is
cancelled: that of a cancellation or that of the deadline, whichever comes first. -/
def doneAt? (c : Context) (cancelled : List Scope) (now : Nat) : Option Nat :=
  let cancelledAt := if c.isCancelled cancelled then some now else none
  match c.deadline with
  | some d => cancelledAt.merge min (some (max now d))
  | none => cancelledAt

theorem deadline_limit_some (c : Context) (now timeout d : Nat) (h : c.deadline = some d) :
    (c.limit now timeout).deadline = some (min d (now + timeout)) := by
  simp only [limit, h]
  split <;> simp <;> omega

theorem deadline_limit_none (c : Context) (now timeout : Nat) (h : c.deadline = none) :
    (c.limit now timeout).deadline = some (now + timeout) := by
  simp [limit, h]

end Context

end CronSupervisor
