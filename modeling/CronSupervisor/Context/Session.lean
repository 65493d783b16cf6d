/-
  CronSupervisor.Context.Session — deriving, cancelling and awaiting named contexts.

  A session keeps contexts and cancellation tokens under names.  Every new token, background
  context and derived context gets a fresh scope.  `step` answers one request, `run` a list of them.
-/
import CronSupervisor.Clock
import CronSupervisor.Context.Basic

namespace CronSupervisor.Context

open Calendar

/-- What can be asked of a session. -/
inductive Request where
  /-- A context that nothing bounds but its own scope. -/
  | background (id : String)
  | token (id : String)
  /-- A context on the scope of a token. -/
  | withToken (id token : String)
  /-- A context derived with a timeout. -/
  | child (id parent : String) (timeout : Nat)
  /-- A second name for a context. -/
  | duplicate (id source : String)
  | cancelToken (id : String)
  /-- Cancel the context's own scope. -/
  | cancelContext (id : String)
  /-- Wait until the context is done, for so long at most. -/
  | wait (id : String) (limit : Nat)
  | look (id : String)
  | advance (ms : Nat)
  | elapsed

/-- The answer to a request. -/
inductive Reply where
  | done
  | waited (isDone : Bool) (elapsed : Nat)
  | seen (error : Option ContextError) (deadline : Option Nat) (isCancelled : Bool)
  | elapsed (ms : Nat)
  /-- No context has the name. -/
  | unknown

/-- Contexts and tokens by name, the scopes cancelled so far, and the time. -/
structure Session where
  clock : Clock
  fresh : Scope := 0
  cancelled : List Scope := []
  tokens : List (String × Scope) := []
  contexts : List (String × Context) := []

namespace Session

/-- A session at the start of its clock. -/
def init (start : Instant) : Session := { clock := ⟨start, 0⟩ }

/-- Store a context under a name; an older one of that name is hidden. -/
def put (s : Session) (id : String) (c : Context) : Session :=
  { s with contexts := (id, c) :: s.contexts }

/-- Use up a scope number. -/
def freshen (s : Session) : Session := { s with fresh := s.fresh + 1 }

/-- Move the clock. -/
def advance (s : Session) (ms : Nat) : Session :=
  { s with clock := s.clock.advanceTo (s.clock.elapsed + ms) }

/-- Cancel a scope. -/
def cancel (s : Session) (scope : Scope) : Session :=
  { s with cancelled := scope :: s.cancelled }

/-- Wait for a context; it counts as done if it is done at the very end of the wait. -/
def wait (s : Session) (c : Context) (limit : Nat) : Session × Reply :=
  let last := s.clock.elapsed + limit
  let (isDone, until_) := match c.doneAt? s.cancelled s.clock.elapsed with
    | some t => if t ≤ last then (true, t) else (false, last)
    | none => (false, last)
  let s := { s with clock := s.clock.advanceTo until_ }
  (s, .waited isDone s.clock.elapsed)

/-- Answer one request. -/
def step (s : Session) : Request → Session × Reply
  | .background id => ((s.put id (.ofScope s.fresh)).freshen, .done)
  | .token id => ({ s with tokens := (id, s.fresh) :: s.tokens }.freshen, .done)
  | .withToken id token =>
    match s.tokens.lookup token with
    | some scope => (s.put id (.ofScope scope), .done)
    | none => ((s.put id (.ofScope s.fresh)).freshen, .done)
  | .child id parent timeout =>
    match s.contexts.lookup parent with
    | some c => ((s.put id (c.child s.fresh s.clock.elapsed timeout)).freshen, .done)
    | none => (s, .unknown)
  | .duplicate id source =>
    match s.contexts.lookup source with
    | some c => (s.put id c, .done)
    | none => (s, .unknown)
  | .cancelToken id =>
    match s.tokens.lookup id with
    | some scope => (s.cancel scope, .done)
    | none => (s, .done)
  | .cancelContext id =>
    match s.contexts.lookup id with
    | some { scopes := own :: _, .. } => (s.cancel own, .done)
    | _ => (s, .done)
  | .wait id limit =>
    match s.contexts.lookup id with
    | some c => s.wait c limit
    | none => (s, .unknown)
  | .look id =>
    match s.contexts.lookup id with
    | some c =>
      (s, .seen (c.error? s.cancelled s.clock.elapsed) c.deadline (c.isCancelled s.cancelled))
    | none => (s, .unknown)
  | .advance ms =>
    let s := s.advance ms
    (s, .elapsed s.clock.elapsed)
  | .elapsed => (s, .elapsed s.clock.elapsed)

/-- Answer a list of requests in order. -/
def run (s : Session) : List Request → Session × List Reply
  | [] => (s, [])
  | r :: rs =>
    let (s, reply) := s.step r
    let (s, replies) := s.run rs
    (s, reply :: replies)

end Session

end CronSupervisor.Context
