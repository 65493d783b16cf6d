/-
  CronSupervisor.History.Session — requests to a history on a clock that may be set.

  The clock of this session is moved by hand, backwards too, so that closing an entry before it was
  opened can be watched.
-/
import CronSupervisor.History.Basic

namespace CronSupervisor.History

open Calendar

/-- A question about the entries, which changes none. -/
inductive Query where
  | all
  | recent (n : Nat)
  | byId (id : Int)
  | last
  | size
  | successRate
  | stats
  | durations

/-- What can be asked of a history. -/
inductive Request where
  | start (trigger : Trigger)
  | finish (id exitCode : Int) (success : Bool) (error : String)
  | query (q : Query)

/-- The answer to a request. -/
inductive Reply where
  | done
  | opened (id : Int)
  | entries (es : List Entry)
  | entry (e : Option Entry)
  | size (length capacity : Nat)
  | rate (r : Float)
  | stats (s : Stats)
  /-- Identifier, whether it runs, and duration of each entry, newest first. -/
  | durations (ds : List (Int × Bool × Span))

/-- Answer a question at an instant. -/
def answer (h : History) (now : Instant) : Query → Reply
  | .all => .entries h.entries
  | .recent n => .entries (h.recent n)
  | .byId id => .entry (h.byId? id)
  | .last => .entry h.last?
  | .size => .size h.size h.capacity
  | .successRate => .rate h.successRate
  | .stats => .stats h.stats
  | .durations => .durations (h.entries.map fun e => (e.id, e.isRunning, e.duration now))

/-- Answer a request at an instant. -/
def respond (h : History) (now : Instant) : Request → History × Reply
  | .start trigger => (h.start now trigger, .opened h.nextId)
  | .finish id exitCode success error => (h.finish now id exitCode success error, .done)
  | .query q => (h, h.answer now q)

/-- A history and the time. -/
structure Session where
  now : Instant
  history : History

namespace Session

/-- A step of the session. -/
inductive Step where
  /-- Set the clock forward or back, by microseconds. -/
  | advance (micros : Int)
  | request (r : Request)

/-- Take one step. -/
def step (s : Session) : Step → Session × Reply
  | .advance micros => ({ s with now := s.now.addNanos (micros * 1000) }, .done)
  | .request r =>
    let (history, reply) := s.history.respond s.now r
    ({ s with history }, reply)

/-- Take a list of steps in order. -/
def run (s : Session) : List Step → Session × List Reply
  | [] => (s, [])
  | r :: rs =>
    let (s, reply) := s.step r
    let (s, replies) := s.run rs
    (s, reply :: replies)

end Session

end CronSupervisor.History
