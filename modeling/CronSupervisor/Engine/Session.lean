/-
  CronSupervisor.Engine.Session — schedules with labels on a running or resting engine.

  Every entry stands for work of some length.  The log keeps, for each firing, the label, the start
  and the length, so that the ends that lie in the past can be told as well.
-/
import CronSupervisor.Engine.Basic

namespace CronSupervisor.Engine

open Calendar Cron

/-- What an entry starts when it fires. -/
structure Work where
  label : String
  /-- Milliseconds that the work takes. -/
  length : Nat

/-- What can be asked of the session. -/
inductive Request where
  | add (label expr timezone : String) (length : Nat)
  | remove (label : String)
  | next (label : String)
  | start
  | stop
  | look
  | advance (ms : Nat)
  | elapsed
  | calls

/-- The answer to a request. -/
inductive Reply where
  | entry (id : Nat)
  | refused (error : CronError)
  | removed (found : Bool)
  | next (time : Option Instant)
  | running (isRunning : Bool)
  | size (isRunning : Bool) (entries : Nat)
  | elapsed (ms : Nat)
  /-- The starts and the ends so far, label by label. -/
  | calls (starts ends : List (String × List Nat))

/-- An engine, its labels, and the firings so far, newest first. -/
structure Session where
  clock : Clock
  engine : Engine Work := {}
  labels : List (String × Nat) := []
  log : List (Work × Nat) := []

namespace Session

/-- Let time pass up to a moment. -/
def passTo (s : Session) (ms : Nat) : Session :=
  let clock := s.clock.advanceTo ms
  let (engine, fired) := s.engine.fireUntil clock
  let firings := fired.flatMap fun (work, times) => times.map fun t => (work, t)
  { s with clock, engine, log := firings.reverse ++ s.log }

/-- The times in a log of labels, label by label, each ascending. -/
def timesByLabel (log : List (String × Nat)) : List (String × List Nat) :=
  (log.map (·.1)).eraseDups.map fun label =>
    (label, ((log.filter (·.1 = label)).map (·.2)).mergeSort)

/-- When work started, by label. -/
def starts (s : Session) : List (String × List Nat) :=
  timesByLabel (s.log.map fun (work, t) => (work.label, t))

/-- When work that takes time ended, by label. -/
def ends (s : Session) : List (String × List Nat) :=
  timesByLabel (s.log.filterMap fun (work, t) =>
    if 0 < work.length ∧ t + work.length ≤ s.clock.elapsed then some (work.label, t + work.length)
    else none)

variable [ZoneBook]

/-- Answer one request. -/
def step (s : Session) : Request → Session × Reply
  | .add label expr timezone length =>
    match Schedule.parse expr timezone with
    | .error e => (s, .refused e)
    | .ok schedule =>
      let (engine, id) := s.engine.add s.clock schedule { label, length }
      ({ s with engine, labels := (label, id) :: s.labels }, .entry id)
  | .remove label =>
    match s.labels.lookup label with
    | some id =>
      ({ s with engine := s.engine.remove id }, .removed (s.engine.find? id).isSome)
    | none => (s, .removed false)
  | .next label => (s, .next ((s.labels.lookup label).bind s.engine.next?))
  | .start =>
    let engine := s.engine.start s.clock
    ({ s with engine }, .running engine.isRunning)
  | .stop =>
    let (engine, handle) := s.engine.stop s.clock
    let clock := s.clock.advanceTo (handle.wait s.clock.elapsed)
    ({ s with clock, engine }, .running engine.isRunning)
  | .look => (s, .size s.engine.isRunning s.engine.entries.length)
  | .advance ms =>
    let s := s.passTo (s.clock.elapsed + ms)
    (s, .elapsed s.clock.elapsed)
  | .elapsed => (s, .elapsed s.clock.elapsed)
  | .calls => (s, .calls s.starts s.ends)

/-- Answer a list of requests in order. -/
def run (s : Session) : List Request → Session × List Reply
  | [] => (s, [])
  | r :: rs =>
    let (s, reply) := s.step r
    let (s, replies) := s.run rs
    (s, reply :: replies)

end Session

end CronSupervisor.Engine
