/-
  CronSupervisor.Log.Session — requests to a sink on a clock that may be set.
-/
import CronSupervisor.Log.Sink

namespace CronSupervisor.Sink

open Calendar

/-- What can be asked of the session. -/
inductive Request where
  /-- Capture some lines, one after another. -/
  | record (stream : Stream) (lines : List String)
  | flush
  /-- Set the clock forward or back, by microseconds. -/
  | advance (micros : Int)
  | count
  | recent (limit : Nat)

/-- The answer to a request. -/
inductive Reply where
  | done
  | count (n : Nat)
  | entries (es : List LogEntry)

/-- A sink and the time. -/
structure Session where
  now : Instant
  sink : Sink

namespace Session

/-- Answer one request. -/
def step (s : Session) : Request → Session × Reply
  | .record stream lines =>
    ({ s with sink := lines.foldl (fun sink line => sink.record s.now stream line) s.sink }, .done)
  | .flush => ({ s with sink := s.sink.flush }, .done)
  | .advance micros => ({ s with now := s.now.addNanos (micros * 1000) }, .done)
  | .count => (s, .count (s.sink.recent 0).length)
  | .recent limit => (s, .entries (s.sink.recent limit))

/-- Answer a list of requests in order. -/
def run (s : Session) : List Request → Session × List Reply
  | [] => (s, [])
  | r :: rs =>
    let (s, reply) := s.step r
    let (s, replies) := s.run rs
    (s, reply :: replies)

end Session

end CronSupervisor.Sink
