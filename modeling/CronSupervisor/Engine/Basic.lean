/-
  CronSupervisor.Engine.Basic — the timer engine.

  An engine holds entries: a schedule, and a payload that is handed out whenever the schedule is
  due.  While the engine runs every entry with an upcoming run has a timer, due at the first whole
  millisecond of the clock that is not before that run.  `fireUntil` lets time pass up to a limit
  and returns the milliseconds at which an entry fired.  Runs that are missed while the engine
  stands still are not made up for: a started timer looks for the next run after the present.
  Stopping wakes the task behind each timer, and whoever stops the engine can wait for them.
-/
import CronSupervisor.Clock
import CronSupervisor.Cron.Schedule

namespace CronSupervisor

open Calendar Cron

namespace Engine

/-! ## §1. Entries -/

/-- A schedule in the engine. -/
structure Entry (α : Type) where
  id : Nat
  schedule : Schedule
  payload : α
  /-- The next run, as of the last time that it was looked up. -/
  next : Option Instant
  /-- The millisecond at which the timer is due. -/
  timer : Option Nat

namespace Entry

variable {α : Type}

/-- Look up the next run after an instant, and set the timer to it, not before `earliest`. -/
def arm (e : Entry α) (clock : Clock) (after : Instant) (earliest : Nat) : Entry α :=
  let next := e.schedule.nextAfter? after
  { e with next, timer := next.map fun t => max (clock.millisAt t) earliest }

/-- Take the timer down; the next run stays on record. -/
def disarm (e : Entry α) : Entry α := { e with timer := none }

/-- The entry after it fired at a millisecond.  The next run is looked for after this one and after
the present.  In a zone whose clock is set back the run that is found can still lie before the
present, and the sleep until then is over at the next turn of the timers, a millisecond later at the
earliest.  A run that lies ahead is never put off by that. -/
def fire (e : Entry α) (clock : Clock) (due : Nat) : Entry α :=
  let now := clock.instantAt due
  e.arm clock (match e.next with | some next => next.later now | none => now) (due + 1)

theorem lt_timer_fire (e : Entry α) (clock : Clock) (due due' : Nat)
    (h : (e.fire clock due).timer = some due') : due < due' := by
  simp only [fire, arm, Option.map_eq_some_iff] at h
  obtain ⟨t, _, ht⟩ := h
  omega

/-- Fire as often as the timer is due up to a limit; yields the milliseconds in order. -/
def fireUntil (clock : Clock) (limit : Nat) (e : Entry α) : Entry α × List Nat :=
  match _h : e.timer with
  | some due =>
    if _hle : due ≤ limit then
      let (e, times) := fireUntil clock limit (e.fire clock due)
      (e, due :: times)
    else (e, [])
  | none => (e, [])
termination_by match e.timer with
  | some due => limit + 1 - due
  | none => 0
decreasing_by
  rw [_h]
  cases h' : (e.fire clock due).timer with
  | none => simp only []; omega
  | some due' => have := e.lt_timer_fire clock due due' h'; simp only []; omega

end Entry

/-! ## §2. Tasks -/

/-- The task that dispatches an entry.  It sleeps until the entry is due or a signal to stop comes,
and it has returned if it found that no run is coming. -/
structure Task where
  entry : Nat
  /-- The millisecond at which the sleep would be over. -/
  due : Option Nat

/-- The tasks of an engine that was stopped, and the millisecond at which they were told. -/
structure StopHandle where
  signal : Nat
  tasks : List Task := []

/-- Wait for one task after another; yields the millisecond at which the last one has returned.
Each wakes at its timer or at the signal, whichever is first, and then finds the signal. -/
def StopHandle.wait (h : StopHandle) (now : Nat) : Nat :=
  h.tasks.foldl (fun now task => match task.due with
    | some due => max now (min due h.signal)
    | none => now) now

end Engine

/-! ## §3. Engines -/

/-- Entries in the order of their identifiers, which count up from 1 and are never reused. -/
structure Engine (α : Type) where
  isRunning : Bool := false
  nextId : Nat := 1
  entries : List (Engine.Entry α) := []

namespace Engine

variable {α : Type}

/-- Register a schedule; yields its identifier. -/
def add (e : Engine α) (clock : Clock) (schedule : Schedule) (payload : α) : Engine α × Nat :=
  let blank : Entry α := { id := e.nextId, schedule, payload, next := none, timer := none }
  let armed := blank.arm clock clock.now clock.elapsed
  let entry := if e.isRunning then armed else armed.disarm
  ({ e with nextId := e.nextId + 1, entries := e.entries ++ [entry] }, e.nextId)

/-- The entry of an identifier. -/
def find? (e : Engine α) (id : Nat) : Option (Entry α) := e.entries.find? (·.id = id)

/-- Drop an entry. -/
def remove (e : Engine α) (id : Nat) : Engine α :=
  { e with entries := e.entries.filter (·.id ≠ id) }

/-- The next run of an entry, as of the last time that it was looked up. -/
def next? (e : Engine α) (id : Nat) : Option Instant := (e.find? id).bind (·.next)

/-- Start all timers, unless they are started. -/
def start (e : Engine α) (clock : Clock) : Engine α :=
  if e.isRunning then e
  else { e with
    isRunning := true
    entries := e.entries.map fun x => x.arm clock clock.now clock.elapsed }

/-- Stop all timers; yields the tasks that are told to return, one for each entry of a running
engine. -/
def stop (e : Engine α) (clock : Clock) : Engine α × StopHandle :=
  ({ e with isRunning := false, entries := e.entries.map Entry.disarm },
    { signal := clock.elapsed
      tasks := if e.isRunning then e.entries.map fun x => ⟨x.id, x.timer⟩ else [] })

/-- Let time pass up to the clock's present; yields each entry's payload and firings. -/
def fireUntil (e : Engine α) (clock : Clock) : Engine α × List (α × List Nat) :=
  let fired := e.entries.map fun x => (x.payload, x.fireUntil clock clock.elapsed)
  ({ e with entries := fired.map fun (_, x, _) => x }, fired.map fun (p, _, times) => (p, times))

end Engine

end CronSupervisor
