/-
  CronSupervisor.History.Basic — the bounded log of a job's executions.

  A history keeps the newest entries up to its capacity, which is at least one.  Identifiers count
  up from 1 and are never reused.  Closing an entry that is no longer kept changes nothing but a
  count.  `Stats` sums up the kept entries.
-/
import CronSupervisor.Calendar.Instant

namespace CronSupervisor

open Calendar

/-! ## §1. Entries -/

/-- What started an execution. -/
inductive Trigger where
  /-- A scheduled run. -/
  | schedule
  /-- A trigger that nobody waits for. -/
  | manual
  /-- A trigger whose caller waits for the result. -/
  | api
  deriving DecidableEq

/-- The name of the cause, as it is recorded. -/
def Trigger.name : Trigger → String
  | schedule => "schedule"
  | manual => "manual"
  | api => "api"

/-- All causes. -/
def Trigger.all : List Trigger := [schedule, manual, api]

/-- One execution. -/
structure Entry where
  id : Int
  startTime : Instant
  /-- Absent while the execution is running. -/
  endTime : Option Instant
  exitCode : Int
  /-- Ended with exit code zero and without an error. -/
  success : Bool
  /-- The wording of the failure, or nothing. -/
  error : String
  trigger : Trigger
  deriving DecidableEq

namespace Entry

/-- An entry that was just opened. -/
def opened (id : Int) (now : Instant) (trigger : Trigger) : Entry :=
  { id, startTime := now, endTime := none, exitCode := 0, success := false, error := "", trigger }

/-- The entry with an end. -/
def close (e : Entry) (now : Instant) (exitCode : Int) (success : Bool) (error : String) : Entry :=
  { e with endTime := some now, exitCode, success, error }

/-- Not closed yet. -/
def isRunning (e : Entry) : Bool := e.endTime.isNone

/-- From its start to its end, or to now while it runs. -/
def duration (e : Entry) (now : Instant) : Span := .between e.startTime (e.endTime.getD now)

end Entry

/-! ## §2. Histories -/

/-- The log of one job. -/
structure History where
  capacity : Nat
  capacity_pos : 0 < capacity
  /-- The kept entries, newest first. -/
  entries : List Entry
  nextId : Int
  /-- Ends that were reported for entries that are not kept. -/
  droppedCompletions : Nat

/-- The memory that the program finds. -/
class Memory where
  /-- The greatest number of entries that can be reserved at once. -/
  entries : Nat

namespace History

/-- The capacity where none is configured. -/
def defaultCapacity : Nat := 100

/-- All entries of a history of some capacity are reserved as it is made, so there may be no room
for it. -/
def Fits [Memory] (capacity : Nat) : Prop := max capacity 1 ≤ Memory.entries

instance [Memory] (capacity : Nat) : Decidable (Fits capacity) :=
  inferInstanceAs (Decidable (_ ≤ _))

/-- An empty history; a capacity of zero counts as one.  Where it does not fit there is none. -/
def empty (capacity : Nat) : History :=
  { capacity := max capacity 1, capacity_pos := by omega, entries := [], nextId := 1,
    droppedCompletions := 0 }

/-- Open an entry, at the expense of the oldest one if the history is full. -/
def start (h : History) (now : Instant) (trigger : Trigger) : History :=
  { h with
    entries := (Entry.opened h.nextId now trigger :: h.entries).take h.capacity
    nextId := h.nextId + 1 }

/-- Change the newest entry that has an identifier, if one has. -/
def amend? (id : Int) (f : Entry → Entry) : List Entry → Option (List Entry)
  | [] => none
  | e :: es => if e.id = id then some (f e :: es) else (amend? id f es).map (e :: ·)

/-- Close the entry of an identifier. -/
def finish (h : History) (now : Instant) (id exitCode : Int) (success : Bool) (error : String) :
    History :=
  match amend? id (·.close now exitCode success error) h.entries with
  | some es => { h with entries := es }
  | none => { h with droppedCompletions := h.droppedCompletions + 1 }

/-- The opened entry is the newest; of the older ones as many stay as there is room for. -/
theorem entries_start (h : History) (now : Instant) (trigger : Trigger) :
    (h.start now trigger).entries
      = Entry.opened h.nextId now trigger :: h.entries.take (h.capacity - 1) := by
  have hpos := h.capacity_pos
  have hcap : h.capacity = (h.capacity - 1) + 1 := by omega
  show (Entry.opened h.nextId now trigger :: h.entries).take h.capacity = _
  rw [hcap, List.take_succ_cons, ← hcap]

/-- Closing the newest entry touches neither the others nor the count of lost ends. -/
theorem finish_head {h : History} {e : Entry} {es : List Entry} (heq : h.entries = e :: es)
    (now : Instant) (exitCode : Int) (success : Bool) (error : String) :
    h.finish now e.id exitCode success error
      = { h with entries := e.close now exitCode success error :: es } := by
  simp [finish, amend?, heq]

/-- Up to `n` entries, newest first; all of them for zero. -/
def recent (h : History) (n : Nat) : List Entry := if n = 0 then h.entries else h.entries.take n

/-- The entry of an identifier. -/
def byId? (h : History) (id : Int) : Option Entry := h.entries.find? (·.id = id)

/-- The newest entry. -/
def last? (h : History) : Option Entry := h.entries.head?

/-- The number of entries. -/
def size (h : History) : Nat := h.entries.length

/-- One line on a history of some length and capacity. -/
def description (size capacity : Nat) : String :=
  s!"ExecutionHistory \x7b max_size: {capacity}, len: {size} \x7d"

/-! ## §3. Statistics -/

/-- A share in percent; zero of nothing. -/
def percentage (part whole : Nat) : Float :=
  if whole = 0 then 0.0 else Float.ofNat part / Float.ofNat whole * 100.0

/-- The percentage of closed entries that succeeded. -/
def successRate (h : History) : Float :=
  let closed := h.entries.filter (!·.isRunning)
  percentage (closed.countP (·.success)) closed.length

/-- Figures drawn from the kept entries. -/
structure Stats where
  totalExecutions : Nat
  successCount : Nat
  failureCount : Nat
  runningCount : Nat
  successRate : Float
  averageDuration : Span
  lastExecutionTime : Option Instant
  lastSuccessTime : Option Instant
  lastFailureTime : Option Instant
  droppedCompletions : Nat

/-- The later of two instants, where no instant is earlier than any. -/
def latest : Option Instant → Option Instant → Option Instant
  | some a, some b => some (a.later b)
  | none, b => b
  | a, none => a

/-- The latest end among entries. -/
def latestEnd (es : List Entry) : Option Instant :=
  es.foldr (fun e best => latest best e.endTime) none

/-- The mean of the total over a number of parts.  The divisor is a 32-bit word. -/
def meanSpan (total : Nat) (parts : Nat) : Span := ⟨total / (parts % Nat.pow 2 32)⟩

/-- The figures at present; only closed entries count for the times. -/
def stats (h : History) : Stats :=
  let closed := h.entries.filter (!·.isRunning)
  let succeeded := closed.filter (·.success)
  let failed := closed.filter (!·.success)
  let total := (closed.map fun e => (e.duration e.startTime).nanos).foldr (· + ·) 0
  { totalExecutions := h.entries.length
    successCount := succeeded.length
    failureCount := failed.length
    runningCount := h.entries.countP (·.isRunning)
    successRate := percentage succeeded.length (succeeded.length + failed.length)
    averageDuration := if closed.isEmpty then ⟨0⟩ else meanSpan total closed.length
    lastExecutionTime := h.entries.head?.map (·.startTime)
    lastSuccessTime := latestEnd succeeded
    lastFailureTime := latestEnd failed
    droppedCompletions := h.droppedCompletions }

end History

end CronSupervisor
