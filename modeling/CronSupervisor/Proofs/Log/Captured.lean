/-
  CronSupervisor.Proofs.Log.Captured — a sink shows the end of an unbounded list of lines.

  A sink holds lines in two places: pending ones, of which there is never a full batch, and visible
  ones, of which there are never more than its capacity.  The list below holds every line that was
  ever captured, and beside it stands how many of them had been captured at the last drain.  The
  pending lines are what came after that drain; the visible ones are the end of what came before
  it.  A batch may be larger than the capacity, and then most of it is lost at the moment that it
  becomes visible; what stays is still the end of the list.

  Main statements:
    * `perform_shows`, `performAll_shows` — a sink and the list stay together.
    * `refines_captured` — visible and pending lines in terms of the list.
    * `Session.run_eq_performAll` — sessions do nothing else to a sink.
-/
import CronSupervisor.Log.Session
import Mathlib.Data.List.Basic

namespace CronSupervisor.Sink

open Calendar

/-! ## §1. Acts and the list -/

/-- What is done to a sink; capturing a line goes by a reading of the clock. -/
inductive Act where
  | record (now : Instant) (stream : Stream) (line : String)
  | flush

/-- Do one thing to a sink. -/
def perform (s : Sink) : Act → Sink
  | .record now stream line => s.record now stream line
  | .flush => s.flush

/-- Do a list of things to a sink, in order. -/
def performAll (s : Sink) (acts : List Act) : Sink := acts.foldl perform s

/-- The entry that is captured by an act, if one is. -/
def Act.entry? (process : String) (patterns : List Pattern) : Act → Option LogEntry
  | .record now stream line => some ⟨now, process, stream, stored patterns line⟩
  | .flush => none

/-- Every line that was ever captured, oldest first. -/
def captured (process : String) (patterns : List Pattern) (acts : List Act) : List LogEntry :=
  acts.filterMap (Act.entry? process patterns)

/-- How many lines were captured, and how many of these up to the last drain. -/
structure Tally where
  captured : Nat := 0
  drained : Nat := 0

/-- An explicit flush is a drain, and so is the moment at which sixty-four lines are waiting. -/
def Tally.count (t : Tally) : Act → Tally
  | .record _ _ _ =>
    if t.captured + 1 - t.drained = 64 then ⟨t.captured + 1, t.captured + 1⟩
    else ⟨t.captured + 1, t.drained⟩
  | .flush => ⟨t.captured, t.captured⟩

/-- The tally of a list of acts. -/
def tally (acts : List Act) : Tally := acts.foldl Tally.count {}

/-! ## §2. A sink and its list -/

/-- The sink holds the newest of the lines up to the last drain, and the lines after it wait. -/
structure Holds (s : Sink) (lines : List LogEntry) (t : Tally) : Prop where
  captured_eq : t.captured = lines.length
  drained_le : t.drained ≤ t.captured
  pending_eq : s.pending = (lines.drop t.drained).reverse
  entries_eq : s.entries = (lines.take t.drained).reverse.take s.capacity

/-- What is cut off twice is cut off once. -/
theorem take_append_take (n : Nat) (new old : List LogEntry) :
    (new ++ old.take n).take n = (new ++ old).take n := by
  rw [List.take_append, List.take_append, List.take_take]
  congr 2
  omega

namespace Holds

variable {s : Sink} {lines : List LogEntry} {t : Tally}

theorem empty (process : String) (capacity : Nat) (patterns : List Pattern) :
    (Sink.empty process capacity patterns).Holds [] {} where
  captured_eq := rfl
  drained_le := Nat.le_refl 0
  pending_eq := rfl
  entries_eq := by
    show [] = List.take _ []
    rw [List.take_nil]

theorem length_pending (hs : s.Holds lines t) : s.pending.length = t.captured - t.drained := by
  rw [hs.pending_eq, List.length_reverse, List.length_drop, hs.captured_eq]

/-- **Once the pending lines are drained, the newest of all lines are visible.** -/
theorem flush (hs : s.Holds lines t) : s.flush.Holds lines ⟨t.captured, t.captured⟩ where
  captured_eq := hs.captured_eq
  drained_le := Nat.le_refl _
  pending_eq := by
    show [] = (lines.drop t.captured).reverse
    rw [hs.captured_eq, List.drop_length]
    rfl
  entries_eq := by
    show (s.pending ++ s.entries).take s.capacity
      = (lines.take t.captured).reverse.take s.capacity
    rw [hs.pending_eq, hs.entries_eq, take_append_take, ← List.reverse_append,
      List.take_append_drop, hs.captured_eq, List.take_length]

/-- One more line waits. -/
theorem push (hs : s.Holds lines t) (e : LogEntry) :
    ({ s with pending := e :: s.pending } : Sink).Holds (lines ++ [e])
      ⟨t.captured + 1, t.drained⟩ := by
  have hle : t.drained ≤ lines.length := hs.captured_eq ▸ hs.drained_le
  refine ⟨?_, Nat.le_succ_of_le hs.drained_le, ?_, ?_⟩
  · show t.captured + 1 = (lines ++ [e]).length
    rw [List.length_append, List.length_singleton, hs.captured_eq]
  · show e :: s.pending = ((lines ++ [e]).drop t.drained).reverse
    rw [hs.pending_eq, List.drop_append_of_le_length hle, List.reverse_append]
    rfl
  · show s.entries = ((lines ++ [e]).take t.drained).reverse.take s.capacity
    rw [hs.entries_eq, List.take_append_of_le_length hle]

end Holds

/-- The sink holds the lines as it should, and fewer than a batch of them wait. -/
structure Shows (s : Sink) (lines : List LogEntry) (t : Tally) : Prop extends
    Holds s lines t where
  waiting_lt : t.captured - t.drained < 64

section Steps

variable {s : Sink} {lines : List LogEntry} {t : Tally}

theorem shows_flush (hs : s.Holds lines t) : s.flush.Shows lines ⟨t.captured, t.captured⟩ := by
  refine ⟨hs.flush, ?_⟩
  show t.captured - t.captured < 64
  omega

/-- **Capturing a line keeps a sink and its list together**, also when the line fills a batch. -/
theorem shows_record (hs : s.Shows lines t) (now : Instant) (stream : Stream) (line : String) :
    (s.record now stream line).Shows
      (lines ++ [⟨now, s.process, stream, stored s.patterns line⟩])
      (t.count (.record now stream line)) := by
  have hpush := hs.push ⟨now, s.process, stream, stored s.patterns line⟩
  have hlength : s.pending.length + 1 = t.captured + 1 - t.drained := hpush.length_pending
  have hfew := hs.waiting_lt
  unfold Sink.record Tally.count
  show Shows (if 64 ≤ s.pending.length + 1 then _ else _) _ _
  by_cases full : t.captured + 1 - t.drained = 64
  · -- the line fills the batch, and the sink is drained before anyone else sees it
    rw [if_pos (by omega), if_pos full]
    exact shows_flush hpush
  · rw [if_neg (by omega), if_neg full]
    refine ⟨hpush, ?_⟩
    show t.captured + 1 - t.drained < 64
    omega

/-- What a sink is made with never changes. -/
theorem perform_keeps (s : Sink) (act : Act) : (s.perform act).process = s.process ∧
    (s.perform act).capacity = s.capacity ∧ (s.perform act).patterns = s.patterns := by
  cases act with
  | record now stream line =>
    unfold perform record
    dsimp only
    split <;> exact ⟨rfl, rfl, rfl⟩
  | flush => exact ⟨rfl, rfl, rfl⟩

/-- **Whatever is done to a sink, it stays together with its list.** -/
theorem perform_shows (hs : s.Shows lines t) (act : Act) :
    (s.perform act).Shows (lines ++ captured s.process s.patterns [act]) (t.count act) := by
  cases act with
  | record now stream line => exact shows_record hs now stream line
  | flush =>
    show s.flush.Shows (lines ++ []) _
    rw [List.append_nil]
    exact shows_flush hs.toHolds

theorem performAll_shows (hs : s.Shows lines t) (acts : List Act) :
    (s.performAll acts).Shows (lines ++ captured s.process s.patterns acts)
        (acts.foldl Tally.count t) ∧
      (s.performAll acts).capacity = s.capacity := by
  induction acts generalizing s lines t with
  | nil =>
    show s.Shows (lines ++ []) t ∧ _
    rw [List.append_nil]
    exact ⟨hs, rfl⟩
  | cons act acts ih =>
    obtain ⟨hprocess, hcapacity, hpatterns⟩ := s.perform_keeps act
    have hrest := ih (perform_shows hs act)
    rw [hprocess, hpatterns, hcapacity, List.append_assoc] at hrest
    have hlines : captured s.process s.patterns [act] ++ captured s.process s.patterns acts
        = captured s.process s.patterns (act :: acts) :=
      List.filterMap_append.symm
    rw [hlines] at hrest
    exact hrest

end Steps

/-! ## §3. Every capacity, every order of acts -/

/-- **A sink is a view of the list of all lines.**  The visible lines are the newest of those that
had been captured up to the last drain, as many as the sink can hold, newest first; a limit takes
from their front.  The others wait, in the order in which they came, and there is never a full batch
of them.  So the whole list is what was evicted, then what is visible, then what waits, and nothing
is evicted from a sink that has room.  After a flush the newest lines of all are visible. -/
theorem refines_captured (process : String) (capacity : Nat) (patterns : List Pattern)
    (acts : List Act) :
    let c := max capacity 1
    let s := (empty process capacity patterns).performAll acts
    let lines := captured process patterns acts
    let drained := (tally acts).drained
    let visible := ((lines.take drained).drop (drained - min c drained)).reverse
    drained ≤ lines.length ∧
    -- what is answered
    s.recent 0 = visible ∧ (∀ n, 0 < n → s.recent n = visible.take n) ∧
    -- what waits
    s.pending = (lines.drop drained).reverse ∧ s.pending.length < 64 ∧
    -- what is lost
    lines = lines.take (drained - min c drained) ++ (s.recent 0).reverse ++ s.pending.reverse ∧
    (0 < drained - min c drained → (s.recent 0).length = c) ∧
    -- what a flush leads to
    s.flush.recent 0 = (lines.drop (lines.length - min c lines.length)).reverse := by
  intro c s lines drained visible
  have hempty : (empty process capacity patterns).Shows [] {} :=
    ⟨.empty process capacity patterns, by decide⟩
  obtain ⟨hs, hcapacity⟩ := performAll_shows hempty acts
  change s.Shows lines (tally acts) at hs
  change s.capacity = c at hcapacity
  have hle : drained ≤ lines.length := hs.captured_eq ▸ hs.drained_le
  -- the newest `c` of a list, newest first, are its last `min c` ones, turned round
  have hnewest : ∀ l : List LogEntry,
      l.reverse.take c = (l.drop (l.length - min c l.length)).reverse := by
    intro l
    rw [List.take_reverse]
    congr 2
    omega
  have hvisible : s.recent 0 = visible := by
    show s.entries = _
    rw [hs.entries_eq, hcapacity, hnewest, List.length_take, Nat.min_eq_left hle]
  refine ⟨hle, hvisible, fun n hn => ?_, hs.pending_eq, ?_, ?_, fun hlost => ?_, ?_⟩
  · show (if n = 0 then s.entries else s.entries.take n) = _
    rw [if_neg (Nat.ne_of_gt hn)]
    exact congrArg (List.take n) hvisible
  · rw [hs.length_pending]
    exact hs.waiting_lt
  · rw [hvisible, hs.pending_eq, List.reverse_reverse, List.reverse_reverse]
    have hsplit := List.take_append_drop (drained - min c drained) (lines.take drained)
    rw [List.take_take, Nat.min_eq_left (Nat.sub_le _ _)] at hsplit
    rw [hsplit, List.take_append_drop]
  · rw [hvisible, List.length_reverse, List.length_drop, List.length_take]
    omega
  · have hflush := hs.flush.entries_eq
    show s.flush.entries = _
    rw [hflush, hs.captured_eq, List.take_length]
    show lines.reverse.take s.capacity = _
    rw [hcapacity, hnewest]

/-! ## §4. Sessions -/

/-- What the requests of a session do to its sink, with the readings of its clock. -/
def Session.acts : Instant → List Request → List Act
  | _, [] => []
  | now, .record stream lines :: rs => lines.map (.record now stream) ++ acts now rs
  | now, .flush :: rs => .flush :: acts now rs
  | now, .advance micros :: rs => acts (now.addNanos (micros * 1000)) rs
  | now, .count :: rs => acts now rs
  | now, .recent _ :: rs => acts now rs

/-- **Sessions do nothing else to a sink.** -/
theorem Session.run_eq_performAll (s : Session) (requests : List Request) :
    (s.run requests).1.sink = s.sink.performAll (acts s.now requests) := by
  induction requests generalizing s with
  | nil => rfl
  | cons r rs ih =>
    cases r with
    | record stream lines =>
      have hstep : (s.step (.record stream lines)).1.sink
          = s.sink.performAll (lines.map (.record s.now stream)) :=
        (List.foldl_map (f := Act.record s.now stream) (g := perform)).symm
      show ((s.step (.record stream lines)).1.run rs).1.sink = _
      rw [ih, hstep]
      exact (List.foldl_append (f := perform)).symm
    | flush => exact ih _
    | advance micros => exact ih _
    | count => exact ih _
    | recent limit => exact ih _

end CronSupervisor.Sink
