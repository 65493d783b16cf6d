/-
  CronSupervisor.Process.Child — what a supervisor sees of a child process.

  A child has two pipes to write to.  What it starts inherits them and may outlive it, so bytes can
  arrive after the child has ended, and a pipe comes to its end when the last process that holds it
  lets go.  Times are milliseconds since the child was started.
-/
import CronSupervisor.Log.Entry
import CronSupervisor.Process.Signal

namespace CronSupervisor

/-! ## §1. Pipes -/

/-- How a process ended by itself. -/
inductive Ending where
  | exited (code : Nat)
  | killed (signal : Signal)
  deriving DecidableEq

/-- A pipe from which the output of a child is read. -/
inductive Pipe where
  | out
  | err
  deriving DecidableEq

namespace Pipe

/-- The stream that a pipe carries. -/
def stream : Pipe → Stream
  | out => .stdout
  | err => .stderr

/-- Both pipes. -/
def all : List Pipe := [out, err]

theorem nodup_all : all.Nodup := by decide

end Pipe

/-- Some bytes that are written at once. -/
structure Chunk where
  time : Nat
  pipe : Pipe
  bytes : List UInt8
  deriving DecidableEq

/-- Something that comes out of a pipe. -/
structure Arrival where
  time : Nat
  pipe : Pipe
  /-- Some bytes, or nothing at the end of the pipe. -/
  bytes? : Option (List UInt8)
  deriving DecidableEq

/-- What comes out of the pipes of a child, in the order of time. -/
structure Output where
  arrivals : List Arrival
  ordered : arrivals.Pairwise fun a b => a.time ≤ b.time
  /-- Nothing comes out of a pipe after its end. -/
  final : arrivals.Pairwise fun a b => a.bytes? = none → b.pipe ≠ a.pipe

namespace Output

/-- When a pipe comes to its end, if it does. -/
def endOf? (o : Output) (pipe : Pipe) : Option Nat :=
  (o.arrivals.find? fun a => a.pipe = pipe ∧ a.bytes? = none).map (·.time)

/-- What comes out up to a time. -/
def upTo (o : Output) (limit : Nat) : Output where
  arrivals := o.arrivals.filter (·.time ≤ limit)
  ordered := o.ordered.filter _
  final := o.final.filter _

end Output

/-- What a child does. -/
structure ChildRun where
  /-- How and when it ends if it is left alone, if it does. -/
  ending : Option (Nat × Ending)
  /-- What comes out of its pipes if it is killed at some time, or left alone. -/
  output : Option Nat → Output

/-! ## §2. Output from what is written -/

namespace Arrival

/-- The place of an arrival in time; at one time an end comes after all bytes. -/
def rank (a : Arrival) : Nat := 2 * a.time + (if a.bytes? = none then 1 else 0)

/-- An arrival may come before another one. -/
def precedes (a b : Arrival) : Bool := a.rank ≤ b.rank

theorem precedes_iff {a b : Arrival} : a.precedes b ↔ a.rank ≤ b.rank := decide_eq_true_iff

theorem time_le_of_precedes {a b : Arrival} (h : a.precedes b) : a.time ≤ b.time := by
  have hrank := precedes_iff.mp h
  unfold rank at hrank
  split at hrank <;> split at hrank <;> omega

end Arrival

namespace Output

variable (chunks : List Chunk) (finish : Pipe → Option Nat)

/-- The bytes that are written to a pipe until its end. -/
def piecesUntil : List Arrival :=
  (chunks.filter fun c => (finish c.pipe).all (c.time ≤ ·)).map fun c => ⟨c.time, c.pipe, c.bytes⟩

/-- The ends of the pipes. -/
def endings : List Arrival :=
  Pipe.all.filterMap fun pipe => (finish pipe).map fun time => ⟨time, pipe, none⟩

/-- All that comes out of the pipes, in the order of time. -/
def merged : List Arrival :=
  (piecesUntil chunks finish ++ endings finish).mergeSort Arrival.precedes

theorem sorted_merged : (merged chunks finish).Pairwise fun a b => a.precedes b := by
  refine List.pairwise_mergeSort (fun a b c hab hbc => ?_) (fun a b => ?_) _
  · rw [Arrival.precedes_iff] at *
    exact Nat.le_trans hab hbc
  · rw [Bool.or_eq_true, Arrival.precedes_iff, Arrival.precedes_iff]
    exact Nat.le_total a.rank b.rank

variable {chunks finish}

/-- A pipe has its end at its time, and its bytes not after that. -/
theorem of_mem_merged {a : Arrival} (ha : a ∈ merged chunks finish) :
    (a.bytes? = none → finish a.pipe = some a.time) ∧
      (finish a.pipe).all (a.time ≤ ·) = true := by
  rcases List.mem_append.mp (List.mem_mergeSort.mp ha) with h | h
  · obtain ⟨c, hc, rfl⟩ := List.mem_map.mp h
    exact ⟨nofun, (List.mem_filter.mp hc).2⟩
  · obtain ⟨pipe, -, htime⟩ := List.mem_filterMap.mp h
    obtain ⟨time, hfinish, rfl⟩ := Option.map_eq_some_iff.mp htime
    exact ⟨fun _ => hfinish, by simp [hfinish]⟩

variable (chunks finish)

/-- Every pipe has one end. -/
theorem apart_merged : (merged chunks finish).Pairwise
    fun a b => a.bytes? = none → b.bytes? = none → b.pipe ≠ a.pipe := by
  refine (List.mergeSort_perm _ _).symm.pairwise ?_ fun h ha hb => (h hb ha).symm
  refine List.pairwise_append.mpr ⟨List.pairwise_map.mpr (List.pairwise_of_forall nofun), ?_, ?_⟩
  · refine List.pairwise_filterMap.mpr (List.Pairwise.imp ?_ Pipe.nodup_all)
    intro pipe other hne a ha b hb _ _
    obtain ⟨_, -, rfl⟩ := Option.map_eq_some_iff.mp ha
    obtain ⟨_, -, rfl⟩ := Option.map_eq_some_iff.mp hb
    exact hne.symm
  · intro a ha _ _ hend
    obtain ⟨_, -, rfl⟩ := List.mem_map.mp ha
    exact absurd hend nofun

/-- What comes out where bytes are written to pipes that end at given times, if they do. -/
def assemble : Output where
  arrivals := merged chunks finish
  ordered := (sorted_merged chunks finish).imp Arrival.time_le_of_precedes
  final := by
    refine ((sorted_merged chunks finish).and (apart_merged chunks finish)).imp_of_mem ?_
    intro a b ha hb ⟨hle, hapart⟩ hend hpipe
    -- so these are bytes, at the time of the end or later
    have hpiece : b.bytes? ≠ none := fun h => hapart hend h hpipe
    have hrank := Arrival.precedes_iff.mp hle
    have htime : b.time ≤ a.time := by
      simpa [hpipe, (of_mem_merged ha).1 hend] using (of_mem_merged hb).2
    unfold Arrival.rank at hrank
    rw [if_pos hend, if_neg hpiece] at hrank
    omega

end Output

end CronSupervisor
