/-
  CronSupervisor.Execution.Script — executors that follow a script.

  A script lists, call by call, how long an executor works and what it returns; the last behaviour
  repeats.  Every call is logged under its caller, and the number of calls logged there before
  tells which behaviour is next.
-/
import CronSupervisor.Job.Basic

namespace CronSupervisor

/-! ## §1. Scripts -/

/-- How an executor acts on one call. -/
structure Behaviour where
  /-- Milliseconds of work; without any the context is not looked at. -/
  work : Option Nat
  ignoresContext : Bool
  /-- What is returned after the work. -/
  outcome : Outcome

namespace Behaviour

/-- Succeed at once. -/
def immediate : Behaviour := { work := none, ignoresContext := false, outcome := .ok 0 }

/-- The execution that starts at `now`, in a context. -/
def run (b : Behaviour) (context : Context) (now : Nat) (execution : Int) : Run :=
  { execution, context
    heedsContext := b.work.isSome && !b.ignoresContext
    workDone := now + b.work.getD 0
    outcome := b.outcome }

end Behaviour

/-- The behaviour on a call, counted from zero; an empty script succeeds at once. -/
def behaviourAt (script : List Behaviour) (call : Nat) : Behaviour :=
  match script[min call (script.length - 1)]? with
  | some b => b
  | none => .immediate

/-! ## §2. Calls -/

/-- Whose executor is called for which job: its own, or the one shared by default. -/
inductive Caller where
  | own (job : String)
  | shared (job : String)
  deriving DecidableEq

/-- The times of the calls made so far, newest first for each caller. -/
structure CallLog where
  calls : List (Caller × List Nat) := []

namespace CallLog

/-- The times of one caller's calls, newest first. -/
def timesOf (l : CallLog) (c : Caller) : List Nat := (l.calls.lookup c).getD []

/-- Put a call in front of the caller's. -/
def insertCall (c : Caller) (t : Nat) : List (Caller × List Nat) → List (Caller × List Nat)
  | [] => [(c, [t])]
  | (d, ts) :: rest => if d = c then (d, t :: ts) :: rest else (d, ts) :: insertCall c t rest

/-- Log a call. -/
def record (l : CallLog) (c : Caller) (t : Nat) : CallLog := ⟨insertCall c t l.calls⟩

/-- Every caller with the times of its calls, oldest first. -/
def toList (l : CallLog) : List (Caller × List Nat) := l.calls.map fun (c, ts) => (c, ts.reverse)

theorem lookup_insertCall_self (c : Caller) (t : Nat) (ls : List (Caller × List Nat)) :
    (insertCall c t ls).lookup c = some (t :: (ls.lookup c).getD []) := by
  induction ls with
  | nil => simp [insertCall]
  | cons p rest ih =>
    obtain ⟨d, ts⟩ := p
    by_cases h : d = c
    · subst h; simp [insertCall]
    · have h' : (c == d) = false := by simpa using fun e => h e.symm
      simp [insertCall, h, List.lookup_cons, h', ih]

theorem lookup_insertCall_ne {c d : Caller} (h : d ≠ c) (t : Nat) (ls : List (Caller × List Nat)) :
    (insertCall c t ls).lookup d = ls.lookup d := by
  induction ls with
  | nil =>
    have h' : (d == c) = false := by simpa using h
    simp [insertCall, List.lookup_cons, h']
  | cons p rest ih =>
    obtain ⟨e, ts⟩ := p
    by_cases he : e = c
    · subst he
      have h' : (d == e) = false := by simpa using h
      simp [insertCall, List.lookup_cons, h']
    · simp only [insertCall, he, if_false, List.lookup_cons]
      split <;> simp_all

@[simp] theorem timesOf_record_self (l : CallLog) (c : Caller) (t : Nat) :
    (l.record c t).timesOf c = t :: l.timesOf c := by
  simp [timesOf, record, lookup_insertCall_self]

theorem timesOf_record_ne (l : CallLog) {c d : Caller} (h : d ≠ c) (t : Nat) :
    (l.record c t).timesOf d = l.timesOf d := by
  simp [timesOf, record, lookup_insertCall_ne h]

end CallLog

end CronSupervisor
