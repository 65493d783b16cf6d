/-
  CronSupervisor.Proofs.Job.Race — which event ends an execution.

  An executor works for some time and looks at its context meanwhile, which the job's own timeout,
  the caller's deadline and the caller's token bound.  Whichever of the four comes first makes it
  return: with what it has to say, or with the reason to stop.

  Main statements:
    * `isLeast_first` — the moment that comes first.
    * `returned_at_first` — an executor returns at that moment, with the outcome that belongs to it.
    * `inFlight_opened` — while no moment has come, the execution is under way.
-/
import CronSupervisor.Proofs.Job.Flight

namespace CronSupervisor.Job

open Calendar

/-! ## §1. Races -/

/-- The moments that may end an execution. -/
structure Race where
  /-- The work is done. -/
  work : Nat
  /-- The job's own timeout is over. -/
  timeout : Option Nat
  /-- The caller's deadline is reached. -/
  deadline : Option Nat
  /-- The caller's token is cancelled. -/
  cancel : Option Nat

namespace Race

variable (r : Race)

/-- The moments at which time is up. -/
def ends : List Nat := r.timeout.toList ++ r.deadline.toList

/-- All moments. -/
def moments : List Nat := r.work :: (r.ends ++ r.cancel.toList)

/-- The moment that comes first, if nothing is cancelled. -/
def due : Nat := r.ends.foldl min r.work

/-- The moment that comes first. -/
def first : Nat := (r.ends ++ r.cancel.toList).foldl min r.work

/-- What the execution returns at that moment: what the executor has to say, or the reason to
stop. -/
def outcome (own : Outcome) : Outcome :=
  if r.first = r.work then own
  else if r.cancel = some r.first then .error .cancelled
  else .error .timedOut

/-- An execution that is stopped has no exit code of its own. -/
theorem exitCode_outcome (own : Outcome) (stopped : r.first ≠ r.work) :
    (r.outcome own).exitCode = -1 := by
  unfold outcome
  rw [if_neg stopped]
  split <;> rfl

/-- All moments lie ahead, and no two of them are the same. -/
structure Fair (now : Nat) : Prop where
  later : ∀ m ∈ r.moments, now < m
  distinct : r.moments.Nodup

/-- **The moment that comes first** is one of the moments, and no other one is earlier. -/
theorem isLeast_first : IsLeast {m | m ∈ r.moments} r.first :=
  List.min?_eq_some_iff.mp List.min?_cons'

theorem isLeast_due : IsLeast {m | m ∈ r.work :: r.ends} r.due :=
  List.min?_eq_some_iff.mp List.min?_cons'

theorem first_of_none (h : r.cancel = none) : r.first = r.due := by
  unfold first
  rw [h, Option.toList_none, List.append_nil]
  rfl

theorem first_of_some {c : Nat} (h : r.cancel = some c) : r.first = min r.due c := by
  unfold first
  rw [h, List.foldl_append]
  rfl

variable {r} {now : Nat} (fair : r.Fair now)

include fair in
theorem Fair.work_ne {b : Nat} (hb : b ∈ r.ends) : b ≠ r.work := by
  rintro rfl
  exact (List.nodup_cons.mp fair.distinct).1 (List.mem_append_left _ hb)

include fair in
theorem Fair.cancel_ne_work {c : Nat} (hc : r.cancel = some c) : c ≠ r.work := by
  rintro rfl
  exact (List.nodup_cons.mp fair.distinct).1
    (List.mem_append_right _ (Option.mem_toList.mpr hc))

include fair in
theorem Fair.cancel_ne {b c : Nat} (hb : b ∈ r.ends) (hc : r.cancel = some c) : c ≠ b := by
  rintro rfl
  have hnodup := (List.nodup_cons.mp fair.distinct).2
  exact (List.nodup_append.mp hnodup).2.2 c hb c (Option.mem_toList.mpr hc) rfl

include fair in
/-- Where nothing is cancelled before that, time is up or the work is done. -/
theorem Fair.first_of_due (early : ∀ c, r.cancel = some c → r.due ≤ c) (own : Outcome) :
    r.first = r.due ∧
      r.outcome own = if ∃ b ∈ r.ends, b ≤ r.due then .error .timedOut else own := by
  have hfirst : r.first = r.due := by
    cases hc : r.cancel with
    | none => exact r.first_of_none hc
    | some c => rw [r.first_of_some hc, Nat.min_eq_left (early c hc)]
  refine ⟨hfirst, ?_⟩
  obtain ⟨hmem, hle⟩ := r.isLeast_due
  unfold outcome
  rw [hfirst]
  rcases List.mem_cons.mp hmem with hwork | hend
  · have hnone : ¬ ∃ b ∈ r.ends, b ≤ r.due := by
      rintro ⟨b, hb, hbd⟩
      refine fair.work_ne hb (Nat.le_antisymm (hbd.trans hwork.le) ?_)
      exact hwork ▸ hle (List.mem_cons_of_mem _ hb)
    rw [if_pos hwork, if_neg hnone]
  · have hcancel : r.cancel ≠ some r.due := fun hc => fair.cancel_ne hend hc rfl
    rw [if_neg (fair.work_ne hend), if_neg hcancel, if_pos ⟨_, hend, Nat.le_refl _⟩]

include fair in
/-- A cancellation before all that comes first. -/
theorem Fair.first_of_cancel {c : Nat} (hc : r.cancel = some c) (hlt : c < r.due) (own : Outcome) :
    r.first = c ∧ r.outcome own = .error .cancelled ∧ ¬ ∃ b ∈ r.ends, b ≤ c := by
  have hfirst : r.first = c := by
    rw [r.first_of_some hc]
    exact Nat.min_eq_right (Nat.le_of_lt hlt)
  refine ⟨hfirst, ?_, ?_⟩
  · unfold outcome
    rw [hfirst, if_neg (fair.cancel_ne_work hc), if_pos hc]
  · rintro ⟨b, hb, hbc⟩
    have hdb := r.isLeast_due.2 (List.mem_cons_of_mem r.work hb)
    omega

end Race

/-! ## §2. Executions that look at their context -/

namespace Session

variable {size : Nat} {s t : Session}

/-- The race of an execution that would be opened now, with work of `d` milliseconds. -/
def race (s : Session) (d : Nat) (context : Context) (cancel : Option Nat) : Race :=
  { work := s.clock.elapsed + d
    timeout := s.worker.job.timeout.map (s.clock.elapsed + ·)
    deadline := context.deadline
    cancel }

/-- The executor will work for some time, look at its context meanwhile, and then return. -/
def Works (s : Session) (d : Nat) (own : Outcome) : Prop :=
  behaviourAt s.worker.script s.life.callCount
    = { work := some d, ignoresContext := false, outcome := own }

section Works

variable {d : Nat} {own : Outcome} (works : s.Works d own) {context : Context} {id : Int}
  {cancel : Option Nat}

theorem isCancelled_bounds (s : Session) (context : Context) (cancelled : List Scope) :
    (s.worker.bounds s.clock context).isCancelled cancelled = context.isCancelled cancelled := by
  unfold Worker.bounds
  split <;> rfl

include works in
theorem heedsContext_runOf : (s.runOf context id).heedsContext = true := by
  unfold runOf
  rw [works]
  rfl

include works in
theorem workDone_runOf (cancel : Option Nat) :
    (s.runOf context id).workDone = (s.race d context cancel).work := by
  unfold runOf
  rw [works]
  rfl

include works in
theorem outcome_runOf : (s.runOf context id).outcome = own := by
  unfold runOf
  rw [works]
  rfl

/-- The deadline of the execution is the first moment at which time is up. -/
theorem deadline_runOf (d : Nat) (cancel : Option Nat) :
    (s.runOf context id).context.deadline = (s.race d context cancel).ends.min? := by
  show (s.worker.bounds s.clock context).deadline = _
  unfold Worker.bounds Race.ends race
  cases s.worker.job.timeout with
  | none => cases context.deadline <;> rfl
  | some timeout =>
    cases hd : context.deadline with
    | none => exact context.deadline_limit_none s.clock.elapsed timeout hd
    | some e =>
      rw [context.deadline_limit_some s.clock.elapsed timeout e hd, Nat.min_comm]
      rfl

theorem isExpired_runOf_iff (d : Nat) (cancel : Option Nat) {m : Nat} :
    (s.runOf context id).context.isExpired m = true ↔
      ∃ b ∈ (s.race d context cancel).ends, b ≤ m := by
  unfold Context.isExpired
  rw [deadline_runOf d cancel]
  cases hb : (s.race d context cancel).ends.min? with
  | none =>
    rw [List.min?_eq_none_iff.mp hb]
    exact iff_of_false Bool.false_ne_true nofun
  | some b =>
    obtain ⟨hmem, hle⟩ := List.min?_eq_some_iff.mp hb
    rw [decide_eq_true_iff]
    exact ⟨fun h => ⟨b, hmem, h⟩, fun ⟨x, hx, h⟩ => Nat.le_trans (hle x hx) h⟩

include works in
theorem due_runOf (cancel : Option Nat) :
    (s.runOf context id).due = (s.race d context cancel).due := by
  have hrun : (s.runOf context id).due
      = (s.race d context cancel).ends.min?.elim (s.race d context cancel).work
          (min · (s.race d context cancel).work) := by
    unfold Run.due
    rw [heedsContext_runOf works, deadline_runOf d cancel, workDone_runOf works cancel]
    cases (s.race d context cancel).ends.min? <;> rfl
  rw [hrun]
  cases hb : (s.race d context cancel).ends.min? with
  | none =>
    unfold Race.due
    rw [List.min?_eq_none_iff.mp hb]
    rfl
  | some b =>
    obtain ⟨hmem, hle⟩ := List.min?_eq_some_iff.mp hb
    refine IsLeast.unique ⟨?_, fun m hm => ?_⟩ (s.race d context cancel).isLeast_due
    · show min b (s.race d context cancel).work ∈ _ :: _
      rcases Nat.le_total b (s.race d context cancel).work with h | h
      · rw [Nat.min_eq_left h]
        exact List.mem_cons_of_mem _ hmem
      · rw [Nat.min_eq_right h]
        exact List.mem_cons_self
    · rcases List.mem_cons.mp hm with rfl | hm
      · exact Nat.min_le_right _ _
      · exact Nat.le_trans (Nat.min_le_left _ _) (hle m hm)

include works in
theorem outcomeAt_runOf (cancel : Option Nat) (cancelled : List Scope) (m : Nat) :
    (s.runOf context id).outcomeAt cancelled m =
      if ∃ b ∈ (s.race d context cancel).ends, b ≤ m then .error .timedOut
      else if context.isCancelled cancelled then .error .cancelled else own := by
  have hexp : (s.runOf context id).context.isExpired m = true ↔
      ∃ b ∈ (s.race d context cancel).ends, b ≤ m := isExpired_runOf_iff d cancel
  have hcan : (s.runOf context id).context.isCancelled cancelled = context.isCancelled cancelled :=
    s.isCancelled_bounds context cancelled
  unfold Run.outcomeAt Context.error?
  rw [heedsContext_runOf works, outcome_runOf works, hcan]
  by_cases h : (s.runOf context id).context.isExpired m = true
  · rw [if_pos h, if_pos (hexp.mp h)]
    rfl
  · rw [if_neg h, if_neg (mt hexp.mpr h)]
    cases context.isCancelled cancelled <;> rfl

include works in
/-- **An executor returns at the moment that comes first**, with the outcome that belongs to it. -/
theorem returned_at_first (fair : (s.race d context cancel).Fair s.clock.elapsed) {j : Job}
    {e : Nat} (h : Returned j (s.runOf context id) e t) (early : ∀ c, cancel = some c → e ≤ c)
    (noticed : e < (s.runOf context id).due → cancel = some e) :
    e = (s.race d context cancel).first ∧
      (s.runOf context id).outcomeAt t.cancelled e = (s.race d context cancel).outcome own := by
  have hdue : (s.runOf context id).due = (s.race d context cancel).due := due_runOf works cancel
  have hcan : (s.runOf context id).context.isCancelled t.cancelled
      = context.isCancelled t.cancelled := s.isCancelled_bounds context t.cancelled
  rw [outcomeAt_runOf works cancel, ← hcan]
  rcases h.cause with ⟨rfl, -, hfree⟩ | ⟨-, hlt, hcancelled⟩
  · rw [hdue] at early ⊢
    obtain ⟨hfirst, hout⟩ := fair.first_of_due early own
    rw [hfirst, hout, hfree]
    exact ⟨rfl, rfl⟩
  · obtain ⟨hfirst, hout, hends⟩ := fair.first_of_cancel (noticed hlt) (hdue ▸ hlt) own
    rw [hfirst, hout, if_neg hends, hcancelled]
    exact ⟨rfl, rfl⟩

end Works

/-! ## §3. Executions that are opened -/

theorem passTo_now {run : Run} (fl : t.InFlight run) : t.passTo t.clock.elapsed = t := by
  have hworker : t.worker.settle t.clock t.cancelled = t.worker :=
    congrArg (fun job => { t.worker with job }) (settle_of_running fl.held fl.busy)
  unfold passTo
  simp only [advanceTo_of_le (Nat.le_refl _), Worker.passTime, hworker]

theorem cancelTime?_congr {c c' : Context} (h : ∀ k, c.isCancelled k = c'.isCancelled k)
    (s : Session) (qs : List Request) : cancelTime? c s qs = cancelTime? c' s qs := by
  induction qs generalizing s with
  | nil =>
    unfold cancelTime?
    rw [h]
  | cons q qs ih =>
    unfold cancelTime?
    rw [h, ih]

theorem cancelTime?_background (s : Session) (qs : List Request) :
    cancelTime? .background s qs = none := by
  induction qs generalizing s with
  | nil => rfl
  | cons q qs ih => exact ih (s.answer q).1

section Opened

variable {d : Nat} {own : Outcome} (works : s.Works d own) {context : Context}
  {cancel : Option Nat}

include works in
/-- An execution whose moments lie ahead is under way. -/
theorem inFlight_opened (tag : Trigger)
    (fair : (s.race d context cancel).Fair s.clock.elapsed)
    (free : context.isCancelled s.cancelled = false) :
    (s.opened tag context).InFlight (s.runOf context s.worker.job.history.nextId) where
  held := rfl
  busy := by
    have hlater : (s.opened tag context).clock.elapsed < (s.race d context cancel).due := by
      refine fair.later _ ?_
      rcases List.mem_cons.mp (s.race d context cancel).isLeast_due.1 with h | h
      · exact List.mem_cons.mpr (.inl h)
      · exact List.mem_cons_of_mem _ (List.mem_append_left _ h)
    have huncancelled : (s.runOf context s.worker.job.history.nextId).context.isCancelled
        (s.opened tag context).cancelled = false :=
      (s.isCancelled_bounds context s.cancelled).trans free
    unfold Run.endTime?
    rw [due_runOf works cancel, if_neg (Nat.not_le_of_gt hlater), huncancelled, Bool.and_false]
    rfl

include works in
/-- Its trigger is accepted. -/
theorem launch_of_works (free : s.worker.job.refusal? = none)
    (fair : (s.race d context cancel).Fair s.clock.elapsed)
    (uncancelled : context.isCancelled s.cancelled = false) (tag : Trigger) :
    s.launch tag context = .ok (s.opened tag context, s.worker.job.history.nextId) := by
  rw [launch_of_free free]
  have hnow := passTo_now (inFlight_opened works tag fair uncancelled)
  exact congrArg (fun t => Except.ok (t, s.worker.job.history.nextId)) hnow

end Opened

end Session

end CronSupervisor.Job
