/-
  CronSupervisor.Proofs.Job.Flight — an execution under way.

  While an execution is under way its job does nothing else: triggers are refused, it cannot be
  paused, and giving up other callers or waiting for them changes nothing.  Time passes and tokens
  are cancelled, and the executor returns as soon as it has a reason to.  So whatever is asked of a
  session then, its job is the same as before, or it is the same with the execution finished.

  Main statements:
    * `Life.later_run` — what a life never changes, and what only grows.
    * `settles_answer` — one request while an execution is under way.
    * `run_of_inFlight` — a list of them, up to the one that sees the execution return.
-/
import CronSupervisor.Proofs.Clock
import CronSupervisor.Proofs.Job.Callers

namespace CronSupervisor.Job

open Calendar

/-! ## §1. What lasts -/

theorem nextId_finish (h : History) (now : Instant) (id exitCode : Int) (success : Bool)
    (error : String) : (h.finish now id exitCode success error).nextId = h.nextId := by
  unfold History.finish
  split <;> rfl

theorem nextId_settle (j : Job) (c : Clock) (cancelled : List Scope) :
    (j.settle c cancelled).history.nextId = j.history.nextId := by
  unfold settle
  split
  next =>
    split
    next => exact nextId_finish _ _ _ _ _ _
    next => rfl
  next => rfl

namespace Life

/-- The second life is a later state of the first one. -/
structure Later (l l' : Life) : Prop where
  clock : l.clock.Goes l'.clock
  nextId : l.job.history.nextId ≤ l'.job.history.nextId
  timeout : l'.job.timeout = l.job.timeout
  script : l'.worker.script = l.worker.script
  caller : l'.worker.caller = l.worker.caller

theorem Later.refl (l : Life) : l.Later l := ⟨.refl _, Int.le_refl _, rfl, rfl, rfl⟩

theorem Later.trans {l m n : Life} (h : l.Later m) (k : m.Later n) : l.Later n :=
  ⟨h.clock.trans k.clock, Int.le_trans h.nextId k.nextId, k.timeout.trans h.timeout,
    k.script.trans h.script, k.caller.trans h.caller⟩

theorem goes_step (l : Life) (event : Event) : l.clock.Goes (l.step event).1.clock := by
  cases event with
  | pause =>
    simp only [step, change]
    split <;> exact .refl _
  | resume =>
    simp only [step, change]
    split <;> exact .refl _
  | run | trigger | triggerSync =>
    simp only [step, launch]
    split <;> exact .refl _
  | ended ending =>
    simp only [step, conclude]
    split <;> exact .refl _
  | cancelled scope => exact .refl _
  | passed ms => exact Clock.goes_advanceTo _ _

theorem later_step (l : Life) (event : Event) : l.Later (l.step event).1 := by
  have hclock := l.goes_step event
  have m := l.step_move event
  generalize (l.step event).1 = l' at m hclock ⊢
  generalize (l.step event).2 = effect at m
  cases m with
  | kept worker =>
    have hjob : l'.job = l.job := congrArg Worker.job worker
    exact ⟨hclock, by rw [hjob], by rw [hjob], by rw [worker], by rw [worker]⟩
  | paused | resumed => exact ⟨hclock, Int.le_refl _, rfl, rfl, rfl⟩
  | accepted => exact ⟨hclock, Int.le_add_one (Int.le_refl _), rfl, rfl, rfl⟩
  | closed held ending =>
    refine ⟨hclock, ?_, rfl, rfl, rfl⟩
    show _ ≤ (l.job.history.finish _ _ _ _ _).nextId
    rw [nextId_finish]

/-- **A life gets later only.** -/
theorem later_run (l : Life) (events : List Event) : l.Later (l.run events).1 := by
  induction events generalizing l with
  | nil => exact .refl l
  | cons event events ih => exact (l.later_step event).trans (ih (l.step event).1)

end Life

namespace Session

/-- The session after some requests. -/
def after (s : Session) (requests : List Request) : Session := (s.run (requests.map .request)).1

variable {size : Nat} {s t : Session} {run : Run}

@[simp] theorem after_nil (s : Session) : s.after [] = s := rfl

theorem after_cons (s : Session) (q : Request) (qs : List Request) :
    s.after (q :: qs) = (s.answer q).1.after qs := rfl

theorem after_append (s : Session) (qs rs : List Request) :
    s.after (qs ++ rs) = (s.after qs).after rs := by
  induction qs generalizing s with
  | nil => rfl
  | cons q qs ih => exact ih (s.answer q).1

theorem goesOn_after (s : Session) (qs : List Request) : s.GoesOn (s.after qs) := s.run_reaches qs

theorem GoesOn.later (h : s.GoesOn t) (timely : s.life.Timely) : s.life.Later t.life := by
  obtain ⟨⟨events, hrun⟩, -⟩ := h timely
  exact hrun ▸ s.life.later_run events

end Session

/-! ## §2. Accepted triggers -/

namespace Session

/-- The execution that a trigger would open. -/
def runOf (s : Session) (context : Context) : Int → Run :=
  (behaviourAt s.worker.script s.life.callCount).run (s.worker.bounds s.clock context)
    s.clock.elapsed

/-- The session with an execution opened. -/
def opened (s : Session) (tag : Trigger) (context : Context) : Session :=
  { s with
    worker := { s.worker with job := s.worker.job.begin s.clock.now tag (s.runOf context) }
    calls := s.calls.record s.worker.caller s.clock.elapsed }

theorem advanceTo_of_le {c : Clock} {ms : Nat} (h : ms ≤ c.elapsed) : c.advanceTo ms = c := by
  unfold Clock.advanceTo
  rw [Nat.max_eq_left h]

/-- An idle job opens an execution, which may return at once. -/
theorem launch_of_free {s : Session} (free : s.worker.job.refusal? = none) (tag : Trigger)
    (context : Context) : s.launch tag context =
      .ok ((s.opened tag context).passTo s.clock.elapsed, s.worker.job.history.nextId) := by
  have hclock : (s.opened tag context).clock.advanceTo s.clock.elapsed = s.clock :=
    advanceTo_of_le (Nat.le_refl _)
  unfold launch Worker.launch Worker.accept passTo
  rw [free, hclock]
  rfl

/-! ## §3. Callers -/

end Session

/-- The caller that a request gives a name or gives up. -/
def Request.caller? : Request → Option String
  | .triggerSyncInBackground id _ => some id
  | .abort id => some id
  | _ => none

namespace Session

variable {size : Nat} {s t : Session} {run : Run}

theorem launch_eq_ok {tag : Trigger} {context : Context} {id : Int}
    (h : s.launch tag context = .ok (t, id)) :
    s.worker.job.refusal? = none ∧ t = (s.opened tag context).passTo s.clock.elapsed ∧
      id = s.worker.job.history.nextId := by
  cases hr : s.worker.job.refusal? with
  | none =>
    rw [launch_of_free hr] at h
    cases h
    exact ⟨rfl, rfl, rfl⟩
  | some error =>
    unfold launch Worker.launch Worker.accept at h
    rw [hr] at h
    cases h

theorem callers_await (s : Session) (execution : Int) :
    (s.await execution).callers = s.callers := by
  unfold await
  split <;> rfl

theorem callers_triggerSync (s : Session) (bounds : CallerBounds) (patience : Option Nat) :
    (s.triggerSync bounds patience).1.callers = s.callers := by
  unfold triggerSync
  split
  next => rfl
  next t id hl =>
    obtain ⟨-, rfl, -⟩ := launch_eq_ok hl
    split
    next =>
      split
      next => rfl
      next => exact callers_await _ _
    next => exact callers_await _ _

/-- What a request adds to the callers: at most one, under its name, and an execution only when the
job is idle. -/
theorem callers_answer (s : Session) (q : Request) :
    (s.answer q).1.callers = s.callers ∨ ∃ x c, q.caller? = some x ∧
      (s.answer q).1.callers = (x, c) :: s.callers ∧
      ∀ e, c = .admitted e → s.worker.job.state = .idle ∧ e = s.worker.job.history.nextId ∧
        e < (s.answer q).1.worker.job.history.nextId := by
  cases q with
  | run =>
    simp only [answer]
    split
    next t id hl =>
      obtain ⟨-, rfl, -⟩ := launch_eq_ok hl
      exact .inl (callers_await _ _)
    next => exact .inl rfl
  | runInBackground | trigger =>
    simp only [answer]
    split
    next t id hl =>
      obtain ⟨-, rfl, -⟩ := launch_eq_ok hl
      exact .inl rfl
    next => exact .inl rfl
  | triggerSync bounds => exact .inl (s.callers_triggerSync bounds none)
  | triggerSyncFor bounds patience => exact .inl (s.callers_triggerSync bounds (some patience))
  | triggerSyncInBackground id bounds =>
    simp only [answer]
    split
    next t execution hl =>
      obtain ⟨hfree, rfl, rfl⟩ := launch_eq_ok hl
      refine .inr ⟨id, _, rfl, rfl, ?_⟩
      rintro e ⟨⟩
      refine ⟨(refusal?_eq_none_iff.mp hfree).2, rfl, ?_⟩
      show _ < (Job.settle _ _ _).history.nextId
      rw [nextId_settle]
      exact Int.lt_succ _
    next error _ => exact .inr ⟨id, _, rfl, rfl, fun e h => by cases h⟩
  | abort id =>
    simp only [answer]
    split
    next execution _ =>
      split
      next => exact .inr ⟨id, _, rfl, rfl, fun e h => by cases h⟩
      next => exact .inl rfl
    next => exact .inl rfl
  | join id =>
    simp only [answer]
    split
    next execution _ => exact .inl (callers_await _ _)
    next => exact .inl rfl
    next => exact .inl rfl
  | pause =>
    simp only [answer, change]
    split <;> exact .inl rfl
  | resume =>
    simp only [answer, change]
    split <;> exact .inl rfl
  | cancel id =>
    simp only [answer]
    split <;> exact .inl rfl
  | token | advance | elapsed | calls | status | look | query => exact .inl rfl

/-- No caller waits for an execution that is still to be opened. -/
def Known (s : Session) : Prop :=
  ∀ x e, s.callers.lookup x = some (.admitted e) → e < s.worker.job.history.nextId

theorem Known.after (known : s.Known) (hs : s.Sound size) (qs : List Request) :
    (s.after qs).Known := by
  induction qs generalizing s with
  | nil => exact known
  | cons q qs ih =>
    have hgoes := s.goesOn_answer q
    have hle : s.worker.job.history.nextId ≤ (s.answer q).1.worker.job.history.nextId :=
      (hgoes.later hs.timely).nextId
    have hnext : (s.answer q).1.Known := by
      intro x e hx
      rcases s.callers_answer q with hsame | ⟨y, c, -, hadded, hopened⟩
      · rw [hsame] at hx
        exact Int.lt_of_lt_of_le (known x e hx) hle
      · rw [hadded, List.lookup_cons] at hx
        split at hx
        · exact (hopened e (Option.some.inj hx)).2.2
        · exact Int.lt_of_lt_of_le (known x e hx) hle
    exact ih hnext (hgoes.sound hs)

/-- Nobody starts to wait for an execution that was opened before. -/
theorem lookup_admitted_after (hs : s.Sound size) {x : String} {e : Int}
    (opened : e < s.worker.job.history.nextId) {qs : List Request}
    (h : (s.after qs).callers.lookup x = some (.admitted e)) :
    s.callers.lookup x = some (.admitted e) := by
  induction qs generalizing s with
  | nil => exact h
  | cons q qs ih =>
    have hgoes := s.goesOn_answer q
    have hnext := ih (hgoes.sound hs)
      (Int.lt_of_lt_of_le opened (hgoes.later hs.timely).nextId) h
    rcases s.callers_answer q with hsame | ⟨y, c, -, hadded, hopened⟩
    · rwa [hsame] at hnext
    · rw [hadded, List.lookup_cons] at hnext
      split at hnext
      · exact absurd (hopened e (Option.some.inj hnext)).2.1 (Int.ne_of_lt opened)
      · exact hnext

/-- A name that is not used again stands for the same caller. -/
theorem lookup_callers_after {x : String} {qs : List Request}
    (unused : ∀ q ∈ qs, q.caller? ≠ some x) :
    (s.after qs).callers.lookup x = s.callers.lookup x := by
  induction qs generalizing s with
  | nil => rfl
  | cons q qs ih =>
    obtain ⟨hq, hqs⟩ := List.forall_mem_cons.mp unused
    rw [after_cons, ih hqs]
    rcases s.callers_answer q with hsame | ⟨y, c, hy, hadded, -⟩
    · rw [hsame]
    · have hne : (x == y) = false := by
        rw [beq_eq_false_iff_ne]
        rintro rfl
        exact hq hy
      rw [hadded, List.lookup_cons, hne]

/-! ## §4. One request -/

/-- The execution is under way and has no reason to return yet. -/
structure InFlight (s : Session) (run : Run) : Prop where
  held : s.worker.job.gate = some run
  busy : run.endTime? s.cancelled s.clock.elapsed = none

/-- Nothing happened to the job between two sessions but that its executor returned if it had to.
Time does not pass when something is cancelled. -/
structure Settles (s t : Session) : Prop where
  job : t.worker.job = s.worker.job.settle t.clock t.cancelled
  clock : t.cancelled = s.cancelled ∨ t.clock = s.clock

/-- No caller that waits for the execution is given up by the requests. -/
def Spared (s : Session) (run : Run) (qs : List Request) : Prop :=
  ∀ x, .abort x ∈ qs → s.callers.lookup x ≠ some (.admitted run.execution)

theorem Spared.after (hs : s.Sound size) (opened : run.execution < s.worker.job.history.nextId)
    {qs rs : List Request} (spared : s.Spared run (qs ++ rs)) : (s.after qs).Spared run rs :=
  fun x hx hc => spared x (List.mem_append_right _ hx) (lookup_admitted_after hs opened hc)

namespace InFlight

theorem lt_due (fl : s.InFlight run) : s.clock.elapsed < run.due :=
  Run.lt_due_of_endTime?_eq_none fl.busy

theorem executing (hs : s.Sound size) (fl : s.InFlight run) : s.worker.job.state = .executing := by
  rw [hs.inStep.executing_iff, hs.inStep.current_eq_some fl.held]
  rfl

/-- Triggers are refused. -/
theorem launch_eq_error (hs : s.Sound size) (fl : s.InFlight run) (tag : Trigger)
    (context : Context) : ∃ error, s.launch tag context = .error error := by
  refine launch_of_not_idle hs.inStep ?_ tag context
  rw [fl.executing hs]
  decide

theorem dueOf?_eq (fl : s.InFlight run) (execution : Int) :
    s.worker.job.dueOf? execution = if run.execution = execution then some run.due else none := by
  unfold dueOf?
  rw [fl.held]

theorem settles_self (fl : s.InFlight run) : s.Settles s :=
  ⟨(settle_of_running fl.held fl.busy).symm, .inl rfl⟩

theorem settles_await (fl : s.InFlight run) (execution : Int) : s.Settles (s.await execution) := by
  unfold await
  split
  next => exact ⟨rfl, .inl rfl⟩
  next => exact fl.settles_self

/-- **One request while an execution is under way** lets its executor return, if it has to. -/
theorem settles_answer (hs : s.Sound size) (fl : s.InFlight run) {q : Request}
    (spared : s.Spared run [q]) : s.Settles (s.answer q).1 := by
  have hself := fl.settles_self
  have hrefused := fl.launch_eq_error hs
  have hsync : ∀ bounds patience, (s.triggerSync bounds patience).1 = s := by
    intro bounds patience
    obtain ⟨error, h⟩ := hrefused .api (bounds.context s.tokens s.clock.elapsed)
    unfold triggerSync
    rw [h]
  cases q with
  | run | runInBackground =>
    obtain ⟨error, h⟩ := hrefused .schedule .background
    simp only [answer, h]
    exact hself
  | trigger bounds =>
    obtain ⟨error, h⟩ := hrefused .manual (bounds.context s.tokens s.clock.elapsed)
    simp only [answer, h]
    exact hself
  | triggerSync bounds =>
    simp only [answer, hsync]
    exact hself
  | triggerSyncFor bounds patience =>
    simp only [answer, hsync]
    exact hself
  | triggerSyncInBackground id bounds =>
    obtain ⟨error, h⟩ := hrefused .api (bounds.context s.tokens s.clock.elapsed)
    simp only [answer, h]
    exact ⟨hself.job, .inl rfl⟩
  | abort id =>
    simp only [answer]
    split
    next execution hid =>
      -- it is somebody else's execution, and that is over
      have hne : run.execution ≠ execution := by
        rintro rfl
        exact spared id List.mem_cons_self hid
      rw [fl.dueOf?_eq, if_neg hne]
      exact hself
    next => exact hself
  | join id =>
    simp only [answer]
    split
    next execution _ => exact fl.settles_await execution
    next => exact hself
    next => exact hself
  | pause =>
    simp only [answer, Job.pause, fl.executing hs, change]
    exact hself
  | resume =>
    simp only [answer, Job.resume, fl.executing hs, change]
    exact hself
  | cancel id =>
    simp only [answer]
    split
    next => exact ⟨rfl, .inr (advanceTo_of_le (Nat.le_refl _))⟩
    next => exact hself
  | advance ms => exact ⟨rfl, .inl rfl⟩
  | token => exact ⟨hself.job, .inl rfl⟩
  | elapsed | calls | status | look | query => exact hself

theorem isCancelled_eq (fl : s.InFlight run) (heeds : run.heedsContext = true) :
    run.context.isCancelled s.cancelled = false := by
  have hbusy := fl.busy
  unfold Run.endTime? at hbusy
  rw [if_neg (Nat.not_le_of_gt fl.lt_due), heeds, Bool.true_and] at hbusy
  split at hbusy
  next => cases hbusy
  next h => exact Bool.eq_false_iff.mpr h

end InFlight

/-- The executor has returned, at the moment `e`: when it was due, or when it noticed that its
context was cancelled. -/
structure Returned (j : Job) (run : Run) (e : Nat) (t : Session) : Prop where
  job : t.worker.job = j.finish (t.clock.instantAt e) run.execution (run.outcomeAt t.cancelled e)
  cause : (e = run.due ∧ e ≤ t.clock.elapsed ∧ run.context.isCancelled t.cancelled = false) ∨
    (e = t.clock.elapsed ∧ e < run.due ∧ run.context.isCancelled t.cancelled = true)

theorem Returned.le_elapsed {j : Job} {e : Nat} (h : Returned j run e t) :
    e ≤ t.clock.elapsed := by
  rcases h.cause with ⟨-, hle, -⟩ | ⟨heq, -⟩
  · exact hle
  · exact heq.le

namespace InFlight

/-- The execution is still under way, or its executor has returned. -/
theorem settled (fl : s.InFlight run) (heeds : run.heedsContext = true) (h : s.Settles t) :
    (t.InFlight run ∧ t.worker.job = s.worker.job) ∨ ∃ e, Returned s.worker.job run e t := by
  cases he : run.endTime? t.cancelled t.clock.elapsed with
  | none =>
    have hjob : t.worker.job = s.worker.job := h.job.trans (settle_of_running fl.held he)
    exact .inl ⟨⟨hjob ▸ fl.held, he⟩, hjob⟩
  | some e =>
    refine .inr ⟨e, h.job.trans (settle_of_returned fl.held he), ?_⟩
    unfold Run.endTime? at he
    split at he
    next hdue =>
      cases he
      refine .inl ⟨rfl, hdue, ?_⟩
      -- time has passed, so nothing was cancelled
      rcases h.clock with hsame | hclock
      · rw [hsame]
        exact fl.isCancelled_eq heeds
      · rw [hclock] at hdue
        exact absurd hdue (Nat.not_le_of_gt fl.lt_due)
    next hdue =>
      split at he
      next hcancelled =>
        cases he
        rw [heeds, Bool.true_and] at hcancelled
        exact .inr ⟨rfl, Nat.lt_of_not_le hdue, hcancelled⟩
      next => cases he

theorem execution_lt (hs : s.Sound size) (fl : s.InFlight run) :
    run.execution < s.worker.job.history.nextId := by
  obtain ⟨log, hlog⟩ := hs.account
  refine hlog.lt_nextId ?_
  rw [hlog.settled, show s.life.job.current = _ from hs.inStep.current_eq_some fl.held]
  exact List.mem_append_right _ (List.mem_singleton_self _)

end InFlight

/-! ## §5. Lists of requests -/

/-- The first moment at which a context is seen to be cancelled. -/
def cancelTime? (c : Context) (s : Session) : List Request → Option Nat
  | [] => if c.isCancelled s.cancelled then some s.clock.elapsed else none
  | q :: qs =>
    if c.isCancelled s.cancelled then some s.clock.elapsed else cancelTime? c (s.answer q).1 qs

theorem cancelTime?_of_cancelled {c : Context} (h : c.isCancelled s.cancelled = true)
    (qs : List Request) : cancelTime? c s qs = some s.clock.elapsed := by
  cases qs <;> exact if_pos h

theorem cancelTime?_cons {c : Context} (h : c.isCancelled s.cancelled = false) (q : Request)
    (qs : List Request) : cancelTime? c s (q :: qs) = cancelTime? c (s.answer q).1 qs :=
  if_neg (Bool.eq_false_iff.mp h)

theorem le_cancelTime? {c : Context} (hs : s.Sound size) {qs : List Request} {m : Nat}
    (h : cancelTime? c s qs = some m) : s.clock.elapsed ≤ m := by
  induction qs generalizing s with
  | nil =>
    unfold cancelTime? at h
    split at h
    next =>
      cases h
      exact Nat.le_refl _
    next => cases h
  | cons q qs ih =>
    unfold cancelTime? at h
    split at h
    next =>
      cases h
      exact Nat.le_refl _
    next =>
      have hgoes := s.goesOn_answer q
      exact Nat.le_trans (hgoes.later hs.timely).clock.2 (ih (hgoes.sound hs) h)

/-- **An execution under way goes on as it is, or its executor returns** at the first moment at
which it has a reason to. -/
theorem run_of_inFlight (hs : s.Sound size) (fl : s.InFlight run)
    (heeds : run.heedsContext = true) {qs : List Request} (spared : s.Spared run qs) :
    ((s.after qs).InFlight run ∧ (s.after qs).worker.job = s.worker.job ∧
      cancelTime? run.context s qs = none) ∨
    ∃ first rest e, qs = first ++ rest ∧ Returned s.worker.job run e (s.after first) ∧
      cancelTime? run.context s qs = cancelTime? run.context (s.after first) rest := by
  induction qs generalizing s with
  | nil =>
    refine .inl ⟨fl, rfl, if_neg ?_⟩
    rw [fl.isCancelled_eq heeds]
    exact Bool.false_ne_true
  | cons q qs ih =>
    have hgoes := s.goesOn_answer q
    have hone : s.Spared run [q] := fun x hx =>
      spared x (List.mem_cons.mpr (.inl (List.mem_singleton.mp hx)))
    rw [cancelTime?_cons (fl.isCancelled_eq heeds)]
    rcases fl.settled heeds (fl.settles_answer hs hone) with ⟨fl', hjob⟩ | ⟨e, hret⟩
    · have hspared : (s.answer q).1.Spared run qs :=
        Spared.after hs (fl.execution_lt hs) (show s.Spared run ([q] ++ qs) from spared)
      rcases ih (hgoes.sound hs) fl' hspared with
        ⟨hstill, hsame, hcancel⟩ | ⟨first, rest, e, rfl, hret, hcancel⟩
      · exact .inl ⟨hstill, hsame.trans hjob, hcancel⟩
      · exact .inr ⟨q :: first, rest, e, rfl, hjob ▸ hret, hcancel⟩
    · exact .inr ⟨[q], qs, e, rfl, hret, rfl⟩

end Session

end CronSupervisor.Job
