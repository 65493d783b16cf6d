/-
  CronSupervisor.Proofs.Job.Requests — every session is a life.

  A request to a session takes many events: a caller that waits lets time pass, the executor returns
  on the way, and time passes on.  `Session.life` forgets what belongs to the session alone, and the
  lives before and after any list of requests are joined by events.  So what holds in every life
  holds in every session.

  Main statement:
    * `run_reaches` — the life of a session goes on by events under any requests.
    * `exists_life` — the same for a session from its start on.
-/
import CronSupervisor.Job.Session
import CronSupervisor.Proofs.Job.Life

namespace CronSupervisor

open Calendar

/-! ## §1. Bounds that do not lie in the past -/

/-- A derived deadline is not before the moment it is derived at, if the given one is not. -/
theorem Context.le_deadline_limit {c : Context} {now : Nat}
    (h : ∀ d, c.deadline = some d → now ≤ d) (timeout d : Nat)
    (hd : (c.limit now timeout).deadline = some d) : now ≤ d := by
  cases hc : c.deadline with
  | none =>
    rw [c.deadline_limit_none now timeout hc, Option.some.injEq] at hd
    omega
  | some e =>
    have he := h e hc
    rw [c.deadline_limit_some now timeout e hc, Option.some.injEq] at hd
    omega

theorem CallerBounds.le_deadline (b : CallerBounds) (tokens : List (String × Scope))
    (now d : Nat) (hd : (b.context tokens now).deadline = some d) : now ≤ d := by
  have hlimit : ∀ (base : Context) (timeout : Nat), base.deadline = none →
      (base.limit now timeout).deadline = some d → now ≤ d := by
    intro base timeout hbase hd
    refine Context.le_deadline_limit (fun e he => ?_) timeout d hd
    rw [hbase] at he
    cases he
  -- neither a token nor its absence sets a deadline
  unfold context at hd
  cases hs : b.token.bind fun id => tokens.lookup id <;> cases ht : b.timeout <;>
    simp only [hs, ht] at hd
  · cases hd
  · exact hlimit _ _ rfl hd
  · cases hd
  · exact hlimit _ _ rfl hd

theorem Worker.le_deadline_bounds (w : Worker) (clock : Clock) {context : Context}
    (h : ∀ d, context.deadline = some d → clock.elapsed ≤ d) (d : Nat)
    (hd : (w.bounds clock context).deadline = some d) : clock.elapsed ≤ d := by
  unfold Worker.bounds at hd
  split at hd
  next timeout _ => exact Context.le_deadline_limit h timeout d hd
  next => exact h d hd

/-- Work that starts now is not due before now. -/
theorem Behaviour.le_due_run (b : Behaviour) {context : Context} {now : Nat}
    (h : ∀ d, context.deadline = some d → now ≤ d) (execution : Int) :
    now ≤ (b.run context now execution).due := by
  unfold Run.due
  split
  next d _ hd =>
    have hn := h d hd
    have hw : now ≤ (b.run context now execution).workDone := Nat.le_add_right _ _
    omega
  next => exact Nat.le_add_right _ _

/-- An executor that is found to have returned did so no later than now, and not before its work
was due unless it noticed a cancellation now. -/
theorem Run.endTime?_eq_some {r : Run} {cancelled : List Scope} {now t : Nat}
    (h : r.endTime? cancelled now = some t) : t ≤ now ∧ (t = r.due ∨ t = now) := by
  unfold Run.endTime? at h
  split at h
  next hle =>
    cases h
    exact ⟨hle, .inl rfl⟩
  next =>
    split at h
    next =>
      cases h
      exact ⟨Nat.le_refl _, .inr rfl⟩
    next => cases h

theorem Run.lt_due_of_endTime?_eq_none {r : Run} {cancelled : List Scope} {now : Nat}
    (h : r.endTime? cancelled now = none) : now < r.due := by
  unfold Run.endTime? at h
  split at h
  next => cases h
  next hlt => omega

namespace Job

section Settle

variable {j : Job} {clock : Clock} {cancelled : List Scope} {run : Run} {t : Nat}

theorem settle_of_free (free : j.gate = none) : j.settle clock cancelled = j := by
  unfold settle
  rw [free]

theorem settle_of_running (held : j.gate = some run)
    (busy : run.endTime? cancelled clock.elapsed = none) : j.settle clock cancelled = j := by
  unfold settle
  rw [held]
  simp only [busy]

theorem settle_of_returned (held : j.gate = some run)
    (returned : run.endTime? cancelled clock.elapsed = some t) :
    j.settle clock cancelled
      = j.finish (clock.instantAt t) run.execution (run.outcomeAt cancelled t) := by
  unfold settle
  rw [held]
  simp only [returned]

end Settle

/-! ## §2. Joining lives -/

namespace Life

/-- Events lead from one life to the other. -/
def Reaches (l l' : Life) : Prop := ∃ events, (l.run events).1 = l'

theorem Reaches.refl (l : Life) : l.Reaches l := ⟨[], rfl⟩

theorem Reaches.trans {l m n : Life} (h : l.Reaches m) (k : m.Reaches n) : l.Reaches n := by
  obtain ⟨es, rfl⟩ := h
  obtain ⟨fs, rfl⟩ := k
  exact ⟨es ++ fs, run_append l es fs⟩

theorem reaches_step (l : Life) (event : Event) : l.Reaches (l.step event).1 := ⟨[event], rfl⟩

/-- The execution under way is not overdue. -/
def Timely (l : Life) : Prop := ∀ run, l.job.gate = some run → l.clock.elapsed ≤ run.due

/-- The life once the clock shows `ms` and the executor has returned if it had to. -/
def settledAt (l : Life) (ms : Nat) : Life :=
  { l with
    clock := l.clock.advanceTo ms
    worker := l.worker.settle (l.clock.advanceTo ms) l.cancelled }

/-- Time passes by an event, to any later reading of the clock. -/
theorem reaches_advanceTo (l : Life) (ms : Nat) :
    l.Reaches { l with clock := l.clock.advanceTo ms } := by
  have hmax : max l.clock.elapsed (l.clock.elapsed + (ms - l.clock.elapsed))
      = max l.clock.elapsed ms := by omega
  refine ⟨[.passed (ms - l.clock.elapsed)], ?_⟩
  show { l with clock := { l.clock with elapsed := max l.clock.elapsed _ } } = _
  rw [hmax]
  rfl

/-- Settling is up to three events: time passes, the executor returns, time passes on. -/
theorem reaches_settledAt {l : Life} (h : l.Timely) (ms : Nat) : l.Reaches (l.settledAt ms) := by
  cases hg : l.worker.job.gate with
  | none =>
    unfold settledAt Worker.settle
    rw [settle_of_free hg]
    exact l.reaches_advanceTo ms
  | some run =>
    cases ht : run.endTime? l.cancelled (l.clock.advanceTo ms).elapsed with
    | none =>
      unfold settledAt Worker.settle
      rw [settle_of_running hg ht]
      exact l.reaches_advanceTo ms
    | some t =>
      have hdue := h run hg
      obtain ⟨hle, hwhen⟩ := Run.endTime?_eq_some ht
      have hnow : (l.clock.advanceTo ms).elapsed = max l.clock.elapsed ms := rfl
      have hfrom : max l.clock.elapsed t = t := by omega
      have hto : max t ms = max l.clock.elapsed ms := by omega
      -- up to the moment of the return, the return itself, and on to the end
      refine (l.reaches_advanceTo t).trans ?_
      refine (reaches_step _ (.ended (.returned (run.outcomeAt l.cancelled t)))).trans ?_
      refine (reaches_advanceTo _ ms).trans ⟨[], ?_⟩
      unfold settledAt Worker.settle
      rw [settle_of_returned hg ht]
      simp only [run_nil, step, conclude, withJob, job, hg, Clock.advanceTo, Clock.now,
        Clock.instantAt, hfrom, hto]

theorem timely_settledAt (l : Life) (ms : Nat) : (l.settledAt ms).Timely := by
  intro run hrun
  change (l.worker.job.settle (l.clock.advanceTo ms) l.cancelled).gate = some run at hrun
  cases hg : l.worker.job.gate with
  | none =>
    rw [settle_of_free hg, hg] at hrun
    cases hrun
  | some r =>
    cases ht : r.endTime? l.cancelled (l.clock.advanceTo ms).elapsed with
    | none =>
      rw [settle_of_running hg ht, hg] at hrun
      cases hrun
      exact Nat.le_of_lt (Run.lt_due_of_endTime?_eq_none ht)
    | some t =>
      rw [settle_of_returned hg ht] at hrun
      cases hrun

/-- An accepted trigger leaves an execution that is not overdue. -/
theorem timely_launch {l : Life} (h : l.Timely) (tag : Trigger) {context : Context}
    (hc : ∀ d, context.deadline = some d → l.clock.elapsed ≤ d) :
    (l.launch tag context).1.Timely := by
  cases hr : l.worker.job.refusal? with
  | some e =>
    rw [launch_refused hr]
    exact h
  | none =>
    intro run hrun
    simp only [launch, Worker.accept, hr] at hrun ⊢
    cases hrun
    exact Behaviour.le_due_run _ (l.worker.le_deadline_bounds l.clock hc) _

end Life

/-! ## §3. Requests -/

namespace Session

/-- What a session shares with a life. -/
def life (s : Session) : Life :=
  { clock := s.clock, cancelled := s.cancelled, calls := s.calls, worker := s.worker }

/-- The life of one session goes on to that of the other. -/
def GoesOn (s s' : Session) : Prop := s.life.Timely → s.life.Reaches s'.life ∧ s'.life.Timely

theorem GoesOn.refl (s : Session) : s.GoesOn s := fun h => ⟨.refl _, h⟩

theorem GoesOn.trans {s t u : Session} (h : s.GoesOn t) (k : t.GoesOn u) : s.GoesOn u := by
  intro hs
  obtain ⟨hst, ht⟩ := h hs
  obtain ⟨htu, hu⟩ := k ht
  exact ⟨hst.trans htu, hu⟩

theorem goesOn_passTo (s : Session) (ms : Nat) : s.GoesOn (s.passTo ms) := fun h =>
  ⟨s.life.reaches_settledAt h ms, s.life.timely_settledAt ms⟩

/-- What a request launches is launched by an event and settled at once. -/
theorem goesOn_launch {s s' : Session} {tag : Trigger} {context : Context} {id : Int}
    (hl : s.launch tag context = .ok (s', id)) (event : Event)
    (he : s.life.step event = s.life.launch tag context)
    (hc : ∀ d, context.deadline = some d → s.clock.elapsed ≤ d) : s.GoesOn s' := by
  intro h
  cases hr : s.worker.job.refusal? with
  | some e => simp [launch, Worker.launch, Worker.accept, hr] at hl
  | none =>
    have ht : (s.life.launch tag context).1.Timely := s.life.timely_launch h tag hc
    have hs : s'.life = (s.life.launch tag context).1.settledAt s.clock.elapsed := by
      have hmax : s.clock.advanceTo s.clock.elapsed = s.clock := by
        simp [Clock.advanceTo]
      simp only [launch, Worker.launch, Worker.accept, hr, Except.ok.injEq, Prod.mk.injEq] at hl
      rw [← hl.1]
      simp only [Life.launch, Worker.accept, life, hr, Life.settledAt, hmax]
    rw [hs]
    refine ⟨.trans ?_ (Life.reaches_settledAt ht _), Life.timely_settledAt _ _⟩
    rw [← he]
    exact s.life.reaches_step event

theorem goesOn_await (s : Session) (execution : Int) : s.GoesOn (s.await execution) := by
  unfold await
  split
  next due _ => exact s.goesOn_passTo due
  next => exact .refl s

theorem goesOn_abandon (s : Session) (execution : Int) : s.GoesOn (s.abandon execution) := by
  cases hg : s.worker.job.gate with
  | none =>
    rw [show s.abandon execution = s by simp only [abandon, Job.abandon, hg]]
    exact .refl s
  | some run =>
    by_cases hid : run.execution = execution
    · intro _
      refine ⟨⟨[.ended .dropped], ?_⟩, ?_⟩
      · simp only [Life.run_cons, Life.run_nil, Life.step, Life.conclude, Life.job, Life.withJob,
          life, abandon, hg, hid]
      · intro r hr
        simp only [life, abandon, Life.job, Job.abandon, hg, hid, if_pos] at hr
        cases hr
    · rw [show s.abandon execution = s by simp only [abandon, Job.abandon, hg, if_neg hid]]
      exact .refl s

/-- Pausing and resuming are events; neither touches the gate. -/
theorem goesOn_change (s : Session) (r : Except JobError Job) (event : Event)
    (he : s.life.step event = s.life.change r)
    (hg : ∀ job, r = .ok job → job.gate = s.worker.job.gate) : s.GoesOn (s.change r).1 := by
  cases r with
  | error e => exact .refl s
  | ok job =>
    intro h
    refine ⟨⟨[event], ?_⟩, ?_⟩
    · rw [Life.run_cons, he]
      rfl
    · intro run hrun
      exact h run ((hg job rfl).symm.trans hrun)

theorem goesOn_triggerSync (s : Session) (bounds : CallerBounds) (patience : Option Nat) :
    s.GoesOn (s.triggerSync bounds patience).1 := by
  unfold triggerSync
  split
  next => exact .refl s
  next t id hl =>
    have ht : s.GoesOn t := goesOn_launch hl (.triggerSync _) rfl (bounds.le_deadline _ _)
    split
    next patience due _ _ =>
      split
      next => exact ht.trans ((goesOn_passTo _ _).trans (goesOn_abandon _ _))
      next => exact ht.trans (goesOn_await _ _)
    next => exact ht.trans (goesOn_await _ _)

theorem goesOn_answer (s : Session) (r : Request) : s.GoesOn (s.answer r).1 := by
  have hback : ∀ d, Context.background.deadline = some d → s.clock.elapsed ≤ d := by
    intro d hd
    cases hd
  cases r with
  | run =>
    simp only [answer]
    split
    next t id hl => exact (goesOn_launch hl .run rfl hback).trans (goesOn_await _ _)
    next => exact .refl s
  | runInBackground =>
    simp only [answer]
    split
    next t id hl => exact goesOn_launch hl .run rfl hback
    next => exact .refl s
  | trigger bounds =>
    simp only [answer]
    split
    next t id hl => exact goesOn_launch hl (.trigger _) rfl (bounds.le_deadline _ _)
    next => exact .refl s
  | triggerSync bounds => exact s.goesOn_triggerSync bounds none
  | triggerSyncFor bounds patience => exact s.goesOn_triggerSync bounds (some patience)
  | triggerSyncInBackground id bounds =>
    simp only [answer]
    split
    next t id hl =>
      have ht : s.GoesOn t := goesOn_launch hl (.triggerSync _) rfl (bounds.le_deadline _ _)
      exact ht
    next => exact .refl s
  | abort id =>
    simp only [answer]
    split
    next execution _ =>
      split
      next => exact s.goesOn_abandon execution
      next => exact .refl s
    next => exact .refl s
  | join id =>
    simp only [answer]
    split
    next execution _ => exact s.goesOn_await execution
    next => exact .refl s
    next => exact .refl s
  | pause =>
    refine s.goesOn_change _ .pause rfl (fun job hj => ?_)
    unfold Job.pause at hj
    split at hj
    next => cases hj
    next =>
      cases hj
      rfl
    next =>
      cases hj
      rfl
  | resume =>
    refine s.goesOn_change _ .resume rfl (fun job hj => ?_)
    unfold Job.resume at hj
    split at hj
    next =>
      cases hj
      rfl
    next => cases hj
  | token id => exact .refl s
  | cancel id =>
    simp only [answer]
    split
    next scope _ =>
      refine GoesOn.trans ?_ (goesOn_passTo _ _)
      exact fun h => ⟨s.life.reaches_step (.cancelled scope), h⟩
    next => exact .refl s
  | advance ms => exact s.goesOn_passTo _
  | elapsed | calls | status | look | query q => exact .refl s

/-- **A session goes on by events, whatever is asked of it.** -/
theorem run_reaches (s : Session) (requests : List Request) :
    s.GoesOn (s.run (requests.map .request)).1 := by
  induction requests generalizing s with
  | nil => exact .refl s
  | cons r requests ih => exact (s.goesOn_answer r).trans (ih (s.answer r).1)

/-- A session that starts with a free gate is a life from that start on. -/
theorem exists_life (start : Instant) {job : Job} (free : job.gate = none)
    (script : List Behaviour) (requests : List Request) :
    ∃ events, ((init start job script).run (requests.map .request)).1.life
      = ((Life.init start job script).run events).1 := by
  have ht : (init start job script).life.Timely := by
    intro run hrun
    have hnone : (init start job script).life.job.gate = none := free
    rw [hnone] at hrun
    cases hrun
  obtain ⟨events, h⟩ := ((init start job script).run_reaches requests ht).1
  exact ⟨events, h.symm⟩

end Session

end Job

end CronSupervisor
