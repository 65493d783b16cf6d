/-
  CronSupervisor.Proofs.Job.Callers — what callers hear is what the history records.

  A caller that waits gets the reply of its execution, and an entry of the history is closed with
  what its executor returned.  Both come from the same ending, so they agree whenever the entry is
  still kept; `Sound` carries what is needed for that from request to request.

  Main statements:
    * `replyOf_records` — a caller hears what the entry of its execution records.
    * `triggerSync_of_idle` — so does a caller that triggers an idle job and waits.
    * `executions_accounted` — every execution of a new job is called, closed and recorded once.
-/
import CronSupervisor.Proofs.Job.Account

namespace CronSupervisor.Job

open Calendar

/-! ## §1. What callers hear -/

/-- An entry records what a caller hears. -/
def Reply.Records : Reply → Entry → Prop
  | .exitCode code, e => e.isRunning = false ∧ recordOf e = (code, decide (code = 0), "")
  | .failed error, e => e.isRunning = false ∧ recordOf e = (error.exitCode, false, error.message)
  | .abandoned, e => e.isRunning = false ∧ recordOf e = (-1, false, "execution cancelled")
  | _, _ => False

theorem records_ofOutcome {outcome : Outcome} {e : Entry} (closed : e.isRunning = false)
    (h : recordOf e = (Ending.returned outcome).record) : (Reply.ofOutcome outcome).Records e := by
  cases outcome <;> exact ⟨closed, h⟩

namespace Session

/-- What sessions with a new job are known to be. -/
structure Sound (size : Nat) (s : Session) : Prop where
  inStep : InStep s.worker.job
  timely : s.life.Timely
  account : ∃ log, Account size s.life log

theorem GoesOn.sound {size : Nat} {s s' : Session} (h : s.GoesOn s') (hs : s.Sound size) :
    s'.Sound size := by
  obtain ⟨⟨events, hrun⟩, htimely⟩ := h hs.timely
  obtain ⟨log, hlog⟩ := hs.account
  have hj : InStep s.life.job := hs.inStep
  have hj' := Life.run_inStep hj events
  have hlog' := Life.run_account hj hlog events
  rw [hrun] at hj' hlog'
  exact ⟨hj', htimely, _, hlog'⟩

/-- **A caller hears what the entry of its execution records.** -/
theorem replyOf_records {size : Nat} {s : Session} (hs : s.Sound size) {execution : Int}
    (ended : s.worker.job.current ≠ some execution) :
    ∀ e ∈ s.worker.job.history.entries, e.id = execution → (s.replyOf execution).Records e := by
  intro e he hid
  obtain ⟨log, hlog⟩ := hs.account
  unfold replyOf
  cases hr : s.worker.job.reply? execution with
  | some outcome =>
    have hc := (hlog.replied execution outcome).mp hr
    obtain ⟨hclosed, hrecord⟩ := hlog.recorded _ _ hc e he hid
    exact records_ofOutcome hclosed hrecord
  | none =>
    -- nobody replied and it is not running, so it was dropped
    have hopen : execution ∈ (openings log).map Prod.fst := by
      rw [← hid]
      exact List.mem_map.mpr ⟨_, hlog.mem_openings_of_entry he, rfl⟩
    rw [hlog.settled, List.mem_append, Option.mem_toList] at hopen
    obtain ⟨⟨id, ending⟩, hc, rfl⟩ := List.mem_map.mp (hopen.resolve_right ended)
    cases ending with
    | dropped => exact hlog.recorded _ _ hc e he hid
    | returned outcome =>
      have hsome := (hlog.replied _ outcome).mpr hc
      change s.worker.job.reply? _ = some _ at hsome
      rw [hr] at hsome
      cases hsome

/-! ### Waiting for an end -/

@[simp] theorem outline_settle (j : Job) (clock : Clock) (cancelled : List Scope) :
    (j.settle clock cancelled).history.outline = j.history.outline := by
  unfold settle
  split
  next =>
    split
    next => exact History.outline_finish _ _ _ _ _ _
    next => rfl
  next => rfl

theorem outline_await (s : Session) (execution : Int) :
    (s.await execution).worker.job.history.outline = s.worker.job.history.outline := by
  unfold await
  split
  next => exact outline_settle _ _ _
  next => rfl

theorem held_of_dueOf? {j : Job} {execution : Int} {due : Nat}
    (h : j.dueOf? execution = some due) :
    ∃ run, j.gate = some run ∧ run.execution = execution ∧ run.due = due := by
  unfold dueOf? at h
  cases hg : j.gate with
  | none =>
    rw [hg] at h
    cases h
  | some run =>
    rw [hg] at h
    simp only [Option.ite_none_right_eq_some, Option.some.injEq] at h
    exact ⟨run, rfl, h⟩

/-- After a wait the awaited execution does not hold the gate. -/
theorem current_await {size : Nat} {s : Session} (hs : s.Sound size) (execution : Int) :
    (s.await execution).worker.job.current ≠ some execution := by
  have hs' := (s.goesOn_await execution).sound hs
  intro hc
  rw [← hs'.inStep.gate_eq] at hc
  obtain ⟨run, hrun, hid⟩ := Option.map_eq_some_iff.mp hc
  unfold await at hrun
  split at hrun
  next due hdue =>
    -- the executor returned by the end of the wait, and freed the gate
    change (s.worker.job.settle (s.clock.advanceTo due) s.cancelled).gate = some run at hrun
    obtain ⟨r, hg, -, rfl⟩ := held_of_dueOf? hdue
    have hover : r.endTime? s.cancelled (s.clock.advanceTo r.due).elapsed = some r.due := by
      have hle : r.due ≤ max s.clock.elapsed r.due := by omega
      exact if_pos hle
    rw [settle_of_returned hg hover] at hrun
    cases hrun
  next hnone =>
    unfold dueOf? at hnone
    rw [hrun] at hnone
    simp only [if_pos hid] at hnone
    cases hnone

/-! ## §2. Triggering and waiting -/

theorem settled_settle (j : Job) (clock : Clock) (cancelled : List Scope) {run : Run}
    (held : (j.settle clock cancelled).gate = some run) :
    j.settle clock cancelled = j ∧ run.endTime? cancelled clock.elapsed = none := by
  cases hg : j.gate with
  | none =>
    rw [settle_of_free hg, hg] at held
    cases held
  | some r =>
    cases ht : r.endTime? cancelled clock.elapsed with
    | none =>
      rw [settle_of_running hg ht, hg] at held
      cases held
      exact ⟨settle_of_running hg ht, ht⟩
    | some t =>
      rw [settle_of_returned hg ht] at held
      cases held

/-- An idle job accepts; what it opens is its newest entry, and its execution runs on only if it
does not have to return at once. -/
theorem launch_of_idle {s : Session} (hj : InStep s.worker.job)
    (idle : s.worker.job.state = .idle) (tag : Trigger) (context : Context) :
    ∃ t, s.launch tag context = .ok (t, s.worker.job.history.nextId) ∧
      t.worker.job.history.outline.head? = some (s.worker.job.history.nextId, tag) ∧
      ∀ run, t.worker.job.gate = some run →
        run.endTime? t.cancelled t.clock.elapsed = none ∧
        t.worker.job.replies = s.worker.job.replies := by
  have free := hj.refusal?_eq_none.mpr idle
  unfold launch Worker.launch Worker.accept
  rw [free]
  refine ⟨_, rfl, ?_, fun run held => ?_⟩
  · simp only [Worker.settle, outline_settle, Job.begin, History.outline_start, List.head?_cons]
  · obtain ⟨hsame, hbusy⟩ := settled_settle _ _ _ held
    exact ⟨hbusy, (congrArg Job.replies hsame).trans rfl⟩

/-- Any other job refuses, and nothing changes. -/
theorem launch_of_not_idle {s : Session} (hj : InStep s.worker.job)
    (busy : s.worker.job.state ≠ .idle) (tag : Trigger) (context : Context) :
    ∃ error, s.launch tag context = .error error := by
  cases hr : s.worker.job.refusal? with
  | none => exact absurd (hj.refusal?_eq_none.mp hr) busy
  | some error =>
    refine ⟨error, ?_⟩
    unfold launch Worker.launch Worker.accept
    rw [hr]

/-- Giving up before the work is due closes the execution without a reply. -/
theorem giveUp {t : Session} {run : Run} {ms : Nat} (held : t.worker.job.gate = some run)
    (early : t.clock.elapsed + ms < run.due)
    (busy : run.endTime? t.cancelled t.clock.elapsed = none) :
    let u := (t.passTo (t.clock.elapsed + ms)).abandon run.execution
    u.worker.job.current ≠ some run.execution ∧ u.worker.job.replies = t.worker.job.replies ∧
      u.worker.job.history.outline = t.worker.job.history.outline := by
  -- neither the end of the work nor a cancellation falls into the wait
  have hstill : run.endTime? t.cancelled (t.clock.advanceTo (t.clock.elapsed + ms)).elapsed
      = none := by
    have hlt : ¬ run.due ≤ t.clock.elapsed := by omega
    have hlt' : ¬ run.due ≤ (t.clock.advanceTo (t.clock.elapsed + ms)).elapsed := by
      show ¬ run.due ≤ max t.clock.elapsed (t.clock.elapsed + ms)
      omega
    unfold Run.endTime? at busy ⊢
    rw [if_neg hlt] at busy
    rw [if_neg hlt']
    split at busy
    next => cases busy
    next hc => rw [if_neg hc]
  have hpass : (t.passTo (t.clock.elapsed + ms)).worker.job = t.worker.job :=
    settle_of_running held hstill
  have hout : ((t.passTo (t.clock.elapsed + ms)).abandon run.execution).worker.job
      = t.worker.job.concluded (t.passTo (t.clock.elapsed + ms)).clock.now run.execution
          .dropped := by
    show ((t.passTo (t.clock.elapsed + ms)).worker.job).abandon _ _ = _
    rw [hpass]
    exact abandon_eq_concluded held _
  intro u
  refine ⟨?_, ?_, ?_⟩ <;> rw [show u.worker.job = _ from hout]
  · exact nofun
  · rfl
  · exact History.outline_finish _ _ _ _ _ _

/-- A caller that triggers an idle job and waits hears what the newest entry records. -/
theorem triggerSync_of_idle {size : Nat} {s : Session} (hs : s.Sound size)
    (idle : s.worker.job.state = .idle) (bounds : CallerBounds) (patience : Option Nat) :
    ∃ e, (s.triggerSync bounds patience).1.worker.job.history.last? = some e ∧
      e.id = s.worker.job.history.nextId ∧ e.trigger = .api ∧
      (s.triggerSync bounds patience).2.Records e := by
  have hs' := (s.goesOn_triggerSync bounds patience).sound hs
  obtain ⟨t, hl, hhead, hrun⟩ :=
    launch_of_idle hs.inStep idle .api (bounds.context s.tokens s.clock.elapsed)
  have ht : t.Sound size :=
    (goesOn_launch hl (.triggerSync _) rfl (bounds.le_deadline _ _)).sound hs
  have hfresh : s.worker.job.reply? s.worker.job.history.nextId = none := by
    obtain ⟨log, hlog⟩ := hs.account
    refine Option.eq_none_iff_forall_ne_some.mpr (fun outcome hr => ?_)
    have hlt := hlog.lt_nextId (hlog.mem_openings_of_closed ((hlog.replied _ _).mp hr))
    exact absurd hlt (Int.lt_irrefl _)
  -- the newest entry is the opened one; it is over, and the reply is that of its execution
  obtain ⟨houtline, hover, hreply⟩ :
      (s.triggerSync bounds patience).1.worker.job.history.outline
          = t.worker.job.history.outline ∧
        (s.triggerSync bounds patience).1.worker.job.current ≠ some s.worker.job.history.nextId ∧
        (s.triggerSync bounds patience).2
          = (s.triggerSync bounds patience).1.replyOf s.worker.job.history.nextId := by
    unfold triggerSync
    rw [hl]
    simp only
    split
    next ms due _ hdue =>
      split
      next early =>
        -- the caller gave up, so nobody ever replied
        obtain ⟨run, hg, hid, rfl⟩ := held_of_dueOf? hdue
        obtain ⟨hbusy, hold⟩ := hrun run hg
        obtain ⟨hover, hreplies, hout⟩ := giveUp hg early hbusy
        rw [hid] at hover hreplies hout
        refine ⟨hout, hover, ?_⟩
        unfold replyOf
        rw [show (Job.reply? _ s.worker.job.history.nextId) = none from ?_]
        unfold Job.reply?
        rw [hreplies, hold]
        exact hfresh
      next => exact ⟨t.outline_await _, current_await ht _, rfl⟩
    next => exact ⟨t.outline_await _, current_await ht _, rfl⟩
  rw [← houtline] at hhead
  unfold History.outline at hhead
  rw [List.head?_map] at hhead
  obtain ⟨e, he, heq⟩ := Option.map_eq_some_iff.mp hhead
  obtain ⟨hid, htag⟩ := Prod.mk.inj heq
  refine ⟨e, he, hid, htag, ?_⟩
  rw [hreply]
  exact replyOf_records hs' hover e (List.mem_of_mem_head? he) hid

/-- A new job makes a sound session, and any requests leave it sound. -/
theorem sound_run (start : Instant) {job : Job} (script : List Behaviour) {size : Nat}
    (inStep : InStep job) (capacity : job.history.capacity = size)
    (first : job.history.nextId = 1) (entries : job.history.entries = [])
    (current : job.current = none) (replies : job.replies = []) (requests : List Request) :
    ((init start job script).run (requests.map .request)).1.Sound size := by
  have free : job.gate = none := by
    have hg := inStep.gate_eq
    rw [current] at hg
    exact Option.map_eq_none_iff.mp hg
  refine ((init start job script).run_reaches requests).sound ⟨inStep, ?_, [], ?_⟩
  · intro run held
    have hnone : (init start job script).life.job.gate = none := free
    rw [hnone] at held
    cases held
  · exact Account.init start script capacity first entries current replies

/-- A caller that triggers a job which is not idle is refused, and nothing changes. -/
theorem triggerSync_of_not_idle {s : Session} (hj : InStep s.worker.job)
    (busy : s.worker.job.state ≠ .idle) (bounds : CallerBounds) (patience : Option Nat) :
    (s.triggerSync bounds patience).1 = s ∧
      ∃ error, (s.triggerSync bounds patience).2 = .failed error := by
  obtain ⟨error, h⟩ :=
    launch_of_not_idle hj busy .api (bounds.context s.tokens s.clock.elapsed)
  unfold triggerSync
  rw [h]
  exact ⟨rfl, error, rfl⟩

/-- A background caller that is joined hears what the entry of its execution records. -/
theorem join_records {size : Nat} {s : Session} (hs : s.Sound size) {id : String}
    {execution : Int} (known : s.callers.lookup id = some (.admitted execution)) :
    ∀ e ∈ (s.answer (.join id)).1.worker.job.history.entries, e.id = execution →
      (s.answer (.join id)).2.Records e := by
  simp only [answer, known]
  exact replyOf_records ((s.goesOn_await execution).sound hs) (current_await hs execution)

end Session

/-! ## §3. Every job, every order of events -/

/-- **Every execution is called, closed and recorded once.**  A trigger is accepted exactly when
the job is idle; accepted triggers get the identifiers 1, 2, 3, … and the tag of their entry point,
each calls the executor once, and nothing else calls it.  Executions are closed in the order they
were opened, each by its own end, and the history shows the newest of them with what they ended in;
a closed entry stays as it is.  What a caller that waits gets to hear is what its entry records. -/
theorem executions_accounted (start : Instant) (name : String) (schedule : Cron.Schedule)
    (timezone : String) (historySize : Nat) (timeout : Option Nat) (maxConcurrent : Nat)
    (script : List Behaviour) :
    let job := create name schedule timezone historySize timeout maxConcurrent
    (∀ events : List Event,
      let (l, log) := (Life.init start job script).run events
      -- triggers
      (∀ event tag, event.tag? = some tag →
        (l.job.state = .idle → (l.step event).2 = .accepted ((openings log).length + 1)) ∧
        (l.job.state ≠ .idle → ∃ error, l.step event = (l, .refused error))) ∧
      (openings log).map Prod.fst = countUp (openings log).length ∧
      l.job.history.outline = (openings log).reverse.take (max historySize 1) ∧
      -- calls of the executor
      l.callCount = (openings log).length ∧
      (∀ event, (l.step event).2.opened? = none → (l.step event).1.calls = l.calls) ∧
      -- ends
      (∀ event id ending, (l.step event).2.closed? = some (id, ending) ↔
        event = .ended ending ∧ l.job.current = some id) ∧
      (openings log).map Prod.fst = (closings log).map Prod.fst ++ l.job.current.toList ∧
      (∀ id ending, (id, ending) ∈ closings log → ∀ e ∈ l.job.history.entries, e.id = id →
        e.isRunning = false ∧ recordOf e = ending.record) ∧
      (∀ e ∈ l.job.history.entries, e.isRunning = false → ∀ more,
        ∀ o ∈ (l.run more).1.job.history.entries, o.id = e.id → o = e) ∧
      -- replies
      (∀ id outcome, l.job.reply? id = some outcome ↔ (id, .returned outcome) ∈ closings log)) ∧
    (∀ requests : List Request,
      let s := ((Session.init start job script).run (requests.map .request)).1
      (∃ events, s.life = ((Life.init start job script).run events).1) ∧
      (∀ bounds patience,
        let (s', reply) := s.triggerSync bounds patience
        (s.worker.job.state = .idle → ∃ e, s'.worker.job.history.last? = some e ∧
          e.id = s.worker.job.history.nextId ∧ e.trigger = .api ∧ reply.Records e) ∧
        (s.worker.job.state ≠ .idle → s' = s ∧ ∃ error, reply = .failed error)) ∧
      (∀ id execution, s.callers.lookup id = some (.admitted execution) →
        ∀ e ∈ (s.answer (.join id)).1.worker.job.history.entries, e.id = execution →
          (s.answer (.join id)).2.Records e)) := by
  intro job
  have hnew : InStep job := inStep_create _ _ _ _ _ _
  constructor
  · intro events
    have hinit : Account (max historySize 1) (Life.init start job script) [] :=
      Account.init start script rfl rfl rfl rfl rfl
    have hnewborn : InStep (Life.init start job script).job := hnew
    have hj := Life.run_inStep hnewborn events
    have hl := Life.run_account hnewborn hinit events
    rw [List.nil_append] at hl
    generalize (Life.init start job script).run events = r at hj hl
    obtain ⟨l, log⟩ := r
    refine ⟨fun event tag htag => ?_, hl.ids, hl.shown, hl.called, fun event => Life.calls_step,
      fun event id ending => ?_, hl.settled, hl.recorded,
      fun e he closed more => Life.closed_entry_stays hj hl he closed more, hl.replied⟩
    · obtain ⟨context, hstep⟩ := l.step_of_tag? htag
      rw [hstep]
      constructor
      · intro idle
        rw [Life.launch_accepted (hj.refusal?_eq_none.mpr idle), hl.nextId_eq]
      · intro busy
        cases hr : l.job.refusal? with
        | none => exact absurd (hj.refusal?_eq_none.mp hr) busy
        | some error => exact ⟨error, Life.launch_refused hr tag context⟩
    · rw [Life.closed?_step_iff, ← hj.gate_eq, Option.map_eq_some_iff]
  · intro requests s
    have hs : s.Sound (max historySize 1) :=
      Session.sound_run start script hnew rfl rfl rfl rfl rfl requests
    refine ⟨Session.exists_life start rfl script requests, fun bounds patience => ?_,
      fun id execution known => Session.join_records hs known⟩
    exact ⟨fun idle => Session.triggerSync_of_idle hs idle bounds patience,
      fun busy => Session.triggerSync_of_not_idle hs.inStep busy bounds patience⟩

end CronSupervisor.Job
