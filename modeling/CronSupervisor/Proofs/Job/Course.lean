/-
  CronSupervisor.Proofs.Job.Course — the course of an execution.

  An execution is under way up to the moment that comes first and over from then on: until then the
  job executes, its newest entry is running and nobody was told anything; afterwards the caller has
  its reply and the entry is closed with that moment, for good.

  Main statements:
    * `ended_of_returned` — when its executor has returned, an execution is over for good.
    * `course` — under way before the first moment, and over from then on.
    * `justOver_at_first` — the job is idle as soon as its execution is over.
    * `course_await` — a caller that waits is told at the first moment.
-/
import CronSupervisor.Proofs.Job.Race

namespace CronSupervisor.Job

open Calendar

namespace Session

variable {size : Nat} {s t : Session}

/-! ## §1. Executions that have ended -/

/-- The execution is over: its caller was told, and its entry is closed as long as it is kept. -/
structure Ended (u : Session) (execution : Int) (begun ended : Nat) (outcome : Outcome) : Prop where
  replied : u.worker.job.reply? execution = some outcome
  released : u.worker.job.current ≠ some execution
  recorded : ∀ e ∈ u.worker.job.history.entries, e.id = execution →
    e.startTime = u.clock.instantAt begun ∧ e.endTime = some (u.clock.instantAt ended) ∧
      recordOf e = (Ending.returned outcome).record ∧
      ∀ now, e.duration now = .ofMillis (ended - begun)

/-- The execution was the last thing that happened to its job. -/
structure JustOver (u : Session) (execution : Int) : Prop where
  idle : u.worker.job.state = .idle
  newest : ∃ e, u.worker.job.history.last? = some e ∧ e.id = execution ∧ e.isRunning = false

theorem reply?_goesOn {u : Session} (ht : t.Sound size) (h : t.GoesOn u) {execution : Int}
    {outcome : Outcome} (hr : t.worker.job.reply? execution = some outcome) :
    u.worker.job.reply? execution = some outcome := by
  obtain ⟨⟨events, hrun⟩, -⟩ := h ht.timely
  obtain ⟨log, hlog⟩ := ht.account
  have hj : InStep t.life.job := ht.inStep
  have hlog' := Life.run_account hj hlog events
  rw [hrun] at hlog'
  have hclosed := (hlog.replied execution outcome).mp hr
  refine (hlog'.replied execution outcome).mpr ?_
  unfold closings at hclosed ⊢
  rw [List.filterMap_append]
  exact List.mem_append_left _ hclosed

theorem duration_of_times {c : Clock} {e : Entry} {a b : Nat} (hstart : e.startTime = c.instantAt a)
    (hend : e.endTime = some (c.instantAt b)) (now : Instant) :
    e.duration now = .ofMillis (b - a) := by
  unfold Entry.duration
  rw [hstart, hend, Option.getD_some]
  unfold Span.between Span.ofMillis
  rw [Clock.nanos_instantAt, Clock.nanos_instantAt]
  unfold nanosPerMilli
  congr 1
  omega

/-- When the executor has returned, the newest entry is that of the execution, and it is closed. -/
theorem exists_closed {s t : Session} {tag : Trigger} {context : Context} {run : Run} {e : Nat}
    (named : run.execution = s.worker.job.history.nextId)
    (h : Returned (s.opened tag context).worker.job run e t) :
    t.worker.job.reply? s.worker.job.history.nextId = some (run.outcomeAt t.cancelled e) ∧
      ∃ x, t.worker.job.history.last? = some x ∧ x.id = s.worker.job.history.nextId ∧
        x.startTime = s.clock.now ∧ x.endTime = some (t.clock.instantAt e) ∧
        recordOf x = (Ending.returned (run.outcomeAt t.cancelled e)).record := by
  have hentries : (s.opened tag context).worker.job.history.entries
      = .opened s.worker.job.history.nextId s.clock.now tag
        :: s.worker.job.history.entries.take (s.worker.job.history.capacity - 1) :=
    s.worker.job.history.entries_start s.clock.now tag
  have hjob := h.job
  rw [named, finish_eq_concluded] at hjob
  have hhistory := (congrArg Job.history hjob).trans (History.finish_head hentries _ _ _ _)
  let record := (Ending.returned (run.outcomeAt t.cancelled e)).record
  refine ⟨?_, (Entry.opened s.worker.job.history.nextId s.clock.now tag).close
    (t.clock.instantAt e) record.1 record.2.1 record.2.2, ?_, rfl, rfl, rfl, rfl⟩
  · rw [hjob]
    exact List.lookup_cons_self
  · unfold History.last?
    rw [hhistory]
    rfl

theorem isRunning_of_endTime {e : Entry} {now : Instant} (h : e.endTime = some now) :
    e.isRunning = false := by
  unfold Entry.isRunning
  rw [h]
  rfl

theorem justOver_of_returned {s t : Session} {tag : Trigger} {context : Context} {run : Run}
    {e : Nat} (named : run.execution = s.worker.job.history.nextId)
    (h : Returned (s.opened tag context).worker.job run e t) :
    t.JustOver s.worker.job.history.nextId := by
  obtain ⟨-, x, hlast, hid, -, hend, -⟩ := exists_closed named h
  exact ⟨congrArg Job.state h.job, x, hlast, hid, isRunning_of_endTime hend⟩

/-- **When its executor has returned, an execution is over for good.** -/
theorem ended_of_returned {s t u : Session} {tag : Trigger} {context : Context} {run : Run}
    {e : Nat} (ht : t.Sound size) (named : run.execution = s.worker.job.history.nextId)
    (hclock : s.clock.Goes t.clock)
    (h : Returned (s.opened tag context).worker.job run e t) (later : t.GoesOn u) :
    u.Ended s.worker.job.history.nextId s.clock.elapsed e (run.outcomeAt t.cancelled e) := by
  obtain ⟨hreply, x, hlast, hid, hstart, hend, hrecord⟩ := exists_closed named h
  have hmem : x ∈ t.worker.job.history.entries := List.mem_of_mem_head? hlast
  have hclosed : x.isRunning = false := isRunning_of_endTime hend
  -- nothing changes the entry afterwards
  obtain ⟨⟨events, hrun⟩, -⟩ := later ht.timely
  obtain ⟨log, hlog⟩ := ht.account
  have hinStep : InStep t.life.job := ht.inStep
  have hover := Life.run_over hinStep (Life.over_of_closed hinStep hlog hmem hclosed) events
  rw [hrun] at hover
  have hgoes : t.clock.Goes u.clock := (later.later ht.timely).clock
  have hstart : x.startTime = u.clock.instantAt s.clock.elapsed := by
    rw [hstart, (hclock.trans hgoes).instantAt_eq]
    rfl
  rw [← hgoes.instantAt_eq] at hend
  refine ⟨reply?_goesOn ht later hreply, hid ▸ hover.notCurrent, fun o ho hoid => ?_⟩
  rw [hover.unique o ho (hoid.trans hid.symm)]
  exact ⟨hstart, hend, hrecord, duration_of_times hstart hend⟩

/-! ## §2. Until then, and afterwards -/

/-- The execution is under way: the job executes, and nobody was told anything. -/
structure UnderWay (u : Session) (execution : Int) : Prop where
  executing : u.worker.job.state = .executing
  current : u.worker.job.current = some execution
  unreplied : u.worker.job.reply? execution = none
  running : ∃ e, u.worker.job.history.last? = some e ∧ e.id = execution ∧ e.isRunning = true

theorem InFlight.underWay {run : Run} (hs : s.Sound size) (fl : s.InFlight run) :
    s.UnderWay run.execution where
  executing := fl.executing hs
  current := hs.inStep.current_eq_some fl.held
  unreplied := by
    obtain ⟨log, hlog⟩ := hs.account
    refine Option.eq_none_iff_forall_ne_some.mpr fun outcome hr => ?_
    exact hlog.ne_current ((hlog.replied _ _).mp hr) (hs.inStep.current_eq_some fl.held) rfl
  running := by
    obtain ⟨e, older, hentries, hid, hrunning, -⟩ := hs.inStep.head_of_held fl.held
    refine ⟨e, ?_, hid, hrunning⟩
    unfold History.last?
    rw [hentries]
    rfl

/-- Waiting for an execution under way takes until it is due. -/
theorem returned_await {run : Run} (fl : s.InFlight run) (heeds : run.heedsContext = true) :
    Returned s.worker.job run run.due (s.await run.execution) ∧
      (s.await run.execution).clock.elapsed = run.due := by
  have hlt := fl.lt_due
  have helapsed : (s.await run.execution).clock.elapsed = run.due := by
    unfold await
    rw [fl.dueOf?_eq, if_pos rfl]
    show max s.clock.elapsed run.due = run.due
    omega
  refine ⟨?_, helapsed⟩
  rcases fl.settled heeds (fl.settles_await run.execution) with ⟨fl', -⟩ | ⟨e, hret⟩
  · have hlt' := fl'.lt_due
    omega
  · have he : e = run.due := by
      rcases hret.cause with ⟨he, -⟩ | ⟨he, hlt', -⟩ <;> omega
    exact he ▸ hret

/-- Nobody waits for an execution that is over. -/
theorem await_of_released {execution : Int} (hs : s.Sound size)
    (released : s.worker.job.current ≠ some execution) : s.await execution = s := by
  unfold await
  cases hdue : s.worker.job.dueOf? execution with
  | none => rfl
  | some due =>
    obtain ⟨run, held, hid, -⟩ := held_of_dueOf? hdue
    have hcurrent := hs.inStep.current_eq_some held
    rw [hid] at hcurrent
    exact absurd hcurrent released

section Course

variable {d : Nat} {own : Outcome} (works : s.Works d own) {tag : Trigger} {context : Context}
  {qs : List Request}

/-- A session in which an execution was just opened. -/
structure Opens (s : Session) (tag : Trigger) (context : Context) (t : Session) : Prop where
  worker : t.worker = (s.opened tag context).worker
  clock : t.clock = s.clock
  cancelled : t.cancelled = s.cancelled

variable (opens : s.Opens tag context t) (ht : t.Sound size)
  (spared : t.Spared (s.runOf context s.worker.job.history.nextId) qs)
  (fair : (s.race d context (cancelTime? context t qs)).Fair s.clock.elapsed)

include fair in
theorem uncancelled_of_fair (hclock : t.clock = s.clock) (hcancelled : t.cancelled = s.cancelled) :
    context.isCancelled s.cancelled = false := by
  refine Bool.eq_false_iff.mpr fun h => ?_
  rw [← hcancelled] at h
  have hcancel := cancelTime?_of_cancelled h qs
  have hmem : t.clock.elapsed ∈ (s.race d context (cancelTime? context t qs)).moments :=
    List.mem_cons_of_mem _ (List.mem_append_right _ (Option.mem_toList.mpr hcancel))
  have hlt := fair.later _ hmem
  rw [hclock] at hlt
  exact Nat.lt_irrefl _ hlt

include works opens fair in
theorem inFlight_of_opens : t.InFlight (s.runOf context s.worker.job.history.nextId) := by
  have fl := inFlight_opened works tag fair
    (uncancelled_of_fair fair opens.clock opens.cancelled)
  exact ⟨opens.worker ▸ fl.held, opens.clock ▸ opens.cancelled ▸ fl.busy⟩

include opens ht in
/-- Once its executor has returned, the execution that was opened is over. -/
theorem ended_of_opens {u v : Session} {e : Nat} (goes : t.GoesOn u)
    (h : Returned t.worker.job (s.runOf context s.worker.job.history.nextId) e u)
    (later : u.GoesOn v) :
    v.Ended s.worker.job.history.nextId s.clock.elapsed e
      ((s.runOf context s.worker.job.history.nextId).outcomeAt u.cancelled e) := by
  rw [opens.worker] at h
  have hclock : s.clock.Goes u.clock := by
    rw [← opens.clock]
    exact (goes.later ht.timely).clock
  exact ended_of_returned (goes.sound ht) rfl hclock h later

include works opens ht spared fair in
/-- **Before the first moment the execution is under way, and from then on it is over.** -/
theorem course :
    ((t.after qs).InFlight (s.runOf context s.worker.job.history.nextId) ∧
      (t.after qs).worker.job = t.worker.job ∧ cancelTime? context t qs = none ∧
      (t.after qs).clock.elapsed < (s.race d context (cancelTime? context t qs)).first) ∨
    ((s.race d context (cancelTime? context t qs)).first ≤ (t.after qs).clock.elapsed ∧
      (t.after qs).Ended s.worker.job.history.nextId s.clock.elapsed
        (s.race d context (cancelTime? context t qs)).first
        ((s.race d context (cancelTime? context t qs)).outcome own)) := by
  have hcongr : ∀ u rs, cancelTime? (s.runOf context s.worker.job.history.nextId).context u rs
      = cancelTime? context u rs := cancelTime?_congr (s.isCancelled_bounds context)
  have hrun := run_of_inFlight ht (inFlight_of_opens works opens fair)
    (heedsContext_runOf works) spared
  simp only [hcongr] at hrun
  rcases hrun with ⟨fl, hjob, hnone⟩ | ⟨first, rest, e, rfl, hret, hcancel⟩
  · refine .inl ⟨fl, hjob, hnone, ?_⟩
    have hlt := fl.lt_due
    rwa [due_runOf works (cancelTime? context t qs),
      ← Race.first_of_none (s.race d context (cancelTime? context t qs)) hnone] at hlt
  · right
    have hfirst := (t.goesOn_after first).sound ht
    have hrest := (t.after first).goesOn_after rest
    rw [← after_append] at hrest
    -- the executor returned by then, so a cancellation that it did not notice came later
    have hnoticed : e < (s.runOf context s.worker.job.history.nextId).due →
        cancelTime? context t (first ++ rest) = some e := by
      intro hlt
      rcases hret.cause with ⟨he, -⟩ | ⟨he, -, hcancelled⟩
      · omega
      · rw [hcancel, he]
        exact cancelTime?_of_cancelled
          ((s.isCancelled_bounds context (t.after first).cancelled).symm.trans hcancelled) rest
    have hearly : ∀ c, cancelTime? context t (first ++ rest) = some c → e ≤ c := by
      intro c hc
      rw [hcancel] at hc
      exact Nat.le_trans hret.le_elapsed (le_cancelTime? hfirst hc)
    obtain ⟨he, hout⟩ := returned_at_first works fair hret hearly hnoticed
    have hended := ended_of_opens opens ht (t.goesOn_after first) hret hrest
    rw [hout, he] at hended
    refine ⟨?_, hended⟩
    rw [← he]
    exact Nat.le_trans hret.le_elapsed (hrest.later hfirst.timely).clock.2

include works opens ht in
/-- **The job is idle as soon as the execution is over.** -/
theorem justOver_at_first {mid : List Request} {q : Request}
    (spared : t.Spared (s.runOf context s.worker.job.history.nextId) (mid ++ [q]))
    (fair : (s.race d context (cancelTime? context t (mid ++ [q]))).Fair s.clock.elapsed)
    (before : (t.after mid).UnderWay s.worker.job.history.nextId)
    (reached : (s.race d context (cancelTime? context t (mid ++ [q]))).first
      ≤ (t.after (mid ++ [q])).clock.elapsed) :
    (t.after (mid ++ [q])).JustOver s.worker.job.history.nextId := by
  have fl := inFlight_of_opens works opens fair
  have hmid := (t.goesOn_after mid).sound ht
  have hended : (t.after (mid ++ [q])).worker.job.current ≠ some s.worker.job.history.nextId := by
    rcases course works opens ht spared fair with ⟨-, -, -, hlt⟩ | ⟨-, hended⟩
    · omega
    · exact hended.released
  have hsparedMid : t.Spared (s.runOf context s.worker.job.history.nextId) mid :=
    fun x hx => spared x (List.mem_append_left _ hx)
  rcases run_of_inFlight ht fl (heedsContext_runOf works) hsparedMid with
    ⟨flMid, hjob, -⟩ | ⟨first, rest, e, rfl, hret, -⟩
  · -- one request more, and the executor has returned
    have hone := spared.after ht (fl.execution_lt ht)
    rw [after_append] at hended ⊢
    rcases flMid.settled (heedsContext_runOf works) (flMid.settles_answer hmid hone) with
      ⟨flEnd, -⟩ | ⟨e, hret⟩
    · exact absurd
        (((t.after mid).goesOn_answer q).sound hmid |>.inStep.current_eq_some flEnd.held) hended
    · rw [hjob, opens.worker] at hret
      exact justOver_of_returned rfl hret
  · -- it had returned before, so it was not under way
    have hrest := (t.after first).goesOn_after rest
    rw [← after_append] at hrest
    have hended := ended_of_opens opens ht (t.goesOn_after first) hret hrest
    exact absurd before.current hended.released

include works opens ht fair in
/-- Waiting for an execution under way takes until the first moment. -/
theorem ended_await (fl : (t.after qs).InFlight (s.runOf context s.worker.job.history.nextId))
    (hjob : (t.after qs).worker.job = t.worker.job) (hnone : cancelTime? context t qs = none) :
    let v := (t.after qs).await s.worker.job.history.nextId
    v.clock.elapsed = (s.race d context (cancelTime? context t qs)).first ∧
      v.JustOver s.worker.job.history.nextId ∧
      v.Ended s.worker.job.history.nextId s.clock.elapsed
        (s.race d context (cancelTime? context t qs)).first
        ((s.race d context (cancelTime? context t qs)).outcome own) := by
  intro v
  have hgoes : t.GoesOn v := (t.goesOn_after qs).trans ((t.after qs).goesOn_await _)
  obtain ⟨hret, helapsed⟩ := returned_await fl (heedsContext_runOf works)
  change Returned _ _ _ v at hret
  change v.clock.elapsed = _ at helapsed
  obtain ⟨he, hout⟩ := returned_at_first works fair hret
    (fun c hc => by rw [hnone] at hc; cases hc) (fun hlt => absurd hlt (Nat.lt_irrefl _))
  rw [hjob] at hret
  have hended := ended_of_opens opens ht hgoes hret (.refl v)
  rw [hout, he] at hended
  rw [opens.worker] at hret
  exact ⟨helapsed.trans he, justOver_of_returned rfl hret, hended⟩

include works opens ht spared fair in
/-- **A caller that waits is told at the first moment**, or at once if that has come. -/
theorem course_await : let u := t.after qs
    let v := u.await s.worker.job.history.nextId
    v.replyOf s.worker.job.history.nextId
        = .ofOutcome ((s.race d context (cancelTime? context t qs)).outcome own) ∧
      v.clock.elapsed
        = max u.clock.elapsed (s.race d context (cancelTime? context t qs)).first := by
  intro u v
  have hreply : v.Ended s.worker.job.history.nextId s.clock.elapsed
      (s.race d context (cancelTime? context t qs)).first
      ((s.race d context (cancelTime? context t qs)).outcome own) ∧
      v.clock.elapsed
        = max u.clock.elapsed (s.race d context (cancelTime? context t qs)).first := by
    rcases course works opens ht spared fair with ⟨fl, hjob, hnone, hlt⟩ | ⟨hge, hended⟩
    · obtain ⟨helapsed, -, hended⟩ := ended_await works opens ht fair fl hjob hnone
      exact ⟨hended, helapsed.trans (Nat.max_eq_right (Nat.le_of_lt hlt)).symm⟩
    · have hsame : v = u := await_of_released ((t.goesOn_after qs).sound ht) hended.released
      rw [hsame]
      exact ⟨hended, (Nat.max_eq_left hge).symm⟩
  refine ⟨?_, hreply.2⟩
  unfold replyOf
  rw [hreply.1.replied]

end Course

end Session

end CronSupervisor.Job
