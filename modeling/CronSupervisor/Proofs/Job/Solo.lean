/-
  CronSupervisor.Proofs.Job.Solo — a worker minds nothing but its own.

  What a worker does depends on its job, on its script and on how often its executor was called
  before.  The identifier of its entry is handed through and never looked at, and of the log only
  the calls on its own behalf are counted and added to.  So two workers that differ in the entry
  alone, and find the same calls of their own in whatever logs, do the same.

  Main statements:
    * `Worker.launch_attach`, `Worker.passTime_attach` — neither the entry nor the calls of others
      make a difference.
    * `Worker.timesOf_passTime_of_ne` — the calls of others stay as they are.
-/
import CronSupervisor.Proofs.Scheduler.Ticks

namespace CronSupervisor

/-! ## §1. Jobs -/

namespace Job

variable {j : Job}

/-- The same job, triggered by another entry. -/
def attach (j : Job) (entry : Option Nat) : Job := { j with entry }

theorem settle_attach (j : Job) (entry : Option Nat) (c : Clock) (cancelled : List Scope) :
    (j.attach entry).settle c cancelled = (j.settle c cancelled).attach entry := by
  have hgate : (j.attach entry).gate = j.gate := rfl
  cases hg : j.gate with
  | none => rw [settle_of_free hg, settle_of_free (hgate.trans hg)]
  | some run =>
    cases ht : run.endTime? cancelled c.elapsed with
    | none => rw [settle_of_running hg ht, settle_of_running (hgate.trans hg) ht]
    | some t =>
      rw [settle_of_returned hg ht, settle_of_returned (hgate.trans hg) ht]
      rfl

theorem forsake_attach (j : Job) (entry : Option Nat) (now : Calendar.Instant) :
    (j.attach entry).forsake now = (j.forsake now).attach entry := by
  unfold forsake abandon
  rw [show (j.attach entry).current = j.current from rfl,
    show (j.attach entry).gate = j.gate from rfl]
  split
  next =>
    split
    next => split <;> rfl
    next => rfl
  next => rfl

theorem pause_attach (j : Job) (entry : Option Nat) :
    (j.attach entry).pause = j.pause.map (·.attach entry) := by
  unfold pause
  rw [show (j.attach entry).state = j.state from rfl]
  cases j.state <;> rfl

theorem resume_attach (j : Job) (entry : Option Nat) :
    (j.attach entry).resume = j.resume.map (·.attach entry) := by
  unfold resume
  rw [show (j.attach entry).state = j.state from rfl]
  cases j.state <;> rfl

end Job

namespace Worker

variable {w : Worker} {c : Clock} {cancelled : List Scope} {calls calls' : CallLog}

/-- The same worker, triggered by another entry. -/
def attach (w : Worker) (entry : Option Nat) : Worker := { w with job := w.job.attach entry }

theorem settle_attach (w : Worker) (entry : Option Nat) (c : Clock) (cancelled : List Scope) :
    (w.attach entry).settle c cancelled = (w.settle c cancelled).attach entry :=
  congrArg (fun job => { w with job }) (w.job.settle_attach entry c cancelled)

/-! ## §2. Triggers -/

/-- **A trigger does not look at the entry, nor at the calls of others.** -/
theorem launch_attach (same : calls'.timesOf w.caller = calls.timesOf w.caller)
    (c : Clock) (cancelled : List Scope) (entry : Option Nat) (tag : Trigger) (context : Context) :
    (w.attach entry).launch c cancelled calls' tag context =
      (w.launch c cancelled calls tag context).map fun p =>
        (p.1.attach entry, calls'.record w.caller c.elapsed) := by
  have hrefusal : (w.attach entry).job.refusal? = w.job.refusal? := rfl
  cases hr : w.job.refusal? with
  | some error =>
    rw [launch_of_refusal hr, launch_of_refusal (hrefusal.trans hr)]
    rfl
  | none =>
    -- the same execution is opened, and it may be over at once
    let run := (behaviourAt w.script (calls.timesOf w.caller).length).run (w.bounds c context)
      c.elapsed
    let started : Worker := { w with job := w.job.begin c.now tag run }
    have hsettle := started.settle_attach entry c cancelled
    unfold launch accept
    rw [hrefusal, hr, show (w.attach entry).caller = w.caller from rfl, same]
    show Except.ok ((started.attach entry).settle c cancelled, calls'.record w.caller c.elapsed) =
      .ok ((started.settle c cancelled).attach entry, calls'.record w.caller c.elapsed)
    rw [hsettle]

/-- A scheduled trigger does not look at them either. -/
theorem tick_attach (same : calls'.timesOf w.caller = calls.timesOf w.caller) (c : Clock)
    (cancelled : List Scope) (entry : Option Nat) :
    ((w.attach entry).tick c cancelled calls').1 = (w.tick c cancelled calls).1.attach entry ∧
      ((w.attach entry).tick c cancelled calls').2.timesOf w.caller =
        (w.tick c cancelled calls).2.timesOf w.caller := by
  have hlaunch := launch_attach (w := w.settle c cancelled) same c cancelled entry .schedule
    .background
  unfold tick
  simp only [settle_attach, hlaunch]
  cases hl : (w.settle c cancelled).launch c cancelled calls .schedule .background with
  | error error => exact ⟨rfl, same⟩
  | ok p =>
    obtain ⟨w', k⟩ := p
    refine ⟨rfl, ?_⟩
    show (calls'.record w.caller c.elapsed).timesOf w.caller = k.timesOf w.caller
    rw [calls_launch hl]
    show _ = (calls.record w.caller c.elapsed).timesOf w.caller
    rw [CallLog.timesOf_record_self, CallLog.timesOf_record_self, same]

theorem timesOf_tick_of_ne {caller : Caller} (other : caller ≠ w.caller) :
    (w.tick c cancelled calls).2.timesOf caller = calls.timesOf caller := by
  unfold tick
  simp only
  split
  next started hl =>
    rw [calls_launch hl]
    exact calls.timesOf_record_ne other c.elapsed
  next => rfl

/-! ## §3. While time passes -/

theorem caller_tick (w : Worker) (c : Clock) (cancelled : List Scope) (calls : CallLog) :
    (w.tick c cancelled calls).1.caller = w.caller :=
  congrArg (fun l => l.1) (w.label_tick c calls)

/-- **How a worker gets through its ticks does not depend on the entry, nor on the calls of
others.** -/
theorem passTime_attach (same : calls'.timesOf w.caller = calls.timesOf w.caller) (c : Clock)
    (cancelled : List Scope) (entry : Option Nat) (ts : List Nat) :
    ((w.attach entry).passTime c cancelled calls' ts).1 =
        (w.passTime c cancelled calls ts).1.attach entry ∧
      ((w.attach entry).passTime c cancelled calls' ts).2.timesOf w.caller =
        (w.passTime c cancelled calls ts).2.timesOf w.caller := by
  induction ts generalizing w calls calls' with
  | nil => exact ⟨w.settle_attach entry c cancelled, same⟩
  | cons t ts ih =>
    obtain ⟨hworker, hcalls⟩ := tick_attach same { c with elapsed := t } cancelled entry
    have hcaller := w.caller_tick { c with elapsed := t } cancelled calls
    unfold passTime
    rw [← hcaller] at hcalls ⊢
    simp only [hworker]
    exact ih hcalls

/-- A worker gets through its ticks alike in all logs that agree on its own calls. -/
theorem passTime_congr (same : calls'.timesOf w.caller = calls.timesOf w.caller) (c : Clock)
    (cancelled : List Scope) (ts : List Nat) :
    (w.passTime c cancelled calls' ts).1 = (w.passTime c cancelled calls ts).1 ∧
      (w.passTime c cancelled calls' ts).2.timesOf w.caller =
        (w.passTime c cancelled calls ts).2.timesOf w.caller := by
  have hpass := passTime_attach same c cancelled w.job.entry ts
  have hentry : (w.passTime c cancelled calls ts).1.job.entry = w.job.entry :=
    congrArg (fun l => l.2.2.1) (w.label_passTime calls ts)
  have hself : ∀ v : Worker, v.job.entry = w.job.entry → v.attach w.job.entry = v :=
    fun v hv => hv ▸ rfl
  rw [hself _ hentry] at hpass
  exact hpass

/-- **Whoever else has called stays on record** while a worker gets through its ticks. -/
theorem timesOf_passTime_of_ne {caller : Caller} (other : caller ≠ w.caller) (ts : List Nat) :
    (w.passTime c cancelled calls ts).2.timesOf caller = calls.timesOf caller := by
  induction ts generalizing w calls with
  | nil => rfl
  | cons t ts ih =>
    refine (ih ?_).trans (timesOf_tick_of_ne other)
    show caller ≠ (w.tick _ cancelled calls).1.caller
    rw [w.caller_tick]
    exact other

end Worker

end CronSupervisor
