/-
  CronSupervisor.Proofs.Scheduler.Alone — a job runs as if it were alone.

  Compare a session with one in which nothing is ever addressed to other jobs, and in which time
  passes where they would have been waited for.  Jobs have other numbers there and entries have
  other identifiers, but for the one name both sessions hold the same job, with the same entry and
  the same calls on its behalf.  `Agrees` says so, and it is kept by everything that can happen:
  what is addressed to the job or to nobody does the same on both sides, and what is addressed to
  others does nothing to the view on the one side and passes the same time on both.

  Main statements:
    * `Alike` and its lemmas — two schedulers that hold the same for a name go on to do so.
    * `Session.Agrees.happen`, `Session.Agrees.step` — so do two sessions, and they answer alike.
    * `Session.follow_only` — a session agrees with the one that is left when the others are gone.
    * `Session.alone_of_run` — jobs do not interfere.
-/
import CronSupervisor.Proofs.Scheduler.View

namespace CronSupervisor

open Calendar Cron

/-! ## §1. Results -/

/-- Two results concur: both fail for the same reason, or what they yield is related. -/
inductive Concur {ε α β : Type} (R : α → β → Prop) : Except ε α → Except ε β → Prop
  | ok {a : α} {b : β} (h : R a b) : Concur R (.ok a) (.ok b)
  | error (e : ε) : Concur R (.error e) (.error e)

namespace Scheduler

theorem label_attach {w w' : Worker} (h : label w' = label w) (entry : Option Nat) :
    label (w'.attach entry) = label (w.attach entry) :=
  congrArg (fun l => (l.1, l.2.1, entry, l.2.2.2)) h

/-! ## §2. Schedulers that hold the same -/

/-- A job is attached to its entry already. -/
theorem Holds.attach_eq {s : Scheduler} {name : String} {number : Nat} {w : Worker}
    {x : Engine.Entry Nat} (h : s.Holds name number w x) : w.attach (some x.id) = w := by
  unfold Worker.attach Job.attach
  rw [← h.entry_eq]

/-- An entry has its labels already. -/
theorem Holds.relabel_eq {s : Scheduler} {name : String} {number : Nat} {w : Worker}
    {x : Engine.Entry Nat} (h : s.Holds name number w x) : x.relabel x.id number = x := by
  rw [← h.payload_eq]
  rfl

/-- Two schedulers hold the same job for a name, or none. -/
inductive SameJob (name : String) (s t : Scheduler) : Prop
  | unknown (hs : s.number? name = none) (ht : t.number? name = none)
  | known {n m id : Nat} {w : Worker} {x : Engine.Entry Nat} (hs : s.Holds name n w x)
      (ht : t.Holds name m (w.attach (some id)) (x.relabel id m))

/-- Two schedulers are alike as far as a name is concerned, whatever numbers and identifiers they
have issued. -/
structure Alike (name : String) (s t : Scheduler) : Prop where
  historySize_eq : t.historySize = s.historySize
  startTime_eq : t.startTime = s.startTime
  job : SameJob name s t

/-- A job that is registered under a new name. -/
def newcomer (name : String) (schedule : Schedule) (timezone : String) (historySize : Nat)
    (options : JobOptions) (shared : List Behaviour) (nextRun : Option Instant)
    (entry : Option Nat) : Worker :=
  let job := { Job.create name schedule timezone historySize options.timeout
      options.maxConcurrent with
    entry
    nextRun }
  match options.script with
  | some script => { job, caller := .own name, script }
  | none => { job, caller := .shared name, script := shared }

theorem attach_newcomer (name : String) (schedule : Schedule) (timezone : String)
    (historySize : Nat) (options : JobOptions) (shared : List Behaviour) (nextRun : Option Instant)
    (entry entry' : Option Nat) :
    (newcomer name schedule timezone historySize options shared nextRun entry).attach entry' =
      newcomer name schedule timezone historySize options shared nextRun entry' := by
  unfold newcomer
  cases options.script <;> rfl

/-- Registering a new name puts a new job there, with a new entry. -/
theorem addJob_of_fresh [ZoneBook] [Memory] {s : Scheduler} {name expr timezone : String}
    {schedule : Schedule} (fresh : s.number? name = none)
    (parses : Schedule.parse expr timezone = .ok schedule) (fits : History.Fits s.historySize)
    (numbered : s.engine.Numbered) (clock : Clock) (options : JobOptions)
    (shared : List Behaviour) :
    ∃ s', s.addJob clock name expr timezone options shared = .ok s' ∧
      s'.historySize = s.historySize ∧ s'.startTime = s.startTime ∧
      s'.Holds name s.workers.length
        (newcomer name schedule timezone s.historySize options shared
          (s.engine.newEntry clock schedule s.workers.length).next (some s.engine.nextId))
        (s.engine.newEntry clock schedule s.workers.length) := by
  obtain ⟨hid, -, hpayload⟩ := s.engine.newEntry_eq clock schedule s.workers.length
  have hfind : (s.engine.add clock schedule s.workers.length).1.find? s.engine.nextId =
      some (s.engine.newEntry clock schedule s.workers.length) := by
    rw [Engine.find?_add numbered, if_pos rfl]
  have hnext : (s.engine.add clock schedule s.workers.length).1.next? s.engine.nextId =
      (s.engine.newEntry clock schedule s.workers.length).next := by
    unfold Engine.next?
    rw [hfind]
    rfl
  refine ⟨{ s with
    engine := (s.engine.add clock schedule s.workers.length).1
    registry := Registry.insert name s.workers.length s.registry
    workers := s.workers ++ [_] }, ?_, rfl, rfl, Registry.lookup_insert_self fresh,
    List.getElem?_concat_length, ?_, ?_, hpayload, ?_⟩
  · unfold addJob
    simp only [parses, fresh, Option.isSome_none, Bool.false_eq_true, if_false, fits,
      not_true_eq_false]
    rw [← hnext]
    unfold newcomer
    cases options.script <;> rfl
  · rw [hid]
    unfold newcomer
    cases options.script <;> rfl
  · rw [hid]
    exact hfind
  · unfold newcomer
    cases options.script <;> rfl

namespace Alike

variable {name : String} {s t : Scheduler}

theorem refreshAll (h : Alike name s t) : Alike name s.refreshAll t.refreshAll := by
  obtain ⟨hsize, hstart, hjob⟩ := h
  obtain ⟨workers, hs⟩ := s.refreshAll_eq
  obtain ⟨workers', ht⟩ := t.refreshAll_eq
  refine ⟨?_, ?_, ?_⟩
  · rw [hs, ht]
    exact hsize
  · rw [hs, ht]
    exact hstart
  · cases hjob with
    | unknown hs' ht' =>
      rw [hs, ht]
      exact .unknown hs' ht'
    | known hs' ht' => exact .known hs'.refreshAll ht'.refreshAll

theorem refreshJob (h : Alike name s t) {n m : Nat} (hn : s.number? name = some n)
    (hm : t.number? name = some m) : Alike name (s.refreshJob n) (t.refreshJob m) := by
  refine ⟨h.historySize_eq, h.startTime_eq, ?_⟩
  cases h.job with
  | unknown hs ht => cases hs.symm.trans hn
  | known hs ht =>
    cases hs.number_eq.symm.trans hn
    cases ht.number_eq.symm.trans hm
    exact .known hs.refreshJob ht.refreshJob

/-- The job may change on both sides in the same way. -/
theorem setWorker (h : Alike name s t) {n m id : Nat} {w w' : Worker} {x : Engine.Entry Nat}
    (hs : s.Holds name n w x) (ht : t.Holds name m (w.attach (some id)) (x.relabel id m))
    (hlabel : label w' = label w) :
    Alike name (s.setWorker n w') (t.setWorker m (w'.attach (some id))) :=
  ⟨h.historySize_eq, h.startTime_eq,
    .known (hs.setWorker hlabel) (ht.setWorker (label_attach hlabel _))⟩

theorem stop (h : Alike name s t) (clock : Clock) :
    Alike name (s.stop clock).1 (t.stop clock).1 := by
  refine ⟨h.historySize_eq, rfl, ?_⟩
  cases h.job with
  | unknown hs ht => exact .unknown hs ht
  | known hs ht =>
    exact .known (hs.mapEntries false none fun _ => ⟨rfl, rfl⟩)
      (ht.mapEntries false none fun _ => ⟨rfl, rfl⟩)

theorem start (h : Alike name s t) (hs : s.Linked) (ht : t.Linked) (clock : Clock) :
    Alike name (s.start clock) (t.start clock) := by
  unfold Scheduler.start
  rw [h.startTime_eq]
  split
  next => exact h
  next hstopped =>
    have hresting := Bool.eq_false_iff.mpr hstopped
    rw [Engine.start_of_resting (hs.running_eq.trans hresting),
      Engine.start_of_resting (ht.running_eq.trans (h.startTime_eq ▸ hresting))]
    refine refreshAll ⟨h.historySize_eq, rfl, ?_⟩
    cases h.job with
    | unknown hs ht => exact .unknown hs ht
    | known hs ht =>
      exact .known (hs.mapEntries true _ fun _ => ⟨rfl, rfl⟩)
        (ht.mapEntries true _ fun _ => ⟨rfl, rfl⟩)

/-! ### The name itself is addressed -/

theorem changeJob (h : Alike name s t) {f : Job → Except JobError Job}
    (attach : ∀ j entry, f (j.attach entry) = (f j).map (·.attach entry))
    (keeps : ∀ w job, f w.job = .ok job → label { w with job } = label w) :
    Concur (Alike name) (s.changeJob name f) (t.changeJob name f) := by
  unfold Scheduler.changeJob
  cases h.job with
  | unknown hs ht =>
    simp only [hs, ht]
    exact .error _
  | @known n m id w x hs ht =>
    simp only [hs.number_eq, hs.worker_eq, ht.number_eq, ht.worker_eq]
    rw [show (w.attach (some id)).job = w.job.attach (some id) from rfl, attach]
    cases hf : f w.job with
    | error error => exact .error _
    | ok job => exact .ok (h.setWorker hs ht (keeps w job hf))

theorem removeJob (h : Alike name s t) :
    Concur (Alike name) (s.removeJob name) (t.removeJob name) := by
  unfold Scheduler.removeJob
  cases h.job with
  | unknown hs ht =>
    simp only [hs, ht]
    exact .error _
  | known hs ht =>
    simp only [hs.number_eq, ht.number_eq]
    exact .ok ⟨h.historySize_eq, h.startTime_eq,
      .unknown Registry.lookup_remove_self Registry.lookup_remove_self⟩

theorem addJob [ZoneBook] [Memory] (h : Alike name s t) (hs : s.Linked) (ht : t.Linked)
    (numbered : s.engine.Numbered) (numbered' : t.engine.Numbered) (clock : Clock)
    (expr timezone : String) (options : JobOptions) (shared : List Behaviour) :
    Concur (Alike name) (s.addJob clock name expr timezone options shared)
      (t.addJob clock name expr timezone options shared) := by
  cases hp : Schedule.parse expr timezone with
  | error error =>
    unfold Scheduler.addJob
    simp only [hp]
    exact .error _
  | ok schedule =>
    cases h.job with
    | known hs ht =>
      unfold Scheduler.addJob
      simp only [hp, hs.number_eq, ht.number_eq, Option.isSome_some, if_true]
      exact .error _
    | unknown hsn htn =>
      -- there is memory for the history on both sides, or on neither
      by_cases fits : History.Fits s.historySize
      case neg =>
        unfold Scheduler.addJob
        simp only [hp, hsn, htn, h.historySize_eq, Option.isSome_none, Bool.false_eq_true, if_false,
          fits, not_false_eq_true, if_true]
        exact .error _
      obtain ⟨s', hs', hsize, hstart, hold⟩ :=
        addJob_of_fresh hsn hp fits numbered clock options shared
      obtain ⟨t', ht', hsize', hstart', hold'⟩ :=
        addJob_of_fresh htn hp (h.historySize_eq ▸ fits) numbered' clock options shared
      -- both engines run or both rest, so the two entries differ in their labels alone
      have hentry : t.engine.newEntry clock schedule t.workers.length =
          (s.engine.newEntry clock schedule s.workers.length).relabel t.engine.nextId
            t.workers.length := by
        unfold Engine.newEntry
        rw [hs.running_eq, ht.running_eq, h.startTime_eq]
        cases s.startTime.isSome <;> rfl
      rw [h.historySize_eq, hentry, ← attach_newcomer _ _ _ _ _ _ _ (some s.engine.nextId)] at hold'
      rw [hs', ht']
      exact .ok ⟨hsize'.trans (h.historySize_eq.trans hsize.symm),
        hstart'.trans (h.startTime_eq.trans hstart.symm), .known hold hold'⟩

/-! ### Time passes -/

theorem passTime (h : Alike name s t) {now now' : Nat} (hs : s.Wired now) (ht : t.Wired now')
    (linked : s.Linked) (linked' : t.Linked) {calls calls' : CallLog}
    (same : ∀ caller, caller.job = name → calls'.timesOf caller = calls.timesOf caller)
    (clock : Clock) (cancelled : List Scope) :
    Alike name (s.passTime clock cancelled calls).1 (t.passTime clock cancelled calls').1 ∧
      ∀ caller, caller.job = name →
        (t.passTime clock cancelled calls').2.timesOf caller =
          (s.passTime clock cancelled calls).2.timesOf caller := by
  have hsize : (t.passTime clock cancelled calls').1.historySize =
      (s.passTime clock cancelled calls).1.historySize ∧
      (t.passTime clock cancelled calls').1.startTime =
        (s.passTime clock cancelled calls).1.startTime := by
    obtain ⟨workers, heq, -⟩ := s.passTime_eq clock cancelled calls
    obtain ⟨workers', heq', -⟩ := t.passTime_eq clock cancelled calls'
    rw [heq, heq']
    exact ⟨h.historySize_eq, h.startTime_eq⟩
  cases h.job with
  | unknown hsn htn =>
    refine ⟨⟨hsize.1, hsize.2, .unknown ?_ ?_⟩, fun caller hcaller => ?_⟩
    · rw [number?_passTime, hsn]
    · rw [number?_passTime, htn]
    · rw [timesOf_passTime_of_unknown hsn hs linked clock cancelled calls hcaller,
        timesOf_passTime_of_unknown htn ht linked' clock cancelled calls' hcaller]
      exact same caller hcaller
  | @known n m id w x hold hold' =>
    obtain ⟨hafter, htimes⟩ := hold.passTime hs linked clock cancelled calls
    obtain ⟨hafter', htimes'⟩ := hold'.passTime ht linked' clock cancelled calls'
    -- the two entries fire alike, and so the two jobs are triggered alike
    rw [Engine.Entry.fireUntil_relabel] at hafter' htimes'
    obtain ⟨hworker, hown⟩ := w.passTime_attach (same w.caller hold.caller_eq) clock cancelled
      (some id) (x.fireUntil clock clock.elapsed).2
    rw [hworker] at hafter'
    refine ⟨⟨hsize.1, hsize.2, .known hafter hafter'⟩, fun caller hcaller => ?_⟩
    rw [htimes caller hcaller, htimes' caller hcaller]
    by_cases heq : caller = w.caller
    · rw [heq]
      exact hown
    · rw [w.timesOf_passTime_of_ne heq, (w.attach (some id)).timesOf_passTime_of_ne heq]
      exact same caller hcaller

end Alike

/-! ## §3. Sessions that agree -/

namespace Session

/-- Two sessions agree on a name: time, tokens and scripts are the same, and so are the job of that
name and the calls on its behalf. -/
inductive Agrees (name : String) (s : Session) : Session → Prop
  | intro {calls : CallLog} {scheduler : Scheduler} (heldJob : Option Nat)
      (same : ∀ caller, caller.job = name → calls.timesOf caller = s.calls.timesOf caller)
      (alike : Alike name s.scheduler scheduler) :
      Agrees name s { s with calls, scheduler, heldJob }

/-- A view without the number and the identifier that stand for it. -/
def unlabelled : Worker × Option (Engine.Entry Nat) → Worker × Option (Engine.Entry Nat)
  | (w, x) => (w.attach none, x.map (·.relabel 0 0))

namespace Agrees

variable {name : String} {s t : Session} {n m : Nat}

theorem clock_eq (h : s.Agrees name t) : t.clock = s.clock := by
  cases h
  rfl

theorem scripts_eq (h : s.Agrees name t) : t.scripts = s.scripts := by
  cases h
  rfl

theorem alike (h : s.Agrees name t) : Alike name s.scheduler t.scheduler := by
  cases h with
  | intro heldJob same alike => exact alike

/-- The two schedulers may change as long as they are alike. -/
theorem setScheduler (h : s.Agrees name t) {scheduler scheduler' : Scheduler}
    (alike : Alike name scheduler scheduler') :
    ({ s with scheduler } : Session).Agrees name { t with scheduler := scheduler' } := by
  cases h with
  | intro heldJob same => exact .intro (s := { s with scheduler }) heldJob same alike

theorem passTo (h : s.Agrees name t) (hs : s.Coherent) (ht : t.Coherent) (ms : Nat) :
    (s.passTo ms).Agrees name (t.passTo ms) := by
  cases h with
  | intro heldJob same alike =>
    obtain ⟨halike, hsame⟩ := alike.passTime hs.wired ht.wired hs.linked ht.linked same
      (s.clock.advanceTo ms) s.cancelled
    exact .intro (s := s.passTo ms) heldJob hsame halike

/-- Whatever the two schedulers are changed to, sessions agree if the schedulers are alike. -/
theorem change (h : s.Agrees name t) {x y : Except SchedulerError Scheduler}
    (concur : Concur (Alike name) x y) :
    (s.change x).1.Agrees name (t.change y).1 ∧ (t.change y).2 = (s.change x).2 := by
  cases concur with
  | error e => exact ⟨h, rfl⟩
  | ok halike => exact ⟨h.setScheduler halike, rfl⟩

/-- The same trigger is accepted on both sides, or refused for the same reason. -/
theorem launch (h : s.Agrees name t) (tag : Trigger) (bounds : CallerBounds) :
    Concur (fun p q => p.1.Agrees name q.1 ∧ p.1.scheduler.number? name = some p.2.1 ∧
        q.1.scheduler.number? name = some q.2.1 ∧ q.2.2 = p.2.2)
      (s.launch name tag bounds) (t.launch name tag bounds) := by
  cases h with
  | @intro calls scheduler heldJob same alike =>
    unfold Session.launch
    cases alike.job with
    | unknown hs ht =>
      simp only [hs, ht]
      exact .error _
    | @known n m id w x hs ht =>
      simp only [hs.number_eq, hs.worker_eq, ht.number_eq, ht.worker_eq]
      rw [Worker.launch_attach (same w.caller hs.caller_eq)]
      cases hl : w.launch s.clock s.cancelled s.calls tag
          (bounds.context s.tokens s.clock.elapsed) with
      | error error => exact .error _
      | ok p =>
        obtain ⟨w', k⟩ := p
        obtain rfl := Worker.calls_launch hl
        refine .ok ⟨.intro (s := { s with scheduler := s.scheduler.setWorker n w', calls := _ })
          heldJob (fun caller hcaller => ?_) (alike.setWorker hs ht (Worker.label_launch hl)),
          hs.number_eq, ht.number_eq, rfl⟩
        by_cases heq : caller = w.caller
        · rw [heq, CallLog.timesOf_record_self, CallLog.timesOf_record_self,
            same w.caller hs.caller_eq]
        · rw [CallLog.timesOf_record_ne _ heq, CallLog.timesOf_record_ne _ heq]
          exact same caller hcaller

/-- The job of the name is the same on both sides. -/
theorem exists_worker (h : s.Agrees name t) (hn : s.scheduler.number? name = some n)
    (hm : t.scheduler.number? name = some m) : ∃ w entry,
      s.scheduler.worker? n = some w ∧ t.scheduler.worker? m = some (w.attach entry) := by
  cases h with
  | intro heldJob same alike =>
    cases alike.job with
    | unknown hs ht => cases hs.symm.trans hn
    | known hs ht =>
      cases hs.number_eq.symm.trans hn
      cases ht.number_eq.symm.trans hm
      exact ⟨_, _, hs.worker_eq, ht.worker_eq⟩

/-- Whoever waits for an execution of the job waits equally long on both sides, and gets the same
answer. -/
theorem await (h : s.Agrees name t) (hs : s.Coherent) (ht : t.Coherent)
    (hn : s.scheduler.number? name = some n) (hm : t.scheduler.number? name = some m)
    (execution : Int) :
    (s.await n execution).Agrees name (t.await m execution) ∧
      (t.await m execution).replyOf m execution = (s.await n execution).replyOf n execution := by
  have hreply : ∀ {s t : Session}, s.Agrees name t → s.scheduler.number? name = some n →
      t.scheduler.number? name = some m → t.replyOf m execution = s.replyOf n execution := by
    intro s t h hn hm
    obtain ⟨w, entry, hw, hw'⟩ := h.exists_worker hn hm
    unfold replyOf
    rw [hw, hw']
    rfl
  obtain ⟨w, entry, hw, hw'⟩ := h.exists_worker hn hm
  unfold Session.await
  rw [hw, hw', Option.bind_some, Option.bind_some,
    show (w.attach entry).job.dueOf? execution = w.job.dueOf? execution from rfl]
  cases w.job.dueOf? execution with
  | none => exact ⟨h, hreply h hn hm⟩
  | some due =>
    have hpass := h.passTo hs ht due
    exact ⟨hpass, hreply hpass ((number?_passTime _ _ _ _ name).trans hn)
      ((number?_passTime _ _ _ _ name).trans hm)⟩

/-! ### Requests -/

theorem view_eq (h : s.Agrees name t) :
    (t.scheduler.view name).map unlabelled = (s.scheduler.view name).map unlabelled := by
  cases h.alike.job with
  | unknown hs ht => rw [view_eq_none hs, view_eq_none ht]
  | known hs ht =>
    rw [hs.view_eq, ht.view_eq]
    rfl

variable [ZoneBook] [Memory]

theorem triggerSync (h : s.Agrees name t) (hs : s.Coherent) (ht : t.Coherent)
    (bounds : CallerBounds) :
    (s.step (.triggerSync name bounds)).1.Agrees name (t.step (.triggerSync name bounds)).1 ∧
      (t.step (.triggerSync name bounds)).2 = (s.step (.triggerSync name bounds)).2 := by
  have hlaunch := h.launch .api bounds
  simp only [step]
  generalize hx : s.launch name .api bounds = x at hlaunch
  generalize hy : t.launch name .api bounds = y at hlaunch
  cases hlaunch with
  | error e => exact ⟨h, rfl⟩
  | @ok p q hpq =>
    obtain ⟨s', n, execution⟩ := p
    obtain ⟨t', m, execution'⟩ := q
    obtain ⟨hagrees, hn, hm, heq⟩ := hpq
    obtain rfl : execution' = execution := heq
    exact hagrees.await (hs.begins (begins_launch hx (by decide)))
      (ht.begins (begins_launch hy (by decide))) hn hm execution'

/-- **What is asked of the job is answered alike**, but for the identifier of its entry. -/
theorem step_own (h : s.Agrees name t) (hs : s.Coherent) (ht : t.Coherent) {r : Request}
    (own : r.target? = some name) :
    (s.step r).1.Agrees name (t.step r).1 ∧ (r ≠ .getJob name → (t.step r).2 = (s.step r).2) := by
  have halike := h.alike
  have hchange := fun {x y} (concur : Concur (Alike name) x y) =>
    And.imp_right (fun heq (_ : r ≠ .getJob name) => heq) (h.change concur)
  cases r with
  | addJob name expr timezone options =>
    cases own
    simp only [step]
    rw [h.clock_eq, h.scripts_eq]
    exact hchange (halike.addJob hs.linked ht.linked hs.wired.numbered ht.wired.numbered _ _ _ _ _)
  | removeJob name =>
    cases own
    exact hchange halike.removeJob
  | pause name =>
    cases own
    exact hchange (halike.changeJob Job.pause_attach fun w job hf =>
      (Worker.Acts.pause (c := s.clock) hf).label_eq)
  | resume name =>
    cases own
    exact hchange (halike.changeJob Job.resume_attach fun w job hf =>
      (Worker.Acts.resume (c := s.clock) hf).label_eq)
  | trigger name bounds =>
    cases own
    have hlaunch := h.launch .manual bounds
    simp only [step]
    generalize s.launch name .manual bounds = x at hlaunch
    generalize t.launch name .manual bounds = y at hlaunch
    cases hlaunch with
    | error e => exact ⟨h, fun _ => rfl⟩
    | ok hpq => exact ⟨hpq.1, fun _ => rfl⟩
  | triggerSync name bounds =>
    cases own
    exact And.imp_right (fun heq _ => heq) (h.triggerSync hs ht bounds)
  | status name =>
    cases own
    simp only [step]
    cases halike.job with
    | unknown hs ht =>
      simp only [hs, ht]
      exact ⟨h, fun _ => trivial⟩
    | known hs ht =>
      simp only [hs.number_eq, ht.number_eq, hs.refreshJob.worker_eq, ht.refreshJob.worker_eq]
      exact ⟨h.setScheduler (halike.refreshJob hs.number_eq ht.number_eq), fun _ => rfl⟩
  | getJob name =>
    cases own
    exact ⟨h, fun hne => absurd rfl hne⟩
  | hold name =>
    cases own
    simp only [step]
    cases h with
    | intro heldJob same alike =>
      cases alike.job with
      | unknown hs ht =>
        simp only [hs, ht]
        exact ⟨.intro heldJob same alike, fun _ => trivial⟩
      | known hs ht =>
        simp only [hs.number_eq, ht.number_eq]
        exact ⟨.intro (s := { s with heldJob := _ }) _ same alike, fun _ => trivial⟩
  | history name limit =>
    cases own
    simp only [step]
    cases halike.job with
    | unknown hs ht =>
      simp only [find?_of_unknown hs, find?_of_unknown ht]
      exact ⟨h, fun _ => trivial⟩
    | known hs ht =>
      simp only [find?_of_number? hs.number_eq, find?_of_number? ht.number_eq, hs.worker_eq,
        ht.worker_eq]
      exact ⟨h, fun _ => rfl⟩
  | statuses | held | names | historySize | start | stop | stats | token | cancel | advance
  | elapsed | calls => cases own

/-- **What is addressed to nobody leaves sessions in agreement.** -/
theorem step_common (h : s.Agrees name t) (hs : s.Coherent) (ht : t.Coherent) {r : Request}
    (common : r.target? = none) : (s.step r).1.Agrees name (t.step r).1 := by
  cases r with
  | statuses => exact h.setScheduler h.alike.refreshAll
  | start =>
    have halike := h.alike.start hs.linked ht.linked t.clock
    exact h.setScheduler (h.clock_eq ▸ halike)
  | stop => exact h.setScheduler (h.alike.stop t.clock)
  | token id =>
    cases h with
    | intro heldJob same alike =>
      exact .intro (s := { s with tokens := (id, s.fresh) :: s.tokens, fresh := s.fresh + 1 })
        heldJob same alike
  | cancel id =>
    cases h with
    | intro heldJob same alike =>
      simp only [step]
      cases s.tokens.lookup id with
      | none => exact .intro heldJob same alike
      | some scope =>
        -- the scope is cancelled on both sides, and then no time passes
        have h : ({ s with cancelled := scope :: s.cancelled } : Session).Agrees name _ :=
          .intro heldJob same alike
        exact h.passTo ⟨hs.wired, hs.linked, hs.orderly⟩ ⟨ht.wired, ht.linked, ht.orderly⟩ _
  | advance ms =>
    simp only [step]
    rw [h.clock_eq]
    exact h.passTo hs ht _
  | getJob | held | names | historySize | stats | elapsed | calls => exact h
  | addJob | removeJob | pause | resume | trigger | triggerSync | status | hold | history =>
    cases common

/-- **What happens to the job, or to nobody, leaves sessions in agreement.** -/
theorem happen (h : s.Agrees name t) (hs : s.Coherent) (ht : t.Coherent) {e : Event}
    (he : e.target? = none ∨ e.target? = some name) : (s.happen e).Agrees name (t.happen e) := by
  cases e with
  | request r =>
    rcases he with common | own
    · exact h.step_common hs ht common
    · exact (h.step_own hs ht own).1
  | call caller bounds =>
    obtain rfl : caller = name := Option.some.inj (he.resolve_left (Option.some_ne_none caller))
    have hlaunch := h.launch .api bounds
    simp only [Session.happen]
    generalize s.launch caller .api bounds = x at hlaunch
    generalize t.launch caller .api bounds = y at hlaunch
    cases hlaunch with
    | error e => exact h
    | ok hpq => exact hpq.1
  | abandon caller =>
    obtain rfl : caller = name := Option.some.inj (he.resolve_left (Option.some_ne_none caller))
    simp only [Session.happen]
    rw [h.clock_eq]
    refine (h.change (h.alike.changeJob (fun j entry => ?_) fun w job hf => ?_)).1
    · exact congrArg Except.ok (j.forsake_attach entry s.clock.now)
    · cases hf
      exact (Worker.Acts.forsake (c := s.clock)).label_eq

/-- **What is done to others leaves sessions in agreement**, without anything being done on the
other side. -/
theorem begins (h : s.Agrees name t) (hs : s.Coherent) {s' : Session} {other : String}
    (hbegins : s.Begins (some other) s') (hne : name ≠ other) : s'.Agrees name t := by
  have hcalls := fun (caller : Caller) (hcaller : caller.job = name) =>
    hbegins.timesOf_of_ne hs.linked hne hcaller
  have hchanges := hbegins.scheduler
  obtain ⟨hcancelled, htokens, hfresh⟩ := hbegins.scopes nofun
  have hclock := hbegins.clock
  have hscripts := hbegins.scripts
  cases h with
  | @intro calls scheduler heldJob same alike =>
    obtain ⟨clock, fresh, cancelled, tokens, scripts, calls', scheduler', heldJob'⟩ := s'
    simp only at hclock hscripts hcancelled htokens hfresh
    subst hclock hscripts hcancelled htokens hfresh
    refine .intro (s := { s with calls := calls', scheduler := scheduler', heldJob := heldJob' })
      heldJob (fun caller hcaller => (same caller hcaller).trans (hcalls caller hcaller).symm) ?_
    obtain ⟨hsize, hstart⟩ := hchanges.settings_eq
    refine ⟨alike.historySize_eq.trans hsize.symm, alike.startTime_eq.trans hstart.symm, ?_⟩
    cases alike.job with
    | unknown hs ht => exact .unknown ((hchanges.number?_of_ne hne).trans hs) ht
    | known hold hold' =>
      exact .known (hold.of_changes hs.linked hs.wired.numbered hchanges hne) hold'

end Agrees

/-! ## §4. Without the others -/

variable [ZoneBook] [Memory]

/-- What is left of an event when nothing is addressed to others: that time passes, if it did. -/
def kept (name : String) (s : Session) (e : Event) : List Event :=
  if e.target? = none ∨ e.target? = some name then [e]
  else if s.clock.elapsed < (s.happen e).clock.elapsed then
    [.request (.advance ((s.happen e).clock.elapsed - s.clock.elapsed))]
  else []

/-- What is left of a list of events when nothing is addressed to others. -/
def only (name : String) (s : Session) : List Event → List Event
  | [] => []
  | e :: events => s.kept name e ++ (s.happen e).only name events

variable {name : String} {s t : Session}

/-- Nothing is addressed to others, and all that is addressed to the job is still there. -/
theorem target?_only (name : String) (s : Session) (events : List Event) :
    (∀ e ∈ s.only name events, e.target? = none ∨ e.target? = some name) ∧
      (s.only name events).filter (·.target? = some name) =
        events.filter (·.target? = some name) := by
  induction events generalizing s with
  | nil => exact ⟨fun _ he => absurd he List.not_mem_nil, rfl⟩
  | cons e events ih =>
    obtain ⟨hnone, hown⟩ := ih (s.happen e)
    have hkept : (∀ d ∈ s.kept name e, d.target? = none ∨ d.target? = some name) ∧
        (s.kept name e).filter (·.target? = some name) = [e].filter (·.target? = some name) := by
      unfold kept
      split
      next he => exact ⟨fun d hd => List.mem_singleton.mp hd ▸ he, rfl⟩
      next he =>
        have hother : [e].filter (·.target? = some name) = [] := by
          rw [List.filter_singleton, decide_eq_false (not_or.mp he).2]
          rfl
        rw [hother]
        split
        next => exact ⟨fun d hd => .inl (List.mem_singleton.mp hd ▸ rfl), rfl⟩
        next => exact ⟨fun d hd => absurd hd List.not_mem_nil, rfl⟩
    refine ⟨fun d hd => ?_, ?_⟩
    · exact (List.mem_append.mp hd).elim (hkept.1 d) (hnone d)
    · rw [only, List.filter_append, hkept.2, hown]
      exact (List.filter_append [e] events).symm

/-- **An event and what is left of it lead to sessions that agree.** -/
theorem Agrees.kept (h : s.Agrees name t) (hs : s.Coherent) (ht : t.Coherent) (e : Event) :
    (s.happen e).Agrees name (t.follow (s.kept name e)) := by
  unfold Session.kept
  split
  next he => exact h.happen hs ht he
  next he =>
    obtain ⟨hnone, hother⟩ := not_or.mp he
    obtain ⟨other, htarget⟩ := Option.ne_none_iff_exists'.mp hnone
    have hne : name ≠ other := fun heq => hother (heq ▸ htarget)
    obtain ⟨s', hbegins, hrest⟩ := s.happen_begins e
    rw [htarget] at hbegins hrest
    have hagrees := h.begins hs hbegins hne
    rcases hrest with heq | ⟨ms, hlater, heq⟩
    · -- no time has passed
      rw [heq, hbegins.clock, if_neg (Nat.lt_irrefl _)]
      exact hagrees
    · have hlater := hlater nofun
      have hclock : (s'.passTo ms).clock.elapsed = ms := by
        show max s'.clock.elapsed ms = ms
        rw [hbegins.clock]
        omega
      have hend : t.clock.elapsed + (ms - s.clock.elapsed) = ms := by
        rw [h.clock_eq]
        omega
      rw [heq, hclock, if_pos hlater]
      show (s'.passTo ms).Agrees name (t.passTo (t.clock.elapsed + (ms - s.clock.elapsed)))
      rw [hend]
      exact hagrees.passTo (hs.begins hbegins) ht ms

/-- **A session agrees with what is left of it without the others.** -/
theorem Agrees.follow_only (h : s.Agrees name t) (hs : s.Coherent) (ht : t.Coherent)
    (events : List Event) : (s.follow events).Agrees name (t.follow (s.only name events)) := by
  induction events generalizing s t with
  | nil => exact h
  | cons e events ih =>
    have hfollow : t.follow (s.only name (e :: events)) =
        (t.follow (s.kept name e)).follow ((s.happen e).only name events) := List.foldl_append
    rw [hfollow]
    exact ih (h.kept hs ht e) (hs.happen e) (ht.follow _)

/-- **Jobs do not interfere.**  Whatever is addressed to others leaves a job and its entry as they
are, unless somebody waits; then they move as they do whenever time passes, which depends on
nothing but the two of them and the calls on behalf of the job.  Ticks of others, with the
executions that these start and those that end before them, leave the job and its calls as they
are.  And at every moment the job, its entry but for the labels, and the answers about the job are
those of the session in which nothing is addressed to others and in which time passes where they
would have been waited for. -/
theorem alone_of_run (start : Instant) (historySize : Nat)
    (scripts : List (String × List Behaviour)) (events : List Event) (name : String) :
    let s := (init start historySize scripts).follow events
    let left := (init start historySize scripts).only name events
    let t := (init start historySize scripts).follow left
    -- what is addressed to others
    (∀ e other, e.target? = some other → name ≠ other →
      ((s.happen e).clock = s.clock ∧
        (s.happen e).scheduler.view name = s.scheduler.view name) ∨
      ∃ ms, s.clock.elapsed < ms ∧ (s.happen e).clock = s.clock.advanceTo ms ∧
        (s.happen e).scheduler.view name =
          (s.scheduler.view name).map (moved (s.clock.advanceTo ms) s.cancelled s.calls)) ∧
    -- ticks of others
    (∀ other n, s.scheduler.number? other = some n → name ≠ other →
      ∀ clock cancelled calls times,
        (passJob clock cancelled (s.scheduler, calls) (n, times)).1.view name =
          s.scheduler.view name ∧
        ∀ caller, caller.job = name →
          (passJob clock cancelled (s.scheduler, calls) (n, times)).2.timesOf caller =
            calls.timesOf caller) ∧
    -- time
    (∀ ms, (s.passTo ms).scheduler.view name =
      (s.scheduler.view name).map (moved (s.clock.advanceTo ms) s.cancelled s.calls)) ∧
    (∀ clock cancelled calls calls', ∀ p, s.scheduler.view name = some p →
      (∀ caller, caller.job = name → calls'.timesOf caller = calls.timesOf caller) →
      moved clock cancelled calls' p = moved clock cancelled calls p) ∧
    -- without the others
    (∀ e ∈ left, e.target? = none ∨ e.target? = some name) ∧
    left.filter (·.target? = some name) = events.filter (·.target? = some name) ∧
    t.clock = s.clock ∧
    (t.scheduler.view name).map unlabelled = (s.scheduler.view name).map unlabelled ∧
    ∀ r, r.target? = some name → r ≠ .getJob name → (t.step r).2 = (s.step r).2 := by
  intro s left t
  have hinit := coherent_init start historySize scripts
  have hs : s.Coherent := hinit.follow events
  have ht : t.Coherent := hinit.follow left
  have hbeginning : (init start historySize scripts).Agrees name (init start historySize scripts) :=
    .intro (s := init start historySize scripts) none (fun _ _ => rfl) ⟨rfl, rfl, .unknown rfl rfl⟩
  have hagrees : s.Agrees name t := hbeginning.follow_only hinit hinit events
  have htargets := (init start historySize scripts).target?_only name events
  refine ⟨fun e other he hne => hs.view_happen_of_ne he hne, fun other n hn hne => ?_,
    fun ms => hs.view_passTo ms name, fun clock cancelled calls calls' p hp same => ?_,
    htargets.1, htargets.2, hagrees.clock_eq, hagrees.view_eq, fun r hr hget => ?_⟩
  · exact hs.linked.view_passJob_of_ne hs.wired.numbered hn hne
  · exact moved_congr (same _ (hs.caller_of_view hp)) clock cancelled
  · exact (hagrees.step_own hs ht hr).2 hget

end Session

end Scheduler

end CronSupervisor
