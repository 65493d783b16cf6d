/-
  CronSupervisor.Proofs.Scheduler.Triggers — scheduled executions in the course of a session.

  An event first does something at once and may then let time pass; `passage?` takes the two apart.
  What is done at once never opens a scheduled execution, so all of these come of the ticks on the
  way, and the histories tell of no others.  Whoever triggers a job, it starts only once its last
  execution has ended or was given up.

  Main statements:
    * `happen_leads` — what an event does at once, and the passage of time that may follow.
    * `sound_follow` — jobs stay orderly, and ticks account for all scheduled executions.
    * `scheduled_of_run` — what becomes of every trigger that the engine dispatches.
-/
import CronSupervisor.Proofs.Scheduler.Ticks

namespace CronSupervisor

open Calendar Cron

/-! ## §1. What is done at once -/

/-- What may be done to a job at one moment: it stays orderly, and its schedule does not trigger
it. -/
structure Worker.Continues (c : Clock) (w w' : Worker) : Prop where
  orderly : w.job.Orderly c → w'.job.Orderly c
  scheduled : ∀ o ∈ w'.job.history.beginnings, o.2.2 = .schedule → o ∈ w.job.history.beginnings

namespace Worker.Continues

variable {c : Clock} {w w' w'' : Worker}

theorem refl (c : Clock) (w : Worker) : w.Continues c w := ⟨fun h => h, fun _ ho _ => ho⟩

theorem trans (h : w.Continues c w') (k : w'.Continues c w'') : w.Continues c w'' :=
  ⟨fun hw => k.orderly (h.orderly hw), fun o ho htag => h.scheduled o (k.scheduled o ho htag) htag⟩

theorem relabel (c : Clock) (w : Worker) (entry : Option Nat) (nextRun : Option Instant) :
    w.Continues c { w with job := { w.job with entry, nextRun } } :=
  ⟨fun h => h.relabel entry nextRun, fun _ ho _ => ho⟩

theorem of_acts (h : w.Acts c w') : w.Continues c w' := by
  refine ⟨h.orderly, fun o ho htag => ?_⟩
  cases h with
  | pause h =>
    unfold Job.pause at h
    split at h <;> cases h <;> exact ho
  | resume h =>
    unfold Job.resume at h
    split at h <;> cases h
    exact ho
  | launch unscheduled _ h =>
    -- the new beginning is not a scheduled one
    rw [(beginnings_launch h).1] at ho
    rcases List.mem_cons.mp ho with rfl | ho
    · exact absurd htag unscheduled
    · exact List.mem_of_mem_take ho
  | forsake =>
    rwa [← w.job.beginnings_forsake c.now]

end Worker.Continues

namespace Scheduler

/-- What may be done to a scheduler at one moment: it stays wired, its jobs continue, and schedules
have not triggered the new ones yet. -/
structure Continues (c : Clock) (s s' : Scheduler) : Prop where
  wired : s.Wired c.elapsed → s'.Wired c.elapsed
  jobs : ∀ n w', s'.worker? n = some w' → (∃ w, s.worker? n = some w ∧ w.Continues c w') ∨
    (w'.job.Orderly c ∧ ∀ o ∈ w'.job.history.beginnings, o.2.2 ≠ .schedule)

namespace Continues

variable {c : Clock} {s s' s'' : Scheduler}

theorem refl (c : Clock) (s : Scheduler) : s.Continues c s :=
  ⟨fun h => h, fun _ w' hw => .inl ⟨w', hw, .refl c w'⟩⟩

theorem trans (h : s.Continues c s') (k : s'.Continues c s'') : s.Continues c s'' := by
  refine ⟨fun hs => k.wired (h.wired hs), fun n w'' hw'' => ?_⟩
  -- a job of the end comes of one of the middle, or is new; so does that of one of the beginning
  rcases k.jobs n w'' hw'' with ⟨w', hw', hk⟩ | hnew
  · rcases h.jobs n w' hw' with ⟨w, hw, hh⟩ | ⟨horderly, hnone⟩
    · exact .inl ⟨w, hw, hh.trans hk⟩
    · exact .inr ⟨hk.orderly horderly, fun o ho htag => hnone o (hk.scheduled o ho htag) htag⟩
  · exact .inr hnew

theorem setWorker {number : Nat} {w w' : Worker} (hw : s.worker? number = some w)
    (h : w.Continues c w') (htie : tie w'.job = tie w.job) :
    s.Continues c (s.setWorker number w') := by
  refine ⟨fun hs => hs.setWorker hw htie, fun n v hv => .inl ?_⟩
  rw [s.worker?_setWorker hw] at hv
  by_cases hn : n = number
  · rw [if_pos hn] at hv
    cases hv
    exact ⟨w, hn ▸ hw, h⟩
  · rw [if_neg hn] at hv
    exact ⟨v, hv, .refl c v⟩

theorem jobs_modifyJob {number : Nat} {f : Job → Job}
    (relabels : ∀ j, ∃ entry nextRun, f j = { j with entry, nextRun }) (n : Nat) (w' : Worker)
    (hw' : (s.modifyJob number f).worker? n = some w') :
    ∃ w, s.worker? n = some w ∧ w.Continues c w' := by
  rw [worker?_modifyJob, Option.map_eq_some_iff] at hw'
  obtain ⟨w, hw, rfl⟩ := hw'
  refine ⟨w, hw, ?_⟩
  split
  next =>
    obtain ⟨entry, nextRun, hf⟩ := relabels w.job
    rw [hf]
    exact .relabel c w entry nextRun
  next => exact .refl c w

theorem refreshJob (c : Clock) (s : Scheduler) (number : Nat) :
    s.Continues c (s.refreshJob number) := by
  refine ⟨fun hs => hs.refreshJob number, fun n w' hw' => .inl ?_⟩
  refine jobs_modifyJob (fun j => ?_) n w' hw'
  unfold refresh
  split
  next => exact ⟨j.entry, _, rfl⟩
  next => exact ⟨j.entry, j.nextRun, rfl⟩

theorem refreshAll (c : Clock) (s : Scheduler) : s.Continues c s.refreshAll := by
  unfold Scheduler.refreshAll
  generalize s.registry = r
  induction r generalizing s with
  | nil => exact .refl c s
  | cons p r ih => exact (refreshJob c s p.2).trans (ih (s.refreshJob p.2))

theorem start (c : Clock) (s : Scheduler) : s.Continues c (s.start c) := by
  refine ⟨fun hs => hs.start, ?_⟩
  unfold Scheduler.start
  split
  next => exact (refl c s).jobs
  next => exact (refreshAll c { s with engine := s.engine.start c, startTime := some c.now }).jobs

theorem stop (c : Clock) (s : Scheduler) : s.Continues c (s.stop c).1 :=
  ⟨fun hs => hs.stop c, fun _ w' hw' => .inl ⟨w', hw', .refl c w'⟩⟩

theorem addJob [ZoneBook] [Memory] {name expr timezone : String} {options : JobOptions}
    {script : List Behaviour} (h : s.addJob c name expr timezone options script = .ok s') :
    s.Continues c s' := by
  refine ⟨fun hs => hs.addJob h, fun n w' hw' => ?_⟩
  obtain ⟨-, schedule, nextRun, caller, script, -, rfl⟩ := addJob_eq_ok h
  change (s.workers ++ _)[n]? = some w' at hw'
  by_cases hn : n < s.workers.length
  · rw [List.getElem?_append_left hn] at hw'
    exact .inl ⟨w', hw', .refl c w'⟩
  · -- the new job
    rw [List.getElem?_append_right (Nat.not_lt.mp hn), List.getElem?_singleton,
      Option.ite_none_right_eq_some] at hw'
    obtain rfl := Option.some.inj hw'.2
    exact .inr ⟨(Job.orderly_create _ _ _ _ _ _ c).relabel _ _, nofun⟩

theorem removeJob {name : String} (h : s.removeJob name = .ok s') : s.Continues c s' := by
  refine ⟨fun hs => hs.removeJob h, fun n w' hw' => .inl ?_⟩
  obtain ⟨number, -, rfl⟩ := removeJob_eq_ok h
  exact jobs_modifyJob (fun j => ⟨none, j.nextRun, rfl⟩) n w' hw'

end Continues

/-! ## §2. Sound sessions -/

namespace Session

/-- What is done at once. -/
structure Leads (s s' : Session) : Prop where
  clock : s'.clock = s.clock
  scheduler : s.scheduler.Continues s.clock s'.scheduler

/-- What sessions are known to be, when these ticks have happened in them. -/
structure Sound (s : Session) (ticks : List Tick) : Prop where
  wired : s.scheduler.Wired s.clock.elapsed
  orderly : ∀ n w, s.scheduler.worker? n = some w → w.job.Orderly s.clock
  /-- Scheduled executions come of ticks. -/
  scheduled : ∀ n w, s.scheduler.worker? n = some w → ∀ o ∈ w.job.history.beginnings,
    o.2.2 = .schedule → ∃ t ∈ ticks, t.number = n ∧ t.before.state = .idle ∧
      o = (t.before.history.nextId, t.now, .schedule)
  obeyed : ∀ t ∈ ticks, t.Obeyed

variable {s s' : Session} {ticks : List Tick}

theorem sound_init (start : Instant) (historySize : Nat)
    (scripts : List (String × List Behaviour)) : (init start historySize scripts).Sound [] := by
  have hnone : ∀ n, (init start historySize scripts).scheduler.worker? n = none :=
    fun _ => List.getElem?_nil
  refine ⟨.empty historySize 0, fun n w hw => ?_, fun n w hw => ?_, fun _ ht => ?_⟩
  · rw [hnone] at hw
    cases hw
  · rw [hnone] at hw
    cases hw
  · exact absurd ht List.not_mem_nil

theorem Sound.leads (hs : s.Sound ticks) (h : s.Leads s') : s'.Sound ticks := by
  obtain ⟨hclock, hwired, hjobs⟩ := h
  refine ⟨?_, fun n w' hw' => ?_, fun n w' hw' o ho htag => ?_, hs.obeyed⟩
  · rw [hclock]
    exact hwired hs.wired
  · rw [hclock]
    rcases hjobs n w' hw' with ⟨w, hw, hcontinues⟩ | ⟨horderly, -⟩
    · exact hcontinues.orderly (hs.orderly n w hw)
    · exact horderly
  · rcases hjobs n w' hw' with ⟨w, hw, hcontinues⟩ | ⟨-, hnone⟩
    · exact hs.scheduled n w hw o (hcontinues.scheduled o ho htag) htag
    · exact absurd htag (hnone o ho)

theorem Sound.passTo (hs : s.Sound ticks) (ms : Nat) : (s.passTo ms).Sound
    (ticks ++ s.scheduler.ticks (s.clock.advanceTo ms) s.cancelled s.calls) := by
  have hc := s.clock.goes_advanceTo ms
  have hjob : ∀ n w', (s.passTo ms).scheduler.worker? n = some w' → ∃ w,
      s.scheduler.worker? n = some w := by
    intro n w' hw'
    have hlt : n < s.scheduler.workers.length := by
      rw [← s.scheduler.length_passTime (s.clock.advanceTo ms) s.cancelled s.calls]
      exact (List.getElem?_eq_some_iff.mp hw').1
    exact ⟨_, List.getElem?_eq_getElem hlt⟩
  refine ⟨?_, ?_, ?_, ?_⟩
  · exact wired_passTime hs.wired hs.orderly hc s.calls
  · intro n w' hw'
    obtain ⟨w, hw⟩ := hjob n w' hw'
    obtain ⟨-, v, hv, horderly, -⟩ :=
      passes_passTime hs.wired hc s.cancelled s.calls hw (hs.orderly n w hw)
    cases hv.symm.trans hw'
    exact horderly
  · intro n w' hw' o ho htag
    obtain ⟨w, hw⟩ := hjob n w' hw'
    obtain ⟨hown, v, hv, -, -, hpasses⟩ :=
      passes_passTime hs.wired hc s.cancelled s.calls hw (hs.orderly n w hw)
    cases hv.symm.trans hw'
    -- the execution was there before, or a tick on the way has opened it
    rcases hpasses.scheduled hown o ho htag with hold | ⟨t, ht, hidle, heq⟩
    · obtain ⟨t, ht, hrest⟩ := hs.scheduled n w hw o hold htag
      exact ⟨t, List.mem_append_left _ ht, hrest⟩
    · obtain ⟨ht, hnumber⟩ := List.mem_filter.mp ht
      exact ⟨t, List.mem_append_right _ ht, of_decide_eq_true hnumber, hidle, heq⟩
  · intro t ht
    rcases List.mem_append.mp ht with ht | ht
    · exact hs.obeyed t ht
    · exact (obeyed_of_mem_ticks hs.wired hs.orderly hc ht).1

end Session

/-! ## §3. Events -/

variable [ZoneBook] [Memory]

/-- **Nothing that is done at one moment is a scheduled trigger.** -/
theorem Changes.continues {c : Clock} {s s' : Scheduler} {target : Option String}
    (h : s.Changes c target s') : s.Continues c s' := by
  cases h with
  | nothing => exact .refl c s
  | add h => exact .addJob h
  | remove h => exact .removeJob h
  | act _ hw h => exact .setWorker hw (.of_acts h) (tie_eq_of_label h.label_eq)
  | refresh => exact .refreshJob c s _
  | refreshAll => exact .refreshAll c s
  | start => exact .start c s
  | stop => exact .stop c s

namespace Session

/-- The scheduled triggers while an event lets time pass. -/
def ticks (s : Session) (e : Event) : List Tick :=
  match s.passage? e with
  | some (s, ms) => s.scheduler.ticks (s.clock.advanceTo ms) s.cancelled s.calls
  | none => []

/-- The scheduled triggers in the course of a list of events. -/
def allTicks (s : Session) : List Event → List Tick
  | [] => []
  | e :: es => s.ticks e ++ (s.happen e).allTicks es

theorem Begins.leads {s s' : Session} {target : Option String} (h : s.Begins target s') :
    s.Leads s' := ⟨h.clock, h.scheduler.continues⟩

/-- **An event does something at once, and then it may let time pass.** -/
theorem happen_leads (s : Session) (e : Event) :
    (∃ s' ms, s.passage? e = some (s', ms) ∧ s.Leads s' ∧ s.happen e = s'.passTo ms) ∨
      (s.passage? e = none ∧ s.Leads (s.happen e)) := by
  rcases s.happen_parts e with ⟨s', ms, hpassage, hbegins, -, heq⟩ | ⟨hnone, hbegins⟩
  · exact .inl ⟨s', ms, hpassage, hbegins.leads, heq⟩
  · exact .inr ⟨hnone, hbegins.leads⟩

/-! ## §4. Whole sessions -/

variable {s s' : Session} {ticks : List Tick}

/-- **Sessions stay sound, whatever happens to them.** -/
theorem sound_happen (hs : s.Sound ticks) (e : Event) :
    (s.happen e).Sound (ticks ++ s.ticks e) := by
  unfold Session.ticks
  rcases s.happen_leads e with ⟨s', ms, hpassage, hleads, heq⟩ | ⟨hnone, hleads⟩
  · rw [hpassage, heq]
    exact (hs.leads hleads).passTo ms
  · rw [hnone, List.append_nil]
    exact hs.leads hleads

theorem sound_follow (hs : s.Sound ticks) (es : List Event) :
    (s.follow es).Sound (ticks ++ s.allTicks es) := by
  induction es generalizing s ticks with
  | nil =>
    rw [allTicks, List.append_nil]
    exact hs
  | cons e es ih =>
    rw [allTicks, ← List.append_assoc]
    exact ih (sound_happen hs e)

/-- What happens to the jobs while an event lets time pass. -/
theorem ticks_of_passage (hs : s.Sound ticks) {e : Event} {ms : Nat}
    (h : s.passage? e = some (s', ms)) :
    s.happen e = s'.passTo ms ∧
    (s.ticks e).map (fun t => (t.number, t.time, t.now)) =
      (s'.scheduler.engine.fireUntil (s'.clock.advanceTo ms)).2.flatMap (fun f =>
        f.2.map fun t => (f.1, t, (s'.clock.advanceTo ms).instantAt t)) ∧
    (∀ t ∈ s.ticks e, ∃ name, s'.scheduler.number? name = some t.number) ∧
    ∀ n w, s'.scheduler.worker? n = some w → ∃ w',
      (s.happen e).scheduler.worker? n = some w' ∧
      Job.Passes (s'.clock.advanceTo ms) s'.cancelled w.job
        ((s.ticks e).filter (·.number = n)) w'.job := by
  rcases s.happen_leads e with ⟨t, k, hpassage, hleads, heq⟩ | ⟨hnone, -⟩
  · cases hpassage.symm.trans h
    have hs' := hs.leads hleads
    have hc := s'.clock.goes_advanceTo ms
    unfold Session.ticks
    rw [h, heq]
    refine ⟨rfl, map_ticks hs'.wired _ _ _, fun t ht => ?_, fun n w hw => ?_⟩
    · exact (obeyed_of_mem_ticks hs'.wired hs'.orderly hc ht).2
    · obtain ⟨-, w', hw', -, -, hway⟩ :=
        passes_passTime hs'.wired hc s'.cancelled s'.calls hw (hs'.orderly n w hw)
      exact ⟨w', hw', hway⟩
  · cases hnone.symm.trans h

/-- **What becomes of every trigger that the engine dispatches.**  A trigger that finds its job idle
opens one scheduled execution at that moment, and any other leaves the job as it is.  Every
scheduled entry of a history comes of such a trigger, and whatever started an entry, the older ones
had ended by then.  The triggers are the firings of the engine while an event lets time pass; all
of them go to registered jobs, and between them nothing happens to a job but that its executor
returns.  Other events take no time, among them callers that set out to wait for an execution on
their own or give it up. -/
theorem scheduled_of_run (start : Instant) (historySize : Nat)
    (scripts : List (String × List Behaviour)) (events : List Event) :
    let s := (init start historySize scripts).follow events
    let ticks := (init start historySize scripts).allTicks events
    (∀ t ∈ ticks,
      (t.before.state = .idle →
        t.after.history.beginnings = (t.before.history.nextId, t.now, .schedule) ::
            t.before.history.beginnings.take (t.before.history.capacity - 1) ∧
          t.after.lastRun = some t.now) ∧
      (t.before.state ≠ .idle → t.after = t.before)) ∧
    (∀ n w, s.scheduler.worker? n = some w →
      (∀ e ∈ w.job.history.entries, e.trigger = .schedule → ∃ t ∈ ticks, t.number = n ∧
        t.before.state = .idle ∧ e.id = t.before.history.nextId ∧ e.startTime = t.now) ∧
      w.job.history.entries.Pairwise (fun newer older =>
        ∃ d, older.endTime = some d ∧ d ≤ newer.startTime) ∧
      ∀ e ∈ w.job.history.entries, ∀ d, e.endTime = some d → e.startTime ≤ d) ∧
    (∀ e s' ms, s.passage? e = some (s', ms) →
      let clock := s'.clock.advanceTo ms
      s.happen e = s'.passTo ms ∧
      (s.ticks e).map (fun t => (t.number, t.time, t.now)) =
        (s'.scheduler.engine.fireUntil clock).2.flatMap (fun f =>
          f.2.map fun t => (f.1, t, clock.instantAt t)) ∧
      (∀ t ∈ s.ticks e, ∃ name, s'.scheduler.number? name = some t.number) ∧
      ∀ n w, s'.scheduler.worker? n = some w → ∃ w',
        (s.happen e).scheduler.worker? n = some w' ∧
        Job.Passes clock s'.cancelled w.job ((s.ticks e).filter (·.number = n)) w'.job) ∧
    ∀ e, s.passage? e = none → (s.happen e).clock = s.clock := by
  intro s ticks
  have hs : s.Sound ticks := sound_follow (sound_init start historySize scripts) events
  refine ⟨hs.obeyed, fun n w hw => ⟨fun e he htag => ?_, ?_, ?_⟩, fun e s' ms h => ?_,
    fun e h => ?_⟩
  · obtain ⟨t, ht, hnumber, hidle, heq⟩ :=
      hs.scheduled n w hw (e.id, e.startTime, e.trigger) (List.mem_map_of_mem he) htag
    rw [Prod.mk.injEq, Prod.mk.injEq] at heq
    exact ⟨t, ht, hnumber, hidle, heq.1, heq.2.1⟩
  · exact (hs.orderly n w hw).apart
  · exact fun e he d hd => (((hs.orderly n w hw).past e he).2 d hd).1
  · exact ticks_of_passage hs h
  · rcases s.happen_leads e with ⟨t, k, hpassage, -, -⟩ | ⟨-, hleads⟩
    · cases hpassage.symm.trans h
    · exact hleads.clock

end Session

end Scheduler

end CronSupervisor
