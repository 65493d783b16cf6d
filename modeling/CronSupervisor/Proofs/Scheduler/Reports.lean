/-
  CronSupervisor.Proofs.Scheduler.Reports — how far behind a reported next run may be.

  The report on a job tells the next run that its entry has on record.  The entry looks it up when
  it is added, when triggering is started and after every firing, so it is right as long as timers
  are set.  While a scheduler rests nothing fires and nothing is looked up: the record stays what it
  was at the moment of the addition or of the stop, and as soon as a run has been due since then,
  what is reported as the next run is over.

  Main statements:
    * `Exact.nextAfter?_eq_iff`, `Exact.forall_lt_iff` — when an old look-up is still right.
    * `Entry.KnownAt` and its lemmas — the moment at which an entry looked up its next run.
    * `Changes.becomes` — what becomes of the entry of a name.
    * `Session.Attended.follow` — every entry looked up its next run at the last attended moment.
    * `Session.nextRun_of_run` — what is reported, after any list of events.
-/
import CronSupervisor.Platform
import CronSupervisor.Proofs.Scheduler.Order

namespace CronSupervisor

open Calendar Cron

/-! ## §1. Old look-ups -/

namespace Cron.Schedule.Exact

variable {s : Schedule} {t t' : Instant}

/-- The next run after an instant is still to come at a later one exactly if none was due in
between. -/
theorem forall_lt_iff (exact : s.Exact) : (∀ n, s.nextAfter? t = some n → t' < n) ↔
    ∀ m, s.IsMatch m → t < m → t' < m := by
  constructor
  · intro h m hm hlt
    cases hn : s.nextAfter? t with
    | none => exact absurd hlt (exact.not_lt_of_isMatch hn hm)
    | some n => exact Int.lt_of_lt_of_le (h n hn) (exact.le_of_isMatch hn hm hlt)
  · intro h n hn
    exact h n (exact.isMatch hn) (exact.lt hn)

/-- **A look-up stays right exactly until a run is due.** -/
theorem nextAfter?_eq_iff (exact : s.Exact) (hle : t ≤ t') : s.nextAfter? t = s.nextAfter? t' ↔
    ∀ m, s.IsMatch m → t < m → t' < m := by
  rw [← exact.forall_lt_iff]
  constructor
  · intro h n hn
    exact exact.lt (h.symm.trans hn)
  · intro h
    exact (exact.nextAfter?_of_le hle h).symm

end Cron.Schedule.Exact

/-! ## §2. Entries -/

namespace Engine.Entry

variable {α : Type} {x : Entry α} {c c' : Clock} {k : Nat} {isRunning : Bool}

/-- The entry looked up its next run at a moment, and if the engine runs its timer is set to it. -/
structure KnownAt (x : Entry α) (c : Clock) (isRunning : Bool) (k : Nat) : Prop where
  next : x.next = x.schedule.nextAfter? (c.instantAt k)
  timer : x.timer = if isRunning then x.next.map c.millisAt else none

theorem ArmedAt.known (armed : x.ArmedAt c k) : x.KnownAt c true k := ⟨armed.next, armed.timer⟩

theorem KnownAt.armed (known : x.KnownAt c true k) : x.ArmedAt c k := ⟨known.next, known.timer⟩

theorem knownAt_arm (x : Entry α) (exact : x.schedule.Exact) (c : Clock) :
    (x.arm c c.now c.elapsed).KnownAt c true c.elapsed :=
  (armedAt_arm exact (Nat.le_succ _)).known

namespace KnownAt

theorem disarm (known : x.KnownAt c isRunning k) : x.disarm.KnownAt c false k := ⟨known.next, rfl⟩

/-- While the engine runs the next run is looked up again and again. -/
theorem fireUntil (known : x.KnownAt c true c.elapsed) (exact : x.schedule.Exact)
    (goes : c.Goes c') : (x.fireUntil c' c'.elapsed).1.KnownAt c' true c'.elapsed :=
  (fireUntil_spec c' c'.elapsed x exact (known.armed.of_start c' goes.1) goes.2).1.known

/-- While it rests the next run stays on record as it was. -/
theorem fireUntil_of_resting (known : x.KnownAt c false k) (goes : c.Goes c') :
    (x.fireUntil c' c'.elapsed).1.KnownAt c' false k := by
  have hwaits : ∀ due, x.timer = some due → c'.elapsed < due := by
    intro due hdue
    cases known.timer.symm.trans hdue
  rw [fireUntil_of_waits hwaits]
  refine ⟨?_, known.timer⟩
  rw [goes.instantAt_eq]
  exact known.next

end KnownAt

end Engine.Entry

theorem Engine.knownAt_newEntry {α : Type} (e : Engine α) {schedule : Schedule}
    (exact : schedule.Exact) (c : Clock) (payload : α) :
    (e.newEntry c schedule payload).KnownAt c e.isRunning c.elapsed := by
  let blank : Entry α := { id := e.nextId, schedule, payload, next := none, timer := none }
  have harmed := blank.knownAt_arm exact c
  unfold newEntry
  cases e.isRunning with
  | true => exact harmed
  | false => exact harmed.disarm

namespace Scheduler

/-! ## §3. The entry of a name -/

/-- The entry of the job of a name. -/
def entryOf? (s : Scheduler) (name : String) : Option (Engine.Entry Nat) :=
  (s.view name).bind (·.2)

section Names

variable {s : Scheduler} {name : String} {number : Nat} {w : Worker} {x : Engine.Entry Nat}

theorem Holds.entryOf?_eq (h : s.Holds name number w x) : s.entryOf? name = some x := by
  unfold entryOf?
  rw [h.view_eq]
  rfl

theorem entryOf?_eq_none (hn : s.number? name = none) : s.entryOf? name = none := by
  unfold entryOf?
  rw [view_eq_none hn]
  rfl

/-- Who has an entry is registered. -/
theorem number?_isSome (h : s.entryOf? name = some x) : (s.number? name).isSome = true := by
  cases hn : s.number? name with
  | none => cases (entryOf?_eq_none hn).symm.trans h
  | some number => rfl

end Names

/-- What may become of the entry of a name at one moment, and of triggering. -/
inductive Becomes (c : Clock) (s s' : Scheduler) (name : String) : Prop
  | kept (entry : s'.entryOf? name = s.entryOf? name) (started : s'.startTime = s.startTime)
  | added {schedule : Schedule} {number : Nat} (fresh : s.number? name = none)
      (ordered : ∀ table ∈ schedule.timetables, table.Ordered)
      (entry : s'.entryOf? name = some (s.engine.newEntry c schedule number))
      (started : s'.startTime = s.startTime)
  | removed (entry : s'.entryOf? name = none) (started : s'.startTime = s.startTime)
  | started (entry : s'.entryOf? name = (s.entryOf? name).map fun x => x.arm c c.now c.elapsed)
      (started : s'.startTime.isSome = true)
  | stopped (entry : s'.entryOf? name = (s.entryOf? name).map Engine.Entry.disarm)
      (stopped : s'.startTime = none)

section Becoming

variable {s s' : Scheduler} {name : String} {c : Clock} {target : Option String}

theorem entryOf?_mapEntries (linked : s.Linked) (numbered : s.engine.Numbered) (isRunning : Bool)
    (startTime : Option Instant) {f : Engine.Entry Nat → Engine.Entry Nat}
    (keeps : ∀ x, (f x).id = x.id ∧ (f x).payload = x.payload) :
    ({ s with engine := s.engine.mapEntries isRunning f, startTime } : Scheduler).entryOf? name
      = (s.entryOf? name).map f := by
  cases hn : s.number? name with
  | none =>
    rw [entryOf?_eq_none hn]
    exact entryOf?_eq_none hn
  | some number =>
    obtain ⟨w, x, hold⟩ := linked.holds numbered hn
    rw [hold.entryOf?_eq, (hold.mapEntries isRunning startTime keeps).entryOf?_eq]
    rfl

theorem entryOf?_refreshAll (linked : s.Linked) (numbered : s.engine.Numbered) :
    s.refreshAll.entryOf? name = s.entryOf? name := by
  cases hn : s.number? name with
  | none =>
    have hn' : s.refreshAll.number? name = none := by
      obtain ⟨workers, heq⟩ := s.refreshAll_eq
      rw [heq]
      exact hn
    rw [entryOf?_eq_none hn, entryOf?_eq_none hn']
  | some number =>
    obtain ⟨w, x, hold⟩ := linked.holds numbered hn
    rw [hold.entryOf?_eq, hold.refreshAll.entryOf?_eq]

/-- **What becomes of the entry of a name**, whatever is done at one moment. -/
theorem Changes.becomes [ZoneBook] [Memory] (h : s.Changes c target s') (linked : s.Linked)
    (numbered : s.engine.Numbered) (name : String) : Becomes c s s' name := by
  by_cases hother : ∃ other, target = some other ∧ name ≠ other
  · obtain ⟨other, rfl, hne⟩ := hother
    refine .kept ?_ h.settings_eq.2
    unfold entryOf?
    rw [h.view_of_ne linked numbered hne]
  · have hname : ∀ other, target = some other → name = other := fun other htarget =>
      by_contra fun hne => hother ⟨other, htarget, hne⟩
    cases h with
    | nothing => exact .kept rfl rfl
    | @add other expr timezone options script _ ha =>
      obtain rfl := hname other rfl
      obtain ⟨hfresh, -⟩ := addJob_eq_ok ha
      have hr : s.register c (fun _ => script) ⟨name, expr, timezone, options⟩ = .ok s' := ha
      obtain ⟨⟨schedule, hparse⟩, hfits⟩ := parse_of_register hr
      obtain ⟨s₁, hs₁, -, hstart, hold⟩ :=
        addJob_of_fresh hfresh hparse hfits numbered c options script
      cases ha.symm.trans hs₁
      exact .added hfresh (Schedule.ordered_of_parse hparse) hold.entryOf?_eq hstart
    | @remove other _ hr =>
      obtain rfl := hname other rfl
      obtain ⟨number, -, rfl⟩ := removeJob_eq_ok hr
      exact .removed (entryOf?_eq_none Registry.lookup_remove_self) rfl
    | @act other number w w' hn hw hacts =>
      obtain rfl := hname other rfl
      obtain ⟨v, x, hold⟩ := linked.holds numbered hn
      cases hold.worker_eq.symm.trans hw
      refine .kept ?_ rfl
      rw [hold.entryOf?_eq, (hold.setWorker hacts.label_eq).entryOf?_eq]
    | @refresh other number hn =>
      obtain rfl := hname other rfl
      obtain ⟨w, x, hold⟩ := linked.holds numbered hn
      refine .kept ?_ rfl
      rw [hold.entryOf?_eq, hold.refreshJob.entryOf?_eq]
    | refreshAll =>
      refine .kept (entryOf?_refreshAll linked numbered) ?_
      obtain ⟨workers, heq⟩ := s.refreshAll_eq
      rw [heq]
    | start =>
      unfold Scheduler.start
      split
      next => exact .kept rfl rfl
      next hstopped =>
        -- the engine was at rest too, so all entries look up their next runs
        have hresting := linked.running_eq.trans (Bool.eq_false_iff.mpr hstopped)
        rw [Engine.start_of_resting hresting]
        have hlinked := linked.mapEntries (some c.now) true
          (f := fun x => x.arm c c.now c.elapsed) rfl (fun _ => ⟨rfl, rfl, rfl⟩)
          fun x _ => x.timed_arm c _ _
        have hnumbered := numbered.mapEntries (f := fun x => x.arm c c.now c.elapsed)
          (fun _ => rfl) true
        refine .started ?_ ?_
        · rw [entryOf?_refreshAll hlinked hnumbered]
          exact entryOf?_mapEntries linked numbered true _ fun _ => ⟨rfl, rfl⟩
        · obtain ⟨workers, heq⟩ := refreshAll_eq
            { s with engine := s.engine.mapEntries true _, startTime := some c.now }
          rw [heq]
          rfl
    | stop =>
      exact .stopped (entryOf?_mapEntries linked numbered false none fun _ => ⟨rfl, rfl⟩) rfl

end Becoming

/-- **While time passes every entry fires on its own.** -/
theorem Session.Coherent.entryOf?_passTo {s : Session} (hs : s.Coherent) (ms : Nat)
    (name : String) :
    (s.passTo ms).scheduler.entryOf? name = (s.scheduler.entryOf? name).map fun x =>
      (x.fireUntil (s.clock.advanceTo ms) (s.clock.advanceTo ms).elapsed).1 := by
  unfold entryOf?
  rw [hs.view_passTo]
  rcases s.scheduler.view name with _ | ⟨w, _ | x⟩ <;> rfl

/-! ## §4. Attended moments -/

namespace Session

variable {s s' : Session} {name : String} {k : Nat} {target : Option String}

/-- A job is registered, and nothing is triggered. -/
def Rests (s : Session) (name : String) : Prop :=
  (s.scheduler.number? name).isSome = true ∧ s.scheduler.startTime = none

instance (s : Session) (name : String) : Decidable (s.Rests name) :=
  inferInstanceAs (Decidable (_ ∧ _))

/-- The last moment at which a job did not rest, if it was `k` before. -/
def attended (s : Session) (name : String) (k : Nat) : Nat :=
  if s.Rests name then k else s.clock.elapsed

/-- The last moment at which a job did not rest, at the end of a list of events. -/
def attendedAfter [ZoneBook] [Memory] (name : String) : Session → Nat → List Event → Nat
  | _, k, [] => k
  | s, k, e :: events => attendedAfter name (s.happen e) ((s.happen e).attended name k) events

theorem attended_of_rests (h : s.Rests name) : s.attended name k = k := if_pos h

theorem attended_of_not (h : ¬ s.Rests name) : s.attended name k = s.clock.elapsed := if_neg h

theorem startTime_passTo (s : Session) (ms : Nat) :
    (s.passTo ms).scheduler.startTime = s.scheduler.startTime := by
  obtain ⟨workers, heq, -⟩ := s.scheduler.passTime_eq (s.clock.advanceTo ms) s.cancelled s.calls
  show (s.scheduler.passTime _ _ _).1.startTime = _
  rw [heq]

/-- Whether a job rests does not change while time passes. -/
theorem rests_passTo (s : Session) (ms : Nat) : (s.passTo ms).Rests name ↔ s.Rests name := by
  have hnumber : (s.passTo ms).scheduler.number? name = s.scheduler.number? name :=
    number?_passTime ..
  unfold Rests
  rw [hnumber, startTime_passTo]

theorem attended_passTo (s : Session) (ms : Nat) :
    (s.passTo ms).attended name (s.attended name k) = (s.passTo ms).attended name k := by
  by_cases hrests : (s.passTo ms).Rests name
  · rw [attended_of_rests hrests, attended_of_rests hrests,
      attended_of_rests ((s.rests_passTo ms).mp hrests)]
  · rw [attended_of_not hrests, attended_of_not hrests]

/-- The entry of a name looked up its next run at the last moment at which it did not rest. -/
structure Attended (s : Session) (name : String) (k : Nat) : Prop where
  le_elapsed : k ≤ s.clock.elapsed
  present : ¬ s.Rests name → k = s.clock.elapsed
  ordered : ∀ x, s.scheduler.entryOf? name = some x →
    ∀ table ∈ x.schedule.timetables, table.Ordered
  known : ∀ x, s.scheduler.entryOf? name = some x → x.schedule.Exact →
    x.KnownAt s.clock s.scheduler.startTime.isSome k

theorem attended_init (start : Instant) (historySize : Nat)
    (scripts : List (String × List Behaviour)) (name : String) :
    (init start historySize scripts).Attended name 0 :=
  ⟨Nat.le_refl _, fun _ => rfl, nofun, nofun⟩

namespace Attended

/-- What is left to show of a later session is what its entry knows. -/
theorem of_entry (h : s.Attended name k) (goes : s.clock.Goes s'.clock)
    (entry : ∀ x, s'.scheduler.entryOf? name = some x →
      (∀ table ∈ x.schedule.timetables, table.Ordered) ∧ (x.schedule.Exact →
        x.KnownAt s'.clock s'.scheduler.startTime.isSome (s'.attended name k))) :
    s'.Attended name (s'.attended name k) := by
  refine ⟨?_, attended_of_not, fun x hx => (entry x hx).1, fun x hx => (entry x hx).2⟩
  by_cases hrests : s'.Rests name
  · rw [attended_of_rests hrests]
    exact Nat.le_trans h.le_elapsed goes.2
  · exact Nat.le_of_eq (attended_of_not hrests)

/-- **What is done at one moment keeps an entry attended.** -/
theorem begins [ZoneBook] [Memory] (h : s.Attended name k) (hs : s.Coherent)
    (hb : s.Begins target s') : s'.Attended name (s'.attended name k) := by
  refine h.of_entry (hb.clock ▸ .refl _) fun x hx => ?_
  have hregistered := number?_isSome hx
  rw [hb.clock]
  cases hb.scheduler.becomes hs.linked hs.wired.numbered name with
  | kept entry started =>
    rw [entry] at hx
    have hk : s'.attended name k = k := by
      by_cases hrests : s'.Rests name
      · exact attended_of_rests hrests
      · -- nor did the job rest before
        have hstarted : s.scheduler.startTime ≠ none := fun heq =>
          hrests ⟨hregistered, started.trans heq⟩
        rw [attended_of_not hrests, hb.clock, h.present fun hc => hstarted hc.2]
    rw [hk, started]
    exact ⟨h.ordered x hx, h.known x hx⟩
  | added fresh ordered entry started =>
    obtain rfl := Option.some.inj (entry.symm.trans hx)
    have hk : k = s.clock.elapsed := h.present fun hc => by
      cases (congrArg Option.isSome fresh).symm.trans hc.1
    have hnow : s'.attended name k = s.clock.elapsed := by
      unfold attended
      rw [hb.clock, hk, ite_self]
    rw [(s.scheduler.engine.newEntry_eq _ _ _).2.1, hnow, started, ← hs.linked.running_eq]
    exact ⟨ordered, fun exact => s.scheduler.engine.knownAt_newEntry exact _ _⟩
  | removed entry => cases entry.symm.trans hx
  | started entry started =>
    obtain ⟨y, hy, rfl⟩ := Option.map_eq_some_iff.mp (entry.symm.trans hx)
    have hawake : ¬ s'.Rests name := fun hc => by
      rw [hc.2] at started
      cases started
    rw [attended_of_not hawake, hb.clock, started]
    exact ⟨h.ordered y hy, fun exact => y.knownAt_arm exact _⟩
  | stopped entry stopped =>
    obtain ⟨y, hy, rfl⟩ := Option.map_eq_some_iff.mp (entry.symm.trans hx)
    rw [attended_of_rests ⟨hregistered, stopped⟩, stopped]
    exact ⟨h.ordered y hy, fun exact => (h.known y hy exact).disarm⟩

/-- **An entry stays attended while time passes.** -/
theorem passTo (h : s.Attended name k) (hs : s.Coherent) (ms : Nat) :
    (s.passTo ms).Attended name ((s.passTo ms).attended name k) := by
  have goes := s.clock.goes_advanceTo ms
  have hstart := s.startTime_passTo ms
  refine h.of_entry goes fun x hx => ?_
  have hregistered := number?_isSome hx
  rw [hs.entryOf?_passTo] at hx
  obtain ⟨y, hy, rfl⟩ := Option.map_eq_some_iff.mp hx
  rw [(y.fireUntil_keeps _ _).2.1, hstart]
  refine ⟨h.ordered y hy, fun exact => ?_⟩
  have hknown := h.known y hy exact
  cases hst : s.scheduler.startTime with
  | none =>
    rw [attended_of_rests ⟨hregistered, hstart.trans hst⟩]
    rw [hst] at hknown
    exact hknown.fireUntil_of_resting goes
  | some t =>
    -- the job does not rest, so what it knew was up to date
    have hawake : ¬ (s.passTo ms).Rests name := fun hc => by
      cases hst.symm.trans (hstart.symm.trans hc.2)
    have hk : k = s.clock.elapsed := h.present fun hc => by cases hst.symm.trans hc.2
    rw [attended_of_not hawake]
    rw [hst, hk] at hknown
    exact hknown.fireUntil exact goes

variable [ZoneBook] [Memory]

/-- **Whatever happens, an entry stays attended.** -/
theorem happen (h : s.Attended name k) (hs : s.Coherent) (e : Event) :
    (s.happen e).Attended name ((s.happen e).attended name k) := by
  obtain ⟨s', hbegins, heq | ⟨ms, -, heq⟩⟩ := s.happen_begins e
  · rw [heq]
    exact h.begins hs hbegins
  · rw [heq]
    have hafter := (h.begins hs hbegins).passTo (hs.begins hbegins) ms
    rw [s'.attended_passTo ms] at hafter
    exact hafter

theorem follow (h : s.Attended name k) (hs : s.Coherent) (events : List Event) :
    (s.follow events).Attended name (attendedAfter name s k events) := by
  induction events generalizing s k with
  | nil => exact h
  | cons e events ih => exact ih (h.happen hs e) (hs.happen e)

end Attended

/-! ## §5. Reports -/

section Reports

variable [ZoneBook] [Memory]

/-- The report on a job, alone and among those on all jobs. -/
structure Reports (s : Session) (name : String) (status : Job.Status) : Prop where
  alone : (s.step (.status name)).2 = .status status
  among : ∃ statuses, (s.step .statuses).2 = .statuses statuses ∧ status ∈ statuses ∧
    ∀ other ∈ statuses, other.name = name → other = status

/-- The report on a registered job is its own, with what its entry has on record. -/
theorem Coherent.status_eq (hs : s.Coherent) {number : Nat}
    (hn : s.scheduler.number? name = some number) : ∃ w x, s.scheduler.Holds name number w x ∧
      w.job.name = name ∧ x.schedule = w.job.schedule ∧
      (s.step (.status name)).2 = .status (w.refreshed x.next).job.status := by
  obtain ⟨w, x, hold⟩ := hs.linked.holds hs.wired.numbered hn
  obtain ⟨v, hv, hname⟩ := hs.linked.exists_worker hn
  obtain ⟨u, hu, htie⟩ := hs.wired.held x (Engine.mem_of_find? hold.find_eq).1
  rw [hold.payload_eq] at hu
  cases hold.worker_eq.symm.trans hv
  cases hold.worker_eq.symm.trans hu
  refine ⟨w, x, hold, hname, (congrArg Prod.snd htie).symm, ?_⟩
  simp only [step, hn, hold.refreshJob.worker_eq]

/-- **A registered job is reported on**, alone and among all. -/
theorem Coherent.exists_report (hs : s.Coherent) {w : Worker}
    (hw : s.scheduler.find? name = some w) : ∃ x status, s.scheduler.entryOf? name = some x ∧
      x.schedule = w.job.schedule ∧ s.Reports name status ∧ status.nextRun = x.next := by
  obtain ⟨number, hn, hworker⟩ := Option.bind_eq_some_iff.mp hw
  obtain ⟨v, x, hold, -, hschedule, hstatus⟩ := hs.status_eq hn
  cases hold.worker_eq.symm.trans hworker
  obtain ⟨statuses, hstatuses, hmap⟩ := statuses_eq_map_status hs
  refine ⟨x, _, hold.entryOf?_eq, hschedule, ⟨hstatus, statuses, hstatuses, ?_, ?_⟩, rfl⟩
  · have hname : name ∈ s.scheduler.names := by
      by_contra hnot
      cases (number?_eq_none_iff.mpr hnot).symm.trans hn
    have hmem := List.mem_map_of_mem (f := fun name => (s.step (.status name)).2) hname
    rw [← hmap, hstatus] at hmem
    obtain ⟨status, hin, heq⟩ := List.mem_map.mp hmem
    cases heq
    exact hin
  · intro other hin hother
    have hmem := List.mem_map_of_mem (f := Reply.status) hin
    rw [hmap] at hmem
    obtain ⟨name', hname', heq⟩ := List.mem_map.mp hmem
    -- whoever is reported on under this name is reported on for it
    cases hn' : s.scheduler.number? name' with
    | none => exact absurd hname' (number?_eq_none_iff.mp hn')
    | some number' =>
      obtain ⟨u, y, -, huname, -, hustatus⟩ := hs.status_eq hn'
      have hreport := Reply.status.inj (heq.symm.trans hustatus)
      rw [hreport] at hother
      obtain rfl : name' = name := huname.symm.trans hother
      exact Reply.status.inj (heq.symm.trans hstatus)

/-- **A reported next run is as old as the last moment at which the job did not rest.**  At every
moment, whatever has happened, the report on a registered job in a zone of one offset tells the next
run as it was looked up when triggering was on for the last time or, if it has not been on since,
when the job was added.  It is the next run after the present, and it is still to come, exactly as
long as no run has been due since that moment; so it is while triggering is on. -/
theorem nextRun_of_run (start : Instant) (historySize : Nat)
    (scripts : List (String × List Behaviour)) (events : List Event) (name : String) (w : Worker)
    (registered : ((init start historySize scripts).follow events).scheduler.find? name = some w)
    (fixed : w.job.schedule.zone.IsFixed) :
    let s := (init start historySize scripts).follow events
    let since := attendedAfter name (init start historySize scripts) 0 events
    let now := s.clock.now
    let noneDue := ∀ m, w.job.schedule.IsMatch m → s.clock.instantAt since < m → now < m
    since ≤ s.clock.elapsed ∧
    ∃ status, s.Reports name status ∧
      status.nextRun = w.job.schedule.nextAfter? (s.clock.instantAt since) ∧
      (status.nextRun = w.job.schedule.nextAfter? now ↔ noneDue) ∧
      ((∀ n, status.nextRun = some n → now < n) ↔ noneDue) ∧
      (s.scheduler.startTime.isSome = true → since = s.clock.elapsed ∧ noneDue) := by
  intro s since now noneDue
  have hs : s.Coherent := (coherent_init start historySize scripts).follow events
  have hattended : s.Attended name since :=
    (attended_init start historySize scripts name).follow (coherent_init _ _ _) events
  obtain ⟨x, status, hx, hschedule, hreports, hnext⟩ := hs.exists_report registered
  have exact := Schedule.exact_of_fixed (hschedule ▸ hattended.ordered x hx) fixed
  have hknown := (hattended.known x hx (hschedule ▸ exact)).next
  rw [hschedule] at hknown
  rw [hknown] at hnext
  refine ⟨hattended.le_elapsed, status, hreports, hnext, ?_, ?_, fun hstarted => ?_⟩
  · rw [hnext]
    exact exact.nextAfter?_eq_iff (Clock.instantAt_le hattended.le_elapsed)
  · rw [hnext]
    exact exact.forall_lt_iff
  · have hsince : since = s.clock.elapsed := hattended.present fun hc => by
      rw [hc.2] at hstarted
      cases hstarted
    refine ⟨hsince, fun m _ hlt => ?_⟩
    rw [hsince] at hlt
    exact hlt

end Reports

section Platform

open Platform

/-- At noon a job is added that is due every five minutes; twenty minutes go by, and nobody starts
the scheduler. -/
def unattended : List Event :=
  [.request (.addJob "backup" "*/5 * * * *" "UTC" {}), .request (.advance 1200000)]

theorem nextRun_unattended :
    let s := (init (.ofSeconds 1717243200) 10 []).follow unattended
    s.clock.now = .ofSeconds 1717244400 ∧ ∃ w status, s.scheduler.find? "backup" = some w ∧
      w.job.schedule.nextAfter? s.clock.now = some (.ofSeconds 1717244700) ∧
      s.Reports "backup" status ∧ status.nextRun = some (.ofSeconds 1717243500) := by
  -- the look-ups at noon and at twenty past
  obtain ⟨schedule, accepted, hzone, hnoon, hlater⟩ : ∃ schedule,
      Schedule.parse "*/5 * * * *" "UTC" = .ok schedule ∧ schedule.zone = .fixed 0 ∧
      schedule.nextAfter? (.ofSeconds 1717243200) = some (.ofSeconds 1717243500) ∧
      schedule.nextAfter? (.ofSeconds 1717244400) = some (.ofSeconds 1717244700) :=
    ⟨_, rfl, rfl, rfl, rfl⟩
  have hfind : (((init (.ofSeconds 1717243200) 10 []).follow unattended).scheduler.find?
      "backup").map (·.job.schedule) = (Schedule.parse "*/5 * * * *" "UTC").toOption := by
    decide +kernel
  have hsince : attendedAfter "backup" (init (.ofSeconds 1717243200) 10 []) 0 unattended = 0 := by
    decide +kernel
  have hclock : ((init (.ofSeconds 1717243200) 10 []).follow unattended).clock
      = ⟨.ofSeconds 1717243200, 1200000⟩ := rfl
  have hnow : ((init (.ofSeconds 1717243200) 10 []).follow unattended).clock.now
      = .ofSeconds 1717244400 := rfl
  rw [accepted] at hfind
  obtain ⟨w, hw, rfl⟩ := Option.map_eq_some_iff.mp hfind
  have fixed : w.job.schedule.zone.IsFixed := ⟨0, fun utc => by rw [hzone]; rfl⟩
  obtain ⟨-, status, hreports, hnext, -⟩ :=
    nextRun_of_run (.ofSeconds 1717243200) 10 [] unattended "backup" w hw fixed
  rw [hsince, hclock] at hnext
  exact ⟨hnow, w, status, hw, hnow.symm ▸ hlater, hreports, hnext.trans hnoon⟩

end Platform

end Session

end Scheduler

end CronSupervisor
