/-
  CronSupervisor.Proofs.Scheduler.Coherence — registry, engine and jobs are in step.

  The same facts are kept in several places, and no session ever gets them out of step.  A session
  is wired and linked, and its jobs are orderly, whatever has happened in it; the engine issues new
  identifiers only; and the statistics, which are counted anew every time, count every name once.

  Main statements:
    * `Changes.goesOn` — identifiers that were issued are not issued again.
    * `Linked.length_states`, `Linked.count_states_eq` — the statistics count every registered job
      once, under its state.
    * `Session.Coherent.follow` — sessions stay wired and linked, and their jobs orderly.
    * `Session.coherent_of_run` — all of it, for every list of events.
-/
import CronSupervisor.Proofs.Scheduler.Links
import CronSupervisor.Proofs.Scheduler.Triggers

namespace CronSupervisor

open Calendar Cron

namespace Scheduler

/-! ## §1. Identifiers -/

/-- Refreshing jobs leaves everything else alone. -/
theorem refreshAll_eq (s : Scheduler) : ∃ workers, s.refreshAll = { s with workers } := by
  have hfold : ∀ (r : Registry) (s : Scheduler), ∃ workers,
      r.foldl (fun s p => s.refreshJob p.2) s = { s with workers } := by
    intro r
    induction r with
    | nil => exact fun s => ⟨s.workers, rfl⟩
    | cons p r ih => exact fun s => ih (s.refreshJob p.2)
  exact hfold s.registry s

/-- **Whatever is done at one moment, the engine goes on.** -/
theorem Changes.goesOn [ZoneBook] [Memory] {c : Clock} {s s' : Scheduler} {target : Option String}
    (h : s.Changes c target s') (numbered : s.engine.Numbered) : s.engine.GoesOn s'.engine := by
  cases h with
  | nothing => exact .refl _
  | add h =>
    obtain ⟨-, schedule, nextRun, caller, script, -, rfl⟩ := addJob_eq_ok h
    exact .add numbered c schedule _
  | remove h =>
    obtain ⟨number, -, rfl⟩ := removeJob_eq_ok h
    show s.engine.GoesOn (s.dismissed number)
    unfold dismissed
    cases (s.worker? number).bind (·.job.entry) with
    | some entry => exact .remove _ entry
    | none => exact .refl _
  | act _ hw h => exact .refl _
  | refresh => exact .refl _
  | refreshAll =>
    obtain ⟨workers, heq⟩ := s.refreshAll_eq
    rw [heq]
    exact .refl _
  | start =>
    unfold Scheduler.start
    split
    next => exact .refl _
    next =>
      obtain ⟨workers, heq⟩ := refreshAll_eq
        { s with engine := s.engine.start c, startTime := some c.now }
      rw [heq]
      exact .start _ c
  | stop => exact .stop _ c

/-! ## §2. Statistics -/

/-- The state of a registered job. -/
def state? (s : Scheduler) (name : String) : Option JobState := (s.find? name).map (·.job.state)

/-- Every job is in one of three states. -/
theorem count_states (states : List JobState) :
    states.count .idle + states.count .executing + states.count .paused = states.length := by
  induction states with
  | nil => rfl
  | cons state states ih =>
    rw [List.count_cons, List.count_cons, List.count_cons, List.length_cons, ← ih]
    cases state <;> simp <;> omega

namespace Linked

variable {s : Scheduler}

theorem state?_isSome (h : s.Linked) {name : String} (hname : name ∈ s.names) :
    (s.state? name).isSome = true := by
  obtain ⟨⟨n, number⟩, hp, rfl⟩ := List.mem_map.mp hname
  have hn : s.number? n = some number := h.sorted.lookup_eq_some_iff.mpr hp
  obtain ⟨w, hw, -⟩ := h.exists_worker hn
  unfold state?
  rw [find?_of_number? hn, hw]
  rfl

/-- What is gathered of the registered jobs is what is found under the names. -/
theorem map_registered (h : s.Linked) {α : Type} (f : Worker → α) :
    s.registered.map f = s.names.filterMap fun name => (s.find? name).map f := by
  unfold registered names
  rw [List.map_filterMap, List.filterMap_map]
  refine List.filterMap_congr fun p hp => ?_
  have hn : s.number? p.1 = some p.2 := h.sorted.lookup_eq_some_iff.mpr hp
  show (s.worker? p.2).map f = (s.find? p.1).map f
  rw [find?_of_number? hn]

/-- The states that are counted are those of the names. -/
theorem states_eq (h : s.Linked) :
    s.registered.map (·.job.state) = s.names.filterMap s.state? :=
  h.map_registered _

/-- **Every registered job is counted once.** -/
theorem length_states (h : s.Linked) :
    (s.registered.map (·.job.state)).length = s.names.length := by
  rw [h.states_eq, List.length_filterMap_eq_countP, List.countP_eq_length]
  exact fun name hname => h.state?_isSome hname

/-- **Every registered job is counted under its state.** -/
theorem count_states_eq (h : s.Linked) (state : JobState) :
    (s.registered.map (·.job.state)).count state
      = s.names.countP fun name => s.state? name = some state := by
  rw [h.states_eq, List.count_filterMap]
  refine List.countP_congr fun name _ => ?_
  rw [beq_iff_eq, decide_eq_true_eq]

end Linked

/-! ## §3. Sessions -/

namespace Session

/-- What sessions are known to be, whatever has happened in them. -/
structure Coherent (s : Session) : Prop where
  wired : s.scheduler.Wired s.clock.elapsed
  linked : s.scheduler.Linked
  orderly : ∀ n w, s.scheduler.worker? n = some w → w.job.Orderly s.clock

theorem coherent_init (start : Instant) (historySize : Nat)
    (scripts : List (String × List Behaviour)) : (init start historySize scripts).Coherent := by
  refine ⟨.empty historySize 0, .empty historySize, fun n w hw => ?_⟩
  change ([] : List Worker)[n]? = some w at hw
  rw [List.getElem?_nil] at hw
  cases hw

namespace Coherent

variable {s s' : Session}

theorem passTo (hs : s.Coherent) (ms : Nat) : (s.passTo ms).Coherent := by
  have hc := s.clock.goes_advanceTo ms
  have hpass := fun {n w} (hw : s.scheduler.worker? n = some w) =>
    passes_passTime hs.wired hc s.cancelled s.calls hw (hs.orderly n w hw)
  obtain ⟨workers, heq, hlength⟩ :=
    s.scheduler.passTime_eq (s.clock.advanceTo ms) s.cancelled s.calls
  refine ⟨wired_passTime hs.wired hs.orderly hc s.calls, ?_, fun n w' hw' => ?_⟩
  · show (s.scheduler.passTime _ _ _).1.Linked
    rw [heq]
    refine (hs.linked.fireUntil (s.clock.advanceTo ms)).of_workers hlength fun n w hw => ?_
    obtain ⟨-, w', hw', -, hlabel, -⟩ := hpass hw
    rw [heq] at hw'
    exact ⟨w', hw', hlabel⟩
  · change (s.scheduler.passTime _ _ _).1.worker? n = some w' at hw'
    have hlt : n < s.scheduler.workers.length := by
      rw [← s.scheduler.length_passTime (s.clock.advanceTo ms) s.cancelled s.calls]
      exact (List.getElem?_eq_some_iff.mp hw').1
    obtain ⟨-, v, hv, horderly, -⟩ := hpass (List.getElem?_eq_getElem hlt)
    cases hv.symm.trans hw'
    exact horderly

variable [ZoneBook] [Memory]

theorem begins (hs : s.Coherent) {target : Option String} (h : s.Begins target s') :
    s'.Coherent := by
  have hcontinues := h.scheduler.continues
  refine ⟨?_, h.scheduler.linked hs.linked, fun n w' hw' => ?_⟩
  · rw [h.clock]
    exact hcontinues.wired hs.wired
  · rw [h.clock]
    rcases hcontinues.jobs n w' hw' with ⟨w, hw, hcontinues⟩ | ⟨horderly, -⟩
    · exact hcontinues.orderly (hs.orderly n w hw)
    · exact horderly

/-- **Sessions stay coherent, whatever happens.** -/
theorem happen (hs : s.Coherent) (e : Event) : (s.happen e).Coherent := by
  obtain ⟨s', hbegins, heq | ⟨ms, -, heq⟩⟩ := s.happen_begins e
  · rw [heq]
    exact hs.begins hbegins
  · rw [heq]
    exact (hs.begins hbegins).passTo ms

theorem follow (hs : s.Coherent) (events : List Event) : (s.follow events).Coherent := by
  induction events generalizing s with
  | nil => exact hs
  | cons e events ih => exact ih (hs.happen e)

theorem goesOn_happen (hs : s.Coherent) (e : Event) :
    s.scheduler.engine.GoesOn (s.happen e).scheduler.engine := by
  obtain ⟨s', hbegins, hrest⟩ := s.happen_begins e
  have hgoes := hbegins.scheduler.goesOn hs.wired.numbered
  rcases hrest with heq | ⟨ms, -, heq⟩
  · rw [heq]
    exact hgoes
  · obtain ⟨workers, hpass, -⟩ :=
      s'.scheduler.passTime_eq (s'.clock.advanceTo ms) s'.cancelled s'.calls
    rw [heq]
    show s.scheduler.engine.GoesOn (s'.scheduler.passTime _ _ _).1.engine
    rw [hpass]
    exact hgoes.trans (.fireUntil _ _)

/-- **Whatever happens, identifiers are not issued again.** -/
theorem goesOn_follow (hs : s.Coherent) (events : List Event) :
    s.scheduler.engine.GoesOn (s.follow events).scheduler.engine := by
  induction events generalizing s with
  | nil => exact .refl _
  | cons e events ih => exact (hs.goesOn_happen e).trans (ih (hs.happen e))

end Coherent

/-- **Registry, engine and jobs are in step at every moment.**  Every registered job knows a live
entry, which has its schedule and triggers it and no other job, and every entry is that of one
registered name.  An identifier that was issued never comes to stand for anything else, and a new
job gets one that was not issued.  The engine runs when the scheduler was started; then every entry
with a next run has one timer, and otherwise none has any.  Names are in ascending order, and the
statistics count every name once, under the state of its job. -/
theorem coherent_of_run [ZoneBook] [Memory] (start : Instant) (historySize : Nat)
    (scripts : List (String × List Behaviour)) (events : List Event) :
    let session := (init start historySize scripts).follow events
    let s := session.scheduler
    -- jobs and entries
    (∀ name number, s.number? name = some number → ∃ w x, s.worker? number = some w ∧
      w.job.name = name ∧ w.job.entry = some x.id ∧ s.engine.find? x.id = some x ∧
      x.schedule = w.job.schedule ∧ x.payload = number) ∧
    (∀ x ∈ s.engine.entries, ∃! name, s.number? name = some x.payload) ∧
    (∀ x ∈ s.engine.entries, ∀ y ∈ s.engine.entries, x.id = y.id ∨ x.payload = y.payload → x = y) ∧
    -- identifiers
    (∀ more : List Event, s.engine.GoesOn (session.follow more).scheduler.engine) ∧
    (∀ name expr timezone options script s',
      s.addJob session.clock name expr timezone options script = .ok s' →
      s.engine.find? s.engine.nextId = none ∧ s.engine.nextId < s'.engine.nextId ∧
      (s'.find? name).map (·.job.entry) = some (some s.engine.nextId)) ∧
    -- whether it was started
    (s.engine.isRunning = true ↔ s.startTime.isSome = true) ∧
    s.stats.isStarted = s.engine.isRunning ∧ s.stats.startTime = s.startTime ∧
    -- timers
    (∀ x ∈ s.engine.entries, s.engine.timers.countP (fun t => t.1 = x.id) =
      if s.engine.isRunning ∧ x.next.isSome then 1 else 0) ∧
    (∀ t ∈ s.engine.timers, (s.engine.find? t.1).isSome = true ∧ session.clock.elapsed ≤ t.2) ∧
    -- names and statistics
    s.names.Pairwise (· < ·) ∧
    s.stats.totalJobs = s.names.length ∧
    s.stats.idleJobs + s.stats.executingJobs + s.stats.pausedJobs = s.stats.totalJobs ∧
    (∀ name ∈ s.names, (s.state? name).isSome = true) ∧
    s.stats.idleJobs = s.names.countP (fun name => s.state? name = some .idle) ∧
    s.stats.executingJobs = s.names.countP (fun name => s.state? name = some .executing) ∧
    s.stats.pausedJobs = s.names.countP (fun name => s.state? name = some .paused) := by
  intro session s
  have hs : session.Coherent := (coherent_init start historySize scripts).follow events
  have numbered : s.engine.Numbered := hs.wired.numbered
  have linked : s.Linked := hs.linked
  have hlength : s.names.length = s.registry.length := List.length_map _
  refine ⟨fun name number hn => ?_, fun x hx => ?_, fun x hx y hy heq => ?_, hs.goesOn_follow,
    fun name expr timezone options script s' hadd => ⟨?_, ?_, ?_⟩, ?_, linked.running_eq.symm, rfl,
    fun x hx => ?_, fun t ht => ?_, linked.sorted, hlength.symm, ?_,
    fun name hname => linked.state?_isSome hname, linked.count_states_eq .idle,
    linked.count_states_eq .executing, linked.count_states_eq .paused⟩
  · obtain ⟨w, x, hw, hx, hpayload, hfits⟩ := linked.entry_of name number hn
    exact ⟨w, x, hw, hfits.name_eq, hfits.entry_eq, numbered.find?_of_mem hx,
      hfits.schedule_eq.symm, hpayload⟩
  · obtain ⟨name, hname⟩ := hs.wired.registered x hx
    exact ⟨name, hname, fun other hother => linked.name_unique hother hname⟩
  · refine hs.wired.payload_inj hx hy ?_
    have hxid := linked.id_eq x hx
    have hyid := linked.id_eq y hy
    omega
  · exact numbered.find?_of_le (Nat.le_refl _)
  · obtain ⟨-, schedule, nextRun, caller, script, -, rfl⟩ := addJob_eq_ok hadd
    exact Nat.lt_succ_self _
  · obtain ⟨hfresh, schedule, nextRun, caller, script, -, rfl⟩ := addJob_eq_ok hadd
    unfold find? number? worker?
    rw [Registry.lookup_insert_self hfresh, Option.bind_some, List.getElem?_concat_length]
    rfl
  · rw [linked.running_eq]
  · rw [Engine.countP_timers numbered hx, linked.timed x hx]
    simp only [Bool.and_eq_true]
  · obtain ⟨x, hx, hxt⟩ := List.mem_filterMap.mp ht
    obtain ⟨due, hdue, rfl⟩ := Option.map_eq_some_iff.mp hxt
    refine ⟨?_, hs.wired.ahead x hx due hdue⟩
    rw [numbered.find?_of_mem hx]
    rfl
  · show _ + _ + _ = s.registry.length
    rw [← hlength, ← linked.length_states]
    exact count_states _

end Session

end Scheduler

end CronSupervisor
