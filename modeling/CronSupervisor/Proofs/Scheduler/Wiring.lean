/-
  CronSupervisor.Proofs.Scheduler.Wiring — which job an engine entry triggers.

  A job knows the entry that triggers it, the entry carries the number of the job, and the registry
  maps the name of the job to that number.  As long as these fit together, every firing of the
  engine goes to a registered job, and two entries never trigger the same one.

  Main statements:
    * `Wired` — entries, jobs and registry fit together.
    * `Wired.addJob`, `Wired.removeJob`, `Wired.start`, `Wired.stop`, `Wired.fireUntil` and the
      lemmas on changed jobs — they go on to do so.
    * `Wired.payload_inj` — two entries trigger different jobs.
-/
import CronSupervisor.Proofs.Engine.Entries
import CronSupervisor.Scheduler.Basic

namespace CronSupervisor

open Calendar Cron

/-! ## §1. The registry -/

namespace Registry

variable {name other : String} {number : Nat} {r : Registry}

theorem lookup_insert_self (fresh : r.lookup name = none) :
    (insert name number r).lookup name = some number := by
  induction r with
  | nil => simp [insert]
  | cons p r ih =>
    obtain ⟨n, k⟩ := p
    rw [List.lookup_cons] at fresh
    cases hn : name == n with
    | true =>
      rw [hn] at fresh
      cases fresh
    | false =>
      rw [hn] at fresh
      unfold insert
      split
      next => rw [List.lookup_cons, beq_self_eq_true]
      next =>
        rw [List.lookup_cons, hn]
        exact ih fresh

theorem lookup_insert_of_ne (h : other ≠ name) :
    (insert name number r).lookup other = r.lookup other := by
  have hother : (other == name) = false := beq_false_of_ne h
  induction r with
  | nil => rw [insert, List.lookup_cons, hother]
  | cons p r ih =>
    obtain ⟨n, k⟩ := p
    unfold insert
    split
    next => rw [List.lookup_cons, hother]
    next =>
      rw [List.lookup_cons, List.lookup_cons, ih]

theorem lookup_remove_of_ne (h : other ≠ name) :
    (remove name r).lookup other = r.lookup other := by
  induction r with
  | nil => rfl
  | cons p r ih =>
    obtain ⟨n, k⟩ := p
    unfold remove at ih ⊢
    rw [List.filter_cons, List.lookup_cons]
    by_cases hn : n = name
    · have hother : (other == n) = false := beq_false_of_ne (hn ▸ h)
      rw [if_neg (by simpa using hn), hother]
      exact ih
    · rw [if_pos (by simpa using hn), List.lookup_cons, ih]

end Registry

namespace Scheduler

/-! ## §2. Jobs by number -/

theorem worker?_setWorker (s : Scheduler) {number : Nat} {w : Worker}
    (h : s.worker? number = some w) (w' : Worker) (n : Nat) :
    (s.setWorker number w').worker? n = if n = number then some w' else s.worker? n := by
  have hlt : number < s.workers.length := (List.getElem?_eq_some_iff.mp h).1
  show (s.workers.set number w')[n]? = _
  rw [List.getElem?_set]
  by_cases hn : n = number
  · rw [if_pos hn.symm, if_pos hn, if_pos (hn ▸ hlt)]
  · rw [if_neg fun heq => hn heq.symm, if_neg hn]
    rfl

theorem worker?_modifyJob (s : Scheduler) (number : Nat) (f : Job → Job) (n : Nat) :
    (s.modifyJob number f).worker? n =
      (s.worker? n).map fun w => if n = number then { w with job := f w.job } else w := by
  show (s.workers.modify number _)[n]? = _
  rw [List.getElem?_modify]
  by_cases hn : n = number
  · simp only [if_pos hn, if_pos hn.symm]
    rfl
  · simp only [if_neg hn, if_neg fun heq => hn (Eq.symm heq), id_map', Option.map_id']
    rfl

/-! ## §3. Entries, jobs and names -/

/-- What ties a job to the engine: the entry that it knows of, and its schedule. -/
def tie (j : Job) : Option Nat × Schedule := (j.entry, j.schedule)

/-- What time and triggers leave as it is: whose executor is called, the name of the job, and what
ties it to the engine. -/
def label (w : Worker) : Caller × String × Option Nat × Schedule :=
  (w.caller, w.job.name, tie w.job)

theorem tie_eq_of_label {w w' : Worker} (h : label w' = label w) : tie w'.job = tie w.job :=
  congrArg (fun l => l.2.2) h

/-- Every entry triggers the registered job that knows of it, and no timer is overdue. -/
structure Wired (s : Scheduler) (now : Nat) : Prop where
  numbered : s.engine.Numbered
  held : ∀ x ∈ s.engine.entries, ∃ w, s.worker? x.payload = some w ∧
    tie w.job = (some x.id, x.schedule)
  registered : ∀ x ∈ s.engine.entries, ∃ name, s.number? name = some x.payload
  ahead : ∀ x ∈ s.engine.entries, ∀ due, x.timer = some due → now ≤ due

namespace Wired

variable {s : Scheduler} {now : Nat}

theorem empty (historySize now : Nat) : ({ historySize } : Scheduler).Wired now where
  numbered := Engine.numbered_empty
  held := nofun
  registered := nofun
  ahead := nofun

/-- **Two entries trigger different jobs.** -/
theorem payload_inj (h : s.Wired now) {x y : Engine.Entry Nat} (hx : x ∈ s.engine.entries)
    (hy : y ∈ s.engine.entries) (heq : x.payload = y.payload) : x = y := by
  obtain ⟨w, hw, htie⟩ := h.held x hx
  obtain ⟨w', hw', htie'⟩ := h.held y hy
  rw [heq, hw'] at hw
  cases hw
  have hid : x.id = y.id :=
    Option.some.inj (congrArg Prod.fst (htie.symm.trans htie'))
  have hfind := h.numbered.find?_of_mem hx
  rw [hid, h.numbered.find?_of_mem hy] at hfind
  exact (Option.some.inj hfind).symm

/-! ### Changed jobs -/

/-- Jobs may change as long as they keep their ties. -/
theorem of_workers (h : s.Wired now) {s' : Scheduler} (engine : s'.engine = s.engine)
    (registry : s'.registry = s.registry)
    (keeps : ∀ n w, s.worker? n = some w → ∃ w', s'.worker? n = some w' ∧
      tie w'.job = tie w.job) : s'.Wired now := by
  refine ⟨engine ▸ h.numbered, fun x hx => ?_, fun x hx => ?_, engine ▸ h.ahead⟩
  · obtain ⟨w, hw, htie⟩ := h.held x (engine ▸ hx)
    obtain ⟨w', hw', hkept⟩ := keeps _ _ hw
    exact ⟨w', hw', hkept.trans htie⟩
  · obtain ⟨name, hname⟩ := h.registered x (engine ▸ hx)
    refine ⟨name, ?_⟩
    unfold number? at hname ⊢
    rwa [registry]

theorem setWorker (h : s.Wired now) {number : Nat} {w w' : Worker}
    (hw : s.worker? number = some w) (htie : tie w'.job = tie w.job) :
    (s.setWorker number w').Wired now := by
  refine h.of_workers rfl rfl fun n v hv => ?_
  rw [s.worker?_setWorker hw]
  by_cases hn : n = number
  · rw [if_pos hn]
    rw [hn, hw] at hv
    cases hv
    exact ⟨w', rfl, htie⟩
  · rw [if_neg hn]
    exact ⟨v, hv, rfl⟩

theorem modifyJob (h : s.Wired now) (number : Nat) {f : Job → Job}
    (keeps : ∀ j, tie (f j) = tie j) : (s.modifyJob number f).Wired now := by
  refine h.of_workers rfl rfl fun n w hw => ?_
  rw [worker?_modifyJob, hw, Option.map_some]
  refine ⟨_, rfl, ?_⟩
  split
  next => exact keeps w.job
  next => rfl

end Wired

theorem tie_refresh (engine : Engine Nat) (j : Job) : tie (refresh engine j) = tie j := by
  unfold refresh
  split <;> rfl

namespace Wired

variable {s : Scheduler} {now : Nat}

theorem refreshJob (h : s.Wired now) (number : Nat) : (s.refreshJob number).Wired now :=
  h.modifyJob number (tie_refresh s.engine)

theorem refreshAll (h : s.Wired now) : s.refreshAll.Wired now := by
  unfold Scheduler.refreshAll
  generalize s.registry = r
  induction r generalizing s with
  | nil => exact h
  | cons p r ih => exact ih (h.refreshJob p.2)

/-! ### The engine -/

/-- The engine may change its timers as long as it keeps its entries and no timer is overdue. -/
theorem mapEntries (h : s.Wired now) (now' : Nat) (isRunning : Bool)
    {f : Engine.Entry Nat → Engine.Entry Nat}
    (keeps : ∀ x, (f x).id = x.id ∧ (f x).schedule = x.schedule ∧ (f x).payload = x.payload)
    (ahead : ∀ x ∈ s.engine.entries, ∀ due, (f x).timer = some due → now' ≤ due) :
    ({ s with engine := s.engine.mapEntries isRunning f } : Scheduler).Wired now' := by
  refine ⟨h.numbered.mapEntries (fun x => (keeps x).1) isRunning, ?_, ?_, ?_⟩
  · intro y hy
    obtain ⟨x, hx, rfl⟩ := List.mem_map.mp hy
    obtain ⟨hid, hschedule, hpayload⟩ := keeps x
    rw [hid, hschedule, hpayload]
    exact h.held x hx
  · intro y hy
    obtain ⟨x, hx, rfl⟩ := List.mem_map.mp hy
    rw [(keeps x).2.2]
    exact h.registered x hx
  · intro y hy
    obtain ⟨x, hx, rfl⟩ := List.mem_map.mp hy
    exact ahead x hx

/-- A timer that is set now is not overdue. -/
theorem le_timer_arm {x : Engine.Entry Nat} {clock : Clock} {due : Nat}
    (h : (x.arm clock clock.now clock.elapsed).timer = some due) : clock.elapsed ≤ due := by
  obtain ⟨t, -, rfl⟩ := Option.map_eq_some_iff.mp h
  exact Nat.le_max_right _ _

theorem start {clock : Clock} (h : s.Wired clock.elapsed) :
    (s.start clock).Wired clock.elapsed := by
  unfold Scheduler.start
  split
  next => exact h
  next =>
    refine Wired.refreshAll ?_
    cases hr : s.engine.isRunning with
    | true =>
      rw [Engine.start_of_running hr]
      exact ⟨h.numbered, h.held, h.registered, h.ahead⟩
    | false =>
      rw [Engine.start_of_resting hr]
      have hw := h.mapEntries clock.elapsed true
        (f := fun x => x.arm clock clock.now clock.elapsed) (fun _ => ⟨rfl, rfl, rfl⟩)
        fun _ _ _ hdue => le_timer_arm hdue
      exact ⟨hw.numbered, hw.held, hw.registered, hw.ahead⟩

theorem stop (h : s.Wired now) (clock : Clock) : (s.stop clock).1.Wired now := by
  have hw := h.mapEntries now false (f := Engine.Entry.disarm)
    (fun _ => ⟨rfl, rfl, rfl⟩) nofun
  exact ⟨hw.numbered, hw.held, hw.registered, hw.ahead⟩

theorem fireUntil (h : s.Wired now) (clock : Clock) :
    ({ s with engine := (s.engine.fireUntil clock).1 } : Scheduler).Wired clock.elapsed := by
  rw [Engine.fireUntil_eq]
  refine h.mapEntries _ _ (fun x => x.fireUntil_keeps _ _) ?_
  intro x hx due hdue
  exact Nat.le_of_lt ((x.fireUntil_times clock clock.elapsed (h.ahead x hx)).2.2 due hdue)

/-- A firing is that of an entry. -/
theorem exists_entry {clock : Clock} {firing : Nat × List Nat}
    (hf : firing ∈ (s.engine.fireUntil clock).2) : ∃ x ∈ s.engine.entries,
      firing = (x.payload, (x.fireUntil clock clock.elapsed).2) := by
  rw [s.engine.fired_eq] at hf
  obtain ⟨x, hx, rfl⟩ := List.mem_map.mp hf
  exact ⟨x, hx, rfl⟩

/-- **The firings of two entries go to different jobs.** -/
theorem distinct_firings (h : s.Wired now) (clock : Clock) :
    ((s.engine.fireUntil clock).2.map (·.1)).Nodup := by
  rw [s.engine.fired_eq, List.map_map]
  refine List.Nodup.map_on (fun x hx y hy heq => h.payload_inj hx hy heq) ?_
  exact List.Nodup.of_map _ (h.numbered.ascending.imp Nat.ne_of_lt)

/-- The firings of a job are neither overdue nor ahead of the clock. -/
theorem firing_bounds (h : s.Wired now) {clock : Clock} {n : Nat} {ts : List Nat}
    (hf : (n, ts) ∈ (s.engine.fireUntil clock).2) :
    ts.Pairwise (· < ·) ∧ ∀ t ∈ ts, now ≤ t ∧ t ≤ clock.elapsed := by
  obtain ⟨x, hx, heq⟩ := exists_entry hf
  cases heq
  have htimes := x.fireUntil_times clock clock.elapsed (h.ahead x hx)
  exact ⟨htimes.1, htimes.2.1⟩

end Wired

/-! ## §4. Jobs that come and go -/

/-- What registering a job leads to. -/
theorem addJob_eq_ok [ZoneBook] [Memory] {s s' : Scheduler} {clock : Clock}
    {name expr timezone : String}
    {options : JobOptions} {script : List Behaviour}
    (h : s.addJob clock name expr timezone options script = .ok s') :
    s.number? name = none ∧ ∃ schedule nextRun caller script,
      (caller = .own name ∨ caller = .shared name) ∧
      s' = { s with
        engine := (s.engine.add clock schedule s.workers.length).1
        registry := Registry.insert name s.workers.length s.registry
        workers := s.workers ++ [{
          job := { Job.create name schedule timezone s.historySize options.timeout
              options.maxConcurrent with
            entry := some s.engine.nextId
            nextRun }
          caller
          script }] } := by
  unfold addJob at h
  split at h
  next => cases h
  next schedule _ =>
    split at h
    next => cases h
    next hfresh =>
      split at h
      next => cases h
      next =>
        refine ⟨by simpa using hfresh, schedule, ?_⟩
        cases hs : options.script with
        | some own =>
          rw [hs] at h
          cases h
          exact ⟨_, _, _, .inl rfl, rfl⟩
        | none =>
          rw [hs] at h
          cases h
          exact ⟨_, _, _, .inr rfl, rfl⟩

/-- The engine without the entry of a job, if that has one. -/
def dismissed (s : Scheduler) (number : Nat) : Engine Nat :=
  ((s.worker? number).bind (·.job.entry)).elim s.engine s.engine.remove

/-- What unregistering a job leads to. -/
theorem removeJob_eq_ok {s s' : Scheduler} {name : String} (h : s.removeJob name = .ok s') :
    ∃ number, s.number? name = some number ∧ s' =
      { s with
        engine := s.dismissed number
        registry := s.registry.remove name }.modifyJob number
          fun j => { j with entry := none } := by
  unfold removeJob at h
  split at h
  next => cases h
  next number hnumber =>
    cases h
    refine ⟨number, hnumber, ?_⟩
    unfold dismissed
    split
    next entry hentry =>
      rw [hentry]
      rfl
    next hnone =>
      rw [hnone]
      rfl

namespace Wired

variable {s s' : Scheduler} {now : Nat}

theorem addJob [ZoneBook] [Memory] {clock : Clock} (h : s.Wired clock.elapsed)
    {name expr timezone : String} {options : JobOptions} {script : List Behaviour}
    (ha : s.addJob clock name expr timezone options script = .ok s') : s'.Wired clock.elapsed := by
  obtain ⟨hfresh, schedule, nextRun, caller, script, -, rfl⟩ := addJob_eq_ok ha
  obtain ⟨hid, hschedule, hpayload⟩ := s.engine.newEntry_eq clock schedule s.workers.length
  refine ⟨h.numbered.add clock schedule _, fun x hx => ?_, fun x hx => ?_, fun x hx due hdue => ?_⟩
  · rcases Engine.mem_entries_add.mp hx with hx | rfl
    · obtain ⟨w, hw, htie⟩ := h.held x hx
      refine ⟨w, ?_, htie⟩
      show (s.workers ++ _)[x.payload]? = some w
      rw [List.getElem?_append_left (List.getElem?_eq_some_iff.mp hw).1]
      exact hw
    · -- the new entry triggers the new job
      rw [hpayload, hid, hschedule]
      exact ⟨_, List.getElem?_concat_length, rfl⟩
  · rcases Engine.mem_entries_add.mp hx with hx | rfl
    · obtain ⟨other, hother⟩ := h.registered x hx
      refine ⟨other, ?_⟩
      show (Registry.insert name _ s.registry).lookup other = _
      rw [Registry.lookup_insert_of_ne]
      · exact hother
      · rintro rfl
        rw [hfresh] at hother
        cases hother
    · rw [hpayload]
      exact ⟨name, Registry.lookup_insert_self hfresh⟩
  · rcases Engine.mem_entries_add.mp hx with hx | rfl
    · exact h.ahead x hx due hdue
    · unfold Engine.newEntry at hdue
      cases hr : s.engine.isRunning with
      | true =>
        rw [hr, if_pos rfl] at hdue
        exact le_timer_arm hdue
      | false =>
        rw [hr] at hdue
        cases hdue

theorem removeJob (h : s.Wired now) {name : String} (hr : s.removeJob name = .ok s') :
    s'.Wired now := by
  obtain ⟨number, hnumber, rfl⟩ := removeJob_eq_ok hr
  generalize hengine : s.dismissed number = engine
  unfold dismissed at hengine
  -- entries are only taken out, and none that triggers the job is left
  have hnumbered : engine.Numbered := by
    rw [← hengine]
    cases (s.worker? number).bind (·.job.entry) with
    | some entry => exact h.numbered.remove entry
    | none => exact h.numbered
  have hleft : ∀ x ∈ engine.entries, x ∈ s.engine.entries ∧ x.payload ≠ number := by
    intro x hx
    have hmem : x ∈ s.engine.entries := by
      rw [← hengine] at hx
      cases hentry : (s.worker? number).bind (·.job.entry) with
      | some entry =>
        rw [hentry] at hx
        exact (List.mem_filter.mp hx).1
      | none =>
        rw [hentry] at hx
        exact hx
    refine ⟨hmem, fun heq => ?_⟩
    obtain ⟨w, hw, htie⟩ := h.held x hmem
    have hentry : w.job.entry = some x.id := congrArg Prod.fst htie
    rw [← hengine, ← heq, hw, Option.bind_some, hentry] at hx
    have hne := (List.mem_filter.mp hx).2
    simp at hne
  refine ⟨hnumbered, fun x hx => ?_, fun x hx => ?_, fun x hx => h.ahead x (hleft x hx).1⟩
  · obtain ⟨w, hw, htie⟩ := h.held x (hleft x hx).1
    refine ⟨w, ?_, htie⟩
    rw [worker?_modifyJob]
    simp only [if_neg (hleft x hx).2, Option.map_id']
    exact hw
  · obtain ⟨other, hother⟩ := h.registered x (hleft x hx).1
    refine ⟨other, ?_⟩
    show (s.registry.remove name).lookup other = _
    rw [Registry.lookup_remove_of_ne]
    · exact hother
    · rintro rfl
      rw [hnumber] at hother
      exact (hleft x hx).2 (Option.some.inj hother).symm

end Wired

end Scheduler

end CronSupervisor
