/-
  CronSupervisor.Proofs.Scheduler.Links — every registered job has an entry of its own.

  The registry knows which jobs there are, the engine knows which schedules it triggers, every job
  knows its entry, and both the scheduler and its engine know whether they were started.  `Wired`
  says that every entry has its job; `Linked` is the other direction, and all that the two sides
  have in common besides.  Everything that changes a scheduler changes both sides, or neither.

  Main statements:
    * `Registry.Sorted` and its lemmas — a name stands for one number.
    * `Linked` and its lemmas — every registered job has its entry, whatever is done to it or to
      the engine.
    * `Changes.linked` — registry and engine stay linked at every moment.
-/
import CronSupervisor.Proofs.Engine.Timers
import CronSupervisor.Proofs.Scheduler.Steps

namespace CronSupervisor

open Calendar Cron

/-! ## §1. Names in ascending order -/

namespace Registry

variable {name : String} {number : Nat} {r : Registry}

/-- The names are in strictly ascending order. -/
def Sorted (r : Registry) : Prop := (r.map (·.1)).Pairwise (· < ·)

theorem mem_insert {p : String × Nat} : p ∈ insert name number r ↔ p = (name, number) ∨ p ∈ r := by
  induction r with
  | nil => exact List.mem_singleton.trans (or_iff_left List.not_mem_nil).symm
  | cons q r ih =>
    unfold insert
    split
    next => exact List.mem_cons
    next => rw [List.mem_cons, ih, List.mem_cons, or_left_comm]

theorem Sorted.insert (h : r.Sorted) (fresh : r.lookup name = none) :
    (insert name number r).Sorted := by
  induction r with
  | nil => exact List.pairwise_singleton _ _
  | cons q r ih =>
    obtain ⟨n, k⟩ := q
    obtain ⟨hfirst, hrest⟩ := List.pairwise_cons.mp h
    rw [List.lookup_cons] at fresh
    unfold Registry.insert
    split
    next hlt =>
      refine List.pairwise_cons.mpr ⟨fun m hm => ?_, h⟩
      rcases List.mem_cons.mp hm with rfl | hm
      · exact hlt
      · exact String.lt_trans hlt (hfirst m hm)
    next hlt =>
      -- the name is not the first one, and so it comes after it
      cases hn : name == n with
      | true =>
        rw [hn] at fresh
        cases fresh
      | false =>
        rw [hn] at fresh
        have hafter : n < name := by
          by_contra hnot
          exact ne_of_beq_false hn
            (String.le_antisymm (String.not_lt.mp hnot) (String.not_lt.mp hlt))
        refine List.pairwise_cons.mpr ⟨fun m hm => ?_, ih hrest fresh⟩
        obtain ⟨p, hp, rfl⟩ := List.mem_map.mp hm
        rcases mem_insert.mp hp with rfl | hp
        · exact hafter
        · exact hfirst p.1 (List.mem_map_of_mem hp)

theorem Sorted.remove (h : r.Sorted) (name : String) : (remove name r).Sorted :=
  h.sublist (List.filter_sublist.map _)

/-- A name stands for one number. -/
theorem Sorted.lookup_eq_some_iff (h : r.Sorted) :
    r.lookup name = some number ↔ (name, number) ∈ r := by
  induction r with
  | nil => exact iff_of_false nofun List.not_mem_nil
  | cons q r ih =>
    obtain ⟨n, k⟩ := q
    obtain ⟨hfirst, hrest⟩ := List.pairwise_cons.mp h
    rw [List.lookup_cons, List.mem_cons, Prod.mk.injEq]
    cases hn : name == n with
    | true =>
      obtain rfl := eq_of_beq hn
      have hnot : (name, number) ∉ r := fun hmem =>
        String.lt_irrefl name (hfirst name (List.mem_map_of_mem hmem))
      rw [or_iff_left hnot, Option.some.injEq, eq_comm]
      exact (and_iff_right rfl).symm
    | false =>
      rw [or_iff_right fun heq => ne_of_beq_false hn heq.1]
      exact ih hrest

theorem lookup_remove_self : (remove name r).lookup name = none := by
  rw [List.lookup_eq_none_iff]
  intro p hp
  have hne := of_decide_eq_true (List.mem_filter.mp hp).2
  rw [bne_iff_ne]
  exact fun heq => hne heq.symm

end Registry

namespace Scheduler

/-! ## §2. Jobs with their entries -/

/-- The job of a name: its entry is known to it and has its schedule, and its executor is called on
behalf of that name. -/
def Fits (name : String) (x : Engine.Entry Nat) (w : Worker) : Prop :=
  ∃ caller, (caller = .own name ∨ caller = .shared name) ∧
    label w = (caller, name, some x.id, x.schedule)

namespace Fits

variable {name : String} {x : Engine.Entry Nat} {w : Worker}

theorem name_eq (h : Fits name x w) : w.job.name = name := by
  obtain ⟨caller, -, hlabel⟩ := h
  exact congrArg (fun l => l.2.1) hlabel

theorem entry_eq (h : Fits name x w) : w.job.entry = some x.id := by
  obtain ⟨caller, -, hlabel⟩ := h
  exact congrArg (fun l => l.2.2.1) hlabel

theorem schedule_eq (h : Fits name x w) : w.job.schedule = x.schedule := by
  obtain ⟨caller, -, hlabel⟩ := h
  exact congrArg (fun l => l.2.2.2) hlabel

theorem of_label {w' : Worker} (h : Fits name x w) (hlabel : label w' = label w) :
    Fits name x w' := by
  obtain ⟨caller, hcaller, heq⟩ := h
  exact ⟨caller, hcaller, hlabel.trans heq⟩

end Fits

/-- Every registered job has an entry of its own, and the engine runs when the scheduler was
started. -/
structure Linked (s : Scheduler) : Prop where
  sorted : s.registry.Sorted
  entry_of : ∀ name number, s.number? name = some number → ∃ w x, s.worker? number = some w ∧
    x ∈ s.engine.entries ∧ x.payload = number ∧ Fits name x w
  /-- Entries and jobs are numbered in step. -/
  nextId_eq : s.engine.nextId = s.workers.length + 1
  id_eq : ∀ x ∈ s.engine.entries, x.id = x.payload + 1
  running_eq : s.engine.isRunning = s.startTime.isSome
  timed : ∀ x ∈ s.engine.entries, x.Timed s.engine.isRunning

namespace Linked

variable {s s' : Scheduler}

theorem empty (historySize : Nat) : ({ historySize } : Scheduler).Linked where
  sorted := .nil
  entry_of := nofun
  nextId_eq := rfl
  id_eq := nofun
  running_eq := rfl
  timed := nofun

/-- Two names stand for two jobs. -/
theorem name_unique (h : s.Linked) {a b : String} {number : Nat} (ha : s.number? a = some number)
    (hb : s.number? b = some number) : a = b := by
  obtain ⟨w, x, hw, -, -, hfits⟩ := h.entry_of a number ha
  obtain ⟨v, y, hv, -, -, hfits'⟩ := h.entry_of b number hb
  cases hw.symm.trans hv
  exact hfits.name_eq.symm.trans hfits'.name_eq

/-- What unregistering a job leaves in the engine. -/
theorem dismissed_eq (h : s.Linked) {name : String} {number : Nat}
    (hn : s.number? name = some number) : ∃ x ∈ s.engine.entries, x.payload = number ∧
      s.dismissed number = s.engine.remove x.id := by
  obtain ⟨w, x, hw, hx, hpayload, hfits⟩ := h.entry_of name number hn
  refine ⟨x, hx, hpayload, ?_⟩
  unfold dismissed
  rw [hw, Option.bind_some, hfits.entry_eq]
  rfl

/-! ### Changed jobs -/

/-- Jobs may change as long as they keep their labels, and none comes or goes. -/
theorem of_workers (h : s.Linked) {workers : List Worker}
    (length_eq : workers.length = s.workers.length)
    (keeps : ∀ n w, s.worker? n = some w → ∃ w', workers[n]? = some w' ∧ label w' = label w) :
    ({ s with workers } : Scheduler).Linked where
  sorted := h.sorted
  entry_of := by
    intro name number hnumber
    obtain ⟨w, x, hw, hx, hpayload, hfits⟩ := h.entry_of name number hnumber
    obtain ⟨w', hw', hkept⟩ := keeps number w hw
    exact ⟨w', x, hw', hx, hpayload, hfits.of_label hkept⟩
  nextId_eq := by
    show s.engine.nextId = workers.length + 1
    rw [length_eq]
    exact h.nextId_eq
  id_eq := h.id_eq
  running_eq := h.running_eq
  timed := h.timed

theorem setWorker (h : s.Linked) {number : Nat} {w w' : Worker} (hw : s.worker? number = some w)
    (hlabel : label w' = label w) : (s.setWorker number w').Linked := by
  refine h.of_workers List.length_set fun n v hv => ?_
  have hset : (s.workers.set number w')[n]? = if n = number then some w' else s.worker? n :=
    s.worker?_setWorker hw w' n
  rw [hset]
  by_cases hn : n = number
  · rw [if_pos hn]
    rw [hn, hw] at hv
    cases hv
    exact ⟨w', rfl, hlabel⟩
  · rw [if_neg hn]
    exact ⟨v, hv, rfl⟩

theorem refreshJob (h : s.Linked) (number : Nat) : (s.refreshJob number).Linked := by
  refine h.of_workers (List.length_modify _ _ _) fun n w hw => ?_
  have hmodify := s.worker?_modifyJob number (refresh s.engine) n
  rw [hw, Option.map_some] at hmodify
  refine ⟨_, hmodify, ?_⟩
  unfold refresh
  split
  next => split <;> rfl
  next => rfl

theorem refreshAll (h : s.Linked) : s.refreshAll.Linked := by
  unfold Scheduler.refreshAll
  generalize s.registry = r
  induction r generalizing s with
  | nil => exact h
  | cons p r ih => exact ih (h.refreshJob p.2)

/-! ### The engine -/

/-- The engine may change its timers, and whether it runs, along with the scheduler. -/
theorem mapEntries (h : s.Linked) (startTime : Option Instant) (isRunning : Bool)
    {f : Engine.Entry Nat → Engine.Entry Nat} (running_eq : isRunning = startTime.isSome)
    (keeps : ∀ x, (f x).id = x.id ∧ (f x).schedule = x.schedule ∧ (f x).payload = x.payload)
    (timed : ∀ x, x.Timed s.engine.isRunning → (f x).Timed isRunning) :
    ({ s with engine := s.engine.mapEntries isRunning f, startTime } : Scheduler).Linked where
  sorted := h.sorted
  entry_of := by
    intro name number hnumber
    obtain ⟨w, x, hw, hx, hpayload, hfits⟩ := h.entry_of name number hnumber
    obtain ⟨hid, hschedule, hsame⟩ := keeps x
    refine ⟨w, f x, hw, List.mem_map_of_mem hx, hsame.trans hpayload, ?_⟩
    unfold Fits
    rw [hid, hschedule]
    exact hfits
  nextId_eq := h.nextId_eq
  id_eq := by
    intro y hy
    obtain ⟨x, hx, rfl⟩ := List.mem_map.mp hy
    obtain ⟨hid, -, hsame⟩ := keeps x
    rw [hid, hsame]
    exact h.id_eq x hx
  running_eq := running_eq
  timed := by
    intro y hy
    obtain ⟨x, hx, rfl⟩ := List.mem_map.mp hy
    exact timed x (h.timed x hx)

theorem start (h : s.Linked) (clock : Clock) : (s.start clock).Linked := by
  unfold Scheduler.start
  split
  next => exact h
  next hstopped =>
    -- the scheduler was not started, so the engine was not running either
    have hresting : s.engine.isRunning = false := by
      rw [h.running_eq]
      exact Bool.eq_false_iff.mpr hstopped
    rw [Engine.start_of_resting hresting]
    have hstarted := h.mapEntries (some clock.now) true
      (f := fun x => x.arm clock clock.now clock.elapsed) rfl (fun _ => ⟨rfl, rfl, rfl⟩)
      fun x _ => x.timed_arm clock _ _
    exact hstarted.refreshAll

theorem stop (h : s.Linked) (clock : Clock) : (s.stop clock).1.Linked :=
  h.mapEntries none false (f := Engine.Entry.disarm) rfl (fun _ => ⟨rfl, rfl, rfl⟩)
    fun x _ => x.timed_disarm

theorem fireUntil (h : s.Linked) (clock : Clock) :
    ({ s with engine := (s.engine.fireUntil clock).1 } : Scheduler).Linked := by
  rw [Engine.fireUntil_eq]
  exact h.mapEntries s.startTime s.engine.isRunning h.running_eq
    (fun x => x.fireUntil_keeps clock clock.elapsed)
    fun x hx => hx.fireUntil clock clock.elapsed

/-! ### Jobs that come and go -/

theorem addJob [ZoneBook] [Memory] (h : s.Linked) {clock : Clock} {name expr timezone : String}
    {options : JobOptions} {script : List Behaviour}
    (ha : s.addJob clock name expr timezone options script = .ok s') : s'.Linked := by
  obtain ⟨hfresh, schedule, nextRun, caller, script, hcaller, rfl⟩ := addJob_eq_ok ha
  obtain ⟨hid, hschedule, hpayload⟩ := s.engine.newEntry_eq clock schedule s.workers.length
  refine ⟨h.sorted.insert hfresh, fun other number hnumber => ?_, ?_, fun x hx => ?_, h.running_eq,
    fun x hx => ?_⟩
  · by_cases hname : other = name
    · -- the new job and the new entry
      subst hname
      have hnew : number = s.workers.length :=
        Option.some.inj (hnumber.symm.trans (Registry.lookup_insert_self hfresh))
      subst hnew
      refine ⟨_, _, List.getElem?_concat_length, Engine.mem_entries_add.mpr (.inr rfl), hpayload,
        caller, hcaller, ?_⟩
      rw [hid, hschedule]
      rfl
    · have hold : s.number? other = some number :=
        (Registry.lookup_insert_of_ne hname).symm.trans hnumber
      obtain ⟨w, x, hw, hx, hrest⟩ := h.entry_of other number hold
      refine ⟨w, x, ?_, Engine.mem_entries_add.mpr (.inl hx), hrest⟩
      show (s.workers ++ _)[number]? = some w
      rw [List.getElem?_append_left (List.getElem?_eq_some_iff.mp hw).1]
      exact hw
  · show s.engine.nextId + 1 = (s.workers ++ [_]).length + 1
    rw [List.length_append, List.length_singleton, h.nextId_eq]
  · rcases Engine.mem_entries_add.mp hx with hx | rfl
    · exact h.id_eq x hx
    · rw [hid, hpayload]
      exact h.nextId_eq
  · rcases Engine.mem_entries_add.mp hx with hx | rfl
    · exact h.timed x hx
    · exact s.engine.timed_newEntry clock schedule _

theorem removeJob (h : s.Linked) {name : String} (hr : s.removeJob name = .ok s') :
    s'.Linked := by
  obtain ⟨number, hnumber, rfl⟩ := removeJob_eq_ok hr
  obtain ⟨x, hx, hpayload, hengine⟩ := h.dismissed_eq hnumber
  rw [hengine]
  -- what is left was there before, and none of it has to do with the job that goes
  have hleft : ∀ y ∈ (s.engine.remove x.id).entries, y ∈ s.engine.entries :=
    fun y hy => (List.mem_filter.mp hy).1
  refine ⟨h.sorted.remove name, fun other n hother => ?_, ?_, fun y hy => h.id_eq y (hleft y hy),
    h.running_eq, fun y hy => h.timed y (hleft y hy)⟩
  · change (s.registry.remove name).lookup other = some n at hother
    have hne : other ≠ name := by
      rintro rfl
      rw [Registry.lookup_remove_self] at hother
      cases hother
    rw [Registry.lookup_remove_of_ne hne] at hother
    have hn : n ≠ number := by
      rintro rfl
      exact hne (h.name_unique hother hnumber)
    obtain ⟨v, y, hv, hy, hypayload, hfits⟩ := h.entry_of other n hother
    refine ⟨v, y, ?_, List.mem_filter.mpr ⟨hy, ?_⟩, hypayload, hfits⟩
    · rw [worker?_modifyJob]
      simp only [if_neg hn, Option.map_id']
      exact hv
    · have hyid := h.id_eq y hy
      have hxid := h.id_eq x hx
      rw [decide_eq_true_eq]
      omega
  · show s.engine.nextId = (s.workers.modify number _).length + 1
    rw [List.length_modify]
    exact h.nextId_eq

end Linked

/-- **Whatever is done at one moment, registry and engine stay linked.** -/
theorem Changes.linked [ZoneBook] [Memory] {c : Clock} {s s' : Scheduler} {target : Option String}
    (h : s.Changes c target s') (hs : s.Linked) : s'.Linked := by
  cases h with
  | nothing => exact hs
  | add h => exact hs.addJob h
  | remove h => exact hs.removeJob h
  | act _ hw h => exact hs.setWorker hw h.label_eq
  | refresh => exact hs.refreshJob _
  | refreshAll => exact hs.refreshAll
  | start => exact hs.start c
  | stop => exact hs.stop c

/-! ## §3. Names and jobs -/

section Names

variable {s : Scheduler} {name : String} {number : Nat}

theorem find?_of_number? (hn : s.number? name = some number) : s.find? name = s.worker? number := by
  unfold find?
  rw [hn, Option.bind_some]

theorem find?_of_unknown (hn : s.number? name = none) : s.find? name = none := by
  unfold find?
  rw [hn]
  rfl

theorem number?_eq_none_iff : s.number? name = none ↔ name ∉ s.names := by
  unfold number? names
  rw [List.lookup_eq_none_iff, List.mem_map]
  constructor
  · rintro h ⟨p, hp, rfl⟩
    exact bne_iff_ne.mp (h p hp) rfl
  · intro h p hp
    exact bne_iff_ne.mpr fun heq => h ⟨p, hp, heq.symm⟩

/-- **Why a job is not registered**: the schedule is looked at before the name, and both before the
size of the history. -/
theorem addJob_eq_error_iff [ZoneBook] [Memory] {clock : Clock} {expr timezone : String}
    {options : JobOptions} {script : List Behaviour} {e : SchedulerError} :
    s.addJob clock name expr timezone options script = .error e ↔
      (∃ error, Schedule.parse expr timezone = .error error ∧ e = .cron error) ∨
      ∃ schedule, Schedule.parse expr timezone = .ok schedule ∧
        ((name ∈ s.names ∧ e = .duplicateJob name) ∨
          (name ∉ s.names ∧ ¬ History.Fits s.historySize ∧ e = .exhausted)) := by
  have hknown : name ∈ s.names ↔ s.number? name ≠ none := by
    rw [Ne, number?_eq_none_iff, not_not]
  rw [← number?_eq_none_iff, hknown]
  unfold addJob
  cases Schedule.parse expr timezone with
  | error error => simp [eq_comm]
  | ok schedule =>
    cases hn : s.number? name with
    | some number => simp [eq_comm]
    | none =>
      by_cases hfits : History.Fits s.historySize
      · simp [hfits]
      · simp [hfits, eq_comm]

/-- A registered name has a job. -/
theorem Linked.exists_worker (h : s.Linked) (hn : s.number? name = some number) :
    ∃ w, s.worker? number = some w ∧ w.job.name = name := by
  obtain ⟨w, x, hw, -, -, hfits⟩ := h.entry_of name number hn
  exact ⟨w, hw, hfits.name_eq⟩

end Names

end Scheduler

end CronSupervisor
