/-
  CronSupervisor.Proofs.Scheduler.Registration — what registering a list of jobs leads to.

  Jobs that are registered one after another, while no time passes, do not notice one another: each
  finds its name free, and in the end each name stands for a new job with a new entry, whatever was
  registered before it and after it.  Only the numbers and the identifiers depend on the order.

  Main statements:
    * `registers_registerAll` — what jobs that were all registered have led to.
    * `exists_registerAll` — jobs are all registered if their schedules can be read, their names are
      free and distinct, and there is memory for their histories.
    * `Registers.alike` — the same jobs in another order lead to a scheduler that is alike.
-/
import CronSupervisor.Proofs.Scheduler.Alone

namespace CronSupervisor

open Calendar Cron

/-- What a job is registered with. -/
structure Registration where
  name : String
  expr : String
  timezone : String
  options : JobOptions

namespace Scheduler

/-! ## §1. New jobs -/

/-- The entry that is added for a schedule, with its labels. -/
def entryAt (isRunning : Bool) (clock : Clock) (schedule : Schedule) (id number : Nat) :
    Engine.Entry Nat :=
  ({ isRunning, nextId := id } : Engine Nat).newEntry clock schedule number

theorem newEntry_eq_entryAt (e : Engine Nat) (clock : Clock) (schedule : Schedule) (number : Nat) :
    e.newEntry clock schedule number = entryAt e.isRunning clock schedule e.nextId number := rfl

theorem next_entryAt (isRunning : Bool) (clock : Clock) (schedule : Schedule) (id number : Nat) :
    (entryAt isRunning clock schedule id number).next = schedule.nextAfter? clock.now := by
  cases isRunning <;> rfl

theorem relabel_entryAt (isRunning : Bool) (clock : Clock) (schedule : Schedule)
    (id number id' number' : Nat) : (entryAt isRunning clock schedule id number).relabel id' number'
      = entryAt isRunning clock schedule id' number' := by
  cases isRunning <;> rfl

/-- A name stands for a new job. -/
structure HoldsNew [ZoneBook] (clock : Clock) (shared : String → List Behaviour) (s : Scheduler)
    (r : Registration) (schedule : Schedule) (number id : Nat) : Prop where
  parses : Schedule.parse r.expr r.timezone = .ok schedule
  holds : s.Holds r.name number (newcomer r.name schedule r.timezone s.historySize r.options
    (shared r.name) (schedule.nextAfter? clock.now) (some id))
    (entryAt s.startTime.isSome clock schedule id number)

variable {clock : Clock} {shared : String → List Behaviour} {s s' t : Scheduler}
  {r : Registration} {rs rs' : List Registration}

/-! ## §2. One job -/

variable [ZoneBook] [Memory]

/-- Register a job. -/
def register (clock : Clock) (shared : String → List Behaviour) (s : Scheduler)
    (r : Registration) : Except SchedulerError Scheduler :=
  s.addJob clock r.name r.expr r.timezone r.options (shared r.name)

/-- What is registered has a schedule, and there is memory for its history. -/
theorem parse_of_register (h : s.register clock shared r = .ok s') :
    (∃ schedule, Schedule.parse r.expr r.timezone = .ok schedule) ∧
      History.Fits s.historySize := by
  unfold register addJob at h
  split at h
  next => cases h
  next schedule hparse =>
    refine ⟨⟨schedule, hparse⟩, ?_⟩
    by_contra hfits
    rw [if_pos hfits] at h
    split at h <;> cases h

/-- **A free name comes to stand for a new job.** -/
theorem register_of_fresh (clock : Clock) (shared : String → List Behaviour) (linked : s.Linked)
    (numbered : s.engine.Numbered) {schedule : Schedule} (fresh : s.number? r.name = none)
    (parses : Schedule.parse r.expr r.timezone = .ok schedule)
    (fits : History.Fits s.historySize) :
    ∃ s', s.register clock shared r = .ok s' ∧ s'.historySize = s.historySize ∧
      s'.startTime = s.startTime ∧
      s'.HoldsNew clock shared r schedule s.workers.length s.engine.nextId := by
  obtain ⟨s', hadd, hsize, hstart, hold⟩ :=
    addJob_of_fresh fresh parses fits numbered clock r.options (shared r.name)
  rw [newEntry_eq_entryAt, next_entryAt, linked.running_eq, ← hstart, ← hsize] at hold
  exact ⟨s', hadd, hsize, hstart, parses, hold⟩

/-! ## §3. Many jobs -/

/-- Register jobs one after another. -/
def registerAll (clock : Clock) (shared : String → List Behaviour) (s : Scheduler)
    (rs : List Registration) : Except SchedulerError Scheduler :=
  rs.foldlM (register clock shared) s

theorem registerAll_cons (s : Scheduler) (r : Registration) (rs : List Registration) :
    s.registerAll clock shared (r :: rs) =
      (s.register clock shared r).bind fun s => s.registerAll clock shared rs :=
  List.foldlM_cons

/-- What registering jobs at one moment makes of a scheduler. -/
structure Registers (clock : Clock) (shared : String → List Behaviour) (s : Scheduler)
    (rs : List Registration) (s' : Scheduler) : Prop where
  linked : s'.Linked
  wired : s'.Wired clock.elapsed
  historySize_eq : s'.historySize = s.historySize
  startTime_eq : s'.startTime = s.startTime
  fits : rs ≠ [] → History.Fits s.historySize
  fresh : ∀ r ∈ rs, s.number? r.name = none
  distinct : (rs.map (·.name)).Nodup
  new : ∀ r ∈ rs, ∃ schedule number id, s'.HoldsNew clock shared r schedule number id
  number?_eq : ∀ name, name ∉ rs.map (·.name) → s'.number? name = s.number? name
  kept : ∀ name, name ∉ rs.map (·.name) → ∀ number w x,
    s.Holds name number w x → s'.Holds name number w x

/-- A new job stays what it is while others are registered. -/
theorem Registers.holdsNew (h : Registers clock shared s rs s') {schedule : Schedule}
    {number id : Nat} (hnew : s.HoldsNew clock shared r schedule number id)
    (other : r.name ∉ rs.map (·.name)) : s'.HoldsNew clock shared r schedule number id := by
  refine ⟨hnew.parses, ?_⟩
  rw [h.historySize_eq, h.startTime_eq]
  exact h.kept r.name other number _ _ hnew.holds

theorem registers_nil (linked : s.Linked) (wired : s.Wired clock.elapsed) :
    Registers clock shared s [] s :=
  ⟨linked, wired, rfl, rfl, fun hne => absurd rfl hne, nofun, .nil, nofun, fun _ _ => rfl,
    fun _ _ _ _ _ h => h⟩

/-- A job that is registered before others. -/
theorem Registers.cons {s₁ : Scheduler} (linked : s.Linked) (wired : s.Wired clock.elapsed)
    (h₁ : s.register clock shared r = .ok s₁) (h : Registers clock shared s₁ rs s') :
    Registers clock shared s (r :: rs) s' := by
  obtain ⟨hfresh, -⟩ := addJob_eq_ok h₁
  obtain ⟨⟨schedule, hparse⟩, hfits⟩ := parse_of_register h₁
  obtain ⟨s₂, h₂, hsize, hstart, hnew⟩ :=
    register_of_fresh clock shared linked wired.numbered hfresh hparse hfits
  cases h₁.symm.trans h₂
  have hchanges : s.Changes clock (some r.name) s₁ := .add h₁
  -- the name is taken now, so none of the others has it
  have hother : r.name ∉ rs.map (·.name) := by
    intro hmem
    obtain ⟨r', hr', hname⟩ := List.mem_map.mp hmem
    cases (hname ▸ h.fresh r' hr').symm.trans hnew.holds.number_eq
  have hne : ∀ {name}, name ∉ (r :: rs).map (·.name) → name ≠ r.name ∧ name ∉ rs.map (·.name) :=
    fun h => not_or.mp (mt List.mem_cons.mpr h)
  refine ⟨h.linked, h.wired, h.historySize_eq.trans hsize, h.startTime_eq.trans hstart,
    fun _ => hfits, ?_, List.nodup_cons.mpr ⟨hother, h.distinct⟩, ?_, fun name hname => ?_,
    fun name hname number w x hold => ?_⟩
  · intro r' hr'
    rcases List.mem_cons.mp hr' with rfl | hr'
    · exact hfresh
    · have hdiffers : r'.name ≠ r.name := fun heq => hother (List.mem_map.mpr ⟨r', hr', heq⟩)
      exact (hchanges.number?_of_ne hdiffers).symm.trans (h.fresh r' hr')
  · intro r' hr'
    rcases List.mem_cons.mp hr' with rfl | hr'
    · exact ⟨_, _, _, h.holdsNew hnew hother⟩
    · exact h.new r' hr'
  · obtain ⟨hdiffers, hrest⟩ := hne hname
    exact (h.number?_eq name hrest).trans (hchanges.number?_of_ne hdiffers)
  · obtain ⟨hdiffers, hrest⟩ := hne hname
    exact h.kept name hrest number w x (hold.of_changes linked wired.numbered hchanges hdiffers)

/-- **Jobs that were all registered stand under their names, and nothing else has changed.** -/
theorem registers_registerAll (linked : s.Linked) (wired : s.Wired clock.elapsed)
    (h : s.registerAll clock shared rs = .ok s') : Registers clock shared s rs s' := by
  induction rs generalizing s with
  | nil =>
    cases h
    exact registers_nil linked wired
  | cons r rs ih =>
    rw [registerAll_cons] at h
    cases hr : s.register clock shared r with
    | error e =>
      rw [hr] at h
      cases h
    | ok s₁ =>
      rw [hr] at h
      exact .cons linked wired hr (ih (linked.addJob hr) (wired.addJob hr) h)

/-- **Jobs are all registered if they have schedules and names of their own.** -/
theorem exists_registerAll (shared : String → List Behaviour) (linked : s.Linked)
    (wired : s.Wired clock.elapsed)
    (parses : ∀ r ∈ rs, ∃ schedule, Schedule.parse r.expr r.timezone = .ok schedule)
    (fresh : ∀ r ∈ rs, s.number? r.name = none) (distinct : (rs.map (·.name)).Nodup)
    (fits : rs ≠ [] → History.Fits s.historySize) :
    ∃ s', s.registerAll clock shared rs = .ok s' := by
  induction rs generalizing s with
  | nil => exact ⟨s, rfl⟩
  | cons r rs ih =>
    obtain ⟨hother, hdistinct⟩ := List.nodup_cons.mp distinct
    obtain ⟨schedule, hparse⟩ := parses r List.mem_cons_self
    have hfits := fits (List.cons_ne_nil r rs)
    obtain ⟨s₁, h₁, hsize, -⟩ :=
      register_of_fresh clock shared linked wired.numbered (fresh r List.mem_cons_self) hparse hfits
    have hchanges : s.Changes clock (some r.name) s₁ := .add h₁
    rw [registerAll_cons, h₁]
    refine ih (linked.addJob h₁) (wired.addJob h₁)
      (fun r' hr' => parses r' (List.mem_cons_of_mem r hr')) (fun r' hr' => ?_) hdistinct
      fun _ => hsize ▸ hfits
    have hdiffers : r'.name ≠ r.name := fun heq => hother (List.mem_map.mpr ⟨r', hr', heq⟩)
    exact (hchanges.number?_of_ne hdiffers).trans (fresh r' (List.mem_cons_of_mem r hr'))

/-! ## §4. In another order -/

/-- **The same jobs in another order lead to a scheduler that is alike.** -/
theorem Registers.alike (linked : s.Linked) (wired : s.Wired clock.elapsed)
    (h : Registers clock shared s rs s') (h' : Registers clock shared s rs' t)
    (same : ∀ r, r ∈ rs' ↔ r ∈ rs) (name : String) : Alike name s' t := by
  refine ⟨h'.historySize_eq.trans h.historySize_eq.symm,
    h'.startTime_eq.trans h.startTime_eq.symm, ?_⟩
  by_cases hname : name ∈ rs.map (·.name)
  · -- the same job was registered in both orders, under other labels
    obtain ⟨r, hr, rfl⟩ := List.mem_map.mp hname
    obtain ⟨schedule, n, id, hnew⟩ := h.new r hr
    obtain ⟨schedule', m, id', hnew'⟩ := h'.new r ((same r).mpr hr)
    cases hnew.parses.symm.trans hnew'.parses
    have hold' := hnew'.holds
    rw [h'.historySize_eq, ← h.historySize_eq, h'.startTime_eq, ← h.startTime_eq,
      ← attach_newcomer _ _ _ _ _ _ _ (some id), ← relabel_entryAt _ _ _ id n] at hold'
    exact .known hnew.holds hold'
  · have hname' : name ∉ rs'.map (·.name) := by
      intro hmem
      obtain ⟨r, hr, heq⟩ := List.mem_map.mp hmem
      exact hname (List.mem_map.mpr ⟨r, (same r).mp hr, heq⟩)
    -- what was there before is there still, under the same labels
    cases hn : s.number? name with
    | none =>
      exact .unknown ((h.number?_eq name hname).trans hn) ((h'.number?_eq name hname').trans hn)
    | some n =>
      obtain ⟨w, x, hold⟩ := linked.holds wired.numbered hn
      have hold' := h'.kept name hname' n w x hold
      rw [← hold.attach_eq, ← hold.relabel_eq] at hold'
      exact .known (h.kept name hname n w x hold) hold'

end Scheduler

end CronSupervisor
