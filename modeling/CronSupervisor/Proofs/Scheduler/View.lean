/-
  CronSupervisor.Proofs.Scheduler.View — what a scheduler holds for one name.

  A registered name stands for a job, and the job knows its entry; `view` is the two of them.
  Whatever is done to the job of another name leaves the view as it is, and when time passes each
  view moves on its own: the entry fires, and the job gets through these firings with the calls that
  were made on its behalf.  Neither looks at other jobs, other entries or other calls.

  Main statements:
    * `Holds` and its lemmas — what operations on the job itself or on the whole engine do to it.
    * `Changes.view_of_ne` — what is addressed to another name leaves a view as it is.
    * `Holds.passTime`, `Session.Coherent.view_passTo` — time moves every view on its own.
-/
import CronSupervisor.Proofs.Job.Solo
import CronSupervisor.Proofs.Scheduler.Coherence

namespace CronSupervisor

open Calendar

/-- The job that an executor is called for. -/
def Caller.job : Caller → String
  | .own name => name
  | .shared name => name

/-- The worker when its job has reported a next run. -/
def Worker.refreshed (w : Worker) (nextRun : Option Calendar.Instant) : Worker :=
  { w with job := { w.job with nextRun } }

namespace Scheduler

/-! ## §1. A job with its entry -/

/-- What a scheduler holds for a name: a job and its entry. -/
def view (s : Scheduler) (name : String) : Option (Worker × Option (Engine.Entry Nat)) :=
  (s.find? name).map fun w => (w, w.job.entry.bind s.engine.find?)

/-- The job of a name, and its entry. -/
structure Holds (s : Scheduler) (name : String) (number : Nat) (w : Worker)
    (x : Engine.Entry Nat) : Prop where
  number_eq : s.number? name = some number
  worker_eq : s.worker? number = some w
  entry_eq : w.job.entry = some x.id
  find_eq : s.engine.find? x.id = some x
  payload_eq : x.payload = number
  caller_eq : w.caller.job = name

section Names

variable {s : Scheduler} {name : String} {number : Nat} {w : Worker} {x : Engine.Entry Nat}

theorem caller_eq_of_fits (h : Fits name x w) : w.caller.job = name := by
  obtain ⟨caller, hcaller, hlabel⟩ := h
  obtain rfl : w.caller = caller := congrArg (fun l => l.1) hlabel
  rcases hcaller with heq | heq
  · rw [heq]
    rfl
  · rw [heq]
    rfl

/-- A registered name has a job and an entry. -/
theorem Linked.holds (h : s.Linked) (numbered : s.engine.Numbered)
    (hn : s.number? name = some number) : ∃ w x, s.Holds name number w x := by
  obtain ⟨w, x, hw, hx, hpayload, hfits⟩ := h.entry_of name number hn
  exact ⟨w, x, hn, hw, hfits.entry_eq, numbered.find?_of_mem hx, hpayload, caller_eq_of_fits hfits⟩

theorem Holds.view_eq (h : s.Holds name number w x) : s.view name = some (w, some x) := by
  unfold view
  rw [find?_of_number? h.number_eq, h.worker_eq, Option.map_some, h.entry_eq, Option.bind_some,
    h.find_eq]

theorem view_eq_none (hn : s.number? name = none) : s.view name = none := by
  unfold view
  rw [find?_of_unknown hn]
  rfl

end Names

namespace Holds

variable {s : Scheduler} {name : String} {number : Nat} {w w' : Worker} {x : Engine.Entry Nat}

/-! ## §2. Changes of the job -/

/-- Jobs may change as long as this one keeps its label. -/
theorem of_workers (h : s.Holds name number w x) {workers : List Worker}
    (hw : workers[number]? = some w') (hlabel : label w' = label w) :
    ({ s with workers } : Scheduler).Holds name number w' x where
  number_eq := h.number_eq
  worker_eq := hw
  entry_eq := (congrArg (fun l => l.2.2.1) hlabel).trans h.entry_eq
  find_eq := h.find_eq
  payload_eq := h.payload_eq
  caller_eq := (congrArg (fun l => l.1.job) hlabel).trans h.caller_eq

theorem setWorker (h : s.Holds name number w x) (hlabel : label w' = label w) :
    (s.setWorker number w').Holds name number w' x := by
  refine h.of_workers ?_ hlabel
  show (s.setWorker number w').worker? number = some w'
  rw [s.worker?_setWorker h.worker_eq, if_pos rfl]

/-- The job reports the next run of its entry. -/
theorem refreshJob (h : s.Holds name number w x) :
    (s.refreshJob number).Holds name number (w.refreshed x.next) x := by
  have hrefresh : refresh s.engine w.job = { w.job with nextRun := x.next } := by
    unfold refresh Engine.next?
    split
    next entry hentry =>
      cases h.entry_eq.symm.trans hentry
      rw [h.find_eq, Option.bind_some]
    next hnone => cases h.entry_eq.symm.trans hnone
  refine h.of_workers ?_ rfl
  show (s.modifyJob number (refresh s.engine)).worker? number = _
  rw [worker?_modifyJob, h.worker_eq, Option.map_some, if_pos rfl, hrefresh]
  rfl

theorem setWorker_of_ne (h : s.Holds name number w x) {other : Nat} (hne : number ≠ other)
    (v : Worker) : (s.setWorker other v).Holds name number w x := by
  refine h.of_workers ?_ rfl
  rw [List.getElem?_set_ne hne.symm]
  exact h.worker_eq

theorem modifyJob_of_ne (h : s.Holds name number w x) {other : Nat} (hne : number ≠ other)
    (f : Job → Job) : (s.modifyJob other f).Holds name number w x := by
  refine h.of_workers ?_ rfl
  show (s.modifyJob other f).worker? number = some w
  rw [worker?_modifyJob, h.worker_eq, Option.map_some, if_neg hne]

/-- When all jobs report anew, so does this one. -/
theorem refreshAll (h : s.Holds name number w x) :
    s.refreshAll.Holds name number (w.refreshed x.next) x := by
  have hmem : number ∈ s.registry.map (·.2) := by
    obtain ⟨before, after, heq, -⟩ := List.lookup_eq_some_iff.mp h.number_eq
    rw [heq, List.map_append, List.map_cons]
    exact List.mem_append_right _ List.mem_cons_self
  unfold Scheduler.refreshAll
  generalize s.registry = r at hmem
  -- once it has reported, it goes on to report the same
  have hagain : ∀ (r : Registry) {s : Scheduler}, s.Holds name number (w.refreshed x.next) x →
      (r.foldl (fun s p => s.refreshJob p.2) s).Holds name number (w.refreshed x.next) x := by
    intro r
    induction r with
    | nil => exact fun h => h
    | cons p r ih =>
      intro s h
      refine ih ?_
      by_cases hp : number = p.2
      · exact hp ▸ h.refreshJob
      · exact h.modifyJob_of_ne hp _
  induction r generalizing s with
  | nil => exact absurd hmem List.not_mem_nil
  | cons p r ih =>
    by_cases hp : number = p.2
    · exact hagain r (hp ▸ h.refreshJob)
    · exact ih (h.modifyJob_of_ne hp _) ((List.mem_cons.mp hmem).resolve_left hp)

/-! ## §3. Changes of the engine -/

/-- The engine may change its timers. -/
theorem mapEntries (h : s.Holds name number w x) (isRunning : Bool)
    (startTime : Option Calendar.Instant) {f : Engine.Entry Nat → Engine.Entry Nat}
    (keeps : ∀ x, (f x).id = x.id ∧ (f x).payload = x.payload) :
    ({ s with engine := s.engine.mapEntries isRunning f, startTime } : Scheduler).Holds
      name number w (f x) where
  number_eq := h.number_eq
  worker_eq := h.worker_eq
  entry_eq := by
    rw [(keeps x).1]
    exact h.entry_eq
  find_eq := by
    show (s.engine.mapEntries isRunning f).find? (f x).id = _
    rw [Engine.find?_mapEntries s.engine isRunning fun x => (keeps x).1, (keeps x).1, h.find_eq]
    rfl
  payload_eq := (keeps x).2.trans h.payload_eq
  caller_eq := h.caller_eq

end Holds

/-! ## §4. What is done to other jobs -/

section Others

variable [ZoneBook] [Memory] {s s' : Scheduler} {name other : String} {number : Nat} {w : Worker}
  {x : Engine.Entry Nat} {c : Clock}

/-- Who is registered changes for the name that is addressed, and for no other. -/
theorem Changes.number?_of_ne (h : s.Changes c (some other) s') (hne : name ≠ other) :
    s'.number? name = s.number? name := by
  cases h with
  | nothing => rfl
  | add h =>
    obtain ⟨-, schedule, nextRun, caller, script, -, rfl⟩ := addJob_eq_ok h
    exact Registry.lookup_insert_of_ne hne
  | remove h =>
    obtain ⟨number, -, rfl⟩ := removeJob_eq_ok h
    exact Registry.lookup_remove_of_ne hne
  | act => rfl
  | refresh => rfl

/-- What is addressed to a job changes neither settings nor whether triggering was started. -/
theorem Changes.settings_eq (h : s.Changes c (some other) s') :
    s'.historySize = s.historySize ∧ s'.startTime = s.startTime := by
  cases h with
  | nothing => exact ⟨rfl, rfl⟩
  | add h =>
    obtain ⟨-, schedule, nextRun, caller, script, -, rfl⟩ := addJob_eq_ok h
    exact ⟨rfl, rfl⟩
  | remove h =>
    obtain ⟨number, -, rfl⟩ := removeJob_eq_ok h
    exact ⟨rfl, rfl⟩
  | act => exact ⟨rfl, rfl⟩
  | refresh => exact ⟨rfl, rfl⟩

/-- **What is done to the job of another name leaves a job and its entry as they are.** -/
theorem Holds.of_changes (hold : s.Holds name number w x) (linked : s.Linked)
    (numbered : s.engine.Numbered) (h : s.Changes c (some other) s') (hne : name ≠ other) :
    s'.Holds name number w x := by
  have hnumber : ∀ k, s.number? other = some k → number ≠ k := fun k hk heq =>
    hne (linked.name_unique hold.number_eq (heq ▸ hk))
  have hregistered := (h.number?_of_ne hne).trans hold.number_eq
  have hx := (Engine.mem_of_find? hold.find_eq).1
  cases h with
  | nothing => exact hold
  | add h =>
    obtain ⟨-, schedule, nextRun, caller, script, -, rfl⟩ := addJob_eq_ok h
    refine ⟨hregistered, ?_, hold.entry_eq, ?_, hold.payload_eq, hold.caller_eq⟩
    · show (s.workers ++ _)[number]? = some w
      rw [List.getElem?_append_left (List.getElem?_eq_some_iff.mp hold.worker_eq).1]
      exact hold.worker_eq
    · show (s.engine.add c schedule _).1.find? x.id = some x
      rw [Engine.find?_add numbered, if_neg (Nat.ne_of_lt (numbered.issued x hx))]
      exact hold.find_eq
  | remove h =>
    obtain ⟨k, hk, rfl⟩ := removeJob_eq_ok h
    obtain ⟨y, hy, hypayload, hengine⟩ := linked.dismissed_eq hk
    -- the entry that goes is another one, since it has another job
    have hid : x.id ≠ y.id := by
      have hxid := linked.id_eq x hx
      have hyid := linked.id_eq y hy
      have hjobs := hnumber k hk
      have hpayload := hold.payload_eq
      omega
    have hleft : ({ s with
        engine := s.dismissed k
        registry := s.registry.remove other } : Scheduler).Holds name number w x := by
      refine ⟨hregistered, hold.worker_eq, hold.entry_eq, ?_, hold.payload_eq, hold.caller_eq⟩
      show (s.dismissed k).find? x.id = some x
      rw [hengine, Engine.find?_remove, if_neg hid]
      exact hold.find_eq
    exact hleft.modifyJob_of_ne (hnumber k hk) _
  | act hk => exact hold.setWorker_of_ne (hnumber _ hk) _
  | refresh hk => exact hold.modifyJob_of_ne (hnumber _ hk) _

/-- **What is done to the job of another name leaves a view as it is.** -/
theorem Changes.view_of_ne (h : s.Changes c (some other) s') (linked : s.Linked)
    (numbered : s.engine.Numbered) (hne : name ≠ other) : s'.view name = s.view name := by
  cases hn : s.number? name with
  | none => rw [view_eq_none hn, view_eq_none ((h.number?_of_ne hne).trans hn)]
  | some number =>
    obtain ⟨w, x, hold⟩ := linked.holds numbered hn
    rw [hold.view_eq, (hold.of_changes linked numbered h hne).view_eq]

end Others

/-! ## §5. Firings -/

section Firings

variable {clock : Clock} {cancelled : List Scope} {s : Scheduler} {calls : CallLog}
  {firing : Nat × List Nat} {firings : List (Nat × List Nat)} {name : String} {n : Nat}

/-- Firings that are none of a job leave it as it is. -/
theorem worker?_foldl_passJob (h : n ∉ firings.map (·.1)) :
    (firings.foldl (passJob clock cancelled) (s, calls)).1.worker? n = s.worker? n := by
  induction firings generalizing s calls with
  | nil => rfl
  | cons f rest ih =>
    rw [List.map_cons, List.mem_cons, not_or] at h
    exact (ih h.2).trans (worker?_passJob h.1)

/-- On whose behalf an executor is called does not change. -/
theorem caller_passJob {w' : Worker}
    (h : (passJob clock cancelled (s, calls) firing).1.worker? n = some w') :
    ∃ w, s.worker? n = some w ∧ w'.caller = w.caller := by
  by_cases hn : n = firing.1
  · cases hw : s.worker? firing.1 with
    | none =>
      unfold passJob at h
      simp only [hw] at h
      exact ⟨w', h, rfl⟩
    | some w =>
      rw [passJob_eq hw] at h
      change (s.setWorker _ _).worker? n = _ at h
      rw [worker?_setWorker s hw, if_pos hn] at h
      obtain rfl := Option.some.inj h
      exact ⟨w, hn ▸ hw, congrArg (fun l => l.1) (w.label_passTime calls firing.2)⟩
  · rw [worker?_passJob hn] at h
    exact ⟨w', h, rfl⟩

theorem caller_foldl_passJob {w' : Worker}
    (h : (firings.foldl (passJob clock cancelled) (s, calls)).1.worker? n = some w') :
    ∃ w, s.worker? n = some w ∧ w'.caller = w.caller := by
  induction firings generalizing s calls with
  | nil => exact ⟨w', h, rfl⟩
  | cons f rest ih =>
    obtain ⟨v, hv, heq⟩ := ih h
    obtain ⟨w, hw, heq'⟩ := caller_passJob hv
    exact ⟨w, hw, heq.trans heq'⟩

/-- A firing adds no calls but those on behalf of its own job. -/
theorem timesOf_passJob (other : ∀ v, s.worker? firing.1 = some v → v.caller.job ≠ name)
    {caller : Caller} (hcaller : caller.job = name) :
    (passJob clock cancelled (s, calls) firing).2.timesOf caller = calls.timesOf caller := by
  cases hw : s.worker? firing.1 with
  | none =>
    unfold passJob
    simp only [hw]
  | some w =>
    rw [passJob_eq hw]
    exact w.timesOf_passTime_of_ne (fun heq => other w hw (heq ▸ hcaller)) firing.2

/-- No firing of the list is that of a job of a name. -/
def Silent (s : Scheduler) (name : String) (firings : List (Nat × List Nat)) : Prop :=
  ∀ f ∈ firings, ∀ v, s.worker? f.1 = some v → v.caller.job ≠ name

theorem timesOf_foldl_passJob (silent : s.Silent name firings) {caller : Caller}
    (hcaller : caller.job = name) :
    (firings.foldl (passJob clock cancelled) (s, calls)).2.timesOf caller =
      calls.timesOf caller := by
  induction firings generalizing s calls with
  | nil => rfl
  | cons f rest ih =>
    refine (ih fun g hg v hv => ?_).trans
      (timesOf_passJob (silent f List.mem_cons_self) hcaller)
    obtain ⟨w, hw, heq⟩ := caller_passJob hv
    rw [heq]
    exact silent g (List.mem_cons_of_mem _ hg) w hw

/-- **A job gets through its own firings**, whichever others come before and after. -/
theorem foldl_passJob_own {before after : List (Nat × List Nat)} {w : Worker}
    (hw : s.worker? n = some w) (hname : w.caller.job = name)
    (hbefore : n ∉ before.map (·.1)) (hafter : n ∉ after.map (·.1))
    (silentBefore : s.Silent name before) (silentAfter : s.Silent name after) (clock : Clock)
    (cancelled : List Scope) (calls : CallLog) (ts : List Nat) :
    ((before ++ (n, ts) :: after).foldl (passJob clock cancelled) (s, calls)).1.worker? n =
        some (w.passTime clock cancelled calls ts).1 ∧
      ∀ caller, caller.job = name →
        ((before ++ (n, ts) :: after).foldl (passJob clock cancelled) (s, calls)).2.timesOf caller =
          (w.passTime clock cancelled calls ts).2.timesOf caller := by
  rw [List.foldl_append, List.foldl_cons]
  have hworker : (before.foldl (passJob clock cancelled) (s, calls)).1.worker? n = some w :=
    (worker?_foldl_passJob hbefore).trans hw
  have htimes : ∀ caller, caller.job = name →
      (before.foldl (passJob clock cancelled) (s, calls)).2.timesOf caller = calls.timesOf caller :=
    fun caller hcaller => timesOf_foldl_passJob silentBefore hcaller
  have hcallers : ∀ m v, (before.foldl (passJob clock cancelled) (s, calls)).1.worker? m = some v →
      ∃ u, s.worker? m = some u ∧ v.caller = u.caller := fun m v hv => caller_foldl_passJob hv
  generalize before.foldl (passJob clock cancelled) (s, calls) = p at hworker htimes hcallers
  obtain ⟨r, k⟩ := p
  -- the job starts out as it was, and of its own calls the log still tells the same
  obtain ⟨hsame, hown⟩ := w.passTime_congr (htimes w.caller hname) clock cancelled ts
  refine ⟨?_, fun caller hcaller => ?_⟩
  · rw [worker?_foldl_passJob hafter, passJob_eq hworker]
    show (r.setWorker n _).worker? n = _
    rw [worker?_setWorker r hworker, if_pos rfl, hsame]
  · -- what follows is still none of the job's own
    have hsilent : (passJob clock cancelled (r, k) (n, ts)).1.Silent name after := by
      intro f hf v hv
      obtain ⟨u, hu, hvu⟩ := caller_passJob hv
      obtain ⟨u', hu', huu⟩ := hcallers f.1 u hu
      rw [hvu, huu]
      exact silentAfter f hf u' hu'
    rw [timesOf_foldl_passJob hsilent hcaller, passJob_eq hworker]
    by_cases heq : caller = w.caller
    · rw [heq]
      exact hown
    · show (w.passTime clock cancelled k ts).2.timesOf caller = _
      rw [w.timesOf_passTime_of_ne heq, w.timesOf_passTime_of_ne heq]
      exact htimes caller hcaller

/-- A firing goes to the job of a registered name, on whose behalf its executor is called. -/
theorem number?_of_firing {now : Nat} (wired : s.Wired now) (linked : s.Linked)
    (hf : firing ∈ (s.engine.fireUntil clock).2) {v : Worker} (hv : s.worker? firing.1 = some v) :
    s.number? v.caller.job = some firing.1 := by
  obtain ⟨y, hy, rfl⟩ := Wired.exists_entry hf
  obtain ⟨other, hother⟩ := wired.registered y hy
  obtain ⟨u, x, hu, -, -, hfits⟩ := linked.entry_of other y.payload hother
  cases hu.symm.trans hv
  rw [caller_eq_of_fits hfits]
  exact hother

/-- **What the firings of a job do, and the end of its execution, is nothing to another name.** -/
theorem Linked.view_passJob_of_ne (linked : s.Linked) (numbered : s.engine.Numbered)
    {other : String} (hn : s.number? other = some n) (hne : name ≠ other) (clock : Clock)
    (cancelled : List Scope) (calls : CallLog) (times : List Nat) :
    (passJob clock cancelled (s, calls) (n, times)).1.view name = s.view name ∧
      ∀ caller, caller.job = name →
        (passJob clock cancelled (s, calls) (n, times)).2.timesOf caller =
          calls.timesOf caller := by
  obtain ⟨v, x, hold⟩ := linked.holds numbered hn
  refine ⟨?_, fun caller hcaller => timesOf_passJob (fun u hu heq => ?_) hcaller⟩
  · rw [passJob_eq hold.worker_eq]
    cases hname : s.number? name with
    | none =>
      exact (view_eq_none (s := s.setWorker n _) hname).trans (view_eq_none hname).symm
    | some number =>
      obtain ⟨w, y, hold'⟩ := linked.holds numbered hname
      have hother : number ≠ n := fun heq => hne (linked.name_unique hname (heq ▸ hn))
      rw [hold'.view_eq]
      exact (hold'.setWorker_of_ne hother _).view_eq
  · cases hold.worker_eq.symm.trans hu
    exact hne (heq.symm.trans hold.caller_eq)

/-- **While time passes a job and its entry move on their own.** -/
theorem Holds.passTime {now number : Nat} {w : Worker} {x : Engine.Entry Nat}
    (hold : s.Holds name number w x) (wired : s.Wired now) (linked : s.Linked) (clock : Clock)
    (cancelled : List Scope) (calls : CallLog) :
    (s.passTime clock cancelled calls).1.Holds name number
        (w.passTime clock cancelled calls (x.fireUntil clock clock.elapsed).2).1
        (x.fireUntil clock clock.elapsed).1 ∧
      ∀ caller, caller.job = name →
        (s.passTime clock cancelled calls).2.timesOf caller =
          (w.passTime clock cancelled calls (x.fireUntil clock clock.elapsed).2).2.timesOf
            caller := by
  have hx := (Engine.mem_of_find? hold.find_eq).1
  have hmem : (number, (x.fireUntil clock clock.elapsed).2) ∈ (s.engine.fireUntil clock).2 := by
    rw [Engine.fired_eq, ← hold.payload_eq]
    exact List.mem_map_of_mem hx
  have distinct := wired.distinct_firings clock
  obtain ⟨before, after, hfirings⟩ := List.append_of_mem hmem
  -- no other firing is that of this job
  rw [hfirings, List.map_append, List.map_cons, List.nodup_append] at distinct
  obtain ⟨-, hnodup, hapart⟩ := distinct
  have hbefore : number ∉ before.map (·.1) := fun hn => hapart _ hn _ List.mem_cons_self rfl
  have hafter : number ∉ after.map (·.1) := (List.nodup_cons.mp hnodup).1
  have silent : ∀ part : List (Nat × List Nat), part ⊆ (s.engine.fireUntil clock).2 →
      number ∉ part.map (·.1) →
      ({ s with engine := (s.engine.fireUntil clock).1 } : Scheduler).Silent name part := by
    intro part hpart hnot f hf v hv heq
    have hn := number?_of_firing wired linked (hpart hf) hv
    rw [heq, hold.number_eq] at hn
    exact hnot (Option.some.inj hn ▸ List.mem_map_of_mem hf)
  have hsilentBefore := silent before (hfirings ▸ List.subset_append_left _ _) hbefore
  have hsilentAfter := silent after
    (hfirings ▸ fun f hf => List.mem_append_right _ (List.mem_cons_of_mem _ hf)) hafter
  have hown := foldl_passJob_own (s := { s with engine := (s.engine.fireUntil clock).1 })
    hold.worker_eq hold.caller_eq hbefore hafter hsilentBefore hsilentAfter clock cancelled calls
    (x.fireUntil clock clock.elapsed).2
  rw [← hfirings] at hown
  refine ⟨?_, hown.2⟩
  -- at the end the executor has returned already, if it had to
  have hworker := worker?_passTime hown.1
  rw [Worker.settle_passTime] at hworker
  obtain ⟨workers, heq, -⟩ := s.passTime_eq clock cancelled calls
  rw [heq] at hworker ⊢
  have hentry := hold.mapEntries s.engine.isRunning s.startTime fun y =>
    ⟨(y.fireUntil_keeps clock clock.elapsed).1, (y.fireUntil_keeps clock clock.elapsed).2.2⟩
  rw [← Engine.fireUntil_eq] at hentry
  exact hentry.of_workers hworker (w.label_passTime calls _)

/-- Who is not registered has no calls made on its behalf while time passes. -/
theorem timesOf_passTime_of_unknown {now : Nat} (unknown : s.number? name = none)
    (wired : s.Wired now) (linked : s.Linked) (clock : Clock) (cancelled : List Scope)
    (calls : CallLog) {caller : Caller} (hcaller : caller.job = name) :
    (s.passTime clock cancelled calls).2.timesOf caller = calls.timesOf caller := by
  have silent : ({ s with engine := (s.engine.fireUntil clock).1 } : Scheduler).Silent name
      (s.engine.fireUntil clock).2 := by
    intro f hf v hv heq
    have hn := number?_of_firing wired linked hf hv
    rw [heq, unknown] at hn
    cases hn
  exact timesOf_foldl_passJob silent hcaller

theorem number?_passTime (s : Scheduler) (clock : Clock) (cancelled : List Scope) (calls : CallLog)
    (name : String) : (s.passTime clock cancelled calls).1.number? name = s.number? name := by
  obtain ⟨workers, heq, -⟩ := s.passTime_eq clock cancelled calls
  rw [heq]
  rfl

end Firings

/-! ## §6. Sessions -/

/-- How a job and its entry move up to the clock's present: the entry fires, and the job gets
through that. -/
def moved (clock : Clock) (cancelled : List Scope) (calls : CallLog) :
    Worker × Option (Engine.Entry Nat) → Worker × Option (Engine.Entry Nat)
  | (w, some x) =>
    let (x, times) := x.fireUntil clock clock.elapsed
    ((w.passTime clock cancelled calls times).1, some x)
  | (w, none) => (w.settle clock cancelled, none)

/-- Of the log, only the calls on behalf of the job are looked at. -/
theorem moved_congr {calls calls' : CallLog} {p : Worker × Option (Engine.Entry Nat)}
    (same : calls'.timesOf p.1.caller = calls.timesOf p.1.caller) (clock : Clock)
    (cancelled : List Scope) : moved clock cancelled calls' p = moved clock cancelled calls p := by
  obtain ⟨w, x⟩ := p
  cases x with
  | none => rfl
  | some x => exact congrArg (·, _) (w.passTime_congr same clock cancelled _).1

namespace Session

variable {s s' : Session} {name other : String}

/-- Nobody is called on behalf of a job when another one is addressed. -/
theorem Begins.timesOf_of_ne [ZoneBook] [Memory] (h : s.Begins (some other) s')
    (linked : s.scheduler.Linked) (hne : name ≠ other) {caller : Caller}
    (hcaller : caller.job = name) : s'.calls.timesOf caller = s.calls.timesOf caller := by
  by_contra hchanged
  obtain ⟨target, number, w, htarget, hn, hw, rfl⟩ := h.calls caller hchanged
  obtain rfl : other = target := Option.some.inj htarget
  obtain ⟨v, x, hv, -, -, hfits⟩ := linked.entry_of other number hn
  cases hv.symm.trans hw
  exact hne (hcaller.symm.trans (caller_eq_of_fits hfits))

/-- **While time passes every view moves on its own.** -/
theorem Coherent.view_passTo (hs : s.Coherent) (ms : Nat) (name : String) :
    (s.passTo ms).scheduler.view name =
      (s.scheduler.view name).map (moved (s.clock.advanceTo ms) s.cancelled s.calls) := by
  cases hn : s.scheduler.number? name with
  | none =>
    have hafter := s.scheduler.number?_passTime (s.clock.advanceTo ms) s.cancelled s.calls name
    rw [view_eq_none hn, view_eq_none (s := (s.passTo ms).scheduler) (hafter.trans hn)]
    rfl
  | some number =>
    obtain ⟨w, x, hold⟩ := hs.linked.holds hs.wired.numbered hn
    have hafter := hold.passTime hs.wired hs.linked (s.clock.advanceTo ms) s.cancelled s.calls
    rw [hold.view_eq]
    exact hafter.1.view_eq

/-- The job of a view is called on its own behalf. -/
theorem Coherent.caller_of_view (hs : s.Coherent) {p : Worker × Option (Engine.Entry Nat)}
    (h : s.scheduler.view name = some p) : p.1.caller.job = name := by
  cases hn : s.scheduler.number? name with
  | none => cases (view_eq_none hn).symm.trans h
  | some number =>
    obtain ⟨w, x, hold⟩ := hs.linked.holds hs.wired.numbered hn
    cases hold.view_eq.symm.trans h
    exact hold.caller_eq

/-- **What happens to others either leaves a view as it is, or it lets time pass for it.** -/
theorem Coherent.view_happen_of_ne [ZoneBook] [Memory] (hs : s.Coherent) {e : Event}
    (he : e.target? = some other) (hne : name ≠ other) :
    ((s.happen e).clock = s.clock ∧ (s.happen e).scheduler.view name = s.scheduler.view name) ∨
    ∃ ms, s.clock.elapsed < ms ∧ (s.happen e).clock = s.clock.advanceTo ms ∧
      (s.happen e).scheduler.view name =
        (s.scheduler.view name).map (moved (s.clock.advanceTo ms) s.cancelled s.calls) := by
  obtain ⟨s', hbegins, hrest⟩ := s.happen_begins e
  rw [he] at hbegins hrest
  have hview := hbegins.scheduler.view_of_ne hs.linked hs.wired.numbered hne
  rcases hrest with heq | ⟨ms, hlater, heq⟩
  · rw [heq]
    exact .inl ⟨hbegins.clock, hview⟩
  · refine .inr ⟨ms, hlater nofun, ?_, ?_⟩
    · rw [heq, ← hbegins.clock]
      rfl
    · rw [heq, (hs.begins hbegins).view_passTo, hview, hbegins.clock,
        (hbegins.scopes nofun).1]
      cases hp : s.scheduler.view name with
      | none => rfl
      | some p =>
        exact congrArg some (moved_congr
          (hbegins.timesOf_of_ne hs.linked hne (hs.caller_of_view hp)) _ _)

end Session

end Scheduler

end CronSupervisor
