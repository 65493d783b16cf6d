/-
  CronSupervisor.Proofs.Scheduler.Order — the order of registration cannot be observed.

  Jobs that are asked for one after another are registered in that order, and if one order is
  accepted then so is every other.  The sessions that two orders lead to are twins, so nothing that
  is asked of them later tells which order it was.  Reports are given in ascending order of names,
  and the report on all jobs says of each what the report on that job says.

  Main statements:
    * `Session.twins_of_perm` — two orders of registration lead to twins.
    * `Session.statuses_eq_map_status` — the report on all jobs is that on each of them.
-/
import CronSupervisor.Proofs.Scheduler.Registration
import CronSupervisor.Proofs.Scheduler.Twins

namespace CronSupervisor

open Calendar Cron

/-- The request to register a job. -/
def Registration.request (r : Registration) : Scheduler.Request :=
  .addJob r.name r.expr r.timezone r.options

namespace Scheduler.Session

variable [ZoneBook] [Memory] {s : Session} {rs rs' : List Registration} {scheduler : Scheduler}

/-! ## §1. Requests to register -/

/-- The script that the shared executor follows for a job. -/
def scriptOf (s : Session) (name : String) : List Behaviour := (s.scripts.lookup name).getD []

/-- Ask for jobs to be registered, one after another. -/
def request (s : Session) (rs : List Registration) : Session × List Reply :=
  s.run (rs.map (·.request))

/-- All that was asked for was done. -/
def Grants (s : Session) (rs : List Registration) : Prop :=
  ∀ reply ∈ (s.request rs).2, reply = .done

theorem step_request (s : Session) (r : Registration) :
    s.step r.request = s.change (s.scheduler.register s.clock s.scriptOf r) := rfl

theorem request_cons (s : Session) (r : Registration) (rs : List Registration) :
    s.request (r :: rs) = (((s.step r.request).1.request rs).1,
      (s.step r.request).2 :: ((s.step r.request).1.request rs).2) := rfl

/-- **Jobs that are all registered are all granted.** -/
theorem request_of_registerAll
    (h : s.scheduler.registerAll s.clock s.scriptOf rs = .ok scheduler) :
    s.Grants rs ∧ (s.request rs).1 = { s with scheduler } := by
  induction rs generalizing s with
  | nil =>
    cases h
    exact ⟨fun _ hreply => absurd hreply List.not_mem_nil, rfl⟩
  | cons r rs ih =>
    rw [registerAll_cons] at h
    cases hr : s.scheduler.register s.clock s.scriptOf r with
    | error e =>
      rw [hr] at h
      cases h
    | ok next =>
      rw [hr] at h
      have hstep : s.step r.request = ({ s with scheduler := next }, .done) := by
        rw [step_request, hr]
        rfl
      obtain ⟨hgrants, hend⟩ := ih (s := { s with scheduler := next }) h
      unfold Grants
      rw [request_cons, hstep]
      exact ⟨List.forall_mem_cons.mpr ⟨rfl, hgrants⟩, hend⟩

/-- **Jobs that are all granted have all been registered.** -/
theorem Grants.registerAll (h : s.Grants rs) :
    ∃ scheduler, s.scheduler.registerAll s.clock s.scriptOf rs = .ok scheduler := by
  induction rs generalizing s with
  | nil => exact ⟨s.scheduler, rfl⟩
  | cons r rs ih =>
    unfold Grants at h
    rw [request_cons, step_request] at h
    rw [registerAll_cons]
    cases hr : s.scheduler.register s.clock s.scriptOf r with
    | error e =>
      rw [hr] at h
      cases h _ List.mem_cons_self
    | ok next =>
      rw [hr] at h
      exact ih (s := { s with scheduler := next }) (List.forall_mem_cons.mp h).2

theorem coherent_request (hs : s.Coherent) (rs : List Registration) :
    (s.request rs).1.Coherent := by
  induction rs generalizing s with
  | nil => exact hs
  | cons r rs ih => exact ih (hs.happen (.request r.request))

/-! ## §2. Two orders -/

/-- A removed job stays as it is while others are registered. -/
theorem retired_registerAll {clock : Clock} {shared : String → List Behaviour} {s t : Scheduler}
    {n : Nat} {w : Worker} (h : s.Retired n w) (linked : s.Linked)
    (hs : s.registerAll clock shared rs = .ok t) : t.Retired n w := by
  induction rs generalizing s with
  | nil =>
    cases hs
    exact h
  | cons r rs ih =>
    rw [registerAll_cons] at hs
    cases hr : s.register clock shared r with
    | error e =>
      rw [hr] at hs
      cases hs
    | ok next =>
      rw [hr] at hs
      exact ih (h.changes linked (.add hr)) (linked.addJob hr) hs

/-- **Two orders of registration are both granted, and they lead to twins.** -/
theorem twins_of_perm (hs : s.Twins s) (h : s.Grants rs) (perm : rs'.Perm rs) :
    s.Grants rs' ∧ (s.request rs).1.Twins (s.request rs').1 := by
  have linked := hs.coherent.linked
  have wired := hs.coherent.wired
  obtain ⟨u, hu⟩ := h.registerAll
  have hfirst := registers_registerAll linked wired hu
  -- whether a job is accepted does not depend on the others
  have hparses : ∀ r ∈ rs', ∃ schedule, Schedule.parse r.expr r.timezone = .ok schedule := by
    intro r hr
    obtain ⟨schedule, number, id, hnew⟩ := hfirst.new r (perm.mem_iff.mp hr)
    exact ⟨schedule, hnew.parses⟩
  have hfresh : ∀ r ∈ rs', s.scheduler.number? r.name = none :=
    fun r hr => hfirst.fresh r (perm.mem_iff.mp hr)
  have hdistinct : (rs'.map (·.name)).Nodup := (perm.map _).nodup_iff.mpr hfirst.distinct
  have hfits : rs' ≠ [] → History.Fits s.scheduler.historySize :=
    fun hne => hfirst.fits fun hnil => hne (hnil ▸ perm).eq_nil
  obtain ⟨v, hv⟩ := exists_registerAll s.scriptOf linked wired hparses hfresh hdistinct hfits
  have hsecond := registers_registerAll linked wired hv
  obtain ⟨-, hend⟩ := request_of_registerAll hu
  obtain ⟨hgrants, hend'⟩ := request_of_registerAll hv
  have hcoherent := coherent_request hs.coherent rs
  have hcoherent' := coherent_request hs.coherent rs'
  rw [hend] at hcoherent ⊢
  rw [hend'] at hcoherent' ⊢
  have halike := hfirst.alike linked wired hsecond fun r => perm.mem_iff
  refine ⟨hgrants, hcoherent, hcoherent', fun name => ?_, ?_⟩
  · exact .intro (s := { s with scheduler := u }) s.heldJob (fun _ _ => rfl) (halike name)
  · -- the job in sight is none of those that are registered
    have hheld := hs.held
    show SameHeld u v s.heldJob s.heldJob
    generalize s.heldJob = held at hheld
    cases hheld with
    | nothing => exact .nothing
    | @registered name n m hn hm =>
      have hother : ∀ {rs : List Registration},
          (∀ r ∈ rs, s.scheduler.number? r.name = none) → name ∉ rs.map (·.name) := by
        intro rs hfresh hmem
        obtain ⟨r, hr, rfl⟩ := List.mem_map.mp hmem
        cases (hfresh r hr).symm.trans hn
      exact .registered ((hfirst.number?_eq name (hother hfirst.fresh)).trans hn)
        ((hsecond.number?_eq name (hother hfresh)).trans hm)
    | retired hw hw' =>
      exact .retired (retired_registerAll hw linked hu) (retired_registerAll hw' linked hv)

/-! ## §3. Reports -/

/-- **The report on all jobs is that on each of them**, in ascending order of names. -/
theorem statuses_eq_map_status (hs : s.Coherent) : ∃ ss, (s.step .statuses).2 = .statuses ss ∧
    ss.map Reply.status = s.scheduler.names.map fun name => (s.step (.status name)).2 := by
  refine ⟨_, rfl, ?_⟩
  have hnames : s.scheduler.refreshAll.names = s.scheduler.names := by
    obtain ⟨workers, heq⟩ := s.scheduler.refreshAll_eq
    rw [heq]
    rfl
  rw [hs.linked.refreshAll.map_registered, hnames, List.map_filterMap, ← List.filterMap_eq_map]
  refine List.filterMap_congr fun name hname => ?_
  cases hn : s.scheduler.number? name with
  | none => exact absurd hname (number?_eq_none_iff.mp hn)
  | some n =>
    obtain ⟨w, x, hold⟩ := hs.linked.holds hs.wired.numbered hn
    have hreply : (s.step (.status name)).2 = .status (w.refreshed x.next).job.status := by
      simp only [step, hn, hold.refreshJob.worker_eq]
    rw [find?_of_number? hold.refreshAll.number_eq, hold.refreshAll.worker_eq]
    exact congrArg some hreply.symm

end Scheduler.Session

end CronSupervisor
