/-
  CronSupervisor.Proofs.Supervisor.Reordering — the order of the jobs makes no difference.

  Which numbers and identifiers a job gets depends on when it is registered, but nothing that is
  asked later tells.  A configuration with its jobs in another order is accepted just as well, and
  since reports are sorted by names, which are distinct, its listing is the same.

  Main statements:
    * `Config.listing_of_perm` — jobs in another order have the same listing.
    * `Supervisor.order_unobservable` — the order of registration cannot be observed.
-/
import CronSupervisor.Proofs.Scheduler.Order
import CronSupervisor.Proofs.Supervisor.Listing

namespace CronSupervisor

open Calendar

namespace Config

variable [ZoneBook] [PatternSyntax] {clock : Clock} {c c' : Config} {s : Supervisor}

theorem Runnable.of_perm (h : c.Runnable) (perm : c'.jobs.Perm c.jobs) : c'.Runnable where
  named := fun j hj => h.named j (perm.mem_iff.mp hj)
  hasProgram := fun j hj => h.hasProgram j (perm.mem_iff.mp hj)
  distinct := (perm.map _).nodup_iff.mpr h.distinct
  compiles := fun j hj => h.compiles j (perm.mem_iff.mp hj)
  parses := fun j hj => h.parses j (perm.mem_iff.mp hj)

variable [Memory]

omit [ZoneBook] [PatternSyntax] in
theorem Fits.of_perm (h : c.Fits) (perm : c'.jobs.Perm c.jobs)
    (fits : History.Fits c.historySize → History.Fits c'.historySize) : c'.Fits :=
  fun hne => fits (h fun hnil => hne (perm.trans (.of_eq hnil)).eq_nil)

/-- **Jobs in another order are accepted just as well, and they have the same listing.** -/
theorem listing_of_perm (perm : c'.jobs.Perm c.jobs)
    (fits : History.Fits c.historySize → History.Fits c'.historySize)
    (h : c.prepare clock = .ok s) :
    ∃ s', c'.prepare clock = .ok s' ∧ s'.listing = s.listing := by
  obtain ⟨hrunnable, hfits⟩ := exists_prepare_iff.mp ⟨s, h⟩
  obtain ⟨s', h'⟩ := exists_prepare_iff.mpr ⟨hrunnable.of_perm perm, hfits.of_perm perm fits⟩
  refine ⟨s', h', ?_⟩
  rw [listing_eq_written h', listing_eq_written h, sortedByName_of_perm hrunnable.distinct perm]

/-- So are files that write them. -/
theorem check_of_perm {file file' : Option (List UInt8)} (hfile : parsed file = .ok c)
    (hfile' : parsed file' = .ok c') (perm : c'.jobs.Perm c.jobs)
    (fits : History.Fits c.historySize → History.Fits c'.historySize) {listing : String}
    (h : check clock file = .ok listing) : check clock file' = .ok listing := by
  obtain ⟨s, hs, rfl⟩ := (check_eq_ok_iff hfile).mp h
  obtain ⟨s', hs', hlisting⟩ := listing_of_perm perm fits hs
  exact (check_eq_ok_iff hfile').mpr ⟨s', hs', hlisting⟩

end Config

namespace Supervisor

variable [ZoneBook] [PatternSyntax] [Memory]

open Scheduler Session

/-- **The order in which jobs are registered cannot be observed.**  Whatever has happened in a
session, if jobs that are registered now in one order are all accepted, then so they are in every
other order, and whatever happens later every request is answered alike: the answers are the same
but for the identifiers of entries and for the order of the callers in the log of the executor.  At
every moment the report on all jobs is that on each of the names.  And a configuration with its jobs
in another order has the same listing, whatever else is different in it, as long as memory can hold
its histories just as well. -/
theorem order_unobservable (start : Instant) (historySize : Nat)
    (scripts : List (String × List Behaviour)) (events : List Event) :
    let s := (Session.init start historySize scripts).follow events
    (∀ rs rs' : List Registration, rs'.Perm rs → s.Grants rs → s.Grants rs' ∧
      ∀ later r, (((s.request rs).1.follow later).step r).2.Like
        (((s.request rs').1.follow later).step r).2) ∧
    (∃ ss, (s.step .statuses).2 = .statuses ss ∧ (s.step .names).2 = .names s.scheduler.names ∧
      ss.map Reply.status = s.scheduler.names.map fun name => (s.step (.status name)).2) ∧
    (∀ clock (c c' : Config) supervisor, c'.jobs.Perm c.jobs →
      (History.Fits c.historySize → History.Fits c'.historySize) →
      c.prepare clock = .ok supervisor → ∃ supervisor', c'.prepare clock = .ok supervisor' ∧
        supervisor'.listing = supervisor.listing) ∧
    ∀ clock file file' c c' listing, Config.parsed file = .ok c → Config.parsed file' = .ok c' →
      c'.jobs.Perm c.jobs → (History.Fits c.historySize → History.Fits c'.historySize) →
      check clock file = .ok listing → check clock file' = .ok listing := by
  intro s
  have hs : s.Twins s := (twins_init start historySize scripts).follow events
  refine ⟨fun rs rs' perm hgrants => ?_, ?_,
    fun clock c c' supervisor perm fits h => Config.listing_of_perm perm fits h,
    fun clock file file' c c' listing hfile hfile' perm fits h =>
      Config.check_of_perm hfile hfile' perm fits h⟩
  · obtain ⟨hgrants', htwins⟩ := twins_of_perm hs hgrants perm
    exact ⟨hgrants', fun later r => (htwins.follow later).reply r⟩
  · obtain ⟨ss, hstatuses, hmap⟩ := statuses_eq_map_status hs.coherent
    exact ⟨ss, hstatuses, rfl, hmap⟩

end Supervisor

end CronSupervisor
