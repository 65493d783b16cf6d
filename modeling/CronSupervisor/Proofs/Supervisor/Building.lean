/-
  CronSupervisor.Proofs.Supervisor.Building — which configurations can be run.

  A configuration is validated first, as a whole, and then its jobs are added one by one.  Both
  passes stop at the first job with a fault; the first looks at names and commands, the second at
  patterns and schedules.  What the first one lets through has a name of its own for every job, and
  so the second one never meets a name twice.  Nobody looks at the size of the histories: where
  memory cannot hold one, the first job that is added brings the program down.

  Main statements:
    * `Supervisor.addAll_eq_error_iff`, `Supervisor.added_of_addAll` — what adding jobs leads to.
    * `Config.prepare_eq_error_iff`, `Config.exists_prepare_iff` — which configurations are
      rejected, and why.
    * `Config.prepared_iff_runnable` — what preparing a configuration leads to.
-/
import CronSupervisor.Platform
import CronSupervisor.Proofs.Config.Validity
import CronSupervisor.Proofs.Process.Registry
import CronSupervisor.Proofs.Scheduler.Registration
import CronSupervisor.Supervisor

namespace CronSupervisor

open Calendar Cron Text

/-! ## §1. Preparing a configuration -/

namespace Config

/-- The configuration that a file writes, valid or not. -/
def parsed (file : Option (List UInt8)) : Except ConfigError Config :=
  match file with
  | none => .error (.unreadable .missing)
  | some bytes =>
    match utf8Text? bytes with
    | none => .error (.unreadable .notText)
    | some text =>
      match (Toml.document? text).bind (Value.config? .toml) with
      | some c => .ok c
      | none => .error .malformed

/-- Validate a configuration and build its supervisor. -/
def prepare [ZoneBook] [PatternSyntax] [Memory] (clock : Clock) (c : Config) :
    Except CheckError Supervisor :=
  match c.validated with
  | .error e => .error (.config e)
  | .ok c =>
    match Supervisor.build clock c with
    | .error e => .error (.build e)
    | .ok s => .ok s

theorem load_eq (file : Option (List UInt8)) : load file = (parsed file).bind validated := by
  unfold load parsed
  cases file with
  | none => rfl
  | some bytes =>
    simp only
    cases utf8Text? bytes with
    | none => rfl
    | some text =>
      simp only [ofText]
      cases (Toml.document? text).bind (Value.config? .toml) <;> rfl

end Config

/-- **A file is checked by preparing what it writes.** -/
theorem check_eq_of_parsed [ZoneBook] [PatternSyntax] [Memory] {file : Option (List UInt8)}
    {c : Config} (h : Config.parsed file = .ok c) (clock : Clock) :
    check clock file = (c.prepare clock).map Supervisor.listing := by
  unfold check Config.prepare
  rw [Config.load_eq, h, show (Except.ok c).bind Config.validated = c.validated from rfl]
  cases c.validated with
  | error e => rfl
  | ok c =>
    simp only
    cases Supervisor.build clock c <;> rfl

/-! ## §2. Adding a job -/

/-- What a configured job is registered with in the scheduler. -/
def JobConfig.registration (j : JobConfig) : Registration :=
  { name := j.name, expr := j.schedule, timezone := j.timezone, options := j.options }

variable [PatternSyntax]

/-- All patterns that a job masks can be read. -/
def JobConfig.Compiles (j : JobConfig) : Prop :=
  ∀ text ∈ j.redact, ∃ p, PatternSyntax.read? text = some p

variable [ZoneBook]

/-- The schedule of a job can be read. -/
def JobConfig.Parses (j : JobConfig) : Prop :=
  ∃ schedule, Schedule.parse j.schedule j.timezone = .ok schedule

variable [Memory]

/-- What keeps a job with a history of some size from being added under a name of its own: the
patterns come before the schedule, and that before the history. -/
inductive JobConfig.Unfit (historySize : Nat) (j : JobConfig) : BuildError → Prop
  | process {cause : PatternError}
      (unreadable : FirstFault (fun _ => Sink.Unreadable) j.redact cause) :
      Unfit historySize j (.process j.name ⟨j.name, cause⟩)
  | job {e : CronError} (compiles : j.Compiles)
      (misread : Schedule.parse j.schedule j.timezone = .error e) :
      Unfit historySize j (.job j.name (.cron e))
  | exhausted (compiles : j.Compiles) (parses : j.Parses) (oversized : ¬ History.Fits historySize) :
      Unfit historySize j (.job j.name .exhausted)

namespace Supervisor

/-- Executors are shared, and they follow no script. -/
def noScript (_ : String) : List Behaviour := []

/-- Where jobs can be added: output is captured, and the scheduler is in step. -/
structure Open (clock : Clock) (s : Supervisor) : Prop where
  captures : s.processes.captures = true
  linked : s.scheduler.Linked
  wired : s.scheduler.Wired clock.elapsed

omit [PatternSyntax] [ZoneBook] [Memory] in
theorem open_empty (clock : Clock) (historySize : Nat) : (empty historySize).Open clock :=
  ⟨rfl, .empty historySize, .empty historySize clock.elapsed⟩

variable {clock : Clock} {s s' : Supervisor} {j : JobConfig} {js : List JobConfig} {e : BuildError}

/-- What adding a job leads to. -/
theorem add_eq_ok (captures : s.processes.captures = true) (h : s.add clock j = .ok s') :
    (∃ ps, s'.processes =
      s.processes.insert j.name (ProcessRegistry.newcomer j.name j.processSettings ps)) ∧
    s.scheduler.register clock noScript j.registration = .ok s'.scheduler := by
  unfold add at h
  split at h
  next => cases h
  next processes hp =>
    obtain ⟨ps, -, rfl⟩ := (ProcessRegistry.register_eq_ok_iff captures).mp hp
    split at h
    next => cases h
    next scheduler hs =>
      cases h
      exact ⟨⟨ps, rfl⟩, hs⟩

/-- A job is added to the histories of the others' size. -/
theorem historySize_add (captures : s.processes.captures = true) (h : s.add clock j = .ok s') :
    s'.scheduler.historySize = s.scheduler.historySize := by
  obtain ⟨-, _, _, _, _, -, heq⟩ := Scheduler.addJob_eq_ok (add_eq_ok captures h).2
  rw [heq]

/-- **Why a job with a name of its own is not added.** -/
theorem add_eq_error_iff (h : s.Open clock) (fresh : s.scheduler.number? j.name = none) :
    s.add clock j = .error e ↔ j.Unfit s.scheduler.historySize e := by
  unfold add
  cases hp : s.processes.register j.name j.processSettings with
  | error cause =>
    obtain ⟨pattern, hfirst, rfl⟩ := (ProcessRegistry.register_eq_error_iff h.captures).mp hp
    have hcompiles : ¬ j.Compiles := fun hcompiles => by
      obtain ⟨ps, hps⟩ := Sink.exists_patternsOf_iff.mpr hcompiles
      cases hps.symm.trans (Sink.patternsOf_eq_error_iff.mpr hfirst)
    show Except.error _ = Except.error e ↔ _
    rw [Except.error.injEq]
    constructor
    · rintro rfl
      exact .process hfirst
    · rintro (hfirst' | ⟨compiles, -⟩ | ⟨compiles, -, -⟩)
      · have hsame := hp.symm.trans ((ProcessRegistry.register_eq_error_iff h.captures).mpr
          ⟨_, hfirst', rfl⟩)
        rw [Except.error.inj hsame]
      · exact absurd compiles hcompiles
      · exact absurd compiles hcompiles
  | ok processes =>
    obtain ⟨ps, hps, -⟩ := (ProcessRegistry.register_eq_ok_iff h.captures).mp hp
    have hcompiles : j.Compiles := Sink.exists_patternsOf_iff.mp ⟨ps, hps⟩
    have hreadable : ∀ {cause}, ¬ FirstFault (fun _ => Sink.Unreadable) j.redact cause := by
      intro cause hfirst
      cases hps.symm.trans (Sink.patternsOf_eq_error_iff.mpr hfirst)
    have hsame : (∃ cause, s.scheduler.addJob clock j.name j.schedule j.timezone j.options [] =
        .error cause ∧ e = .job j.name cause) ↔ j.Unfit s.scheduler.historySize e := by
      constructor
      · rintro ⟨cause, hcause, rfl⟩
        rcases Scheduler.addJob_eq_error_iff.mp hcause with
          ⟨error, misread, rfl⟩ | ⟨schedule, parses, ⟨known, -⟩ | ⟨-, oversized, rfl⟩⟩
        · exact .job hcompiles misread
        · exact absurd known (Scheduler.number?_eq_none_iff.mp fresh)
        · exact .exhausted hcompiles ⟨schedule, parses⟩ oversized
      · rintro (hfirst | ⟨-, misread⟩ | ⟨-, ⟨schedule, parses⟩, oversized⟩)
        · exact absurd hfirst hreadable
        · exact ⟨_, Scheduler.addJob_eq_error_iff.mpr (.inl ⟨_, misread, rfl⟩), rfl⟩
        · exact ⟨_, Scheduler.addJob_eq_error_iff.mpr (.inr ⟨schedule, parses,
            .inr ⟨Scheduler.number?_eq_none_iff.mp fresh, oversized, rfl⟩⟩), rfl⟩
    rw [← hsame]
    cases s.scheduler.addJob clock j.name j.schedule j.timezone j.options [] with
    | error cause => simp [eq_comm]
    | ok scheduler => simp

theorem Open.add (h : s.Open clock) (ha : s.add clock j = .ok s') : s'.Open clock := by
  obtain ⟨⟨ps, hprocesses⟩, hregister⟩ := add_eq_ok h.captures ha
  refine ⟨?_, h.linked.addJob hregister, h.wired.addJob hregister⟩
  rw [hprocesses]
  exact h.captures

/-! ## §3. Adding many jobs -/

/-- Add jobs one after another. -/
def addAll (clock : Clock) (s : Supervisor) (js : List JobConfig) : Except BuildError Supervisor :=
  js.foldlM (add clock) s

theorem addAll_cons (clock : Clock) (s : Supervisor) (j : JobConfig) (js : List JobConfig) :
    s.addAll clock (j :: js) = (s.add clock j).bind fun s => s.addAll clock js :=
  List.foldlM_cons

/-- **Jobs with names of their own are added up to the first one that is unfit.** -/
theorem addAll_eq_error_iff (h : s.Open clock)
    (fresh : ∀ j ∈ js, s.scheduler.number? j.name = none) (distinct : (js.map (·.name)).Nodup) :
    s.addAll clock js = .error e ↔
      FirstFault (fun _ => JobConfig.Unfit s.scheduler.historySize) js e := by
  induction js generalizing s with
  | nil => exact iff_of_false nofun not_firstFault_nil
  | cons j js ih =>
    have hjob := fun e => add_eq_error_iff (e := e) h (fresh j List.mem_cons_self)
    rw [addAll_cons, firstFault_cons]
    cases ha : s.add clock j with
    | error error =>
      have hunfit := (hjob error).mp ha
      show Except.error error = Except.error e ↔ _
      rw [← ha, hjob e, or_iff_left]
      exact fun hrest => hrest.1 error hunfit
    | ok next =>
      have hfit : ∀ e, ¬ j.Unfit s.scheduler.historySize e :=
        fun e he => by cases ha.symm.trans ((hjob e).mpr he)
      obtain ⟨hother, hdistinct⟩ := List.nodup_cons.mp distinct
      obtain ⟨-, hregister⟩ := add_eq_ok h.captures ha
      have hchanges : s.scheduler.Changes clock (some j.name) next.scheduler := .add hregister
      -- the names of the others are still free
      have hfresh : ∀ k ∈ js, next.scheduler.number? k.name = none := by
        intro k hk
        have hne : k.name ≠ j.name := fun heq => hother (List.mem_map.mpr ⟨k, hk, heq⟩)
        exact (hchanges.number?_of_ne hne).trans (fresh k (List.mem_cons_of_mem j hk))
      rw [or_iff_right (hfit e), and_iff_right hfit, ← historySize_add h.captures ha]
      exact ih (h.add ha) hfresh hdistinct

/-- What adding jobs makes of a supervisor. -/
structure Added (clock : Clock) (s : Supervisor) (js : List JobConfig) (s' : Supervisor) :
    Prop where
  registered : s.scheduler.registerAll clock noScript (js.map (·.registration)) = .ok s'.scheduler
  settings_eq : ∀ j ∈ js, (s'.processes.find? j.name).map (·.settings) = some j.processSettings
  find?_eq : ∀ name, name ∉ js.map (·.name) → s'.processes.find? name = s.processes.find? name

/-- **Jobs that were all added are known under their names, and nothing else has changed.** -/
theorem added_of_addAll (h : s.Open clock) (distinct : (js.map (·.name)).Nodup)
    (ha : s.addAll clock js = .ok s') : Added clock s js s' := by
  induction js generalizing s with
  | nil =>
    cases ha
    exact ⟨rfl, nofun, fun _ _ => rfl⟩
  | cons j js ih =>
    rw [addAll_cons] at ha
    cases hj : s.add clock j with
    | error error =>
      rw [hj] at ha
      cases ha
    | ok next =>
      rw [hj] at ha
      obtain ⟨hother, hdistinct⟩ := List.nodup_cons.mp distinct
      obtain ⟨⟨ps, hprocesses⟩, hregister⟩ := add_eq_ok h.captures hj
      obtain ⟨hregistered, hsettings, hfind⟩ := ih (h.add hj) hdistinct ha
      refine ⟨?_, fun k hk => ?_, fun name hname => ?_⟩
      · rw [List.map_cons, Scheduler.registerAll_cons, hregister]
        exact hregistered
      · rcases List.mem_cons.mp hk with rfl | hk
        · rw [hfind _ hother, hprocesses, ProcessRegistry.find?_insert_self]
          rfl
        · exact hsettings k hk
      · rw [List.map_cons, List.mem_cons, not_or] at hname
        rw [hfind name hname.2, hprocesses, ProcessRegistry.find?_insert_of_ne hname.1]

end Supervisor

/-! ## §4. Configurations -/

/-- A configuration that can be run. -/
structure Config.Runnable (c : Config) : Prop where
  named : ∀ j ∈ c.jobs, trim j.name ≠ ""
  hasProgram : ∀ j ∈ c.jobs, j.HasProgram
  distinct : (c.jobs.map (·.name)).Nodup
  compiles : ∀ j ∈ c.jobs, j.Compiles
  parses : ∀ j ∈ c.jobs, j.Parses

/-- The histories of a configuration can be made: there are none, or memory can hold one. -/
def Config.Fits (c : Config) : Prop := c.jobs ≠ [] → History.Fits c.historySize

/-- Why a configuration is rejected: what makes it invalid comes before what makes a job unfit. -/
inductive Config.Rejected (c : Config) : CheckError → Prop
  | invalid {p : ConfigProblem} (h : FirstFault JobConfig.Violates c.jobs p) :
      Rejected c (.config (.invalid p))
  | unfit {e : BuildError} (valid : Faultless JobConfig.Violates c.jobs)
      (h : FirstFault (fun _ => JobConfig.Unfit c.historySize) c.jobs e) : Rejected c (.build e)

theorem forall_not_unfit_iff {historySize : Nat} {j : JobConfig} : (∀ e, ¬ j.Unfit historySize e) ↔
    j.Compiles ∧ j.Parses ∧ History.Fits historySize := by
  have hpatterns : (∃ ps, Sink.patternsOf j.redact = .ok ps) ↔ j.Compiles :=
    Sink.exists_patternsOf_iff
  constructor
  · intro h
    have hcompiles : j.Compiles := by
      rw [← hpatterns]
      cases hp : Sink.patternsOf j.redact with
      | ok ps => exact ⟨ps, rfl⟩
      | error cause => exact absurd (.process (Sink.patternsOf_eq_error_iff.mp hp)) (h _)
    have hparses : j.Parses := by
      unfold JobConfig.Parses
      cases hs : Schedule.parse j.schedule j.timezone with
      | ok schedule => exact ⟨schedule, rfl⟩
      | error e => exact absurd (.job hcompiles hs) (h _)
    refine ⟨hcompiles, hparses, ?_⟩
    by_contra oversized
    exact h _ (.exhausted hcompiles hparses oversized)
  · rintro ⟨hcompiles, ⟨schedule, hs⟩, fits⟩ e (hfirst | ⟨-, misread⟩ | ⟨-, -, oversized⟩)
    · obtain ⟨ps, hps⟩ := hpatterns.mpr hcompiles
      cases hps.symm.trans (Sink.patternsOf_eq_error_iff.mpr hfirst)
    · cases hs.symm.trans misread
    · exact oversized fits

namespace Config

variable {clock : Clock} {c : Config} {s : Supervisor} {e : CheckError}

/-- Runnable configurations with histories that can be made are valid, and none of their jobs is
unfit. -/
theorem runnable_and_fits_iff : c.Runnable ∧ c.Fits ↔ Faultless JobConfig.Violates c.jobs ∧
    Faultless (fun _ => JobConfig.Unfit c.historySize) c.jobs := by
  simp only [faultless_violates_iff, faultless_iff_forall, forall_not_unfit_iff]
  constructor
  · rintro ⟨⟨named, hasProgram, distinct, compiles, parses⟩, fits⟩
    exact ⟨⟨named, hasProgram, distinct⟩, fun j hj =>
      ⟨compiles j hj, parses j hj, fits (List.ne_nil_of_mem hj)⟩⟩
  · rintro ⟨⟨named, hasProgram, distinct⟩, fit⟩
    refine ⟨⟨named, hasProgram, distinct, fun j hj => (fit j hj).1, fun j hj => (fit j hj).2.1⟩,
      fun hne => ?_⟩
    obtain ⟨j, hj⟩ := List.exists_mem_of_ne_nil _ hne
    exact (fit j hj).2.2

/-- **A valid configuration is built up to the first job that is unfit.** -/
theorem build_eq_error_iff (valid : Faultless JobConfig.Violates c.jobs) {e : BuildError} :
    Supervisor.build clock c = .error e ↔
      FirstFault (fun _ => JobConfig.Unfit c.historySize) c.jobs e :=
  Supervisor.addAll_eq_error_iff (Supervisor.open_empty clock c.historySize) (fun _ _ => rfl)
    (faultless_violates_iff.mp valid).2.2

/-- **Why a configuration is rejected.** -/
theorem prepare_eq_error_iff : c.prepare clock = .error e ↔ c.Rejected e := by
  unfold prepare validated
  cases hp : c.problem? with
  | some p =>
    have hfirst := problem?_eq_some_iff.mp hp
    show Except.error _ = Except.error e ↔ _
    rw [Except.error.injEq]
    constructor
    · rintro rfl
      exact .invalid hfirst
    · rintro (hfirst' | ⟨valid, -⟩)
      · cases hp.symm.trans (problem?_eq_some_iff.mpr hfirst')
        rfl
      · exact absurd hfirst (faultless_iff_not_firstFault.mp valid p)
  | none =>
    have valid := problem?_eq_none_iff.mp hp
    have hinvalid : ∀ p, ¬ FirstFault JobConfig.Violates c.jobs p :=
      faultless_iff_not_firstFault.mp valid
    have hbuild : ∀ e, Supervisor.build clock c = .error e ↔
        FirstFault (fun _ => JobConfig.Unfit c.historySize) c.jobs e :=
      fun _ => build_eq_error_iff valid
    simp only
    cases hb : Supervisor.build clock c with
    | error error =>
      simp only [Except.error.injEq]
      constructor
      · rintro rfl
        exact .unfit valid ((hbuild error).mp hb)
      · rintro (hfirst | ⟨-, hfirst⟩)
        · exact absurd hfirst (hinvalid _)
        · cases hb.symm.trans ((hbuild _).mpr hfirst)
          rfl
    | ok s =>
      refine iff_of_false nofun ?_
      rintro (hfirst | ⟨-, hfirst⟩)
      · exact hinvalid _ hfirst
      · cases hb.symm.trans ((hbuild _).mpr hfirst)

/-- **Which configurations can be prepared.** -/
theorem exists_prepare_iff : (∃ s, c.prepare clock = .ok s) ↔ c.Runnable ∧ c.Fits := by
  have hrejected : ∀ e, c.prepare clock = .error e ↔ c.Rejected e := fun _ => prepare_eq_error_iff
  have hnot : c.Runnable ∧ c.Fits ↔ ∀ e, ¬ c.Rejected e := by
    rw [runnable_and_fits_iff]
    constructor
    · rintro ⟨valid, fit⟩ e (hfirst | ⟨-, hfirst⟩)
      · exact faultless_iff_not_firstFault.mp valid _ hfirst
      · exact faultless_iff_not_firstFault.mp fit _ hfirst
    · intro h
      have valid := faultless_iff_not_firstFault.mpr fun p hp => h _ (.invalid hp)
      exact ⟨valid, faultless_iff_not_firstFault.mpr fun e he => h _ (.unfit valid he)⟩
  rw [hnot]
  simp only [← hrejected]
  cases c.prepare clock with
  | ok s => exact iff_of_true ⟨s, rfl⟩ nofun
  | error e => exact iff_of_false nofun fun h => h e rfl

/-- **Too large histories are noticed when the first job is added**, and not before. -/
theorem prepare_of_oversized (runnable : c.Runnable) (oversized : ¬ c.Fits) :
    ∃ j ∈ c.jobs.head?, c.prepare clock = .error (.build (.job j.name .exhausted)) := by
  obtain ⟨hne, hfull⟩ := Classical.not_imp.mp oversized
  obtain ⟨j, rest, hjobs⟩ := List.exists_cons_of_ne_nil hne
  have hj : j ∈ c.jobs := hjobs ▸ List.mem_cons_self
  refine ⟨j, hjobs ▸ rfl, prepare_eq_error_iff.mpr (.unfit ?_ ?_)⟩
  · exact faultless_violates_iff.mpr ⟨runnable.named, runnable.hasProgram, runnable.distinct⟩
  · exact ⟨[], j, rest, hjobs, faultless_nil _,
      .exhausted (runnable.compiles j hj) (runnable.parses j hj) hfull⟩

/-- A supervisor that was prepared has the jobs of its configuration. -/
theorem added_of_prepare (h : c.prepare clock = .ok s) :
    c.Runnable ∧ Supervisor.Added clock (.empty c.historySize) c.jobs s := by
  obtain ⟨hrunnable, -⟩ := exists_prepare_iff.mp ⟨s, h⟩
  refine ⟨hrunnable, ?_⟩
  unfold prepare at h
  split at h
  next => cases h
  next c' hvalid =>
    split at h
    next => cases h
    next hbuild =>
      cases h
      unfold validated at hvalid
      split at hvalid
      next => cases hvalid
      next =>
        cases hvalid
        exact Supervisor.added_of_addAll (Supervisor.open_empty clock c.historySize)
          hrunnable.distinct hbuild

/-- A supervisor that was prepared has registered its jobs, and nothing else. -/
theorem registers_of_prepare (h : c.prepare clock = .ok s) :
    Scheduler.Registers clock Supervisor.noScript { historySize := c.historySize }
      (c.jobs.map (·.registration)) s.scheduler :=
  Scheduler.registers_registerAll (.empty c.historySize) (.empty c.historySize clock.elapsed)
    (added_of_prepare h).2.registered

/-- The scheduler knows the names of the configuration. -/
theorem mem_names_of_prepare (h : c.prepare clock = .ok s) {name : String} :
    name ∈ s.scheduler.names ↔ ∃ j ∈ c.jobs, j.name = name := by
  have hregisters := registers_of_prepare h
  have hnames : name ∈ (c.jobs.map (·.registration)).map (·.name) ↔
      ∃ j ∈ c.jobs, j.name = name := by
    rw [List.map_map]
    exact List.mem_map
  rw [← hnames, ← not_iff_not, ← Scheduler.number?_eq_none_iff]
  constructor
  · intro hnone hmem
    obtain ⟨r, hr, rfl⟩ := List.mem_map.mp hmem
    obtain ⟨schedule, number, id, hnew⟩ := hregisters.new r hr
    cases hnone.symm.trans hnew.holds.number_eq
  · exact fun hname => hregisters.number?_eq name hname

/-- So does the registry of processes. -/
theorem isSome_find?_of_prepare (h : c.prepare clock = .ok s) {name : String} :
    (s.processes.find? name).isSome = true ↔ ∃ j ∈ c.jobs, j.name = name := by
  obtain ⟨-, hadded⟩ := added_of_prepare h
  constructor
  · intro hsome
    by_contra hnone
    rw [hadded.find?_eq name fun hmem => hnone (List.mem_map.mp hmem)] at hsome
    cases hsome
  · rintro ⟨j, hj, rfl⟩
    obtain ⟨p, hp, -⟩ := Option.map_eq_some_iff.mp (hadded.settings_eq j hj)
    rw [hp]
    rfl

/-- A configured job calls the shared executor under its own name. -/
theorem caller_of_prepare (h : c.prepare clock = .ok s) {j : JobConfig} (hj : j ∈ c.jobs) :
    (s.scheduler.find? j.name).map (·.caller) = some (.shared j.name) := by
  obtain ⟨schedule, number, id, hnew⟩ :=
    (registers_of_prepare h).new j.registration (List.mem_map_of_mem hj)
  show (s.scheduler.find? j.registration.name).map (·.caller) = _
  rw [Scheduler.find?_of_number? hnew.holds.number_eq, hnew.holds.worker_eq]
  rfl

/-- **The process of a configured job has a command**, so it is run whenever it is executed. -/
theorem runs_of_prepare (h : c.prepare clock = .ok s) {j : JobConfig} (hj : j ∈ c.jobs) :
    s.processes.Runs j.name := by
  obtain ⟨hrunnable, hadded⟩ := added_of_prepare h
  refine ⟨j.processSettings, hadded.settings_eq j hj, ?_⟩
  obtain ⟨program, args, hcommand, -⟩ := hrunnable.hasProgram j hj
  show j.command ≠ []
  rw [hcommand]
  exact List.cons_ne_nil program args

/-- **A configuration is accepted if it can be run and memory can hold a history of the size that it
asks for, and otherwise its first fault is reported.**  All of the configuration is validated before
any of it is registered, so that no name is ever registered twice.  The scheduler and the registry
of processes then know the names of the configuration and no others, and no execution of a
configured job fails for want of a process or of a command, whatever was executed before.

The size of the histories is no part of what is validated: a configuration that can be run but asks
for too much fails as its first job is added. -/
theorem prepared_iff_runnable (clock : Clock) (c : Config) :
    ((∃ s, c.prepare clock = .ok s) ↔ c.Runnable ∧ c.Fits) ∧
    (∀ e, c.prepare clock = .error e ↔ c.Rejected e) ∧
    (c.Runnable → ¬ c.Fits →
      ∃ j ∈ c.jobs.head?, c.prepare clock = .error (.build (.job j.name .exhausted))) ∧
    (∀ file, parsed file = .ok c → check clock file = (c.prepare clock).map Supervisor.listing) ∧
    (c.problem? = none → ∀ name other,
      Supervisor.build clock c ≠ .error (.job name (.duplicateJob other))) ∧
    ∀ s, c.prepare clock = .ok s →
      (∀ name, name ∈ s.scheduler.names ↔ ∃ j ∈ c.jobs, j.name = name) ∧
      (∀ name, (s.processes.find? name).isSome = true ↔ ∃ j ∈ c.jobs, j.name = name) ∧
      ∀ j ∈ c.jobs, (s.scheduler.find? j.name).map (·.caller) = some (.shared j.name) ∧
        ∀ earlier (call : ProcessRegistry.Call), call.name = j.name →
          ∀ name, ((s.processes.executeAll earlier).respond call).2 ≠ .error (.notRegistered name) ∧
            ((s.processes.executeAll earlier).respond call).2 ≠ .error (.emptyCommand name) := by
  refine ⟨exists_prepare_iff, fun e => prepare_eq_error_iff, prepare_of_oversized,
    fun file hfile => check_eq_of_parsed hfile clock, fun hvalid name other hbuild => ?_,
    fun s hs => ⟨fun name => mem_names_of_prepare hs, fun name => isSome_find?_of_prepare hs,
      fun j hj => ⟨caller_of_prepare hs hj, fun earlier call hcall => ?_⟩⟩⟩
  · -- the first fault would have to be one of a job that is unfit
    have hfirst := (build_eq_error_iff (problem?_eq_none_iff.mp hvalid)).mp hbuild
    obtain ⟨-, j, -, -, -, hunfit⟩ := hfirst
    cases hunfit
  · have hruns := (runs_of_prepare hs hj).executeAll earlier
    exact (hcall ▸ hruns : (s.processes.executeAll earlier).Runs call.name).performed

/-- The greatest number that a file can ask for is too much. -/
example : ¬ @History.Fits Platform.memory 9223372036854775807 := by decide

end Config

end CronSupervisor
