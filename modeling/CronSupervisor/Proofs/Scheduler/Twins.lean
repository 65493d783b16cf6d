/-
  CronSupervisor.Proofs.Scheduler.Twins — sessions that differ in labels only.

  Two sessions are twins if they agree on every name.  Then they have the same names, and whatever
  happens to both of them next leaves them twins: to the name that is addressed it does the same,
  and to every other name it does nothing but let the same time pass.  A job that was removed is
  known under no name any more, but it is still in sight if it was held, so that it is followed
  apart.  Twins answer alike: what they say is the same but for the numbers and identifiers that
  they have issued.

  Main statements:
    * `Changes.fate`, `Retired.changes`, `Retired.passTime` — what becomes of a job in sight.
    * `Session.Twins.happen`, `Session.Twins.follow` — twins stay twins.
    * `Session.Twins.reply` — twins answer alike.
-/
import CronSupervisor.Proofs.Scheduler.Alone
import Mathlib.Data.List.Sort

namespace CronSupervisor

open Calendar Cron

namespace Scheduler

/-! ## §1. The other way round -/

theorem SameJob.symm {name : String} {s t : Scheduler} (h : SameJob name s t) :
    SameJob name t s := by
  cases h with
  | unknown hs ht => exact .unknown ht hs
  | @known n m id w x hs ht =>
    -- with its own labels the job is again what it was
    have hback : s.Holds name n ((w.attach (some id)).attach (some x.id))
        ((x.relabel id m).relabel x.id n) := by
      show s.Holds name n (w.attach (some x.id)) (x.relabel x.id n)
      rw [hs.attach_eq, hs.relabel_eq]
      exact hs
    exact .known ht hback

theorem Alike.symm {name : String} {s t : Scheduler} (h : Alike name s t) : Alike name t s :=
  ⟨h.historySize_eq.symm, h.startTime_eq.symm, h.job.symm⟩

theorem Session.Agrees.symm {name : String} {s t : Session} (h : s.Agrees name t) :
    t.Agrees name s := by
  cases h with
  | @intro calls scheduler heldJob same alike =>
    exact .intro (s := { s with calls, scheduler, heldJob }) s.heldJob
      (fun caller hcaller => (same caller hcaller).symm) alike.symm

/-! ## §2. Removed jobs -/

/-- A job that is known under no name. -/
structure Retired (s : Scheduler) (number : Nat) (w : Worker) : Prop where
  worker_eq : s.worker? number = some w
  nameless : ∀ name, s.number? name ≠ some number

section Retired

variable {c : Clock} {s s' t t' : Scheduler} {target : Option String} {name : String} {n m : Nat}
  {w : Worker}

theorem Retired.modifyJob (h : s.Retired n w) (registered : s.number? name = some m)
    (f : Job → Job) : (s.modifyJob m f).Retired n w := by
  have hne : n ≠ m := fun heq => h.nameless name (heq ▸ registered)
  refine ⟨?_, h.nameless⟩
  rw [worker?_modifyJob, h.worker_eq, Option.map_some, if_neg hne]

theorem Retired.refreshAll (h : s.Retired n w) (sorted : s.registry.Sorted) :
    s.refreshAll.Retired n w := by
  have hregistered : ∀ p ∈ s.registry, s.number? p.1 = some p.2 :=
    fun p hp => sorted.lookup_eq_some_iff.mpr hp
  unfold Scheduler.refreshAll
  generalize s.registry = r at hregistered
  induction r generalizing s with
  | nil => exact h
  | cons p r ih =>
    have hp := hregistered p List.mem_cons_self
    exact ih (h.modifyJob hp _) sorted fun q hq => hregistered q (List.mem_cons_of_mem p hq)

/-- **Whatever is done at one moment, a removed job stays as it is.** -/
theorem Retired.changes [ZoneBook] [Memory] (h : s.Retired n w) (linked : s.Linked)
    (hc : s.Changes c target s') : s'.Retired n w := by
  have hlt : n < s.workers.length := (List.getElem?_eq_some_iff.mp h.worker_eq).1
  cases hc with
  | nothing => exact h
  | @add name _ _ _ _ _ ha =>
    obtain ⟨hfresh, schedule, nextRun, caller, script, -, rfl⟩ := addJob_eq_ok ha
    refine ⟨(List.getElem?_append_left hlt).trans h.worker_eq, fun other hother => ?_⟩
    by_cases hname : other = name
    · -- the new job has a new number
      subst hname
      have hnew := (Registry.lookup_insert_self hfresh).symm.trans hother
      exact absurd (Option.some.inj hnew) (Nat.ne_of_gt hlt)
    · exact h.nameless other ((Registry.lookup_insert_of_ne hname).symm.trans hother)
  | @remove name _ hr =>
    obtain ⟨k, hk, rfl⟩ := removeJob_eq_ok hr
    have hne : n ≠ k := fun heq => h.nameless name (heq ▸ hk)
    refine ⟨?_, fun other hother => ?_⟩
    · rw [worker?_modifyJob]
      show (s.worker? n).map _ = some w
      rw [h.worker_eq, Option.map_some, if_neg hne]
    · by_cases hname : other = name
      · subst hname
        cases Registry.lookup_remove_self.symm.trans hother
      · exact h.nameless other ((Registry.lookup_remove_of_ne hname).symm.trans hother)
  | act hn hw _ =>
    refine ⟨?_, h.nameless⟩
    rw [worker?_setWorker s hw, if_neg fun heq => h.nameless _ (heq ▸ hn)]
    exact h.worker_eq
  | refresh hn => exact h.modifyJob hn _
  | refreshAll => exact h.refreshAll linked.sorted
  | start =>
    unfold Scheduler.start
    split
    next => exact h
    next =>
      have hstarted : ({ s with engine := s.engine.start c, startTime := some c.now } :
          Scheduler).Retired n w := ⟨h.worker_eq, h.nameless⟩
      exact hstarted.refreshAll linked.sorted
  | stop => exact ⟨h.worker_eq, h.nameless⟩

/-- **While time passes nothing happens to a removed job but that its executor returns.** -/
theorem Retired.passTime {now : Nat} (h : s.Retired n w) (wired : s.Wired now) (clock : Clock)
    (cancelled : List Scope) (calls : CallLog) :
    (s.passTime clock cancelled calls).1.Retired n (w.settle clock cancelled) := by
  refine ⟨worker?_passTime ?_, fun name => ?_⟩
  · rw [worker?_foldl_passJob]
    · exact h.worker_eq
    · intro hmem
      obtain ⟨firing, hf, rfl⟩ := List.mem_map.mp hmem
      obtain ⟨x, hx, rfl⟩ := Wired.exists_entry hf
      obtain ⟨name, hname⟩ := wired.registered x hx
      exact h.nameless name hname
  · rw [number?_passTime]
    exact h.nameless name

/-- **A registered job stays registered, or it is removed and forgets its entry.** -/
theorem Changes.fate [ZoneBook] [Memory] (hc : s.Changes c target s') (linked : s.Linked)
    (hn : s.number? name = some n) (hw : s.worker? n = some w) :
    s'.number? name = some n ∨ (s'.number? name = none ∧ s'.Retired n (w.attach none)) := by
  by_cases hother : ∃ other, target = some other ∧ name ≠ other
  · obtain ⟨other, rfl, hne⟩ := hother
    exact .inl ((hc.number?_of_ne hne).trans hn)
  · cases hc with
    | nothing => exact .inl hn
    | @add other _ _ _ _ _ ha =>
      have hname : name = other := by_contra fun hne => hother ⟨other, rfl, hne⟩
      obtain ⟨hfresh, -⟩ := addJob_eq_ok ha
      cases (hname ▸ hfresh).symm.trans hn
    | @remove other _ hr =>
      obtain rfl : name = other := by_contra fun hne => hother ⟨other, rfl, hne⟩
      obtain ⟨k, hk, rfl⟩ := removeJob_eq_ok hr
      cases hk.symm.trans hn
      refine .inr ⟨Registry.lookup_remove_self, ?_, fun other hreg => ?_⟩
      · rw [worker?_modifyJob]
        show (s.worker? n).map _ = _
        rw [hw, Option.map_some, if_pos rfl]
        rfl
      · change (s.registry.remove name).lookup other = some n at hreg
        by_cases heq : other = name
        · subst heq
          cases Registry.lookup_remove_self.symm.trans hreg
        · rw [Registry.lookup_remove_of_ne heq] at hreg
          exact heq (linked.name_unique hreg hn)
    | act _ _ _ => exact .inl hn
    | refresh _ => exact .inl hn
    | refreshAll =>
      obtain ⟨workers, heq⟩ := s.refreshAll_eq
      rw [heq]
      exact .inl hn
    | start =>
      unfold Scheduler.start
      split
      next => exact .inl hn
      next =>
        obtain ⟨workers, heq⟩ := refreshAll_eq
          { s with engine := s.engine.start c, startTime := some c.now }
        rw [heq]
        exact .inl hn
    | stop => exact .inl hn

end Retired

/-! ## §3. The job in sight -/

/-- Two schedulers hold the same job in sight, or none. -/
inductive SameHeld (s t : Scheduler) : Option Nat → Option Nat → Prop
  | nothing : SameHeld s t none none
  | registered {name : String} {n m : Nat} (hs : s.number? name = some n)
      (ht : t.number? name = some m) : SameHeld s t (some n) (some m)
  | retired {n m : Nat} {w : Worker} (hs : s.Retired n w) (ht : t.Retired m w) :
      SameHeld s t (some n) (some m)

theorem SameJob.number?_eq_none_iff {name : String} {s t : Scheduler} (h : SameJob name s t) :
    t.number? name = none ↔ s.number? name = none := by
  cases h with
  | unknown hs ht => exact iff_of_true ht hs
  | known hs ht => simp only [hs.number_eq, ht.number_eq, reduceCtorEq]

namespace SameHeld

variable {c : Clock} {s s' t t' : Scheduler} {target : Option String} {held held' : Option Nat}

/-- **Whatever is done to both, the same job stays in sight.** -/
theorem changes [ZoneBook] [Memory] (h : SameHeld s t held held')
    (alike : ∀ name, Alike name s t) (linked : s.Linked) (linked' : t.Linked)
    (hs : s.Changes c target s') (ht : t.Changes c target t')
    (after : ∀ name, t'.number? name = none ↔ s'.number? name = none) :
    SameHeld s' t' held held' := by
  cases h with
  | nothing => exact .nothing
  | retired hw hw' => exact .retired (hw.changes linked hs) (hw'.changes linked' ht)
  | @registered name n m hn hm =>
    cases (alike name).job with
    | unknown hs ht => cases hs.symm.trans hn
    | known hold hold' =>
      cases hold.number_eq.symm.trans hn
      cases hold'.number_eq.symm.trans hm
      -- it is removed on both sides, or on neither
      rcases hs.fate linked hn hold.worker_eq with hreg | ⟨hnone, hretired⟩
      · rcases ht.fate linked' hm hold'.worker_eq with hreg' | ⟨hnone', -⟩
        · exact .registered hreg hreg'
        · cases ((after name).mp hnone').symm.trans hreg
      · rcases ht.fate linked' hm hold'.worker_eq with hreg' | ⟨-, hretired'⟩
        · cases ((after name).mpr hnone).symm.trans hreg'
        · exact .retired hretired hretired'

/-- **While time passes the same job stays in sight.** -/
theorem passTime (h : SameHeld s t held held') {now now' : Nat} (hs : s.Wired now)
    (ht : t.Wired now') (clock : Clock) (cancelled : List Scope) (calls calls' : CallLog) :
    SameHeld (s.passTime clock cancelled calls).1 (t.passTime clock cancelled calls').1
      held held' := by
  cases h with
  | nothing => exact .nothing
  | registered hn hm =>
    exact .registered ((number?_passTime ..).trans hn) ((number?_passTime ..).trans hm)
  | retired hw hw' =>
    exact .retired (hw.passTime hs clock cancelled calls) (hw'.passTime ht clock cancelled calls')

end SameHeld

/-! ## §4. Twins -/

namespace Session

/-- Two sessions agree on every name, and the same job is in sight. -/
structure Twins (s t : Session) : Prop where
  coherent : s.Coherent
  coherent' : t.Coherent
  agrees : ∀ name, s.Agrees name t
  held : SameHeld s.scheduler t.scheduler s.heldJob t.heldJob

theorem twins_init (start : Instant) (historySize : Nat)
    (scripts : List (String × List Behaviour)) :
    (init start historySize scripts).Twins (init start historySize scripts) := by
  have hinit := coherent_init start historySize scripts
  refine ⟨hinit, hinit, fun name => ?_, .nothing⟩
  exact .intro (s := init start historySize scripts) none (fun _ _ => rfl)
    ⟨rfl, rfl, .unknown rfl rfl⟩

theorem heldJob_passTo (s : Session) (ms : Nat) : (s.passTo ms).heldJob = s.heldJob := rfl

theorem heldJob_change (s : Session) (r : Except SchedulerError Scheduler) :
    (s.change r).1.heldJob = s.heldJob := by
  cases r <;> rfl

/-- Which job is in sight after an event. -/
def sighted (s : Session) : Event → Option Nat
  | .request (.hold name) => (s.scheduler.number? name).or s.heldJob
  | _ => s.heldJob

theorem heldJob_launch {s s' : Session} {name : String} {tag : Trigger} {bounds : CallerBounds}
    {number : Nat} {execution : Int} (h : s.launch name tag bounds = .ok (s', number, execution)) :
    s'.heldJob = s.heldJob := by
  obtain ⟨-, w, w', calls, -, -, rfl, -⟩ := launch_eq_ok h
  rfl

theorem heldJob_happen [ZoneBook] [Memory] (s : Session) (e : Event) :
    (s.happen e).heldJob = s.sighted e := by
  cases e with
  | abandon name => exact heldJob_change ..
  | call name bounds =>
    simp only [happen]
    split
    next hl => exact heldJob_launch hl
    next => rfl
  | request r =>
    cases r with
    | addJob | removeJob | pause | resume => exact heldJob_change ..
    | trigger name bounds =>
      simp only [happen, step]
      split
      next hl => exact heldJob_launch hl
      next => rfl
    | triggerSync name bounds =>
      simp only [happen, step]
      split
      next hl =>
        simp only [await]
        split
        next => exact (heldJob_passTo ..).trans (heldJob_launch hl)
        next => exact heldJob_launch hl
      next => rfl
    | status name =>
      simp only [happen, step]
      split
      next => split <;> rfl
      next => rfl
    | hold name =>
      simp only [happen, step, sighted]
      split
      next hn => rw [hn]; rfl
      next hn => rw [hn]; rfl
    | history name limit =>
      simp only [happen, step]
      split <;> rfl
    | cancel id =>
      simp only [happen, step]
      split <;> rfl
    | statuses | getJob | held | names | historySize | start | stop | stats | token | advance
    | elapsed | calls => rfl

variable {s t : Session} {name : String}

theorem Agrees.scopes_eq (h : s.Agrees name t) :
    t.cancelled = s.cancelled ∧ t.tokens = s.tokens := by
  cases h
  exact ⟨rfl, rfl⟩

namespace Twins

/-- **Twins let the same time pass.** -/
theorem passage (h : s.Twins t) (e : Event) :
    (s.passage? e = none ∧ t.passage? e = none) ∨ ∃ s' t' ms, s.passage? e = some (s', ms) ∧
      t.passage? e = some (t', ms) ∧ t'.cancelled = s'.cancelled := by
  cases e with
  | call | abandon => exact .inl ⟨rfl, rfl⟩
  | request r =>
    simp only [passage?]
    cases r with
    | triggerSync name bounds =>
      have hlaunch := (h.agrees name).launch .api bounds
      simp only [passes]
      generalize s.launch name .api bounds = x at hlaunch
      generalize t.launch name .api bounds = y at hlaunch
      cases hlaunch with
      | error e => exact .inl ⟨rfl, rfl⟩
      | @ok p q hpq =>
        obtain ⟨s', n, execution⟩ := p
        obtain ⟨t', m, execution'⟩ := q
        obtain ⟨hagrees, hn, hm, heq⟩ := hpq
        obtain rfl : execution' = execution := heq
        obtain ⟨w, entry, hw, hw'⟩ := hagrees.exists_worker hn hm
        simp only [hw, hw', Option.bind_some]
        rw [show (w.attach entry).job.dueOf? execution' = w.job.dueOf? execution' from rfl]
        cases w.job.dueOf? execution' with
        | none => exact .inl ⟨rfl, rfl⟩
        | some due => exact .inr ⟨s', t', due, rfl, rfl, hagrees.scopes_eq.1⟩
    | cancel id =>
      obtain ⟨hcancelled, htokens⟩ := (h.agrees id).scopes_eq
      simp only [passes]
      rw [htokens, (h.agrees id).clock_eq, hcancelled]
      cases s.tokens.lookup id with
      | none => exact .inl ⟨rfl, rfl⟩
      | some scope => exact .inr ⟨_, _, _, rfl, rfl, rfl⟩
    | advance ms =>
      refine .inr ⟨s, t, _, rfl, ?_, (h.agrees "").scopes_eq.1⟩
      simp only [passes, (h.agrees "").clock_eq]
    | addJob | removeJob | pause | resume | trigger | status | statuses | getJob | hold | held
    | names | history | historySize | start | stop | stats | token | elapsed | calls =>
      exact .inl ⟨rfl, rfl⟩

theorem clock_eq (h : s.Twins t) : t.clock = s.clock := (h.agrees "").clock_eq

theorem alike (h : s.Twins t) (name : String) : Alike name s.scheduler t.scheduler :=
  (h.agrees name).alike

theorem sighted (h : s.Twins t) (e : Event) :
    SameHeld s.scheduler t.scheduler (s.sighted e) (t.sighted e) := by
  have hheld := h.held
  cases e with
  | call | abandon => exact hheld
  | request r =>
    cases r with
    | hold name =>
      cases (h.alike name).job with
      | unknown hs ht =>
        simp only [Session.sighted, hs, ht, Option.none_or]
        exact hheld
      | known hs ht =>
        simp only [Session.sighted, hs.number_eq, ht.number_eq, Option.some_or]
        exact .registered hs.number_eq ht.number_eq
    | addJob | removeJob | pause | resume | trigger | triggerSync | status | statuses | getJob
    | held | names | history | historySize | start | stop | stats | token | cancel | advance
    | elapsed | calls => exact hheld

variable [ZoneBook] [Memory]

/-- **Whatever happens to twins is done to both at once, and then the same time passes.** -/
theorem parts (h : s.Twins t) (e : Event) : ∃ s' t', s.Begins e.target? s' ∧
    t.Begins e.target? t' ∧ ((s.happen e = s' ∧ t.happen e = t') ∨
      ∃ ms, s.happen e = s'.passTo ms ∧ t.happen e = t'.passTo ms ∧
        t'.cancelled = s'.cancelled) := by
  have hpassage := h.passage e
  rcases s.happen_parts e with ⟨s', ms, hs, hbegins, -, heq⟩ | ⟨hs, hbegins⟩
  · rcases t.happen_parts e with ⟨t', ms', ht, hbegins', -, heq'⟩ | ⟨ht, -⟩
    · rw [hs, ht] at hpassage
      rcases hpassage with ⟨hnone, -⟩ | ⟨_, _, _, hsome, hsome', hcancelled⟩
      · cases hnone
      · cases hsome
        cases hsome'
        exact ⟨s', t', hbegins, hbegins', .inr ⟨ms, heq, heq', hcancelled⟩⟩
    · rw [hs, ht] at hpassage
      rcases hpassage with ⟨hnone, -⟩ | ⟨_, _, _, -, hsome, -⟩
      · cases hnone
      · cases hsome
  · rcases t.happen_parts e with ⟨t', ms', ht, -⟩ | ⟨-, hbegins'⟩
    · rw [hs, ht] at hpassage
      rcases hpassage with ⟨-, hnone⟩ | ⟨_, _, _, hsome, -⟩
      · cases hnone
      · cases hsome
    · exact ⟨_, _, hbegins, hbegins', .inl ⟨rfl, rfl⟩⟩

/-- **Whatever happens to twins leaves them in agreement on every name.** -/
theorem agrees_happen (h : s.Twins t) (e : Event) (name : String) :
    (s.happen e).Agrees name (t.happen e) := by
  by_cases he : e.target? = none ∨ e.target? = some name
  · exact (h.agrees name).happen h.coherent h.coherent' he
  · -- another name is addressed on both sides
    obtain ⟨hnone, hother⟩ := not_or.mp he
    obtain ⟨other, htarget⟩ := Option.ne_none_iff_exists'.mp hnone
    have hne : name ≠ other := fun heq => hother (heq ▸ htarget)
    obtain ⟨s', t', hs, ht, hrest⟩ := h.parts e
    rw [htarget] at hs ht
    have hleft := (h.agrees name).begins h.coherent hs hne
    have hboth := (hleft.symm.begins h.coherent' ht hne).symm
    rcases hrest with ⟨heq, heq'⟩ | ⟨ms, heq, heq', -⟩
    · rw [heq, heq']
      exact hboth
    · rw [heq, heq']
      exact hboth.passTo (h.coherent.begins hs) (h.coherent'.begins ht) ms

/-- **Twins stay twins, whatever happens.** -/
theorem happen (h : s.Twins t) (e : Event) : (s.happen e).Twins (t.happen e) := by
  have hagrees := h.agrees_happen e
  refine ⟨h.coherent.happen e, h.coherent'.happen e, hagrees, ?_⟩
  rw [heldJob_happen, heldJob_happen]
  obtain ⟨s', t', hs, ht, hrest⟩ := h.parts e
  have hafter := fun name => (hagrees name).alike.job.number?_eq_none_iff
  have hchanges := ht.scheduler
  rw [h.clock_eq] at hchanges
  rcases hrest with ⟨heq, heq'⟩ | ⟨ms, heq, heq', hcancelled⟩
  · rw [heq, heq'] at hafter ⊢
    exact (h.sighted e).changes h.alike h.coherent.linked h.coherent'.linked hs.scheduler hchanges
      hafter
  · rw [heq, heq'] at hafter ⊢
    have hthen := (h.sighted e).changes h.alike h.coherent.linked h.coherent'.linked hs.scheduler
      hchanges fun name => by
        have hname := hafter name
        rwa [show (s'.passTo ms).scheduler.number? name = _ from number?_passTime ..,
          show (t'.passTo ms).scheduler.number? name = _ from number?_passTime ..] at hname
    have hpass := hthen.passTime (h.coherent.begins hs).wired (h.coherent'.begins ht).wired
      (s'.clock.advanceTo ms) s'.cancelled s'.calls t'.calls
    show SameHeld (s'.scheduler.passTime _ _ _).1
      (t'.scheduler.passTime (t'.clock.advanceTo ms) t'.cancelled t'.calls).1 _ _
    rw [ht.clock, h.clock_eq, ← hs.clock, hcancelled]
    exact hpass

theorem follow (h : s.Twins t) (events : List Event) :
    (s.follow events).Twins (t.follow events) := by
  induction events generalizing s t with
  | nil => exact h
  | cons e events ih => exact ih (h.happen e)

end Twins

end Session

/-! ## §5. Answers -/

/-- Two answers are the same, but for the identifiers of entries and for the order of callers in
the log. -/
inductive Reply.Like : Reply → Reply → Prop
  | same (r : Reply) : Like r r
  | job {j j' : Option Job} (h : j'.map (·.attach none) = j.map (·.attach none)) :
      Like (.job j) (.job j')
  | held {j j' : Option Job} (h : j'.map (·.attach none) = j.map (·.attach none)) :
      Like (.held j) (.held j')
  | calls {log log' : CallLog} (h : ∀ caller, log'.timesOf caller = log.timesOf caller) :
      Like (.calls log) (.calls log')

section Answers

variable {s t : Scheduler}

/-- The same names are registered, whatever their numbers. -/
theorem names_eq (alike : ∀ name, Alike name s t) (hs : s.Linked) (ht : t.Linked) :
    t.names = s.names := by
  refine List.Pairwise.eq_of_mem_iff ht.sorted hs.sorted fun name => ?_
  have hname := (alike name).job.number?_eq_none_iff
  rw [number?_eq_none_iff, number?_eq_none_iff] at hname
  exact not_iff_not.mp hname

theorem Alike.find?_eq {name : String} (h : Alike name s t) :
    (t.find? name).map (·.attach none) = (s.find? name).map (·.attach none) := by
  cases h.job with
  | unknown hs ht => rw [find?_of_unknown hs, find?_of_unknown ht]
  | known hs ht =>
    rw [find?_of_number? hs.number_eq, find?_of_number? ht.number_eq, hs.worker_eq, ht.worker_eq]
    rfl

/-- What looks at a job and not at its entry says the same of jobs that are alike. -/
theorem Alike.map_find?_eq {name : String} {α : Type} (h : Alike name s t) (f : Job → α)
    (blind : ∀ j entry, f (j.attach entry) = f j) :
    (t.find? name).map (fun w => f w.job) = (s.find? name).map fun w => f w.job := by
  have hattach : (fun w : Worker => f w.job) = (fun w => f w.job) ∘ (·.attach none) :=
    funext fun w => (blind w.job none).symm
  rw [hattach, ← Option.map_map, ← Option.map_map, h.find?_eq]

end Answers

namespace Session.Twins

variable {s t : Session}

theorem names_eq (h : s.Twins t) : t.scheduler.names = s.scheduler.names :=
  Scheduler.names_eq h.alike h.coherent.linked h.coherent'.linked

/-- The report on all jobs is the same. -/
theorem statuses_eq (h : s.Twins t) :
    t.scheduler.refreshAll.registered.map (·.job.status) =
      s.scheduler.refreshAll.registered.map (·.job.status) := by
  have halike := fun name => (h.alike name).refreshAll
  have hs := h.coherent.linked.refreshAll
  have ht := h.coherent'.linked.refreshAll
  rw [hs.map_registered, ht.map_registered, Scheduler.names_eq halike hs ht]
  exact List.filterMap_congr fun name _ => (halike name).map_find?_eq Job.status fun _ _ => rfl

/-- The statistics are the same. -/
theorem stats_eq (h : s.Twins t) : t.scheduler.stats = s.scheduler.stats := by
  have hs := h.coherent.linked
  have ht := h.coherent'.linked
  have hstate : t.scheduler.state? = s.scheduler.state? :=
    funext fun name => (h.alike name).map_find?_eq Job.state fun _ _ => rfl
  have hstates : t.scheduler.registered.map (·.job.state) =
      s.scheduler.registered.map (·.job.state) := by
    rw [hs.states_eq, ht.states_eq, h.names_eq, hstate]
  have hlength : t.scheduler.registry.length = s.scheduler.registry.length := by
    have hnames := congrArg List.length h.names_eq
    unfold names at hnames
    rwa [List.length_map, List.length_map] at hnames
  unfold stats
  rw [hstates, hlength, (h.alike "").startTime_eq]

/-- The same job is in sight. -/
theorem held_eq (h : s.Twins t) :
    ((t.heldJob.bind t.scheduler.worker?).map (·.job)).map (·.attach none) =
      ((s.heldJob.bind s.scheduler.worker?).map (·.job)).map (·.attach none) := by
  have hheld := h.held
  generalize s.heldJob = held at hheld
  generalize t.heldJob = held' at hheld
  cases hheld with
  | nothing => rfl
  | retired hs ht => rw [Option.bind_some, Option.bind_some, hs.worker_eq, ht.worker_eq]
  | @registered name n m hn hm =>
    obtain ⟨w, entry, hw, hw'⟩ := (h.agrees name).exists_worker hn hm
    rw [Option.bind_some, Option.bind_some, hw, hw']
    rfl

/-- Whatever is called, the log tells the same. -/
theorem timesOf_eq (h : s.Twins t) (caller : Caller) :
    t.calls.timesOf caller = s.calls.timesOf caller := by
  cases h.agrees caller.job with
  | intro heldJob same alike => exact same caller rfl

/-- **Twins answer alike.** -/
theorem reply [ZoneBook] [Memory] (h : s.Twins t) (r : Request) :
    (s.step r).2.Like (t.step r).2 := by
  have hown := fun name (own : r.target? = some name) (hne : r ≠ .getJob name) =>
    ((h.agrees name).step_own h.coherent h.coherent' own).2 hne
  have hsame : (t.step r).2 = (s.step r).2 → (s.step r).2.Like (t.step r).2 := fun heq => by
    rw [heq]
    exact .same _
  cases r with
  | addJob name | removeJob name | pause name | resume name | trigger name | triggerSync name
  | status name | hold name | history name => exact hsame (hown name rfl nofun)
  | getJob name =>
    refine .job ?_
    have hfind := congrArg (Option.map (·.job)) (h.alike name).find?_eq
    rw [Option.map_map, Option.map_map] at hfind ⊢
    exact hfind
  | statuses => exact hsame (congrArg Reply.statuses h.statuses_eq)
  | held => exact .held h.held_eq
  | names => exact hsame (congrArg Reply.names h.names_eq)
  | historySize => exact hsame (congrArg Reply.size (h.alike "").historySize_eq)
  | start =>
    have halike := (h.alike "").start h.coherent.linked h.coherent'.linked s.clock
    refine hsame (congrArg (fun time : Option Instant => Reply.started time.isSome) ?_)
    rw [h.clock_eq]
    exact halike.startTime_eq
  | stop => exact .same _
  | stats => exact hsame (congrArg Reply.stats h.stats_eq)
  | token => exact .same _
  | cancel id =>
    refine hsame ?_
    simp only [step]
    rw [(h.agrees "").scopes_eq.2]
    cases s.tokens.lookup id <;> rfl
  | advance ms =>
    have hpass := (h.happen (.request (.advance ms))).clock_eq
    exact hsame (congrArg (fun clock : Clock => Reply.elapsed clock.elapsed) hpass)
  | elapsed => exact hsame (congrArg (fun clock : Clock => Reply.elapsed clock.elapsed) h.clock_eq)
  | calls => exact .calls h.timesOf_eq

end Session.Twins

end Scheduler

end CronSupervisor
