/-
  CronSupervisor.Proofs.Scheduler.Ticks — what the firings of the engine do to the jobs.

  While time passes the engine fires, and every firing reaches one job as a scheduled trigger.
  `ticks` lists these triggers with the job before and after each.  Between two of them nothing
  happens to the job but that its executor returns, so the list, taken job by job, tells everything
  that becomes of the jobs.

  Main statements:
    * `Tick.Obeyed` — an idle job starts, any other lets the trigger go.
    * `Job.Passes` — how a job gets through a list of ticks.
    * `map_ticks`, `obeyed_of_mem_ticks` — the ticks are the firings of the engine.
    * `passes_passTime` — every job gets through the ticks of its own.
-/
import CronSupervisor.Proofs.Scheduler.Steps

namespace CronSupervisor

open Calendar Cron

/-! ## §1. Ticks -/

/-- A scheduled trigger that reached a job. -/
structure Tick where
  /-- The number of the job. -/
  number : Nat
  /-- The millisecond of the clock. -/
  time : Nat
  now : Instant
  /-- The job at that moment. -/
  before : Job
  after : Job

/-- An idle job opens one execution, now, at the expense of the oldest entry; any other job stays
as it is. -/
def Tick.Obeyed (t : Tick) : Prop :=
  (t.before.state = .idle →
    t.after.history.beginnings = (t.before.history.nextId, t.now, .schedule) ::
        t.before.history.beginnings.take (t.before.history.capacity - 1) ∧
      t.after.lastRun = some t.now) ∧
  (t.before.state ≠ .idle → t.after = t.before)

/-- How a job gets through its ticks up to the present of a clock: before each of them and at the
end its executor returns, if it has to. -/
inductive Job.Passes (clock : Clock) (cancelled : List Scope) : Job → List Tick → Job → Prop
  | done (j : Job) : Passes clock cancelled j [] (j.settle clock cancelled)
  | tick {j j' : Job} {t : Tick} {ts : List Tick}
      (before : t.before = j.settle { clock with elapsed := t.time } cancelled)
      (rest : Passes clock cancelled t.after ts j') : Passes clock cancelled j (t :: ts) j'

/-- **Scheduled executions come of ticks and of nothing else** while time passes. -/
theorem Job.Passes.scheduled {clock : Clock} {cancelled : List Scope} {j j' : Job} {ts : List Tick}
    (h : Passes clock cancelled j ts j') (obeyed : ∀ t ∈ ts, t.Obeyed) :
    ∀ o ∈ j'.history.beginnings, o.2.2 = .schedule → o ∈ j.history.beginnings ∨
      ∃ t ∈ ts, t.before.state = .idle ∧ o = (t.before.history.nextId, t.now, .schedule) := by
  induction h with
  | done j =>
    intro o ho _
    rw [beginnings_settle] at ho
    exact .inl ho
  | @tick j j' t ts before rest ih =>
    intro o ho htag
    have hbefore : t.before.history.beginnings = j.history.beginnings := by
      rw [before, beginnings_settle]
    rcases ih (fun t ht => obeyed t (List.mem_cons_of_mem _ ht)) o ho htag with hold | ⟨u, hu, hnew⟩
    · -- it was there before the later ticks, so this one may have added it
      obtain ⟨hidle, hbusy⟩ := obeyed t List.mem_cons_self
      by_cases idle : t.before.state = .idle
      · rw [(hidle idle).1] at hold
        rcases List.mem_cons.mp hold with rfl | hold
        · exact .inr ⟨t, List.mem_cons_self, idle, rfl⟩
        · exact .inl (hbefore ▸ List.mem_of_mem_take hold)
      · rw [hbusy idle, hbefore] at hold
        exact .inl hold
    · exact .inr ⟨u, List.mem_cons_of_mem _ hu, hnew⟩

/-! ## §2. One worker -/

namespace Worker

/-- The ticks of a worker at the given milliseconds. -/
def ticks (number : Nat) (clock : Clock) (cancelled : List Scope) (w : Worker) (calls : CallLog) :
    List Nat → List Tick
  | [] => []
  | t :: ts =>
    let now := { clock with elapsed := t }
    let (w', calls') := w.tick now cancelled calls
    { number, time := t, now := now.now, before := (w.settle now cancelled).job, after := w'.job }
      :: w'.ticks number clock cancelled calls' ts

variable {number : Nat} {clock : Clock} {cancelled : List Scope}

theorem map_ticks (w : Worker) (calls : CallLog) (ts : List Nat) :
    (w.ticks number clock cancelled calls ts).map (fun t => (t.number, t.time, t.now)) =
      ts.map fun t => (number, t, clock.instantAt t) := by
  induction ts generalizing w calls with
  | nil => rfl
  | cons t ts ih => exact congrArg _ (ih _ _)

theorem passes (w : Worker) (calls : CallLog) (ts : List Nat) :
    Job.Passes clock cancelled w.job (w.ticks number clock cancelled calls ts)
      (w.passTime clock cancelled calls ts).1.job := by
  induction ts generalizing w calls with
  | nil => exact .done w.job
  | cons t ts ih => exact .tick rfl (ih _ _)

/-- **Every tick of an orderly worker is obeyed, and the worker stays orderly.** -/
theorem orderly_passTime {c : Clock} {w : Worker} (hw : w.job.Orderly c) (hc : c.Goes clock)
    (number : Nat) (cancelled : List Scope) {ts : List Nat} (ascending : ts.Pairwise (· < ·))
    (bounds : ∀ t ∈ ts, c.elapsed ≤ t ∧ t ≤ clock.elapsed) (calls : CallLog) :
    (∀ t ∈ w.ticks number clock cancelled calls ts, t.Obeyed) ∧
      (w.passTime clock cancelled calls ts).1.job.Orderly clock := by
  induction ts generalizing c w calls with
  | nil => exact ⟨fun _ ht => absurd ht List.not_mem_nil, hw.settle hc cancelled⟩
  | cons t ts ih =>
    rw [List.pairwise_cons] at ascending
    have ht := bounds t List.mem_cons_self
    -- the first tick is no earlier than the state, and the later ones are no earlier than it
    have hnow : c.Goes { clock with elapsed := t } := ⟨hc.1, ht.1⟩
    have hsettled : (w.settle { clock with elapsed := t } cancelled).job.Orderly
        { clock with elapsed := t } := hw.settle hnow cancelled
    obtain ⟨hobeyed, horderly⟩ := ih (orderly_tick hw hnow cancelled calls)
      ⟨rfl, ht.2⟩ ascending.2
      (fun u hu => ⟨Nat.le_of_lt (ascending.1 u hu), (bounds u (List.mem_cons_of_mem _ hu)).2⟩)
      (w.tick { clock with elapsed := t } cancelled calls).2
    refine ⟨fun u hu => ?_, horderly⟩
    rcases List.mem_cons.mp hu with rfl | hu
    · refine ⟨fun idle => ?_, fun busy => ?_⟩
      · obtain ⟨calls', hl⟩ := tick_of_idle hsettled idle calls
        exact beginnings_launch hl
      · exact congrArg (·.1.job) (tick_of_not_idle hsettled busy calls)
    · exact hobeyed u hu

/-! ### What time does not touch -/

theorem label_tick (w : Worker) (c : Clock) (calls : CallLog) :
    Scheduler.label (w.tick c cancelled calls).1 = Scheduler.label w := by
  unfold tick
  simp only
  split
  next started hl => exact (label_launch hl).trans (w.label_settle c cancelled)
  next => exact w.label_settle c cancelled

theorem label_passTime (w : Worker) (calls : CallLog) (ts : List Nat) :
    Scheduler.label (w.passTime clock cancelled calls ts).1 = Scheduler.label w := by
  induction ts generalizing w calls with
  | nil => exact w.label_settle clock cancelled
  | cons t ts ih => exact (ih _ _).trans (w.label_tick _ calls)

/-- At the end of the passage the executor has returned if it had to. -/
theorem settle_passTime (w : Worker) (calls : CallLog) (ts : List Nat) :
    (w.passTime clock cancelled calls ts).1.settle clock cancelled =
      (w.passTime clock cancelled calls ts).1 := by
  induction ts generalizing w calls with
  | nil =>
    show ({ w with job := (w.job.settle clock cancelled).settle clock cancelled } : Worker) = _
    rw [Job.settle_settle]
    rfl
  | cons t ts ih => exact ih _ _

end Worker

/-! ## §3. All workers -/

namespace Scheduler

/-- The ticks of a list of firings. -/
def ticksOf (clock : Clock) (cancelled : List Scope) (s : Scheduler × CallLog) :
    List (Nat × List Nat) → List Tick
  | [] => []
  | firing :: rest =>
    (match s.1.worker? firing.1 with
      | some w => w.ticks firing.1 clock cancelled s.2 firing.2
      | none => []) ++ ticksOf clock cancelled (passJob clock cancelled s firing) rest

/-- The ticks while time passes up to the clock's present. -/
def ticks (s : Scheduler) (clock : Clock) (cancelled : List Scope) (calls : CallLog) : List Tick :=
  ticksOf clock cancelled ({ s with engine := (s.engine.fireUntil clock).1 }, calls)
    (s.engine.fireUntil clock).2

variable {clock : Clock} {cancelled : List Scope}

theorem passJob_eq {s : Scheduler} {calls : CallLog} {firing : Nat × List Nat} {w : Worker}
    (h : s.worker? firing.1 = some w) : passJob clock cancelled (s, calls) firing =
      (s.setWorker firing.1 (w.passTime clock cancelled calls firing.2).1,
        (w.passTime clock cancelled calls firing.2).2) := by
  unfold passJob
  simp only [h]

/-- A firing leaves everything but its own job as it is. -/
theorem worker?_passJob {s : Scheduler} {calls : CallLog} {firing : Nat × List Nat} {n : Nat}
    (h : n ≠ firing.1) : (passJob clock cancelled (s, calls) firing).1.worker? n = s.worker? n := by
  cases hw : s.worker? firing.1 with
  | none =>
    unfold passJob
    simp only [hw]
  | some w =>
    rw [passJob_eq hw]
    show (s.setWorker firing.1 _).worker? n = _
    rw [worker?_setWorker s hw, if_neg h]

/-- Every firing is a tick of its job. -/
theorem map_ticksOf {s : Scheduler} {firings : List (Nat × List Nat)}
    (distinct : (firings.map (·.1)).Nodup)
    (known : ∀ f ∈ firings, ∃ w, s.worker? f.1 = some w) (calls : CallLog) :
    (ticksOf clock cancelled (s, calls) firings).map (fun t => (t.number, t.time, t.now)) =
      firings.flatMap fun f => f.2.map fun t => (f.1, t, clock.instantAt t) := by
  induction firings generalizing s calls with
  | nil => rfl
  | cons f rest ih =>
    obtain ⟨w, hw⟩ := known f List.mem_cons_self
    rw [List.map_cons, List.nodup_cons] at distinct
    -- the first firing is none of the jobs that fire later, so those are still there
    have hrest : ∀ g ∈ rest,
        ∃ v, (passJob clock cancelled (s, calls) f).1.worker? g.1 = some v := by
      intro g hg
      rw [worker?_passJob]
      · exact known g (List.mem_cons_of_mem _ hg)
      · exact fun heq => distinct.1 (heq ▸ List.mem_map_of_mem hg)
    rw [ticksOf, List.map_append, List.flatMap_cons, hw]
    simp only
    rw [Worker.map_ticks]
    exact congrArg _ (ih distinct.2 hrest _)

theorem ticks_number {number : Nat} (w : Worker) (calls : CallLog) (ts : List Nat) :
    ∀ t ∈ w.ticks number clock cancelled calls ts, t.number = number := by
  induction ts generalizing w calls with
  | nil => exact fun _ ht => absurd ht List.not_mem_nil
  | cons u us ih =>
    intro t ht
    rcases List.mem_cons.mp ht with rfl | ht
    · rfl
    · exact ih _ _ t ht

/-- The ticks of one job are those of its firing; a job without one has none. -/
theorem filter_ticksOf (clock : Clock) (cancelled : List Scope) {s : Scheduler}
    {firings : List (Nat × List Nat)} (distinct : (firings.map (·.1)).Nodup) (calls : CallLog)
    {n : Nat} {w : Worker} (hw : s.worker? n = some w) :
    (n ∉ firings.map (·.1) →
      (firings.foldl (passJob clock cancelled) (s, calls)).1.worker? n = some w ∧
      (ticksOf clock cancelled (s, calls) firings).filter (·.number = n) = []) ∧
    (∀ ts, (n, ts) ∈ firings → ∃ calls',
      (firings.foldl (passJob clock cancelled) (s, calls)).1.worker? n =
        some (w.passTime clock cancelled calls' ts).1 ∧
      (ticksOf clock cancelled (s, calls) firings).filter (·.number = n) =
        w.ticks n clock cancelled calls' ts) := by
  induction firings generalizing s calls w with
  | nil => exact ⟨fun _ => ⟨hw, rfl⟩, fun _ hn => absurd hn List.not_mem_nil⟩
  | cons f rest ih =>
    rw [List.map_cons, List.nodup_cons] at distinct
    rw [ticksOf, List.filter_append, List.foldl_cons]
    by_cases hn : n = f.1
    · -- this firing is the job's own, and there is no other
      subst hn
      rw [hw, passJob_eq hw]
      have hafter : (s.setWorker f.1 (w.passTime clock cancelled calls f.2).1).worker? f.1 =
          some (w.passTime clock cancelled calls f.2).1 := by
        rw [worker?_setWorker s hw, if_pos rfl]
      obtain ⟨hworker, hnone⟩ := (ih distinct.2 (w.passTime clock cancelled calls f.2).2 hafter).1
        distinct.1
      rw [hnone, List.append_nil, List.filter_eq_self.mpr fun t ht =>
        decide_eq_true (ticks_number w calls f.2 t ht)]
      refine ⟨fun hnot => absurd List.mem_cons_self hnot, fun ts hts => ?_⟩
      rcases List.mem_cons.mp hts with heq | hts
      · rw [show ts = f.2 from congrArg Prod.snd heq]
        exact ⟨calls, hworker, rfl⟩
      · exact absurd (List.mem_map_of_mem hts) distinct.1
    · -- another job's firing leaves this one as it is
      have hother : List.filter (fun t : Tick => decide (t.number = n))
          (match s.worker? f.1 with
            | some v => v.ticks f.1 clock cancelled calls f.2
            | none => []) = [] := by
        rw [List.filter_eq_nil_iff]
        intro t ht
        rw [decide_eq_true_eq]
        intro heq
        cases hv : s.worker? f.1 with
        | none =>
          rw [hv] at ht
          exact absurd ht List.not_mem_nil
        | some v =>
          rw [hv] at ht
          exact hn (heq.symm.trans (ticks_number v calls f.2 t ht))
      have hsame : (passJob clock cancelled (s, calls) f).1.worker? n = s.worker? n :=
        worker?_passJob hn
      obtain ⟨hnone, hown⟩ := ih distinct.2 (passJob clock cancelled (s, calls) f).2
        (hsame.trans hw)
      rw [hother, List.nil_append]
      refine ⟨fun hnot => hnone fun hmem => hnot (List.mem_cons_of_mem _ hmem), fun ts hts => ?_⟩
      rcases List.mem_cons.mp hts with rfl | hts
      · exact absurd rfl hn
      · exact hown ts hts

/-- Firings change jobs only, and none comes or goes. -/
theorem foldl_passJob_eq (clock : Clock) (cancelled : List Scope) (s : Scheduler) (calls : CallLog)
    (firings : List (Nat × List Nat)) :
    ∃ workers, (firings.foldl (passJob clock cancelled) (s, calls)).1 = { s with workers } ∧
      workers.length = s.workers.length := by
  induction firings generalizing s calls with
  | nil => exact ⟨s.workers, rfl, rfl⟩
  | cons f rest ih =>
    rw [List.foldl_cons]
    cases hw : s.worker? f.1 with
    | none =>
      have hsame : passJob clock cancelled (s, calls) f = (s, calls) := by
        unfold passJob
        simp only [hw]
      rw [hsame]
      exact ih s calls
    | some w =>
      rw [passJob_eq hw]
      obtain ⟨workers, heq, hlength⟩ :=
        ih (s.setWorker f.1 (w.passTime clock cancelled calls f.2).1)
          (w.passTime clock cancelled calls f.2).2
      exact ⟨workers, heq, hlength.trans List.length_set⟩

/-- While time passes the engine fires and the jobs change, and nothing else does. -/
theorem passTime_eq (s : Scheduler) (clock : Clock) (cancelled : List Scope) (calls : CallLog) :
    ∃ workers, (s.passTime clock cancelled calls).1 =
        { s with engine := (s.engine.fireUntil clock).1, workers } ∧
      workers.length = s.workers.length := by
  obtain ⟨workers, heq, hlength⟩ := foldl_passJob_eq clock cancelled
    { s with engine := (s.engine.fireUntil clock).1 } calls (s.engine.fireUntil clock).2
  refine ⟨workers.map fun w => w.settle clock cancelled, ?_, (List.length_map _).trans hlength⟩
  exact congrArg (fun t : Scheduler =>
    { t with workers := t.workers.map fun w : Worker => w.settle clock cancelled }) heq

/-! ## §4. While time passes -/

section PassTime

variable {c : Clock} {s : Scheduler}

/-- **Every firing of the engine is a tick**, and there are no others. -/
theorem map_ticks {now : Nat} (wired : s.Wired now) (clock : Clock) (cancelled : List Scope)
    (calls : CallLog) :
    (s.ticks clock cancelled calls).map (fun t => (t.number, t.time, t.now)) =
      (s.engine.fireUntil clock).2.flatMap fun f =>
        f.2.map fun t => (f.1, t, clock.instantAt t) := by
  refine map_ticksOf (wired.distinct_firings clock) (fun f hf => ?_) calls
  obtain ⟨x, hx, rfl⟩ := Wired.exists_entry hf
  obtain ⟨w, hw, -⟩ := wired.held x hx
  exact ⟨w, hw⟩

theorem exists_firing {now : Nat} (wired : s.Wired now) {calls : CallLog} {t : Tick}
    (ht : t ∈ s.ticks clock cancelled calls) :
    ∃ ts, (t.number, ts) ∈ (s.engine.fireUntil clock).2 := by
  have hmem := List.mem_map_of_mem (f := fun t : Tick => (t.number, t.time, t.now)) ht
  rw [map_ticks wired, List.mem_flatMap] at hmem
  obtain ⟨⟨n, ts⟩, hf, hmem⟩ := hmem
  obtain ⟨u, -, heq⟩ := List.mem_map.mp hmem
  rw [show t.number = n from (congrArg Prod.fst heq).symm]
  exact ⟨ts, hf⟩

/-- After the firings all executors return that have to. -/
theorem worker?_passTime {calls : CallLog} {n : Nat} {w : Worker}
    (h : ((s.engine.fireUntil clock).2.foldl (passJob clock cancelled)
      ({ s with engine := (s.engine.fireUntil clock).1 }, calls)).1.worker? n = some w) :
    (s.passTime clock cancelled calls).1.worker? n = some (w.settle clock cancelled) :=
  List.getElem?_map.trans (congrArg (Option.map _) h)

/-- **While time passes every job gets through the ticks of its own.** -/
theorem passes_passTime (wired : s.Wired c.elapsed) (hc : c.Goes clock) (cancelled : List Scope)
    (calls : CallLog) {n : Nat} {w : Worker} (hw : s.worker? n = some w)
    (orderly : w.job.Orderly c) :
    (∀ t ∈ (s.ticks clock cancelled calls).filter (·.number = n), t.Obeyed) ∧
    ∃ w', (s.passTime clock cancelled calls).1.worker? n = some w' ∧
      w'.job.Orderly clock ∧ label w' = label w ∧
      Job.Passes clock cancelled w.job ((s.ticks clock cancelled calls).filter (·.number = n))
        w'.job := by
  have distinct := wired.distinct_firings clock
  obtain ⟨hnone, hown⟩ := filter_ticksOf clock cancelled
    (s := { s with engine := (s.engine.fireUntil clock).1 }) distinct calls hw
  by_cases hn : n ∈ (s.engine.fireUntil clock).2.map (·.1)
  · -- the job has a firing; when its ticks are over its executor has returned already
    obtain ⟨⟨m, ts⟩, hf, rfl⟩ := List.mem_map.mp hn
    obtain ⟨calls', hworker, hticks⟩ := hown ts hf
    obtain ⟨ascending, bounds⟩ := wired.firing_bounds hf
    have hpass := Worker.orderly_passTime orderly hc m cancelled ascending bounds calls'
    have hfinal := worker?_passTime hworker
    rw [Worker.settle_passTime] at hfinal
    refine ⟨fun t ht => hpass.1 t (hticks ▸ ht), _, hfinal, hpass.2, w.label_passTime calls' ts, ?_⟩
    show Job.Passes clock cancelled w.job (List.filter _ (ticksOf _ _ _ _)) _
    rw [hticks]
    exact w.passes calls' ts
  · -- nothing happens to the job but that its executor returns
    obtain ⟨hworker, hticks⟩ := hnone hn
    refine ⟨fun t ht => ?_, _, worker?_passTime hworker, orderly.settle hc cancelled,
      w.label_settle clock cancelled, ?_⟩
    · exact absurd (hticks ▸ ht) List.not_mem_nil
    · show Job.Passes clock cancelled w.job (List.filter _ (ticksOf _ _ _ _)) _
      rw [hticks]
      exact .done w.job

/-- Every tick is obeyed, and it reaches a registered job. -/
theorem obeyed_of_mem_ticks (wired : s.Wired c.elapsed)
    (orderly : ∀ n w, s.worker? n = some w → w.job.Orderly c) (hc : c.Goes clock) {calls : CallLog}
    {t : Tick} (ht : t ∈ s.ticks clock cancelled calls) :
    t.Obeyed ∧ ∃ name, s.number? name = some t.number := by
  obtain ⟨ts, hf⟩ := exists_firing wired ht
  obtain ⟨x, hx, heq⟩ := Wired.exists_entry hf
  obtain ⟨w, hw, -⟩ := wired.held x hx
  obtain ⟨name, hname⟩ := wired.registered x hx
  rw [← show t.number = x.payload from congrArg Prod.fst heq] at hw hname
  refine ⟨(passes_passTime wired hc cancelled calls hw (orderly _ w hw)).1 t ?_, name, hname⟩
  exact List.mem_filter.mpr ⟨ht, decide_eq_true rfl⟩

theorem length_passTime (s : Scheduler) (clock : Clock) (cancelled : List Scope) (calls : CallLog) :
    (s.passTime clock cancelled calls).1.workers.length = s.workers.length := by
  obtain ⟨workers, heq, hlength⟩ := s.passTime_eq clock cancelled calls
  rw [heq]
  exact hlength

theorem wired_passTime (wired : s.Wired c.elapsed)
    (orderly : ∀ n w, s.worker? n = some w → w.job.Orderly c) (hc : c.Goes clock)
    (calls : CallLog) : (s.passTime clock cancelled calls).1.Wired clock.elapsed := by
  obtain ⟨workers, heq, -⟩ := s.passTime_eq clock cancelled calls
  refine (wired.fireUntil clock).of_workers ?_ ?_ fun n w hw => ?_
  · rw [heq]
  · rw [heq]
  · obtain ⟨-, w', hw', -, hlabel, -⟩ :=
      passes_passTime wired hc cancelled calls hw (orderly n w hw)
    exact ⟨w', hw', tie_eq_of_label hlabel⟩

end PassTime

end Scheduler

end CronSupervisor
