/-
  CronSupervisor.Proofs.Job.Account — every accepted trigger is called, closed and recorded once.

  The log of a life lists its events with what came of them.  `openings` and `closings` read off the
  executions that were opened and closed; `Account` says how they agree with the job: identifiers
  count up from 1, openings are closed in their order and once each, the history shows the newest
  openings with their tags, and what a closed entry records is how its execution ended.

  Main statements:
    * `run_account` — the account is kept throughout a life.
    * `closed_entry_stays` — a closed entry is not touched again while it is kept.
-/
import CronSupervisor.Proofs.Job.Gate
import Mathlib.Data.List.Nodup

namespace CronSupervisor

open Calendar

/-! ## §1. Outlines of histories -/

/-- Identifiers and tags of the entries, newest first. -/
def History.outline (h : History) : List (Int × Trigger) := h.entries.map fun e => (e.id, e.trigger)

/-- Changing an entry does not change what is the same of it before and after. -/
theorem History.map_amend? {β : Type} {id : Int} {f : Entry → Entry} {g : Entry → β}
    (keeps : ∀ e, g (f e) = g e) {es fs : List Entry} (h : History.amend? id f es = some fs) :
    fs.map g = es.map g := by
  induction es generalizing fs with
  | nil => cases h
  | cons e es ih =>
    unfold History.amend? at h
    split at h
    next =>
      cases h
      rw [List.map_cons, List.map_cons, keeps]
    next =>
      obtain ⟨gs, hgs, rfl⟩ := Option.map_eq_some_iff.mp h
      rw [List.map_cons, List.map_cons, ih hgs]

/-- The end of an entry leaves of all entries what an end does not touch. -/
theorem History.map_finish {β : Type} {g : Entry → β} (h : History) (now : Instant)
    (id exitCode : Int) (success : Bool) (error : String)
    (keeps : ∀ e : Entry, g (e.close now exitCode success error) = g e) :
    (h.finish now id exitCode success error).entries.map g = h.entries.map g := by
  unfold History.finish
  split
  next es hes => exact History.map_amend? keeps hes
  next => rfl

@[simp] theorem History.outline_finish (h : History) (now : Instant) (id exitCode : Int)
    (success : Bool) (error : String) :
    (h.finish now id exitCode success error).outline = h.outline :=
  h.map_finish now id exitCode success error fun _ => rfl

theorem History.outline_start (h : History) (now : Instant) (trigger : Trigger) :
    (h.start now trigger).outline = (h.nextId, trigger) :: h.outline.take (h.capacity - 1) := by
  unfold History.outline
  rw [h.entries_start, List.map_cons, List.map_take]
  rfl

namespace Job

/-! ## §2. Accounts -/

/-- The executions that were opened, in order, with the tags of their triggers. -/
def openings (log : List (Event × Effect)) : List (Int × Trigger) :=
  log.filterMap fun p => p.2.opened?.bind fun id => p.1.tag?.map fun tag => (id, tag)

/-- The executions that were closed, in order, with how they ended. -/
def closings (log : List (Event × Effect)) : List (Int × Ending) :=
  log.filterMap fun p => p.2.closed?

/-- What an entry records of its execution. -/
def recordOf (e : Entry) : Int × Bool × String := (e.exitCode, e.success, e.error)

/-- The numbers from 1 on. -/
def countUp (n : Nat) : List Int := (List.range n).map fun i : Nat => (i : Int) + 1

/-- A log agrees with the job and the calls that it led to, in a history of some size. -/
structure Account (size : Nat) (l : Life) (log : List (Event × Effect)) : Prop where
  capacity_eq : l.job.history.capacity = size
  nextId_eq : l.job.history.nextId = (openings log).length + 1
  ids : (openings log).map Prod.fst = countUp (openings log).length
  /-- The history shows the newest openings. -/
  shown : l.job.history.outline = (openings log).reverse.take size
  /-- What was opened was closed, in order, but for the current execution. -/
  settled : (openings log).map Prod.fst = (closings log).map Prod.fst ++ l.job.current.toList
  recorded : ∀ id ending, (id, ending) ∈ closings log →
    ∀ e ∈ l.job.history.entries, e.id = id → e.isRunning = false ∧ recordOf e = ending.record
  called : l.callCount = (openings log).length
  replied : ∀ id outcome, l.job.reply? id = some outcome ↔ (id, .returned outcome) ∈ closings log

theorem nodup_countUp (n : Nat) : (countUp n).Nodup := by
  refine List.pairwise_map.mpr (List.nodup_range.imp fun h heq => h ?_)
  omega

theorem mem_countUp {n : Nat} {id : Int} : id ∈ countUp n ↔ 1 ≤ id ∧ id ≤ n := by
  unfold countUp
  simp only [List.mem_map, List.mem_range]
  refine ⟨fun ⟨i, hi, h⟩ => by omega, fun h => ⟨(id - 1).toNat, by omega, by omega⟩⟩

theorem countUp_succ (n : Nat) : countUp (n + 1) = countUp n ++ [(n : Int) + 1] := by
  simp [countUp, List.range_succ]

namespace Account

variable {size : Nat} {l : Life} {log : List (Event × Effect)}

theorem init (start : Instant) {job : Job} (script : List Behaviour)
    (capacity : job.history.capacity = size) (first : job.history.nextId = 1)
    (entries : job.history.entries = []) (current : job.current = none)
    (replies : job.replies = []) : Account size (Life.init start job script) [] where
  capacity_eq := capacity
  nextId_eq := first
  ids := rfl
  shown := by simp [Life.job, Life.init, History.outline, entries, openings]
  settled := by simp [Life.job, Life.init, openings, closings, current]
  recorded := by simp [closings]
  called := rfl
  replied := by simp [Life.job, Life.init, reply?, replies, closings]

/-! ### What an account tells about identifiers -/

theorem nodup_settled (h : Account size l log) :
    ((closings log).map Prod.fst ++ l.job.current.toList).Nodup := by
  rw [← h.settled, h.ids]
  exact nodup_countUp _

theorem lt_nextId (h : Account size l log) {id : Int} (hid : id ∈ (openings log).map Prod.fst) :
    id < l.job.history.nextId := by
  rw [h.ids, mem_countUp] at hid
  rw [h.nextId_eq]
  omega

theorem mem_openings_of_closed (h : Account size l log) {id : Int} {ending : Ending}
    (hc : (id, ending) ∈ closings log) : id ∈ (openings log).map Prod.fst := by
  rw [h.settled]
  exact List.mem_append_left _ (List.mem_map.mpr ⟨_, hc, rfl⟩)

theorem mem_openings_of_entry (h : Account size l log) {e : Entry}
    (he : e ∈ l.job.history.entries) : (e.id, e.trigger) ∈ openings log := by
  have hs : (e.id, e.trigger) ∈ l.job.history.outline := List.mem_map.mpr ⟨e, he, rfl⟩
  rw [h.shown] at hs
  exact List.mem_reverse.mp (List.mem_of_mem_take hs)

/-- A closed execution is not the current one. -/
theorem ne_current (h : Account size l log) {id cur : Int} {ending : Ending}
    (hc : (id, ending) ∈ closings log) (hcur : l.job.current = some cur) : id ≠ cur := by
  have hn := h.nodup_settled
  rw [hcur, List.nodup_append] at hn
  exact hn.2.2 id (List.mem_map.mpr ⟨_, hc, rfl⟩) cur (by simp)

/-- No two entries share an identifier. -/
theorem nodup_entries (h : Account size l log) :
    (l.job.history.entries.map (·.id)).Nodup := by
  have hids : l.job.history.entries.map (·.id) = (l.job.history.outline).map Prod.fst := by
    simp [History.outline]
  rw [hids, h.shown, List.map_take, List.map_reverse, h.ids]
  exact (List.pairwise_reverse.mpr ((nodup_countUp _).imp Ne.symm)).sublist (List.take_sublist _ _)

/-! ### How events extend it -/

/-- An event that neither opens nor closes leaves the account. -/
theorem quiet (h : Account size l log) {l' : Life} {event : Event} {effect : Effect}
    (opens : effect.opened? = none) (closes : effect.closed? = none)
    (history : l'.job.history = l.job.history) (current : l'.job.current = l.job.current)
    (replies : l'.job.replies = l.job.replies) (calls : l'.callCount = l.callCount) :
    Account size l' (log ++ [(event, effect)]) := by
  have ho : openings (log ++ [(event, effect)]) = openings log := by
    simp [openings, opens]
  have hc : closings (log ++ [(event, effect)]) = closings log := by
    simp [closings, closes]
  constructor <;> simp only [ho, hc, history, current, calls, reply?, replies]
  · exact h.capacity_eq
  · exact h.nextId_eq
  · exact h.ids
  · exact h.shown
  · exact h.settled
  · exact h.recorded
  · exact h.called
  · exact h.replied

/-- An accepted trigger opens the next execution and calls the executor. -/
theorem accepted (h : Account size l log) (free : l.job.current = none) {event : Event}
    {tag : Trigger} (tagged : event.tag? = some tag) (run : Int → Run) :
    Account size
      { l with
        worker := { l.worker with job := l.job.begin l.clock.now tag run }
        calls := l.calls.record l.worker.caller l.clock.elapsed }
      (log ++ [(event, .accepted l.job.history.nextId)]) := by
  have ho : openings (log ++ [(event, .accepted l.job.history.nextId)])
      = openings log ++ [(l.job.history.nextId, tag)] := by
    simp [openings, Effect.opened?, tagged]
  have hc : closings (log ++ [(event, .accepted l.job.history.nextId)]) = closings log := by
    simp [closings, Effect.closed?]
  have hpos := l.job.history.capacity_pos
  exact
    { capacity_eq := h.capacity_eq
      nextId_eq := by
        rw [ho, List.length_append, List.length_singleton]
        show l.job.history.nextId + 1 = _
        rw [h.nextId_eq]
        rfl
      ids := by
        rw [ho, List.map_append, h.ids, List.length_append, List.length_singleton, countUp_succ,
          ← h.nextId_eq]
        rfl
      shown := by
        show (l.job.history.start l.clock.now tag).outline = _
        rw [h.capacity_eq] at hpos
        obtain ⟨n, rfl⟩ : ∃ n, size = n + 1 := ⟨size - 1, by omega⟩
        rw [History.outline_start, h.shown, h.capacity_eq, List.take_take, ho, List.reverse_append,
          Nat.add_sub_cancel, Nat.min_eq_left (Nat.le_succ n)]
        rfl
      settled := by
        rw [ho, hc, List.map_append, h.settled, free, Option.toList_none, List.append_nil]
        rfl
      recorded := by
        -- a closed execution is older than the one that is opened now
        intro id ending hid e he hide
        rw [hc] at hid
        change e ∈ (l.job.history.start l.clock.now tag).entries at he
        rw [History.entries_start, List.mem_cons] at he
        rcases he with rfl | he
        · have hlt := h.lt_nextId (h.mem_openings_of_closed hid)
          change l.job.history.nextId = id at hide
          omega
        · exact h.recorded id ending hid e (List.mem_of_mem_take he) hide
      called := by
        show ((l.calls.record l.worker.caller l.clock.elapsed).timesOf l.worker.caller).length = _
        rw [CallLog.timesOf_record_self, List.length_cons, ho, List.length_append]
        exact congrArg (· + 1) h.called
      replied := by
        rw [hc]
        exact h.replied }

/-- The end of the current execution is recorded and told. -/
theorem closed (h : Account size l log) (hj : InStep l.job) {run : Run}
    (held : l.job.gate = some run) (ending : Ending) :
    Account size (l.withJob (l.job.concluded l.clock.now run.execution ending))
      (log ++ [(.ended ending, .closed run.execution ending)]) := by
  have ho : openings (log ++ [(.ended ending, .closed run.execution ending)]) = openings log := by
    simp [openings, Effect.opened?]
  have hc : closings (log ++ [(.ended ending, .closed run.execution ending)])
      = closings log ++ [(run.execution, ending)] := by
    simp [closings, Effect.closed?]
  have hcur := hj.current_eq_some held
  obtain ⟨e, older, hentries, hid, -, -⟩ := hj.head_of_held held
  have hfinish := History.finish_head hentries l.clock.now ending.record.1 ending.record.2.1
    ending.record.2.2
  rw [hid] at hfinish
  have hnodup := h.nodup_entries
  rw [hentries, List.map_cons, List.nodup_cons, hid] at hnodup
  exact
    { capacity_eq := by
        show (l.job.history.finish _ _ _ _ _).capacity = size
        rw [hfinish]
        exact h.capacity_eq
      nextId_eq := by
        show (l.job.history.finish _ _ _ _ _).nextId = _
        rw [hfinish, ho]
        exact h.nextId_eq
      ids := by
        rw [ho]
        exact h.ids
      shown := by
        show (l.job.history.finish _ _ _ _ _).outline = _
        rw [History.outline_finish, ho]
        exact h.shown
      settled := by
        rw [ho, hc, List.map_append, h.settled, hcur]
        exact (List.append_nil _).symm
      recorded := by
        intro id ending' hmem o ho hido
        change o ∈ (l.job.history.finish _ _ _ _ _).entries at ho
        rw [hfinish] at ho
        rw [hc, List.mem_append, List.mem_singleton] at hmem
        rcases List.mem_cons.mp ho with rfl | ho
        · -- the entry that is closed now is that of no earlier ending
          change e.id = id at hido
          rcases hmem with hmem | hmem
          · exact absurd (hido.symm.trans hid) (h.ne_current hmem hcur)
          · cases hmem
            exact ⟨rfl, rfl⟩
        · rcases hmem with hmem | hmem
          · have hold : o ∈ l.job.history.entries := by
              rw [hentries]
              exact List.mem_cons_of_mem _ ho
            exact h.recorded id ending' hmem o hold hido
          · cases hmem
            exact absurd (List.mem_map.mpr ⟨o, ho, hido⟩) hnodup.1
      called := by
        rw [ho]
        exact h.called
      replied := by
        intro id outcome
        have hold := h.replied id outcome
        have hfresh : l.job.reply? run.execution ≠ some outcome := fun hr =>
          h.ne_current ((h.replied _ _).mp hr) hcur rfl
        rw [hc, List.mem_append, List.mem_singleton, ← hold]
        cases ending with
        | dropped =>
          show l.job.reply? id = some outcome ↔ _
          simp
        | returned value =>
          show ((run.execution, value) :: l.job.replies).lookup id = some outcome ↔ _
          rw [List.lookup_cons]
          by_cases hne : id = run.execution
          · subst hne
            simp [hfresh, eq_comm]
          · simp [hne, show (id == run.execution) = false by simpa using hne, reply?] }

end Account

namespace Life

/-- The account is kept by every step. -/
theorem Move.account {size : Nat} {l l' : Life} {event : Event} {effect : Effect}
    {log : List (Event × Effect)} (m : Move l event l' effect) (hj : InStep l.job)
    (h : Account size l log) : Account size l' (log ++ [(event, effect)]) := by
  cases m with
  | kept worker calls opens closes =>
    have hj' : l'.job = l.job := congrArg Worker.job worker
    refine h.quiet opens closes (by rw [hj']) (by rw [hj']) (by rw [hj']) ?_
    unfold callCount
    rw [worker, calls]
  | paused => exact h.quiet rfl rfl rfl rfl rfl rfl
  | resumed => exact h.quiet rfl rfl rfl rfl rfl rfl
  | accepted tagged free run =>
    exact h.accepted (hj.current_eq_none (refusal?_eq_none_iff.mp free).1) tagged run
  | closed held ending => exact h.closed hj held ending

/-- **The account is kept throughout a life.** -/
theorem run_account {size : Nat} {l : Life} {log : List (Event × Effect)} (hj : InStep l.job)
    (h : Account size l log) (events : List Event) :
    Account size (l.run events).1 (log ++ (l.run events).2) := by
  induction events generalizing l log with
  | nil =>
    rw [run_nil, List.append_nil]
    exact h
  | cons event events ih =>
    have m := l.step_move event
    have hnext := ih (m.inStep hj) (m.account hj h)
    rw [List.append_assoc] at hnext
    exact hnext

/-! ## §3. Closed entries -/

/-- The entry is over: nothing that the job will do can find its identifier again. -/
structure Over (e : Entry) (l : Life) : Prop where
  unique : ∀ o ∈ l.job.history.entries, o.id = e.id → o = e
  past : e.id < l.job.history.nextId
  notCurrent : l.job.current ≠ some e.id

theorem Move.isOver {l l' : Life} {event : Event} {effect : Effect} (m : Move l event l' effect)
    (hj : InStep l.job) {e : Entry} (h : Over e l) : Over e l' := by
  cases m with
  | kept worker =>
    have hj' : l'.job = l.job := congrArg Worker.job worker
    constructor <;> rw [hj']
    · exact h.unique
    · exact h.past
    · exact h.notCurrent
  | paused => exact ⟨h.unique, h.past, h.notCurrent⟩
  | resumed => exact ⟨h.unique, h.past, h.notCurrent⟩
  | @accepted _ tag tagged free run named =>
    -- the new entry has an identifier that is not used yet
    have hnext : e.id < l.job.history.nextId + 1 := Int.lt_trans h.past (Int.lt_succ _)
    refine ⟨fun o ho hid => ?_, hnext, fun hc => ?_⟩
    · change o ∈ (l.job.history.start l.clock.now tag).entries at ho
      rw [History.entries_start, List.mem_cons] at ho
      rcases ho with rfl | ho
      · exact absurd hid (Int.ne_of_gt h.past)
      · exact h.unique o (List.mem_of_mem_take ho) hid
    · exact absurd (Option.some.inj hc) (Int.ne_of_gt h.past)
  | @closed run held ending =>
    obtain ⟨head, older, hentries, hid, -, -⟩ := hj.head_of_held held
    have hfinish := History.finish_head hentries l.clock.now ending.record.1 ending.record.2.1
      ending.record.2.2
    rw [hid] at hfinish
    refine ⟨fun o ho hoid => ?_, ?_, nofun⟩
    · change o ∈ (l.job.history.finish _ _ _ _ _).entries at ho
      rw [hfinish] at ho
      rcases List.mem_cons.mp ho with rfl | ho
      · -- the entry that is closed is the current one
        refine absurd ?_ h.notCurrent
        rw [hj.current_eq_some held, ← hid]
        exact congrArg some hoid
      · refine h.unique o ?_ hoid
        rw [hentries]
        exact List.mem_cons_of_mem _ ho
    · change e.id < (l.job.history.finish _ _ _ _ _).nextId
      rw [hfinish]
      exact h.past

theorem run_over {l : Life} (hj : InStep l.job) {e : Entry} (h : Over e l)
    (events : List Event) : Over e (l.run events).1 := by
  induction events generalizing l with
  | nil => exact h
  | cons event events ih =>
    have m := l.step_move event
    exact ih (m.inStep hj) (m.isOver hj h)

/-- A closed entry that is kept is over. -/
theorem over_of_closed {size : Nat} {l : Life} {log : List (Event × Effect)} (hj : InStep l.job)
    (h : Account size l log) {e : Entry} (he : e ∈ l.job.history.entries)
    (closed : e.isRunning = false) : Over e l where
  unique := fun o ho hid => List.inj_on_of_nodup_map h.nodup_entries ho he hid
  past := h.lt_nextId (List.mem_map.mpr ⟨_, h.mem_openings_of_entry he, rfl⟩)
  notCurrent := by
    intro hc
    obtain ⟨head, older, hentries, hid, hrunning, -⟩ := hj.running e.id hc
    have hhead : head ∈ l.job.history.entries := by
      rw [hentries]
      exact List.mem_cons_self
    rw [List.inj_on_of_nodup_map h.nodup_entries hhead he hid, closed] at hrunning
    cases hrunning

/-- **A closed entry is not touched again while it is kept.** -/
theorem closed_entry_stays {size : Nat} {l : Life} {log : List (Event × Effect)}
    (hj : InStep l.job) (h : Account size l log) {e : Entry} (he : e ∈ l.job.history.entries)
    (closed : e.isRunning = false) (events : List Event) :
    ∀ o ∈ (l.run events).1.job.history.entries, o.id = e.id → o = e :=
  (run_over hj (over_of_closed hj h he closed) events).unique

end Life

end Job

end CronSupervisor
