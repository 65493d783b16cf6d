/-
  CronSupervisor.Proofs.Engine.Entries — the entries of an engine by their identifiers.

  Identifiers are issued in ascending order and entries are kept in that order, so an identifier
  stands for one entry at most.  Starting, stopping and letting time pass change each entry on its
  own; adding appends one and removing drops one.  `firings` labels what an engine hands out while
  time passes with the identifiers, which the payloads alone do not tell.

  Main statements:
    * `Numbered` and its lemmas — identifiers are distinct and were issued.
    * `find?_add`, `find?_remove`, `find?_mapEntries` — what becomes of the entry of an identifier.
    * `countP_tasks_stop`, `wait_stop` — what tasks a stop ends, and what waiting for them takes.
    * `timesOf_firings` — the firings of one entry.
    * `Entry.fireUntil_relabel` — labels make no difference to when an entry fires.
-/
import CronSupervisor.Proofs.Engine.Dispatch
import Mathlib.Data.List.Nodup

namespace CronSupervisor.Engine

open Calendar Cron

variable {α : Type}

/-! ## §1. Operations entry by entry -/

/-- Change every entry on its own. -/
def mapEntries (e : Engine α) (isRunning : Bool) (f : Entry α → Entry α) : Engine α :=
  { e with isRunning, entries := e.entries.map f }

theorem start_of_resting {e : Engine α} (h : e.isRunning = false) (clock : Clock) :
    e.start clock = e.mapEntries true fun x => x.arm clock clock.now clock.elapsed := by
  unfold start
  rw [h, if_neg Bool.false_ne_true]
  rfl

theorem start_of_running {e : Engine α} (h : e.isRunning = true) (clock : Clock) :
    e.start clock = e := by
  unfold start
  rw [if_pos h]

theorem stop_eq (e : Engine α) (clock : Clock) :
    (e.stop clock).1 = e.mapEntries false Entry.disarm := rfl

theorem fireUntil_eq (e : Engine α) (clock : Clock) :
    (e.fireUntil clock).1 =
      e.mapEntries e.isRunning fun x => (x.fireUntil clock clock.elapsed).1 := by
  unfold fireUntil mapEntries
  simp only [List.map_map]
  rfl

/-- The entry that is added for a schedule. -/
def newEntry (e : Engine α) (clock : Clock) (schedule : Schedule) (payload : α) : Entry α :=
  let blank : Entry α := { id := e.nextId, schedule, payload, next := none, timer := none }
  let armed := blank.arm clock clock.now clock.elapsed
  if e.isRunning then armed else armed.disarm

theorem add_eq (e : Engine α) (clock : Clock) (schedule : Schedule) (payload : α) :
    e.add clock schedule payload = ({ e with
      nextId := e.nextId + 1
      entries := e.entries ++ [e.newEntry clock schedule payload] }, e.nextId) := rfl

theorem mem_entries_add {e : Engine α} {clock : Clock} {schedule : Schedule} {payload : α}
    {x : Entry α} : x ∈ (e.add clock schedule payload).1.entries ↔
      x ∈ e.entries ∨ x = e.newEntry clock schedule payload := by
  rw [add_eq, List.mem_append, List.mem_singleton]

theorem newEntry_eq (e : Engine α) (clock : Clock) (schedule : Schedule) (payload : α) :
    (e.newEntry clock schedule payload).id = e.nextId ∧
      (e.newEntry clock schedule payload).schedule = schedule ∧
      (e.newEntry clock schedule payload).payload = payload := by
  unfold newEntry
  cases e.isRunning <;> exact ⟨rfl, rfl, rfl⟩

/-! ## §2. Identifiers -/

theorem mem_of_find? {e : Engine α} {id : Nat} {x : Entry α} (h : e.find? id = some x) :
    x ∈ e.entries ∧ x.id = id := by
  unfold find? at h
  refine ⟨List.mem_of_find?_eq_some h, ?_⟩
  simpa only [decide_eq_true_eq] using List.find?_some h

/-- Entries are in the order of their identifiers, all of which were issued. -/
structure Numbered (e : Engine α) : Prop where
  ascending : (e.entries.map (·.id)).Pairwise (· < ·)
  issued : ∀ x ∈ e.entries, x.id < e.nextId

theorem numbered_empty : (Engine.mk false 1 [] : Engine α).Numbered :=
  ⟨.nil, fun _ hx => absurd hx List.not_mem_nil⟩

namespace Numbered

variable {e : Engine α}

theorem mapEntries (h : e.Numbered) {f : Entry α → Entry α} (keeps : ∀ x, (f x).id = x.id)
    (isRunning : Bool) : (e.mapEntries isRunning f).Numbered := by
  refine ⟨?_, ?_⟩
  · show ((e.entries.map f).map (·.id)).Pairwise (· < ·)
    rw [List.map_map]
    have hids : ((·.id) ∘ f : Entry α → Nat) = (·.id) := funext keeps
    rw [hids]
    exact h.ascending
  · intro x hx
    obtain ⟨y, hy, rfl⟩ := List.mem_map.mp hx
    rw [keeps]
    exact h.issued y hy

theorem add (h : e.Numbered) (clock : Clock) (schedule : Schedule) (payload : α) :
    (e.add clock schedule payload).1.Numbered := by
  rw [add_eq]
  have hid := (e.newEntry_eq clock schedule payload).1
  refine ⟨?_, ?_⟩
  · show ((e.entries ++ [e.newEntry clock schedule payload]).map (·.id)).Pairwise (· < ·)
    rw [List.map_append, List.pairwise_append]
    refine ⟨h.ascending, List.pairwise_singleton _ _, ?_⟩
    intro a ha b hb
    obtain ⟨x, hx, rfl⟩ := List.mem_map.mp ha
    rw [List.map_singleton, List.mem_singleton] at hb
    rw [hb, hid]
    exact h.issued x hx
  · intro x hx
    show x.id < e.nextId + 1
    rcases List.mem_append.mp hx with hx | hx
    · exact Nat.lt_succ_of_lt (h.issued x hx)
    · rw [List.mem_singleton.mp hx, hid]
      exact Nat.lt_succ_self _

theorem remove (h : e.Numbered) (id : Nat) : (e.remove id).Numbered :=
  ⟨h.ascending.sublist (List.filter_sublist.map Entry.id),
    fun x hx => h.issued x (List.mem_filter.mp hx).1⟩

theorem start (h : e.Numbered) (clock : Clock) : (e.start clock).Numbered := by
  cases hr : e.isRunning with
  | true =>
    rw [start_of_running hr]
    exact h
  | false =>
    rw [start_of_resting hr]
    exact h.mapEntries (f := fun x => x.arm clock clock.now clock.elapsed) (fun _ => rfl) true

theorem stop (h : e.Numbered) (clock : Clock) : (e.stop clock).1.Numbered :=
  h.mapEntries (f := Entry.disarm) (fun _ => rfl) false

theorem fireUntil (h : e.Numbered) (clock : Clock) : (e.fireUntil clock).1.Numbered := by
  rw [fireUntil_eq]
  exact h.mapEntries (fun x => (x.fireUntil_keeps clock clock.elapsed).1) _

/-- An identifier that has not been issued stands for no entry. -/
theorem find?_of_le (h : e.Numbered) {id : Nat} (hle : e.nextId ≤ id) : e.find? id = none := by
  refine List.find?_eq_none.mpr fun x hx => ?_
  have hlt := h.issued x hx
  rw [decide_eq_true_eq]
  omega

/-- The entry with an identifier is the one that the identifier stands for. -/
theorem find?_of_mem (h : e.Numbered) {x : Entry α} (hx : x ∈ e.entries) :
    e.find? x.id = some x := by
  cases hf : e.find? x.id with
  | none => exact absurd (decide_eq_true rfl) (List.find?_eq_none.mp hf x hx)
  | some y =>
    -- two entries with one identifier would not be in order
    obtain ⟨hy, hid⟩ := mem_of_find? hf
    rw [List.inj_on_of_nodup_map (h.ascending.imp Nat.ne_of_lt) hy hx hid]

end Numbered

/-! ## §3. The entry of an identifier -/

theorem find?_mapEntries (e : Engine α) (isRunning : Bool) {f : Entry α → Entry α}
    (keeps : ∀ x, (f x).id = x.id) (id : Nat) :
    (e.mapEntries isRunning f).find? id = (e.find? id).map f := by
  show (e.entries.map f).find? _ = _
  rw [List.find?_map]
  have hids : ((fun x : Entry α => decide (x.id = id)) ∘ f) = fun x => decide (x.id = id) :=
    funext fun x => by simp only [Function.comp_apply, keeps]
  rw [hids]
  rfl

theorem find?_add {e : Engine α} (h : e.Numbered) (clock : Clock) (schedule : Schedule)
    (payload : α) (id : Nat) :
    (e.add clock schedule payload).1.find? id =
      if id = e.nextId then some (e.newEntry clock schedule payload) else e.find? id := by
  rw [add_eq]
  show (e.entries ++ [e.newEntry clock schedule payload]).find? _ = _
  rw [List.find?_append]
  have hid := (e.newEntry_eq clock schedule payload).1
  by_cases hnew : id = e.nextId
  · have hnone : e.entries.find? (·.id = id) = none := h.find?_of_le (Nat.le_of_eq hnew.symm)
    rw [if_pos hnew, hnone, Option.none_or, List.find?_singleton, hid,
      if_pos (decide_eq_true hnew.symm)]
  · rw [if_neg hnew, List.find?_singleton, hid, if_neg, Option.or_none]
    · rfl
    · rw [decide_eq_true_eq]
      exact fun heq => hnew heq.symm

theorem find?_remove (e : Engine α) (id i : Nat) :
    (e.remove i).find? id = if id = i then none else e.find? id := by
  show (e.entries.filter _).find? _ = _
  rw [List.find?_filter]
  by_cases h : id = i
  · rw [if_pos h]
    refine List.find?_eq_none.mpr fun x _ => ?_
    rw [decide_eq_true_eq, decide_eq_true_eq, decide_eq_true_eq]
    intro hc
    exact hc.1 (hc.2.trans h)
  · rw [if_neg h]
    refine congrFun (congrArg List.find? (funext fun x => ?_)) e.entries
    rw [decide_eq_decide, decide_eq_true_eq, decide_eq_true_eq]
    constructor
    · exact fun hc => hc.2
    · exact fun hx => ⟨fun heq => h (hx.symm.trans heq), hx⟩

/-! ## §4. Tasks that are told to stop -/

theorem mem_tasks_stop {e : Engine α} {clock : Clock} {task : Task} :
    task ∈ (e.stop clock).2.tasks ↔
      e.isRunning = true ∧ ∃ x ∈ e.entries, ⟨x.id, x.timer⟩ = task := by
  unfold stop
  cases e.isRunning with
  | true => simp only [if_true, List.mem_map, true_and]
  | false => simp only [Bool.false_eq_true, if_false, List.not_mem_nil, false_and]

/-- **A running engine has one task for each entry**, and an engine at rest has none. -/
theorem countP_tasks_stop {e : Engine α} (h : e.Numbered) (clock : Clock) (id : Nat) :
    (e.stop clock).2.tasks.countP (·.entry = id) =
      if e.isRunning && (e.find? id).isSome then 1 else 0 := by
  cases hr : e.isRunning with
  | false =>
    unfold stop
    rw [hr]
    rfl
  | true =>
    have hcount : (e.stop clock).2.tasks.countP (·.entry = id) =
        (e.entries.map (·.id)).count id := by
      unfold stop
      rw [hr, if_pos rfl, List.countP_map, List.count_eq_countP, List.countP_map]
      rfl
    rw [hcount, Bool.true_and]
    cases hf : e.find? id with
    | none =>
      rw [List.count_eq_zero_of_not_mem]
      · rfl
      · intro hmem
        obtain ⟨x, hx, rfl⟩ := List.mem_map.mp hmem
        cases hf.symm.trans (h.find?_of_mem hx)
    | some x =>
      obtain ⟨hx, rfl⟩ := mem_of_find? hf
      exact List.count_eq_one_of_mem (h.ascending.imp Nat.ne_of_lt) (List.mem_map_of_mem hx)

/-- **Waiting for the tasks takes no time**: each is woken by the signal at the latest. -/
theorem wait_stop (e : Engine α) (clock : Clock) :
    (e.stop clock).2.wait clock.elapsed = clock.elapsed := by
  unfold StopHandle.wait
  have hsignal : (e.stop clock).2.signal = clock.elapsed := rfl
  rw [hsignal]
  induction (e.stop clock).2.tasks with
  | nil => rfl
  | cons task tasks ih =>
    rw [List.foldl_cons]
    cases task.due with
    | none => exact ih
    | some due =>
      simp only [Nat.max_eq_left (Nat.min_le_right due clock.elapsed)]
      exact ih

/-! ## §5. Firings -/

/-- A firing of an entry, at a millisecond. -/
structure Firing (α : Type) where
  id : Nat
  payload : α
  time : Nat

/-- What fires while time passes up to the present of a clock, entry by entry. -/
def firings (e : Engine α) (clock : Clock) : List (Firing α) :=
  (e.entries.zip (e.fireUntil clock).2).flatMap fun (x, payload, times) =>
    times.map fun time => { id := x.id, payload, time }

/-- When an entry fired. -/
def timesOf (id : Nat) (log : List (Firing α)) : List Nat :=
  (log.filter (·.id = id)).map (·.time)

theorem timesOf_append (id : Nat) (log log' : List (Firing α)) :
    timesOf id (log ++ log') = timesOf id log ++ timesOf id log' := by
  unfold timesOf
  rw [List.filter_append, List.map_append]

/-- What an engine hands out, entry by entry. -/
theorem fired_eq (e : Engine α) (clock : Clock) : (e.fireUntil clock).2 =
    e.entries.map fun x => (x.payload, (x.fireUntil clock clock.elapsed).2) := by
  unfold fireUntil
  simp only [List.map_map]
  rfl

theorem firings_eq (e : Engine α) (clock : Clock) :
    e.firings clock = e.entries.flatMap fun x =>
      (x.fireUntil clock clock.elapsed).2.map fun time => ⟨x.id, x.payload, time⟩ := by
  unfold firings
  rw [fired_eq]
  induction e.entries with
  | nil => rfl
  | cons x xs ih =>
    rw [List.map_cons, List.zip_cons_cons, List.flatMap_cons, List.flatMap_cons, ih]

/-- The payloads of the firings are what the engine hands out. -/
theorem map_firings (e : Engine α) (clock : Clock) :
    (e.firings clock).map (fun f => (f.payload, f.time)) =
      (e.fireUntil clock).2.flatMap fun (payload, times) => times.map fun t => (payload, t) := by
  rw [firings_eq, fired_eq, List.map_flatMap, List.flatMap_map]
  simp only [List.map_map]
  rfl

/-- **The firings of an identifier are those of its entry.** -/
theorem timesOf_firings {e : Engine α} (h : e.Numbered) (clock : Clock) (id : Nat) :
    timesOf id (e.firings clock) = match e.find? id with
      | some x => (x.fireUntil clock clock.elapsed).2
      | none => [] := by
  -- the log of one entry is all its own or none of it
  have hown : ∀ x : Entry α, timesOf id ((x.fireUntil clock clock.elapsed).2.map fun time =>
      (⟨x.id, x.payload, time⟩ : Firing α)) =
        if x.id = id then (x.fireUntil clock clock.elapsed).2 else [] := by
    intro x
    unfold timesOf
    rw [List.filter_map, List.map_map]
    simp only [Function.comp_def]
    by_cases hx : x.id = id
    · simp only [hx, decide_true, List.filter_true, List.map_id', if_true]
    · simp only [hx, decide_false, List.filter_false, List.map_nil, if_false]
  rw [firings_eq]
  obtain ⟨isRunning, nextId, entries⟩ := e
  have ascending : (entries.map (·.id)).Pairwise (· < ·) := h.ascending
  clear h
  unfold find?
  simp only
  induction entries with
  | nil => rfl
  | cons x xs ih =>
    rw [List.map_cons, List.pairwise_cons] at ascending
    rw [List.flatMap_cons, timesOf_append, ih ascending.2, hown, List.find?_cons]
    by_cases hx : x.id = id
    · -- no later entry has the same identifier
      have hnone : xs.find? (·.id = id) = none := by
        refine List.find?_eq_none.mpr fun y hy => ?_
        have hlt := ascending.1 y.id (List.mem_map_of_mem hy)
        rw [decide_eq_true_eq]
        omega
      rw [hnone, if_pos hx, decide_eq_true hx, List.append_nil]
    · rw [if_neg hx, decide_eq_false hx, List.nil_append]

/-! ## §6. Labels -/

namespace Entry

/-- The same entry with another identifier and another payload. -/
def relabel (x : Entry α) (id : Nat) (payload : α) : Entry α := { x with id, payload }

/-- **An entry fires when its schedule says so**, whatever its label is. -/
theorem fireUntil_relabel (x : Entry α) (id : Nat) (payload : α) (c : Clock) (b : Nat) :
    (x.relabel id payload).fireUntil c b =
      ((x.fireUntil c b).1.relabel id payload, (x.fireUntil c b).2) := by
  have htimer : ∀ y : Entry α, (y.relabel id payload).timer = y.timer := fun _ => rfl
  have hwaits : ∀ y : Entry α, (∀ due, y.timer = some due → b < due) →
      (y.relabel id payload).fireUntil c b =
        ((y.fireUntil c b).1.relabel id payload, (y.fireUntil c b).2) := by
    intro y h
    rw [fireUntil_of_waits h, fireUntil_of_waits fun due hdue => h due ((htimer y).symm.trans hdue)]
  induction x using fireUntil.induct c b with
  | case1 x due hdue hle r times hr ih =>
    -- after the firing the label is still the only difference
    have hfire : (x.relabel id payload).fire c due = (x.fire c due).relabel id payload := rfl
    rw [fireUntil_due hdue hle, fireUntil_due ((htimer x).trans hdue) hle, hfire, ih]
  | case2 x due hdue hlt =>
    refine hwaits x fun due' hdue' => ?_
    cases hdue.symm.trans hdue'
    omega
  | case3 x hnone =>
    refine hwaits x fun due hdue => ?_
    cases hnone.symm.trans hdue

end Entry

end CronSupervisor.Engine
