/-
  CronSupervisor.Proofs.Engine.Timers — who has a timer, and what an identifier stands for.

  A timer belongs to one entry and is there for as long as the engine runs and the entry has a next
  run.  An identifier is issued once: when its entry is gone it stands for nothing, however long the
  engine goes on and however many entries are added.

  Main statements:
    * `countP_timers` — every entry has one timer at most, its own.
    * `Entry.Timed` and its lemmas — it has one when there is something to wait for.
    * `GoesOn` and its lemmas — an identifier never comes to stand for anything else.
-/
import CronSupervisor.Proofs.Engine.Entries

namespace CronSupervisor.Engine

open Calendar Cron

variable {α : Type}

/-! ## §1. Timers -/

/-- The timers that are set: the identifier of an entry, and the millisecond at which it is due. -/
def timers (e : Engine α) : List (Nat × Nat) :=
  e.entries.filterMap fun x => x.timer.map fun due => (x.id, due)

/-- **Every timer is that of one entry, and no entry has two.** -/
theorem countP_timers {e : Engine α} (h : e.Numbered) {x : Entry α} (hx : x ∈ e.entries) :
    e.timers.countP (fun t => t.1 = x.id) = if x.timer.isSome then 1 else 0 := by
  have ascending := h.ascending
  unfold timers
  clear h
  generalize e.entries = xs at hx ascending
  -- the timer of an entry with another identifier is not counted, and one identifier is one entry
  have hnone : ∀ ys : List (Entry α), (∀ y ∈ ys, y.id ≠ x.id) →
      (ys.filterMap fun y => y.timer.map fun due => (y.id, due)).countP
        (fun t => t.1 = x.id) = 0 := by
    intro ys hys
    rw [List.countP_eq_zero]
    intro t ht
    obtain ⟨y, hy, hyt⟩ := List.mem_filterMap.mp ht
    obtain ⟨due, -, rfl⟩ := Option.map_eq_some_iff.mp hyt
    rw [decide_eq_true_eq]
    exact hys y hy
  have hone : ([x].filterMap fun y => y.timer.map fun due => (y.id, due)).countP
      (fun t => t.1 = x.id) = if x.timer.isSome then 1 else 0 := by
    cases ht : x.timer with
    | none =>
      rw [List.filterMap_cons_none (by rw [ht]; rfl)]
      rfl
    | some due =>
      rw [List.filterMap_cons_some (by rw [ht]; rfl), List.filterMap_nil, List.countP_cons_of_pos]
      · rfl
      · rw [decide_eq_true_eq]
  obtain ⟨before, after, rfl⟩ := List.append_of_mem hx
  rw [List.map_append, List.map_cons, List.pairwise_append, List.pairwise_cons] at ascending
  obtain ⟨-, ⟨hafter, -⟩, hbefore⟩ := ascending
  rw [List.filterMap_append, List.countP_append, ← List.singleton_append, List.filterMap_append,
    List.countP_append, hnone before, hnone after, hone, Nat.zero_add, Nat.add_zero]
  · intro y hy
    exact Nat.ne_of_gt (hafter y.id (List.mem_map_of_mem hy))
  · intro y hy
    exact Nat.ne_of_lt (hbefore y.id (List.mem_map_of_mem hy) x.id List.mem_cons_self)

namespace Entry

/-- An entry has a timer while the engine runs and a run is coming, and at no other time. -/
def Timed (isRunning : Bool) (x : Entry α) : Prop := x.timer.isSome = (isRunning && x.next.isSome)

theorem timed_arm (x : Entry α) (clock : Clock) (after : Instant) (earliest : Nat) :
    (x.arm clock after earliest).Timed true := by
  show Option.isSome (Option.map _ _) = _
  rw [Option.isSome_map]
  rfl

theorem timed_disarm (x : Entry α) : x.disarm.Timed false := rfl

/-- Only an entry with a timer fires, and then it is armed anew. -/
theorem Timed.fireUntil {isRunning : Bool} {x : Entry α} (h : x.Timed isRunning) (c : Clock)
    (b : Nat) : (x.fireUntil c b).1.Timed isRunning := by
  induction x using fireUntil.induct c b with
  | case1 x due hdue hle r times hr ih =>
    have hrunning : isRunning = true := by
      unfold Timed at h
      rw [hdue] at h
      exact (Bool.and_eq_true_iff.mp h.symm).1
    rw [fireUntil_due hdue hle]
    apply ih
    rw [hrunning]
    exact timed_arm x c _ _
  | case2 x due hdue hlt =>
    rw [fireUntil_of_waits]
    · exact h
    · intro due' hdue'
      cases hdue.symm.trans hdue'
      omega
  | case3 x hnone =>
    rw [fireUntil_of_waits]
    · exact h
    · intro due hdue
      cases hnone.symm.trans hdue

end Entry

theorem timed_newEntry (e : Engine α) (clock : Clock) (schedule : Schedule) (payload : α) :
    (e.newEntry clock schedule payload).Timed e.isRunning := by
  unfold newEntry
  cases e.isRunning with
  | true => exact Entry.timed_arm _ _ _ _
  | false => exact Entry.timed_disarm _

/-! ## §2. Identifiers -/

/-- One engine goes on as the other: identifiers that were issued stand for what they stood for, or
for nothing. -/
structure GoesOn (e e' : Engine α) : Prop where
  nextId_le : e.nextId ≤ e'.nextId
  find? : ∀ id x', id < e.nextId → e'.find? id = some x' → ∃ x, e.find? id = some x ∧
    x'.schedule = x.schedule ∧ x'.payload = x.payload

namespace GoesOn

variable {e e' e'' : Engine α}

theorem refl (e : Engine α) : e.GoesOn e :=
  ⟨Nat.le_refl _, fun _ x _ hx => ⟨x, hx, rfl, rfl⟩⟩

theorem trans (h : e.GoesOn e') (k : e'.GoesOn e'') : e.GoesOn e'' := by
  refine ⟨Nat.le_trans h.nextId_le k.nextId_le, fun id x'' hid hx'' => ?_⟩
  obtain ⟨x', hx', hschedule', hpayload'⟩ :=
    k.find? id x'' (Nat.lt_of_lt_of_le hid h.nextId_le) hx''
  obtain ⟨x, hx, hschedule, hpayload⟩ := h.find? id x' hid hx'
  exact ⟨x, hx, hschedule'.trans hschedule, hpayload'.trans hpayload⟩

theorem mapEntries (e : Engine α) (isRunning : Bool) {f : Entry α → Entry α}
    (keeps : ∀ x, (f x).id = x.id ∧ (f x).schedule = x.schedule ∧ (f x).payload = x.payload) :
    e.GoesOn (e.mapEntries isRunning f) := by
  refine ⟨Nat.le_refl _, fun id x' _ hx' => ?_⟩
  rw [find?_mapEntries e isRunning fun x => (keeps x).1] at hx'
  obtain ⟨x, hx, rfl⟩ := Option.map_eq_some_iff.mp hx'
  exact ⟨x, hx, (keeps x).2⟩

theorem add (h : e.Numbered) (clock : Clock) (schedule : Schedule) (payload : α) :
    e.GoesOn (e.add clock schedule payload).1 := by
  refine ⟨Nat.le_succ _, fun id x' hid hx' => ?_⟩
  -- the new entry has an identifier that was not issued before
  rw [find?_add h, if_neg (Nat.ne_of_lt hid)] at hx'
  exact ⟨x', hx', rfl, rfl⟩

theorem remove (e : Engine α) (i : Nat) : e.GoesOn (e.remove i) := by
  refine ⟨Nat.le_refl _, fun id x' _ hx' => ?_⟩
  rw [find?_remove] at hx'
  split at hx'
  next => cases hx'
  next => exact ⟨x', hx', rfl, rfl⟩

theorem start (e : Engine α) (clock : Clock) : e.GoesOn (e.start clock) := by
  cases hr : e.isRunning with
  | true =>
    rw [start_of_running hr]
    exact refl e
  | false =>
    rw [start_of_resting hr]
    exact mapEntries e true fun _ => ⟨rfl, rfl, rfl⟩

theorem stop (e : Engine α) (clock : Clock) : e.GoesOn (e.stop clock).1 :=
  mapEntries e false (f := Entry.disarm) fun _ => ⟨rfl, rfl, rfl⟩

theorem fireUntil (e : Engine α) (clock : Clock) : e.GoesOn (e.fireUntil clock).1 := by
  rw [fireUntil_eq]
  exact mapEntries e _ fun x => x.fireUntil_keeps clock clock.elapsed

end GoesOn

end CronSupervisor.Engine
