/-
  CronSupervisor.Proofs.Engine.Course — when entries fire in the course of the life of an engine.

  A course is what becomes of an engine to which things happen one after another: entries come and
  go, it is started and stopped, and time passes.  An onlooker who sees only these events, and not
  the timers, can tell the stretches of time in which an entry is dispatched.  The entry fires once
  for each of its matches in these stretches, at the first millisecond that is not before the match,
  and never else.

  Main statements:
    * `tracks_step`, `tracks_run` — the engine and the onlooker agree, one event after another.
    * `firings_of_run` — an entry fires for the matches of the stretches in which it is dispatched,
      and a stop finds its task asleep.
    * `Session.exists_course` — what a session does to its engine is such a course.
-/
import CronSupervisor.Engine.Session
import CronSupervisor.Platform
import CronSupervisor.Proofs.Engine.Entries

namespace CronSupervisor.Engine

open Calendar Cron

/-! ## §1. Courses -/

/-- What happens to an engine. -/
inductive Event (α : Type) where
  | add (schedule : Schedule) (payload : α)
  | remove (id : Nat)
  | start
  /-- It is stopped, and its tasks are waited for. -/
  | stop
  /-- So many milliseconds go by. -/
  | pass (ms : Nat)

/-- The milliseconds that an event takes. -/
def Event.length {α : Type} : Event α → Nat
  | pass ms => ms
  | _ => 0

/-- An engine, its clock, and the firings so far, oldest first. -/
structure Course (α : Type) where
  clock : Clock
  engine : Engine α := {}
  log : List (Firing α) := []

namespace Course

variable {α : Type}

/-- Let one thing happen. -/
def step (c : Course α) : Event α → Course α
  | .add schedule payload => { c with engine := (c.engine.add c.clock schedule payload).1 }
  | .remove id => { c with engine := c.engine.remove id }
  | .start => { c with engine := c.engine.start c.clock }
  | .stop =>
    let (engine, handle) := c.engine.stop c.clock
    { c with engine, clock := c.clock.advanceTo (handle.wait c.clock.elapsed) }
  | .pass ms =>
    let clock := c.clock.advanceTo (c.clock.elapsed + ms)
    { clock, engine := (c.engine.fireUntil clock).1, log := c.log ++ c.engine.firings clock }

/-- Let things happen in order. -/
def run (c : Course α) (es : List (Event α)) : Course α := es.foldl step c

/-- When an entry fired. -/
def firings (c : Course α) (id : Nat) : List Nat := timesOf id c.log

/-- The clock after so many more milliseconds. -/
def later (c : Course α) (ms : Nat) : Clock := { c.clock with elapsed := c.clock.elapsed + ms }

theorem step_pass (c : Course α) (ms : Nat) : c.step (.pass ms) =
    { clock := c.later ms
      engine := (c.engine.fireUntil (c.later ms)).1
      log := c.log ++ c.engine.firings (c.later ms) } := by
  have hclock : c.clock.advanceTo (c.clock.elapsed + ms) = c.later ms := by
    unfold Clock.advanceTo later
    rw [Nat.max_eq_right (Nat.le_add_right _ _)]
  unfold step
  simp only [hclock]

/-- Waiting for the tasks of an engine that is stopped takes no time. -/
theorem step_stop (c : Course α) :
    c.step .stop = { c with engine := (c.engine.stop c.clock).1 } := by
  have hclock : c.clock.advanceTo c.clock.elapsed = c.clock := by
    unfold Clock.advanceTo
    rw [Nat.max_self]
  unfold step
  simp only [wait_stop, hclock]

end Course

/-! ## §2. What an onlooker notes -/

/-- What is seen of one identifier by an onlooker. -/
structure Watch where
  /-- Milliseconds that have gone by. -/
  elapsed : Nat
  isRunning : Bool := false
  /-- How many entries have been added. -/
  issued : Nat := 0
  /-- The schedule that the entry of the identifier was added with. -/
  schedule : Option Schedule := none
  /-- The entry was added and has not been removed. -/
  isThere : Bool := false
  /-- Since when the entry is dispatched. -/
  since : Option Nat := none
  /-- From when to when the entry was dispatched, before that. -/
  ended : List (Nat × Nat) := []

namespace Watch

/-- The entry is no longer dispatched. -/
def close (w : Watch) : Watch :=
  { w with since := none, ended := w.ended ++ (w.since.map fun a => (a, w.elapsed)).toList }

/-- Note one event; the identifiers of entries count up from 1 as they are added. -/
def step {α : Type} (id : Nat) (w : Watch) : Event α → Watch
  | .add schedule _ =>
    let w := { w with issued := w.issued + 1 }
    if w.issued = id then { w with
      schedule := some schedule
      isThere := true
      since := if w.isRunning then some w.elapsed else none }
    else w
  | .remove i => if i = id then { w.close with isThere := false } else w
  | .start =>
    if w.isRunning then w
    else { w with isRunning := true, since := if w.isThere then some w.elapsed else none }
  | .stop => { w.close with isRunning := false }
  | .pass ms => { w with elapsed := w.elapsed + ms }

/-- Note events in order. -/
def run {α : Type} (id : Nat) (w : Watch) (es : List (Event α)) : Watch := es.foldl (step id) w

/-- From when to when the entry has been dispatched, the last time until now. -/
def spans (w : Watch) : List (Nat × Nat) :=
  w.ended ++ (w.since.map fun a => (a, w.elapsed)).toList

/-- The entry was dispatched when the instant was reached. -/
def Covers (w : Watch) (c : Clock) (m : Instant) : Prop :=
  ∃ span ∈ w.spans, c.instantAt span.1 < m ∧ m ≤ c.instantAt span.2

/-- What an onlooker's notes are like: an entry is dispatched while it is there and the engine runs,
and nothing is noted ahead of time. -/
structure Sound (id : Nat) (w : Watch) : Prop where
  unissued : w.issued < id → w.schedule = none
  unseen : w.schedule = none → w.ended = []
  there : w.isThere = true → w.schedule.isSome
  since : w.since.isSome = (w.isThere && w.isRunning)
  past : ∀ span ∈ w.spans, span.1 ≤ span.2 ∧ span.2 ≤ w.elapsed

variable {α : Type} {id : Nat} {w : Watch}

theorem mem_spans {span : Nat × Nat} :
    span ∈ w.spans ↔ span ∈ w.ended ∨ ∃ a, w.since = some a ∧ span = (a, w.elapsed) := by
  unfold spans
  rw [List.mem_append, Option.mem_toList, Option.map_eq_some_iff]
  simp only [eq_comm]

theorem spans_close (w : Watch) : w.close.spans = w.spans := List.append_nil _

/-- A stretch that begins now adds nothing but itself. -/
theorem mem_spans_begin {w' : Watch} (ended : w'.ended = w.ended)
    (since : w'.since = none ∨ w'.since = some w'.elapsed) {span : Nat × Nat}
    (hspan : span ∈ w'.spans) : span ∈ w.spans ∨ span = (w'.elapsed, w'.elapsed) := by
  rw [mem_spans, ended] at hspan
  rcases hspan with hspan | ⟨a, ha, rfl⟩
  · exact .inl (mem_spans.mpr (.inl hspan))
  · rcases since with hs | hs
    · rw [hs] at ha
      cases ha
    · rw [hs] at ha
      cases ha
      exact .inr rfl

/-- A stretch that begins now covers nothing yet. -/
theorem covers_begin (w' : Watch) (h : w.since = none) (ended : w'.ended = w.ended)
    (since : w'.since = none ∨ w'.since = some w'.elapsed) (c : Clock) (m : Instant) :
    w'.Covers c m ↔ w.Covers c m := by
  constructor
  · intro hc
    obtain ⟨span, hspan, hlt, hle⟩ := hc
    rcases mem_spans_begin ended since hspan with hold | rfl
    · exact ⟨span, hold, hlt, hle⟩
    · exact absurd hlt (Int.not_lt.mpr hle)
  · intro hc
    obtain ⟨span, hspan, hbounds⟩ := hc
    refine ⟨span, ?_, hbounds⟩
    rw [mem_spans, h] at hspan
    rcases hspan with hspan | ⟨_, ha, -⟩
    · exact mem_spans.mpr (.inl (ended.symm ▸ hspan))
    · cases ha

/-- While time passes, what is reached on the way is covered if the entry is dispatched. -/
theorem covers_pass (hw : w.Sound id) (c : Clock) (ms : Nat) (m : Instant) :
    (w.step (α := α) id (.pass ms)).Covers c m ↔ w.Covers c m ∨
      w.since.isSome ∧ c.instantAt w.elapsed < m ∧ m ≤ c.instantAt (w.elapsed + ms) := by
  show (∃ span ∈ ({ w with elapsed := w.elapsed + ms } : Watch).spans, _) ↔ _
  unfold Covers
  simp only [mem_spans, or_and_right, exists_or]
  rw [or_assoc]
  refine or_congr_right ?_
  cases hs : w.since with
  | none => simp
  | some a =>
    have hle : a ≤ w.elapsed := (hw.past (a, w.elapsed) (mem_spans.mpr (.inr ⟨a, hs, rfl⟩))).1
    have hbegin := c.instantAt_le hle
    have hend := c.instantAt_le (Nat.le_add_right w.elapsed ms)
    simp only [Option.some.injEq, exists_eq_left', exists_eq_left, Option.isSome_some, true_and]
    -- either before or after the moment up to which the notes went
    constructor
    · intro hc
      obtain ⟨hlt, hle⟩ := hc
      by_cases hm : m ≤ c.instantAt w.elapsed
      · exact .inl ⟨hlt, hm⟩
      · exact .inr ⟨Int.not_le.mp hm, hle⟩
    · rintro (⟨hlt, hm⟩ | ⟨hm, hle⟩)
      · exact ⟨hlt, Int.le_trans hm hend⟩
      · exact ⟨Int.lt_of_le_of_lt hbegin hm, hle⟩

theorem Sound.covers_le (hw : w.Sound id) {c : Clock} {m : Instant} (h : w.Covers c m) :
    m ≤ c.instantAt w.elapsed := by
  obtain ⟨span, hspan, -, hle⟩ := h
  exact Int.le_trans hle (c.instantAt_le (hw.past span hspan).2)

/-- An entry that is yet to be added is not dispatched. -/
theorem Sound.since_of_unseen (hw : w.Sound id) (h : w.schedule = none) : w.since = none := by
  have hthere : w.isThere = false := by
    rw [Bool.eq_false_iff]
    intro hthere
    have hsome := hw.there hthere
    rw [h] at hsome
    cases hsome
  have hsince := hw.since
  rwa [hthere, Bool.false_and, Option.isSome_eq_false_iff, Option.isNone_iff_eq_none] at hsince

theorem Sound.spans_of_unseen (hw : w.Sound id) (h : w.schedule = none) : w.spans = [] := by
  unfold spans
  rw [hw.unseen h, hw.since_of_unseen h]
  rfl

theorem Sound.since_of_resting (hw : w.Sound id) (h : w.isRunning = false) : w.since = none := by
  have hsince := hw.since
  rwa [h, Bool.and_false, Option.isSome_eq_false_iff, Option.isNone_iff_eq_none] at hsince

theorem Sound.past_begin (hw : w.Sound id) {w' : Watch}
    (elapsed : w'.elapsed = w.elapsed) (ended : w'.ended = w.ended)
    (since : w'.since = none ∨ w'.since = some w'.elapsed) :
    ∀ span ∈ w'.spans, span.1 ≤ span.2 ∧ span.2 ≤ w'.elapsed := by
  intro span hspan
  rcases mem_spans_begin ended since hspan with hold | rfl
  · rw [elapsed]
    exact hw.past span hold
  · exact ⟨Nat.le_refl _, Nat.le_refl _⟩

theorem sound_begin (id elapsed : Nat) : ({ elapsed } : Watch).Sound id where
  unissued := fun _ => rfl
  unseen := fun _ => rfl
  there := nofun
  since := rfl
  past := nofun

/-- **Notes stay sound.** -/
theorem sound_step (hw : w.Sound id) (e : Event α) : (w.step id e).Sound id := by
  cases e with
  | add schedule payload =>
    by_cases h : w.issued + 1 = id
    · simp only [step, if_pos h]
      refine ⟨fun hlt => absurd h (Nat.ne_of_lt hlt), nofun, fun _ => rfl, ?_, ?_⟩
      · cases w.isRunning <;> rfl
      · refine hw.past_begin rfl rfl ?_
        cases w.isRunning
        · exact .inl rfl
        · exact .inr rfl
    · simp only [step, if_neg h]
      exact ⟨fun hlt => hw.unissued (Nat.lt_of_succ_lt hlt), hw.unseen, hw.there, hw.since, hw.past⟩
  | remove i =>
    by_cases h : i = id
    · simp only [step, if_pos h]
      exact ⟨hw.unissued, hw.spans_of_unseen, nofun, rfl,
        fun span hspan => hw.past span (w.spans_close ▸ hspan)⟩
    · simp only [step, if_neg h]
      exact hw
  | start =>
    by_cases h : w.isRunning = true
    · simp only [step, if_pos h]
      exact hw
    · simp only [step, if_neg h]
      refine ⟨hw.unissued, hw.unseen, hw.there, ?_, hw.past_begin rfl rfl ?_⟩
      · cases w.isThere <;> rfl
      · cases w.isThere
        · exact .inl rfl
        · exact .inr rfl
  | stop =>
    refine ⟨hw.unissued, hw.spans_of_unseen, hw.there, ?_,
      fun span hspan => hw.past span (w.spans_close ▸ hspan)⟩
    show false = (w.isThere && false)
    rw [Bool.and_false]
  | pass ms =>
    refine ⟨hw.unissued, hw.unseen, hw.there, hw.since, fun span hspan => ?_⟩
    show span.1 ≤ span.2 ∧ span.2 ≤ w.elapsed + ms
    rcases mem_spans.mp hspan with hold | ⟨a, ha, rfl⟩
    · have hpast := hw.past span (mem_spans.mpr (.inl hold))
      omega
    · have hpast := hw.past (a, w.elapsed) (mem_spans.mpr (.inr ⟨a, ha, rfl⟩))
      show a ≤ w.elapsed + ms ∧ w.elapsed + ms ≤ w.elapsed + ms
      simp only at hpast
      omega

/-- Nothing is covered but by letting time pass. -/
theorem covers_step (hw : w.Sound id) {e : Event α} (h : ∀ ms, e ≠ .pass ms) (c : Clock)
    (m : Instant) : (w.step id e).Covers c m ↔ w.Covers c m := by
  have hclose : w.close.Covers c m ↔ w.Covers c m := by
    unfold Covers
    rw [spans_close]
  cases e with
  | add schedule payload =>
    by_cases hid : w.issued + 1 = id
    · simp only [step, if_pos hid]
      apply covers_begin _ (hw.since_of_unseen (hw.unissued (by omega)))
      · rfl
      · cases w.isRunning
        · exact .inl rfl
        · exact .inr rfl
    · simp only [step, if_neg hid]
      exact Iff.rfl
  | remove i =>
    by_cases hid : i = id
    · simp only [step, if_pos hid]
      exact hclose
    · simp only [step, if_neg hid]
  | start =>
    by_cases hr : w.isRunning = true
    · simp only [step, if_pos hr]
    · simp only [step, if_neg hr]
      apply covers_begin _ (hw.since_of_resting (Bool.eq_false_iff.mpr hr))
      · rfl
      · cases w.isThere
        · exact .inl rfl
        · exact .inr rfl
  | stop => exact hclose
  | pass ms => exact absurd rfl (h ms)

/-- The schedule is noted once, when the entry is added. -/
theorem schedule_step (hw : w.Sound id) (e : Event α) :
    (w.step id e).schedule = w.schedule ∨ w.schedule = none := by
  cases e with
  | add schedule payload =>
    by_cases hid : w.issued + 1 = id
    · exact .inr (hw.unissued (by omega))
    · simp only [step, if_neg hid, true_or]
  | remove i =>
    by_cases hid : i = id
    · simp only [step, if_pos hid, close, true_or]
    · simp only [step, if_neg hid, true_or]
  | start =>
    by_cases hr : w.isRunning = true
    · simp only [step, if_pos hr, true_or]
    · simp only [step, if_neg hr, true_or]
  | stop => exact .inl rfl
  | pass ms => exact .inl rfl

end Watch

/-! ## §3. The engine and the onlooker -/

/-- The engine is as the onlooker's notes say. -/
structure Tracks {α : Type} (id : Nat) (c : Course α) (w : Watch) : Prop where
  elapsed : c.clock.elapsed = w.elapsed
  running : c.engine.isRunning = w.isRunning
  issued : c.engine.nextId = w.issued + 1
  numbered : c.engine.Numbered
  /-- An engine at rest has no timer. -/
  resting : c.engine.isRunning = false → ∀ x ∈ c.engine.entries, x.timer = none
  there : (c.engine.find? id).isSome = w.isThere
  schedule : ∀ x, c.engine.find? id = some x → w.schedule = some x.schedule
  armed : ∀ x, c.engine.find? id = some x → x.schedule.Exact → c.engine.isRunning = true →
    x.ArmedAt c.clock c.clock.elapsed

/-- The entry has fired for its matches in the stretches that the notes tell of. -/
structure Fires {α : Type} (id : Nat) (c : Course α) (w : Watch) : Prop where
  silent : w.schedule = none → c.firings id = []
  falls : ∀ s, w.schedule = some s → s.Exact →
    Falls c.clock (fun m => s.IsMatch m ∧ w.Covers c.clock m) (c.firings id)

section Tracks

variable {α : Type} {id : Nat} {c : Course α} {w : Watch}

theorem tracks_begin (clock : Clock) :
    Tracks id ({ clock } : Course α) { elapsed := clock.elapsed } where
  elapsed := rfl
  running := rfl
  issued := rfl
  numbered := numbered_empty
  resting := fun _ => nofun
  there := rfl
  schedule := nofun
  armed := nofun

theorem fires_begin (clock : Clock) :
    Fires id ({ clock } : Course α) { elapsed := clock.elapsed } :=
  ⟨fun _ => rfl, nofun⟩

theorem Tracks.add (h : Tracks id c w) (hw : w.Sound id) (schedule : Schedule) (payload : α) :
    Tracks id (c.step (.add schedule payload)) (w.step id (.add schedule payload)) := by
  have hfind := find?_add h.numbered c.clock schedule payload id
  -- an entry that is added at rest is not armed
  have hresting : (c.engine.add c.clock schedule payload).1.isRunning = false →
      ∀ x ∈ (c.engine.add c.clock schedule payload).1.entries, x.timer = none := by
    intro hrest x hx
    rw [add_eq] at hrest hx
    rcases List.mem_append.mp hx with hx | hx
    · exact h.resting hrest x hx
    · rw [List.mem_singleton.mp hx]
      unfold newEntry
      rw [show c.engine.isRunning = false from hrest]
      rfl
  by_cases hid : w.issued + 1 = id
  · -- the entry is added
    have hnone := hw.unissued (by omega)
    have hsince := hw.since_of_unseen hnone
    obtain ⟨-, hschedule, -⟩ := c.engine.newEntry_eq c.clock schedule payload
    rw [if_pos (hid.symm.trans h.issued.symm)] at hfind
    simp only [Watch.step, if_pos hid]
    exact {
      elapsed := h.elapsed
      running := h.running
      issued := congrArg (· + 1) h.issued
      numbered := h.numbered.add c.clock schedule payload
      resting := hresting
      there := congrArg Option.isSome hfind
      schedule := by
        intro x hx
        rw [← Option.some.inj (hfind.symm.trans hx), hschedule]
      armed := by
        intro x hx exact hrunning
        rw [← Option.some.inj (hfind.symm.trans hx)] at exact ⊢
        unfold newEntry at exact ⊢
        rw [show c.engine.isRunning = true from hrunning, if_pos rfl] at exact ⊢
        exact Entry.armedAt_arm exact (Nat.le_succ _) }
  · -- another entry is added
    rw [if_neg (fun heq => hid (h.issued.symm.trans heq.symm))] at hfind
    simp only [Watch.step, if_neg hid]
    exact {
      elapsed := h.elapsed
      running := h.running
      issued := congrArg (· + 1) h.issued
      numbered := h.numbered.add c.clock schedule payload
      resting := hresting
      there := (congrArg Option.isSome hfind).trans h.there
      schedule := fun x hx => h.schedule x (hfind.symm.trans hx)
      armed := fun x hx => h.armed x (hfind.symm.trans hx) }

theorem Tracks.remove (h : Tracks id c w) (i : Nat) :
    Tracks id (c.step (.remove i)) (w.step (α := α) id (.remove i)) := by
  have hfind := find?_remove c.engine id i
  have hresting : c.engine.isRunning = false → ∀ x ∈ (c.engine.remove i).entries, x.timer = none :=
    fun hrest x hx => h.resting hrest x (List.mem_filter.mp hx).1
  by_cases hid : i = id
  · -- the entry is gone, and nothing is to be said of it
    rw [if_pos hid.symm] at hfind
    simp only [Watch.step, if_pos hid]
    exact {
      elapsed := h.elapsed
      running := h.running
      issued := h.issued
      numbered := h.numbered.remove i
      resting := hresting
      there := congrArg Option.isSome hfind
      schedule := fun x hx => nomatch hfind.symm.trans hx
      armed := fun x hx => nomatch hfind.symm.trans hx }
  · rw [if_neg (fun heq => hid heq.symm)] at hfind
    simp only [Watch.step, if_neg hid]
    exact {
      elapsed := h.elapsed
      running := h.running
      issued := h.issued
      numbered := h.numbered.remove i
      resting := hresting
      there := (congrArg Option.isSome hfind).trans h.there
      schedule := fun x hx => h.schedule x (hfind.symm.trans hx)
      armed := fun x hx => h.armed x (hfind.symm.trans hx) }

theorem Tracks.start (h : Tracks id c w) (hw : w.Sound id) :
    Tracks id (c.step .start) (w.step (α := α) id .start) := by
  cases hr : c.engine.isRunning with
  | true =>
    -- it is started already
    have hstep : c.step .start = c := by
      unfold Course.step
      rw [start_of_running hr]
    simp only [Watch.step, if_pos (h.running.symm.trans hr)]
    rw [hstep]
    exact h
  | false =>
    -- every entry is armed for its first run after the present
    have hrest := h.running.symm.trans hr
    have hsince := hw.since_of_resting hrest
    have hfind := find?_mapEntries c.engine true
      (f := fun x => x.arm c.clock c.clock.now c.clock.elapsed) (fun _ => rfl) id
    rw [← start_of_resting hr] at hfind
    have hkeeps : ∀ x, (c.engine.start c.clock).find? id = some x → ∃ y,
        c.engine.find? id = some y ∧ x = y.arm c.clock c.clock.now c.clock.elapsed := by
      intro x hx
      rw [hfind, Option.map_eq_some_iff] at hx
      obtain ⟨y, hy, rfl⟩ := hx
      exact ⟨y, hy, rfl⟩
    have hengine := start_of_resting hr c.clock
    simp only [Watch.step, hrest, Bool.false_eq_true, if_false]
    exact {
      elapsed := h.elapsed
      running := by
        show (c.engine.start c.clock).isRunning = true
        rw [hengine]
        rfl
      issued := by
        show (c.engine.start c.clock).nextId = _
        rw [hengine]
        exact h.issued
      numbered := h.numbered.start c.clock
      resting := by
        intro hrest'
        rw [show (c.step .start).engine = _ from hengine] at hrest'
        cases hrest'
      there := by
        show ((c.engine.start c.clock).find? id).isSome = _
        rw [hfind, Option.isSome_map]
        exact h.there
      schedule := by
        intro x hx
        obtain ⟨y, hy, rfl⟩ := hkeeps x hx
        exact h.schedule y hy
      armed := by
        intro x hx exact _
        obtain ⟨y, hy, rfl⟩ := hkeeps x hx
        exact Entry.armedAt_arm exact (Nat.le_succ _) }

theorem Tracks.stop (h : Tracks id c w) :
    Tracks id (c.step .stop) (w.step (α := α) id .stop) := by
  have hfind := find?_mapEntries c.engine false (f := Entry.disarm) (fun _ => rfl) id
  rw [c.step_stop]
  exact {
    elapsed := h.elapsed
    running := rfl
    issued := h.issued
    numbered := h.numbered.stop c.clock
    resting := by
      intro _ x hx
      obtain ⟨y, -, rfl⟩ := List.mem_map.mp hx
      rfl
    there := by
      show ((c.engine.stop c.clock).1.find? id).isSome = _
      rw [stop_eq, hfind, Option.isSome_map]
      exact h.there
    schedule := by
      intro x hx
      obtain ⟨y, hy, rfl⟩ := Option.map_eq_some_iff.mp (hfind.symm.trans hx)
      exact h.schedule y hy
    armed := fun _ _ _ => nofun }

theorem Tracks.pass (h : Tracks id c w) (ms : Nat) :
    Tracks id (c.step (.pass ms)) (w.step (α := α) id (.pass ms)) := by
  rw [c.step_pass]
  have hkeeps := fun x : Entry α => x.fireUntil_keeps (c.later ms) (c.later ms).elapsed
  have hfind : (c.engine.fireUntil (c.later ms)).1.find? id = (c.engine.find? id).map fun x =>
      (x.fireUntil (c.later ms) (c.later ms).elapsed).1 := by
    rw [fireUntil_eq]
    exact find?_mapEntries _ _ (fun x => (hkeeps x).1) id
  have hfound : ∀ x, (c.engine.fireUntil (c.later ms)).1.find? id = some x → ∃ y,
      c.engine.find? id = some y ∧ (y.fireUntil (c.later ms) (c.later ms).elapsed).1 = x := by
    intro x hx
    exact Option.map_eq_some_iff.mp (hfind.symm.trans hx)
  exact {
    elapsed := congrArg (· + ms) h.elapsed
    running := h.running
    issued := h.issued
    numbered := h.numbered.fireUntil _
    resting := by
      -- an entry without a timer stays as it is
      intro hrest x hx
      simp only [fireUntil_eq] at hx
      obtain ⟨y, hy, rfl⟩ := List.mem_map.mp hx
      have htimer := h.resting hrest y hy
      rw [Entry.fireUntil_of_waits fun due hdue => nomatch htimer.symm.trans hdue]
      exact htimer
    there := by
      rw [hfind, Option.isSome_map]
      exact h.there
    schedule := by
      intro x hx
      obtain ⟨y, hy, rfl⟩ := hfound x hx
      rw [(hkeeps y).2.1]
      exact h.schedule y hy
    armed := by
      intro x hx exact hrunning
      obtain ⟨y, hy, rfl⟩ := hfound x hx
      rw [(hkeeps y).2.1] at exact
      have harmed := (h.armed y hy exact hrunning).of_start (c.later ms) rfl
      exact (Entry.fireUntil_spec _ _ y exact harmed (Nat.le_add_right _ _)).1 }

/-- **The engine stays as the onlooker's notes say.** -/
theorem tracks_step (h : Tracks id c w) (hw : w.Sound id) (e : Event α) :
    Tracks id (c.step e) (w.step id e) := by
  cases e with
  | add schedule payload => exact h.add hw schedule payload
  | remove i => exact h.remove i
  | start => exact h.start hw
  | stop => exact h.stop
  | pass ms => exact h.pass ms

/-! ## §4. Firings -/

/-- While time passes an entry fires for the matches on the way if it is dispatched. -/
theorem Tracks.falls_firings (ht : Tracks id c w) (hw : w.Sound id) {s : Schedule}
    (hs : w.schedule = some s) (exact : s.Exact) (ms : Nat) :
    Falls c.clock (fun m => s.IsMatch m ∧ w.since.isSome ∧
      c.clock.instantAt w.elapsed < m ∧ m ≤ c.clock.instantAt (w.elapsed + ms))
      (timesOf id (c.engine.firings (c.later ms))) := by
  rw [timesOf_firings ht.numbered, hw.since, ← ht.there, ← ht.running, ← ht.elapsed]
  cases hx : c.engine.find? id with
  | none =>
    refine .nil fun m hm => ?_
    rw [Option.isSome_none, Bool.false_and] at hm
    exact Bool.false_ne_true hm.2.1
  | some x =>
    obtain rfl : x.schedule = s := Option.some.inj ((ht.schedule x hx).symm.trans hs)
    cases hr : c.engine.isRunning with
    | false =>
      -- a timer that is not set never fires
      have htimer := ht.resting hr x (mem_of_find? hx).1
      simp only [Entry.fireUntil_of_waits fun due hdue => nomatch htimer.symm.trans hdue]
      refine .nil fun m hm => ?_
      rw [Bool.and_false] at hm
      exact Bool.false_ne_true hm.2.1
    | true =>
      have harmed := (ht.armed x hx exact hr).of_start (c.later ms) rfl
      have hfalls := (Entry.fireUntil_spec _ _ x exact harmed (Nat.le_add_right _ ms)).2
      refine hfalls.congr fun m => and_congr_right fun _ => ?_
      rw [Option.isSome_some, Bool.and_true, eq_self, true_and]
      exact Iff.rfl

theorem Fires.pass (h : Fires id c w) (ht : Tracks id c w) (hw : w.Sound id) (ms : Nat) :
    Fires id (c.step (.pass ms)) (w.step (α := α) id (.pass ms)) := by
  rw [c.step_pass]
  have hlog : timesOf id (c.log ++ c.engine.firings (c.later ms)) =
      c.firings id ++ timesOf id (c.engine.firings (c.later ms)) := timesOf_append id _ _
  refine ⟨fun hnone => ?_, fun s hs exact => ?_⟩
  · show timesOf id (c.log ++ c.engine.firings (c.later ms)) = []
    rw [hlog, h.silent hnone, timesOf_firings ht.numbered]
    cases hx : c.engine.find? id with
    | some x => exact nomatch (show w.schedule = none from hnone).symm.trans (ht.schedule x hx)
    | none => rfl
  · show Falls c.clock _ (timesOf id (c.log ++ c.engine.firings (c.later ms)))
    rw [hlog]
    refine ((h.falls s hs exact).append (ht.falls_firings hw hs exact ms) ?_).congr fun m => ?_
    · intro m n hm hn
      exact Int.lt_of_le_of_lt (hw.covers_le hm.2) hn.2.2.1
    · rw [← and_or_left, ← Watch.covers_pass (α := α) hw]
      rfl

/-- **An entry fires for its matches in the stretches in which it is dispatched**, one event after
another. -/
theorem fires_step (h : Fires id c w) (ht : Tracks id c w) (hw : w.Sound id) (e : Event α) :
    Fires id (c.step e) (w.step id e) := by
  by_cases hpass : ∃ ms, e = .pass ms
  · obtain ⟨ms, rfl⟩ := hpass
    exact h.pass ht hw ms
  · have hpass' : ∀ ms, e ≠ .pass ms := fun ms he => hpass ⟨ms, he⟩
    -- nothing fires, and nothing is covered
    have hstill : (c.step e).clock = c.clock ∧ (c.step e).firings id = c.firings id := by
      cases e with
      | pass ms => exact absurd rfl (hpass' ms)
      | stop =>
        rw [c.step_stop]
        exact ⟨rfl, rfl⟩
      | _ => exact ⟨rfl, rfl⟩
    obtain ⟨hclock, hfirings⟩ := hstill
    have hcovers := Watch.covers_step hw hpass' c.clock
    refine ⟨fun hnone => ?_, fun s hs exact => ?_⟩
    · rw [hfirings]
      rcases Watch.schedule_step hw e with heq | hunseen
      · exact h.silent (heq.symm.trans hnone)
      · exact h.silent hunseen
    · rw [hclock, hfirings]
      rcases Watch.schedule_step hw e with heq | hunseen
      · refine (h.falls s (heq.symm.trans hs) exact).congr fun m => ?_
        rw [hcovers]
      · rw [h.silent hunseen]
        refine .nil fun m hm => ?_
        obtain ⟨span, hspan, -⟩ := (hcovers m).mp hm.2
        rw [hw.spans_of_unseen hunseen] at hspan
        cases hspan

/-- What holds of a new engine and its onlooker holds all along. -/
theorem tracks_run (hw : w.Sound id) (ht : Tracks id c w) (h : Fires id c w) (es : List (Event α)) :
    (w.run id es).Sound id ∧ Tracks id (c.run es) (w.run id es) ∧
      Fires id (c.run es) (w.run id es) := by
  induction es generalizing c w with
  | nil => exact ⟨hw, ht, h⟩
  | cons e es ih =>
    exact ih (Watch.sound_step hw e) (tracks_step ht hw e) (fires_step h ht hw e)

/-- The clock moves by the time that passes. -/
theorem clock_run (c : Course α) (es : List (Event α)) : (c.run es).clock =
    { c.clock with elapsed := c.clock.elapsed + (es.map Event.length).sum } := by
  induction es generalizing c with
  | nil => rfl
  | cons e es ih =>
    show ((c.step e).run es).clock = _
    rw [ih, List.map_cons, List.sum_cons, ← Nat.add_assoc]
    cases e with
    | pass ms =>
      rw [c.step_pass]
      rfl
    | stop =>
      rw [c.step_stop]
      rfl
    | _ => rfl

/-- A task of a dispatched entry is asleep: its timer is set to a later millisecond. -/
theorem Tracks.asleep (h : Tracks id c w) {s : Schedule} (hs : w.schedule = some s)
    (exact : s.Exact) {task : Task} (htask : task ∈ (c.engine.stop c.clock).2.tasks)
    (hid : task.entry = id) {due : Nat} (hdue : task.due = some due) : c.clock.elapsed < due := by
  obtain ⟨hrunning, x, hx, rfl⟩ := mem_tasks_stop.mp htask
  have hfind : c.engine.find? id = some x := hid ▸ h.numbered.find?_of_mem hx
  obtain rfl : x.schedule = s := Option.some.inj ((h.schedule x hfind).symm.trans hs)
  obtain ⟨n, -, hnext, rfl⟩ := (h.armed x hfind exact hrunning).exists_next hdue
  exact Clock.lt_millisAt_iff.mpr (exact.lt hnext)

end Tracks

/-- **An entry fires for the matches of the stretches in which it is dispatched.**  Of every match
after the beginning of such a stretch and not after its end there is one firing, at the first
millisecond that is not before the match, in order, and there are no others.  While it is
dispatched, its next run is the first after the present.  An engine at rest has no timers.  Whenever
it is stopped, the entry has one task if it is dispatched and none otherwise; the task is asleep
until a later millisecond, so that the signal finds it and it does not fire again.  Every stop is
waited for, and yet time goes by only where it is let pass.  Timetables that were read from an
expression are ordered (`Schedule.ordered_of_parse`). -/
theorem firings_of_run {α : Type} (clock : Clock) (es : List (Event α)) (id : Nat)
    {schedule : Schedule}
    (added : (({ elapsed := clock.elapsed } : Watch).run id es).schedule = some schedule)
    (ordered : ∀ table ∈ schedule.timetables, table.Ordered) (fixed : schedule.zone.IsFixed) :
    let c := ({ clock } : Course α).run es
    let w := ({ elapsed := clock.elapsed } : Watch).run id es
    let handle := (c.engine.stop c.clock).2
    (∃ ms : List Instant, ms.Pairwise (· < ·) ∧
      (∀ m, m ∈ ms ↔ schedule.IsMatch m ∧
        ∃ span ∈ w.spans, clock.instantAt span.1 < m ∧ m ≤ clock.instantAt span.2) ∧
      List.Forall₂ (fun m k => IsLeast {k | m ≤ clock.instantAt k} k) ms (c.firings id)) ∧
    (c.firings id).Pairwise (· < ·) ∧
    (w.since.isSome → c.engine.next? id = schedule.nextAfter? c.clock.now) ∧
    (c.engine.isRunning = false → ∀ x ∈ c.engine.entries, x.timer = none) ∧
    handle.tasks.countP (·.entry = id) = (if w.since.isSome then 1 else 0) ∧
    (∀ task ∈ handle.tasks, task.entry = id → ∀ due ∈ task.due, c.clock.elapsed < due) ∧
    handle.wait c.clock.elapsed = c.clock.elapsed ∧
    c.clock = { clock with elapsed := clock.elapsed + (es.map Event.length).sum } := by
  intro c w handle
  have exact := Schedule.exact_of_fixed ordered fixed
  obtain ⟨hw, ht, hf⟩ := tracks_run (Watch.sound_begin id clock.elapsed)
    (tracks_begin (α := α) clock) (fires_begin clock) es
  have hclock := clock_run ({ clock } : Course α) es
  have hfalls := hf.falls schedule added exact
  rw [show c.clock = _ from hclock] at hfalls
  refine ⟨hfalls.forall₂, hfalls.ascending (fun m hm => ?_) (fun m hm => ?_), ?_, ht.resting, ?_,
    fun task htask hid due hdue => ht.asleep added exact htask hid hdue, wait_stop _ _, hclock⟩
  · obtain ⟨⟨u, rfl, -⟩, -⟩ := hm
    exact ⟨u, rfl⟩
  · obtain ⟨-, span, -, hlt, -⟩ := hm
    exact Int.lt_of_le_of_lt (clock.instantAt_le (Nat.zero_le _)) hlt
  · intro hsince
    rw [hw.since, Bool.and_eq_true] at hsince
    obtain ⟨x, hx⟩ := Option.isSome_iff_exists.mp (ht.there.trans hsince.1)
    obtain rfl : x.schedule = schedule :=
      Option.some.inj ((ht.schedule x hx).symm.trans added)
    unfold next?
    rw [hx]
    exact (ht.armed x hx exact (ht.running.trans hsince.2)).next
  · rw [countP_tasks_stop ht.numbered, hw.since, ← ht.there, ← ht.running, Bool.and_comm]

section Platform

open Platform

/-- From a twentieth of a second before a full minute, an entry that is due every minute is
dispatched for 90 milliseconds, rests for 60 and is dispatched for 30 more. -/
theorem firings_of_run_kolkata : ∃ schedule,
    Schedule.parse "* * * * *" "Asia/Kolkata" = .ok schedule ∧
      let clock : Clock := ⟨⟨1717243259950000000⟩, 0⟩
      let c := ({ clock } : Course Unit).run
        [.add schedule (), .start, .pass 90, .stop, .pass 60, .start, .pass 30]
      ∃ ms : List Instant, ms.Pairwise (· < ·) ∧
        (∀ m, m ∈ ms ↔ schedule.IsMatch m ∧ ∃ span ∈ [(0, 90), (150, 180)],
          clock.instantAt span.1 < m ∧ m ≤ clock.instantAt span.2) ∧
        List.Forall₂ (fun m k => IsLeast {k | m ≤ clock.instantAt k} k) ms (c.firings 1) := by
  obtain ⟨schedule, accepted, hzone⟩ : ∃ s, Schedule.parse "* * * * *" "Asia/Kolkata" = .ok s ∧
      s.zone = .fixed 19800 := ⟨_, rfl, rfl⟩
  have fixed : schedule.zone.IsFixed := ⟨19800, fun utc => by rw [hzone]; rfl⟩
  exact ⟨schedule, accepted, (firings_of_run ⟨⟨1717243259950000000⟩, 0⟩
    [.add schedule (), .start, .pass 90, .stop, .pass 60, .start, .pass 30] 1 rfl
    (Schedule.ordered_of_parse accepted) fixed).1⟩

end Platform

/-! ## §5. Sessions -/

namespace Session

variable [ZoneBook]

/-- What a request does to the engine. -/
def events (s : Session) : Request → List (Event Work)
  | .add label expr timezone length =>
    match Schedule.parse expr timezone with
    | .error _ => []
    | .ok schedule => [.add schedule { label, length }]
  | .remove label => (s.labels.lookup label).toList.map .remove
  | .start => [.start]
  | .stop => [.stop]
  | .advance ms => [.pass ms]
  | .next _ | .look | .elapsed | .calls => []

/-- The session's clock, engine and log are those of a course. -/
structure Follows (s : Session) (c : Course Work) : Prop where
  clock : s.clock = c.clock
  engine : s.engine = c.engine
  log : s.log = (c.log.map fun f => (f.payload, f.time)).reverse

variable {s : Session} {c : Course Work}

theorem follows_step (h : s.Follows c) (r : Request) :
    (s.step r).1.Follows (c.run (s.events r)) := by
  obtain ⟨hclock, hengine, hlog⟩ := h
  cases r with
  | add label expr timezone length =>
    cases hp : Schedule.parse expr timezone with
    | error e =>
      simp only [step, events, hp]
      exact ⟨hclock, hengine, hlog⟩
    | ok schedule =>
      simp only [step, events, hp]
      refine ⟨hclock, ?_, hlog⟩
      show (s.engine.add s.clock schedule { label, length }).1 = (c.engine.add c.clock schedule _).1
      rw [hclock, hengine]
  | remove label =>
    cases hl : s.labels.lookup label with
    | none =>
      simp only [step, events, hl]
      exact ⟨hclock, hengine, hlog⟩
    | some id =>
      simp only [step, events, hl]
      exact ⟨hclock, congrArg (·.remove id) hengine, hlog⟩
  | start =>
    refine ⟨hclock, ?_, hlog⟩
    show s.engine.start s.clock = c.engine.start c.clock
    rw [hclock, hengine]
  | stop =>
    refine ⟨?_, ?_, hlog⟩
    · show s.clock.advanceTo ((s.engine.stop s.clock).2.wait _) =
        c.clock.advanceTo ((c.engine.stop c.clock).2.wait _)
      rw [hclock, hengine]
    · show (s.engine.stop s.clock).1 = (c.engine.stop c.clock).1
      rw [hclock, hengine]
  | advance ms =>
    refine ⟨?_, ?_, ?_⟩
    · show s.clock.advanceTo _ = c.clock.advanceTo _
      rw [hclock]
    · show (s.engine.fireUntil _).1 = (c.engine.fireUntil _).1
      rw [hclock, hengine]
    · have hfirings := map_firings c.engine (c.clock.advanceTo (c.clock.elapsed + ms))
      show List.reverse _ ++ s.log = (List.map _ (c.log ++ c.engine.firings _)).reverse
      rw [hlog, hclock, hengine, List.map_append, List.reverse_append, hfirings]
      rfl
  | next _ | look | elapsed | calls => exact ⟨hclock, hengine, hlog⟩

/-- **What a session does to its engine is a course.** -/
theorem exists_course (h : s.Follows c) (rs : List Request) :
    ∃ es, (s.run rs).1.Follows (c.run es) := by
  induction rs generalizing s c with
  | nil => exact ⟨[], h⟩
  | cons r rs ih =>
    obtain ⟨es, hes⟩ := ih (follows_step h r)
    refine ⟨s.events r ++ es, ?_⟩
    rw [show c.run (s.events r ++ es) = (c.run (s.events r)).run es from List.foldl_append]
    exact hes

end Session

end CronSupervisor.Engine
