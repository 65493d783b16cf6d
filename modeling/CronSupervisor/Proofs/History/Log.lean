/-
  CronSupervisor.Proofs.History.Log — a bounded history is the end of an unbounded log.

  A history forgets its oldest entry when it is full, and an end that is reported for a forgotten
  entry is lost.  The log below forgets nothing: every execution has its place in it, and every
  end reaches its entry.  Both are sent the same requests, each at whatever the clock shows then,
  and the history always shows the newest part of the log.  What the history has lost lies outside
  that part for good, because entries leave it in the order of their identifiers and never come
  back.

  Main statements:
    * `respondAll_shows` — a history and a log that are sent the same requests stay together.
    * `refines_log` — entries, identifiers, lost ends and all answers, in terms of the log.
    * `Session.run_eq_respondAll` — sessions send such requests.
-/
import CronSupervisor.History.Session
import Mathlib.Data.List.Nodup

namespace CronSupervisor.History

open Calendar

/-! ## §1. Requests and the log -/

/-- Answer a list of requests in order, each at a reading of the clock of its own. -/
def respondAll (h : History) : List (Instant × Request) → History × List Reply
  | [] => (h, [])
  | (now, r) :: rs =>
    let (h, reply) := h.respond now r
    let (h, replies) := h.respondAll rs
    (h, reply :: replies)

/-- Every execution that was ever opened, oldest first. -/
abbrev Log := List Entry

namespace Log

/-- Open an entry; the first one has the identifier 1. -/
def start (l : Log) (now : Instant) (trigger : Trigger) : Log :=
  l ++ [.opened (l.length + 1) now trigger]

/-- Close whatever has the identifier, also if it is closed already. -/
def finish (l : Log) (now : Instant) (id exitCode : Int) (success : Bool) (error : String) : Log :=
  l.map fun e => if e.id = id then e.close now exitCode success error else e

/-- Do what a request asks for. -/
def apply (l : Log) (now : Instant) : Request → Log
  | .start trigger => l.start now trigger
  | .finish id exitCode success error => l.finish now id exitCode success error
  | .query _ => l

/-- Do what a list of requests asks for. -/
def applyAll (l : Log) (requests : List (Instant × Request)) : Log :=
  requests.foldl (fun l (now, r) => l.apply now r) l

/-- The last `n` entries, or all of them if there are no more. -/
def newest (l : Log) (n : Nat) : List Entry := l.drop (l.length - n)

end Log

/-- The number of executions that the requests open. -/
def openings (requests : List (Instant × Request)) : Nat :=
  requests.countP fun
    | (_, .start _) => true
    | _ => false

/-- The identifier is one of the last `capacity` of those from 1 to `opened`. -/
def IsKept (capacity opened : Nat) (id : Int) : Prop :=
  ((opened - min capacity opened : Nat) : Int) < id ∧ id ≤ opened

instance (capacity opened : Nat) (id : Int) : Decidable (IsKept capacity opened id) :=
  inferInstanceAs (Decidable (_ ∧ _))

/-- How many of the requests report an end whose identifier is not kept at that time, when `opened`
executions were opened before them. -/
def strayEnds (capacity : Nat) : Nat → List (Instant × Request) → Nat
  | _, [] => 0
  | opened, (_, .start _) :: rs => strayEnds capacity (opened + 1) rs
  | opened, (_, .finish id _ _ _) :: rs =>
    (if IsKept capacity opened id then 0 else 1) + strayEnds capacity opened rs
  | opened, (_, .query _) :: rs => strayEnds capacity opened rs

/-- The identifiers that were handed out, in order. -/
def issued (replies : List Reply) : List Int :=
  replies.filterMap fun
    | .opened id => some id
    | _ => none

/-! ## §2. Changing an entry by its identifier -/

theorem amend?_eq_none_iff {id : Int} {f : Entry → Entry} {es : List Entry} :
    amend? id f es = none ↔ id ∉ es.map (·.id) := by
  induction es with
  | nil => simp [amend?]
  | cons e es ih =>
    unfold amend?
    by_cases he : e.id = id
    · simp [he]
    · rw [if_neg he, Option.map_eq_none_iff, ih, List.map_cons, List.mem_cons, not_or]
      exact (and_iff_right (Ne.symm he)).symm

/-- Where no two entries share an identifier, changing one is changing all that have it. -/
theorem eq_map_of_amend? {id : Int} {f : Entry → Entry} {es fs : List Entry}
    (distinct : (es.map (·.id)).Nodup) (h : amend? id f es = some fs) :
    fs = es.map fun e => if e.id = id then f e else e := by
  induction es generalizing fs with
  | nil => cases h
  | cons e es ih =>
    rw [List.map_cons, List.nodup_cons] at distinct
    unfold amend? at h
    by_cases he : e.id = id
    · rw [if_pos he] at h
      cases h
      -- the others have other identifiers, so they stay
      have hothers : ∀ o ∈ es, (if o.id = id then f o else o) = o := by
        intro o ho
        refine if_neg (fun heq => distinct.1 ?_)
        exact List.mem_map.mpr ⟨o, ho, heq.trans he.symm⟩
      rw [List.map_cons, if_pos he, List.map_congr_left hothers, List.map_id']
    · rw [if_neg he] at h
      obtain ⟨gs, hgs, rfl⟩ := Option.map_eq_some_iff.mp h
      rw [List.map_cons, if_neg he, ih distinct.2 hgs]

/-! ## §3. A history that shows the end of a log -/

/-- The history shows the newest part of the log, as much as it can hold. -/
structure Shows (capacity : Nat) (h : History) (l : Log) : Prop where
  capacity_eq : h.capacity = capacity
  /-- Identifiers count up from 1. -/
  ids : ∀ (i : Nat) (e : Entry), l[i]? = some e → e.id = i + 1
  nextId_eq : h.nextId = l.length + 1
  entries_eq : h.entries = (l.newest capacity).reverse

namespace Shows

variable {capacity : Nat} {h : History} {l : Log}

theorem nodup_ids (hs : Shows capacity h l) : (l.map (·.id)).Nodup := by
  refine List.pairwise_map.mpr (List.pairwise_iff_getElem.mpr ?_)
  intro i j hi hj hlt heq
  have hii := hs.ids i _ (List.getElem?_eq_getElem hi)
  have hjj := hs.ids j _ (List.getElem?_eq_getElem hj)
  omega

/-- The identifiers of the kept entries are the last ones. -/
theorem mem_ids (hs : Shows capacity h l) (id : Int) :
    id ∈ h.entries.map (·.id) ↔ IsKept capacity l.length id := by
  rw [hs.entries_eq, List.map_reverse, List.mem_reverse, List.mem_map]
  unfold Log.newest IsKept
  constructor
  · intro hc
    obtain ⟨e, he, rfl⟩ := hc
    obtain ⟨i, hi⟩ := List.mem_iff_getElem?.mp he
    rw [List.getElem?_drop] at hi
    have hid := hs.ids _ _ hi
    have hlt := (List.getElem?_eq_some_iff.mp hi).1
    omega
  · intro hc
    have hlt : (id - 1).toNat < l.length := by omega
    have hget := List.getElem?_eq_getElem hlt
    refine ⟨l[(id - 1).toNat],
      List.mem_iff_getElem?.mpr ⟨(id - 1).toNat - (l.length - capacity), ?_⟩, ?_⟩
    · rw [List.getElem?_drop, ← hget]
      congr 1
      omega
    · have hid := hs.ids _ _ hget
      omega

theorem nodup_kept (hs : Shows capacity h l) : (h.entries.map (·.id)).Nodup := by
  rw [hs.entries_eq, List.map_reverse, List.nodup_reverse]
  unfold Log.newest
  rw [List.map_drop]
  exact hs.nodup_ids.sublist (List.drop_sublist _ _)

/-! ### Requests -/

theorem empty (size : Nat) : Shows (max size 1) (History.empty size) [] where
  capacity_eq := rfl
  ids := by
    intro i e he
    cases he
  nextId_eq := rfl
  entries_eq := by
    show [] = (List.drop _ []).reverse
    rw [List.drop_nil]
    rfl

theorem start (hs : Shows capacity h l) (now : Instant) (trigger : Trigger) :
    Shows capacity (h.start now trigger) (l.start now trigger) where
  capacity_eq := hs.capacity_eq
  ids := by
    intro i e he
    unfold Log.start at he
    rcases Nat.lt_trichotomy i l.length with hlt | heq | hgt
    · rw [List.getElem?_append_left hlt] at he
      exact hs.ids i e he
    · subst heq
      rw [List.getElem?_concat_length] at he
      cases he
      rfl
    · have hlt := (List.getElem?_eq_some_iff.mp he).1
      rw [List.length_append, List.length_singleton] at hlt
      omega
  nextId_eq := by
    show h.nextId + 1 = ((l ++ [_]).length : Int) + 1
    rw [hs.nextId_eq, List.length_append, List.length_singleton]
    rfl
  entries_eq := by
    -- the new entry is the newest, and of the older ones one less finds room
    have hpos := h.capacity_pos
    rw [hs.capacity_eq] at hpos
    rw [h.entries_start, hs.entries_eq, hs.capacity_eq, hs.nextId_eq]
    unfold Log.newest Log.start
    simp only [List.length_append, List.length_singleton]
    rw [List.drop_append_of_le_length (by omega), List.reverse_append, List.take_reverse,
      List.drop_drop, List.length_drop]
    congr 3
    omega

theorem finish (hs : Shows capacity h l) (now : Instant) (id exitCode : Int) (success : Bool)
    (error : String) :
    Shows capacity (h.finish now id exitCode success error)
      (l.finish now id exitCode success error) := by
  have hentries : (h.finish now id exitCode success error).entries
      = h.entries.map fun e => if e.id = id then e.close now exitCode success error else e := by
    unfold History.finish
    split
    next es hes => exact eq_map_of_amend? hs.nodup_kept hes
    next hnone =>
      -- no kept entry has the identifier
      rw [amend?_eq_none_iff] at hnone
      have hothers : ∀ o ∈ h.entries,
          (if o.id = id then o.close now exitCode success error else o) = o := by
        intro o ho
        exact if_neg (fun heq => hnone (List.mem_map.mpr ⟨o, ho, heq⟩))
      rw [List.map_congr_left hothers, List.map_id']
  have hrest : (h.finish now id exitCode success error).capacity = h.capacity ∧
      (h.finish now id exitCode success error).nextId = h.nextId := by
    unfold History.finish
    split <;> exact ⟨rfl, rfl⟩
  exact
    { capacity_eq := hrest.1.trans hs.capacity_eq
      ids := by
        intro i e he
        unfold Log.finish at he
        rw [List.getElem?_map] at he
        obtain ⟨o, ho, rfl⟩ := Option.map_eq_some_iff.mp he
        have hid := hs.ids i o ho
        split <;> exact hid
      nextId_eq := by
        rw [hrest.2, hs.nextId_eq]
        unfold Log.finish
        rw [List.length_map]
      entries_eq := by
        rw [hentries, hs.entries_eq]
        unfold Log.newest Log.finish
        rw [List.length_map, List.map_reverse, List.map_drop] }

theorem respond (hs : Shows capacity h l) (now : Instant) (r : Request) :
    Shows capacity (h.respond now r).1 (l.apply now r) := by
  cases r with
  | start trigger => exact hs.start now trigger
  | finish id exitCode success error => exact hs.finish now id exitCode success error
  | query q => exact hs

/-! ### Ends that reach no entry -/

/-- An end whose identifier is not kept is counted, and changes nothing else. -/
theorem finish_of_stray (hs : Shows capacity h l) {id : Int}
    (stray : ¬ IsKept capacity l.length id) (now : Instant) (exitCode : Int) (success : Bool)
    (error : String) : h.finish now id exitCode success error
      = { h with droppedCompletions := h.droppedCompletions + 1 } := by
  rw [← hs.mem_ids, ← amend?_eq_none_iff (f := (·.close now exitCode success error))] at stray
  unfold History.finish
  rw [stray]

theorem droppedCompletions_finish (hs : Shows capacity h l) (now : Instant) (id exitCode : Int)
    (success : Bool) (error : String) :
    (h.finish now id exitCode success error).droppedCompletions
      = h.droppedCompletions + if IsKept capacity l.length id then 0 else 1 := by
  by_cases hkept : IsKept capacity l.length id
  · rw [if_pos hkept]
    unfold History.finish
    split
    next => rfl
    next hnone =>
      rw [amend?_eq_none_iff, hs.mem_ids] at hnone
      exact absurd hkept hnone
  · rw [if_neg hkept, hs.finish_of_stray hkept]

/-! ### Answers -/

/-- The part of the log that is kept, in terms of its length. -/
theorem entries_eq_newest (hs : Shows capacity h l) :
    h.entries = (l.newest (min capacity l.length)).reverse := by
  rw [hs.entries_eq]
  unfold Log.newest
  congr 2
  omega

theorem size_eq (hs : Shows capacity h l) : h.size = min capacity l.length := by
  unfold size
  rw [hs.entries_eq, List.length_reverse]
  unfold Log.newest
  rw [List.length_drop]
  omega

theorem recent_eq (hs : Shows capacity h l) (n : Nat) : h.recent n
    = (l.newest (min capacity l.length)).reverse.take
        (if n = 0 then min capacity l.length else min n (min capacity l.length)) := by
  rw [← hs.entries_eq_newest, ← hs.size_eq]
  unfold recent size
  split
  next => rw [List.take_length]
  next => rw [List.take_eq_take_min]

/-- The entry of a kept identifier stands at its place in the log. -/
theorem exists_kept (hs : Shows capacity h l) {id : Int} (kept : IsKept capacity l.length id) :
    ∃ e ∈ h.entries, e.id = id ∧ l[(id - 1).toNat]? = some e := by
  rw [← hs.mem_ids] at kept
  obtain ⟨e, he, rfl⟩ := List.mem_map.mp kept
  refine ⟨e, he, rfl, ?_⟩
  rw [hs.entries_eq, List.mem_reverse] at he
  obtain ⟨i, hi⟩ := List.mem_iff_getElem?.mp (List.mem_of_mem_drop he)
  have hid := hs.ids i e hi
  rw [show (e.id - 1).toNat = i by omega]
  exact hi

/-- An entry is found by its identifier when it is kept, and it is then that of the log. -/
theorem byId?_eq (hs : Shows capacity h l) (id : Int) :
    h.byId? id = if IsKept capacity l.length id then l[(id - 1).toNat]? else none := by
  unfold byId?
  by_cases hkept : IsKept capacity l.length id
  · obtain ⟨e, he, hid, hget⟩ := hs.exists_kept hkept
    rw [if_pos hkept, hget]
    cases hfind : h.entries.find? fun e => decide (e.id = id) with
    | none =>
      have hnone := List.find?_eq_none.mp hfind e he
      rw [decide_eq_true_eq] at hnone
      exact absurd hid hnone
    | some o =>
      -- no other entry has the identifier
      have hoid := List.find?_some hfind
      rw [decide_eq_true_eq] at hoid
      have ho := List.mem_of_find?_eq_some hfind
      rw [List.inj_on_of_nodup_map hs.nodup_kept ho he (hoid.trans hid.symm)]
  · rw [if_neg hkept, List.find?_eq_none]
    intro e he hid
    rw [decide_eq_true_eq] at hid
    rw [← hs.mem_ids] at hkept
    exact hkept (List.mem_map.mpr ⟨e, he, hid⟩)

theorem byId?_isSome_iff (hs : Shows capacity h l) (id : Int) :
    (h.byId? id).isSome = true ↔ IsKept capacity l.length id := by
  rw [hs.byId?_eq]
  by_cases hkept : IsKept capacity l.length id
  · obtain ⟨e, -, -, hget⟩ := hs.exists_kept hkept
    rw [if_pos hkept, hget]
    exact iff_of_true rfl hkept
  · rw [if_neg hkept]
    exact iff_of_false Bool.false_ne_true hkept

theorem last?_eq (hs : Shows capacity h l) :
    h.last? = (l.newest (min capacity l.length)).getLast? := by
  unfold last?
  rw [hs.entries_eq_newest, List.head?_reverse]

end Shows

/-! ## §4. Lists of requests -/

section Requests

variable {capacity : Nat} {h : History} {l : Log}

/-- **A history and a log that are sent the same requests stay together.** -/
theorem respondAll_shows (hs : Shows capacity h l) (requests : List (Instant × Request)) :
    Shows capacity (h.respondAll requests).1 (l.applyAll requests) := by
  induction requests generalizing h l with
  | nil => exact hs
  | cons p requests ih =>
    obtain ⟨now, r⟩ := p
    exact ih (hs.respond now r)

/-- The log has a place for every execution. -/
theorem length_applyAll (l : Log) (requests : List (Instant × Request)) :
    (l.applyAll requests).length = l.length + openings requests := by
  induction requests generalizing l with
  | nil => rfl
  | cons p requests ih =>
    obtain ⟨now, r⟩ := p
    show ((l.apply now r).applyAll requests).length = _
    rw [ih]
    unfold openings
    rw [List.countP_cons]
    cases r with
    | start trigger =>
      show (l ++ [_]).length + _ = _
      rw [List.length_append, List.length_singleton, if_pos rfl]
      omega
    | finish id exitCode success error =>
      show (l.map _).length + _ = _
      rw [List.length_map]
      rfl
    | query q => rfl

/-- The history counts the ends that are reported for what it does not keep. -/
theorem droppedCompletions_respondAll (hs : Shows capacity h l)
    (requests : List (Instant × Request)) :
    (h.respondAll requests).1.droppedCompletions
      = h.droppedCompletions + strayEnds capacity l.length requests := by
  induction requests generalizing h l with
  | nil => rfl
  | cons p requests ih =>
    obtain ⟨now, r⟩ := p
    show ((h.respond now r).1.respondAll requests).1.droppedCompletions = _
    rw [ih (hs.respond now r)]
    cases r with
    | start trigger =>
      show _ + strayEnds capacity (l ++ [_]).length requests = _
      rw [List.length_append, List.length_singleton]
      rfl
    | finish id exitCode success error =>
      show (h.finish now id exitCode success error).droppedCompletions
        + strayEnds capacity (l.map _).length requests = _
      rw [hs.droppedCompletions_finish, List.length_map, Nat.add_assoc]
      rfl
    | query q => rfl

/-- Closing entries leaves their identifiers. -/
theorem ids_finish (l : Log) (now : Instant) (id exitCode : Int) (success : Bool)
    (error : String) : (l.finish now id exitCode success error).map (·.id) = l.map (·.id) := by
  unfold Log.finish
  rw [List.map_map]
  refine List.map_congr_left (fun e _ => ?_)
  show (if e.id = id then _ else e).id = e.id
  split <;> rfl

/-- Every execution is told its place in the log. -/
theorem issued_respondAll (hs : Shows capacity h l) (requests : List (Instant × Request)) :
    l.map (·.id) ++ issued (h.respondAll requests).2 = (l.applyAll requests).map (·.id) := by
  induction requests generalizing h l with
  | nil => exact List.append_nil _
  | cons p requests ih =>
    obtain ⟨now, r⟩ := p
    show l.map (·.id) ++ issued ((h.respond now r).2 :: ((h.respond now r).1.respondAll requests).2)
      = ((l.apply now r).applyAll requests).map (·.id)
    rw [← ih (hs.respond now r)]
    cases r with
    | start trigger =>
      show l.map (·.id) ++ h.nextId :: issued _ = (l.start now trigger).map (·.id) ++ issued _
      rw [hs.nextId_eq, Log.start, List.map_append, List.append_assoc]
      rfl
    | finish id exitCode success error =>
      show _ = (l.finish now id exitCode success error).map (·.id) ++ issued _
      rw [ids_finish]
      rfl
    | query q => cases q <;> rfl

end Requests

/-! ## §5. Every capacity, every order of requests -/

/-- **A bounded history is the end of an unbounded log.**  Whatever is opened and closed in
whatever order, with any identifiers and at any readings of the clock, the history keeps the newest
entries of the log to which the same was done, as many as it can hold.  Identifiers are the places
in the log.  An end is lost exactly when its identifier is not kept at that time; it is counted,
and nothing else changes.  All answers are views of the kept part. -/
theorem refines_log (size : Nat) (requests : List (Instant × Request)) :
    let capacity := max size 1
    let opened := openings requests
    let h := ((empty size).respondAll requests).1
    let log := Log.applyAll [] requests
    let kept := log.newest (min capacity opened)
    -- the log
    log.length = opened ∧
    (∀ (i : Nat) (e : Entry), log[i]? = some e → e.id = i + 1) ∧
    issued ((empty size).respondAll requests).2 = log.map (·.id) ∧
    -- what is kept of it
    h.entries = kept.reverse ∧ kept.length = min capacity opened ∧
    -- ends that are lost
    h.droppedCompletions = strayEnds capacity 0 requests ∧
    (∀ now id exitCode success error, ¬ IsKept capacity opened id →
      h.finish now id exitCode success error
        = { h with droppedCompletions := h.droppedCompletions + 1 }) ∧
    -- answers
    (∀ now,
      h.answer now .all = .entries kept.reverse ∧
      (∀ n, h.answer now (.recent n)
        = .entries (kept.reverse.take (if n = 0 then kept.length else min n kept.length))) ∧
      (∀ id, h.answer now (.byId id)
        = .entry (if IsKept capacity opened id then log[(id - 1).toNat]? else none)) ∧
      h.answer now .last = .entry kept.getLast? ∧
      h.answer now .size = .size kept.length capacity) ∧
    (∀ id, (h.byId? id).isSome = true ↔ IsKept capacity opened id) := by
  intro capacity opened h log kept
  have hs : Shows capacity h log := respondAll_shows (.empty size) requests
  have hlength : log.length = opened := by
    rw [length_applyAll]
    exact Nat.zero_add _
  have hsize : kept.length = min capacity opened := by
    rw [← hlength, ← hs.size_eq, History.size, hs.entries_eq_newest, List.length_reverse, hlength]
  have hdropped : h.droppedCompletions = 0 + strayEnds capacity 0 requests :=
    droppedCompletions_respondAll (.empty size) requests
  refine ⟨hlength, hs.ids, issued_respondAll (.empty size) requests, ?_, hsize,
    hdropped.trans (Nat.zero_add _), ?_, ?_, ?_⟩
  · rw [hs.entries_eq_newest, hlength]
  · intro now id exitCode success error stray
    rw [← hlength] at stray
    exact hs.finish_of_stray stray now exitCode success error
  · intro now
    refine ⟨?_, fun n => ?_, fun id => ?_, ?_, ?_⟩
    · show Reply.entries h.entries = _
      rw [hs.entries_eq_newest, hlength]
    · show Reply.entries (h.recent n) = _
      rw [hs.recent_eq, hlength, hsize]
    · show Reply.entry (h.byId? id) = _
      rw [hs.byId?_eq, hlength]
    · show Reply.entry h.last? = _
      rw [hs.last?_eq, hlength]
    · show Reply.size h.size h.capacity = _
      rw [hs.size_eq, hs.capacity_eq, hsize, hlength]
  · intro id
    rw [hs.byId?_isSome_iff, hlength]

/-! ## §6. Sessions -/

/-- The requests among the steps of a session, with the readings of its clock. -/
def Session.timed : Instant → List Step → List (Instant × Request)
  | _, [] => []
  | now, .advance micros :: steps => timed (now.addNanos (micros * 1000)) steps
  | now, .request r :: steps => (now, r) :: timed now steps

/-- **Sessions send such requests.** -/
theorem Session.run_eq_respondAll (s : Session) (steps : List Step) :
    (s.run steps).1.history = (s.history.respondAll (timed s.now steps)).1 := by
  induction steps generalizing s with
  | nil => rfl
  | cons step steps ih =>
    cases step with
    | advance micros => exact ih { s with now := s.now.addNanos (micros * 1000) }
    | request r => exact ih { s with history := (s.history.respond s.now r).1 }

end CronSupervisor.History
