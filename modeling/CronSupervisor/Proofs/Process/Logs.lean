/-
  CronSupervisor.Proofs.Process.Logs — what is answered when the lines of a process are asked for.

  A sink selects lines by the order in which they were captured; the answer is sorted by the times
  that the lines carry.  The two orders are one as long as the clock goes forward.  A clock that is
  set back separates them: the line that was captured last is then not the one with the latest time,
  and asking for one line brings another one than the first of all lines.

  An answer is determined by its order and by what it holds of every single time
  (`eq_of_sorted`), so comparing two answers is comparing these.

  Main statements:
    * `sorted_sortByTime`, `filter_sortByTime` — the latest come first, and equal times stay put.
    * `sortByTime_take_iff` — when the first of all lines are the last captured ones.
    * `logs_of_captured` — limited and unlimited answers for every history of a sink.
-/
import CronSupervisor.Process.Registry
import CronSupervisor.Proofs.Log.Captured
import Mathlib.Data.List.Sort

namespace CronSupervisor.ProcessRegistry

open Calendar

/-! ## §1. Sorting by time -/

/-- An entry may stand in front of another one. -/
def Precedes (e f : LogEntry) : Prop := f.time ≤ e.time

instance : DecidableRel Precedes := fun e f => inferInstanceAs (Decidable (f.time ≤ e.time))

instance : Std.Total Precedes := ⟨fun e f => Int.le_total f.time.nanos e.time.nanos⟩

instance : IsTrans LogEntry Precedes := ⟨fun _ _ _ h h' => Int.le_trans h' h⟩

variable {as bs es : List LogEntry} {n : Nat}

theorem insertByTime_eq (e : LogEntry) (es : List LogEntry) :
    insertByTime e es = es.orderedInsert Precedes e := by
  induction es with
  | nil => rfl
  | cons f es ih =>
    rw [List.orderedInsert_cons, ← ih]
    rfl

theorem sortByTime_eq (es : List LogEntry) : sortByTime es = es.insertionSort Precedes := by
  induction es with
  | nil => rfl
  | cons e es ih =>
    rw [List.insertionSort_cons, ← ih, ← insertByTime_eq]
    rfl

/-- **The latest come first.** -/
theorem sorted_sortByTime (es : List LogEntry) : (sortByTime es).Pairwise Precedes := by
  rw [sortByTime_eq]
  exact List.pairwise_insertionSort Precedes es

theorem perm_sortByTime (es : List LogEntry) : (sortByTime es).Perm es := by
  rw [sortByTime_eq]
  exact List.perm_insertionSort Precedes es

theorem filter_insertByTime (e : LogEntry) (t : Instant) :
    (insertByTime e es).filter (·.time = t) = (e :: es).filter (·.time = t) := by
  induction es with
  | nil => rfl
  | cons f es ih =>
    unfold insertByTime
    by_cases h : f.time ≤ e.time
    · rw [if_pos h]
    · -- an entry is moved past later ones only
      rw [if_neg h, List.filter_cons, ih]
      have hne : ¬ (f.time = t ∧ e.time = t) := by
        rintro ⟨hf, he⟩
        exact h (by rw [hf, he]; exact Int.le_refl _)
      simp only [List.filter_cons, decide_eq_true_eq]
      split_ifs <;> first | rfl | exact absurd ⟨‹_›, ‹_›⟩ hne

/-- **Those with the same time stay as they are.** -/
theorem filter_sortByTime (es : List LogEntry) (t : Instant) :
    (sortByTime es).filter (·.time = t) = es.filter (·.time = t) := by
  induction es with
  | nil => rfl
  | cons e es ih =>
    show (insertByTime e (sortByTime es)).filter _ = _
    rw [filter_insertByTime, List.filter_cons, List.filter_cons, ih]

/-- The first of a sorted list is the latest. -/
theorem time_le_of_sorted {e f : LogEntry} (h : (f :: es).Pairwise Precedes) (he : e ∈ f :: es) :
    e.time ≤ f.time := by
  rcases List.mem_cons.mp he with rfl | he
  · exact Int.le_refl _
  · exact List.rel_of_pairwise_cons h he

theorem mem_iff_of_filter_eq (h : ∀ t : Instant, as.filter (·.time = t) = bs.filter (·.time = t))
    (e : LogEntry) : e ∈ as ↔ e ∈ bs := by
  have he := congrArg (e ∈ ·) (h e.time)
  simpa using he

/-- **Lists that are sorted by time are equal if they hold the same of every time.** -/
theorem eq_of_sorted (has : as.Pairwise Precedes) (hbs : bs.Pairwise Precedes)
    (h : ∀ t : Instant, as.filter (·.time = t) = bs.filter (·.time = t)) : as = bs := by
  induction as generalizing bs with
  | nil =>
    cases bs with
    | nil => rfl
    | cons b bs => exact absurd ((mem_iff_of_filter_eq h b).mpr List.mem_cons_self) List.not_mem_nil
  | cons a as ih =>
    cases bs with
    | nil => exact absurd ((mem_iff_of_filter_eq h a).mp List.mem_cons_self) List.not_mem_nil
    | cons b bs =>
      -- each of the first entries is in the other list too, so their times are the same
      have htime : b.time = a.time := congrArg Instant.mk <| Int.le_antisymm
        (time_le_of_sorted has ((mem_iff_of_filter_eq h b).mpr List.mem_cons_self))
        (time_le_of_sorted hbs ((mem_iff_of_filter_eq h a).mp List.mem_cons_self))
      have hfirst := h a.time
      rw [List.filter_cons_of_pos (by simp), List.filter_cons_of_pos (by simpa using htime)]
        at hfirst
      obtain ⟨rfl, -⟩ := List.cons.inj hfirst
      have hrest : ∀ t : Instant, as.filter (·.time = t) = bs.filter (·.time = t) := fun t => by
        have ht := h t
        rw [List.filter_cons, List.filter_cons] at ht
        split at ht
        · exact (List.cons.inj ht).2
        · exact ht
      exact congrArg (a :: ·) (ih has.tail hbs.tail hrest)

/-! ## §2. The first of a sorted list -/

theorem sortByTime_sublist (h : as.Sublist bs) : (sortByTime as).Sublist (sortByTime bs) := by
  induction h with
  | slnil => exact .slnil
  | cons b _ ih =>
    refine ih.trans ?_
    show (sortByTime _).Sublist (insertByTime b _)
    rw [insertByTime_eq]
    exact List.sublist_orderedInsert b _
  | cons_cons b _ ih =>
    show (insertByTime b _).Sublist (insertByTime b _)
    rw [insertByTime_eq, insertByTime_eq]
    exact ih.orderedInsert_sublist b (sorted_sortByTime _)

/-- Where all entries of one list may stand in front of all of another, each is sorted alone. -/
theorem sortByTime_append (h : ∀ e ∈ as, ∀ f ∈ bs, Precedes e f) :
    sortByTime (as ++ bs) = sortByTime as ++ sortByTime bs := by
  refine eq_of_sorted (sorted_sortByTime _) ?_ fun t => ?_
  · refine List.pairwise_append.mpr ⟨sorted_sortByTime as, sorted_sortByTime bs, ?_⟩
    intro e he f hf
    exact h e ((perm_sortByTime as).mem_iff.mp he) f ((perm_sortByTime bs).mem_iff.mp hf)
  · rw [filter_sortByTime, List.filter_append, List.filter_append, filter_sortByTime,
      filter_sortByTime]

/-- **The first entries of a list, sorted, are the first of the sorted list exactly if no entry
behind them is later than one of them.** -/
theorem sortByTime_take_iff : sortByTime (es.take n) = (sortByTime es).take n ↔
    ∀ e ∈ es.take n, ∀ f ∈ es.drop n, Precedes e f := by
  constructor
  · intro h e he f hf
    -- what is cut off the sorted list is what is cut off the list
    have hcut : ((sortByTime es).drop n).Perm (es.drop n) := by
      have hall := perm_sortByTime es
      rw [← List.take_append_drop n (sortByTime es), ← h] at hall
      nth_rewrite 3 [← List.take_append_drop n es] at hall
      exact (List.perm_append_left_iff _).mp
        (((perm_sortByTime (es.take n)).symm.append_right _).trans hall)
    have hsorted := sorted_sortByTime es
    rw [← List.take_append_drop n (sortByTime es), ← h] at hsorted
    exact (List.pairwise_append.mp hsorted).2.2 e ((perm_sortByTime _).mem_iff.mpr he) f
      (hcut.mem_iff.mpr hf)
  · intro h
    rcases Nat.le_total n es.length with hn | hn
    · have hsplit := sortByTime_append h
      rw [List.take_append_drop] at hsplit
      have hlength : (sortByTime (es.take n)).length = n := by
        rw [(perm_sortByTime _).length_eq, List.length_take, Nat.min_eq_left hn]
      rw [hsplit, List.take_left' hlength]
    · -- nothing is cut off
      rw [List.take_of_length_le hn, List.take_of_length_le]
      rwa [(perm_sortByTime es).length_eq]

/-! ## §3. Answers -/

/-- **What is answered when the lines of a process are asked for.**  Whatever was done to the sink
of a process, and whatever its clock showed each time, the visible lines are the newest of those
that were captured up to the last drain.  A limit selects the lines that were captured last.  The
answer has the latest line first, lines with the same time in the reverse of the order in which they
were captured, and nothing but the selected lines, so that it is determined; the lines of a limited
answer stand in the same order in the unlimited one.  They are the first lines of it exactly if no
visible line was captured before them and is later than one of them. -/
theorem logs_of_captured {r : ProcessRegistry} {name process : String} {capacity : Nat}
    {patterns : List Pattern} {acts : List Sink.Act}
    (hsink : (r.find? name).bind (·.sink)
      = some ((Sink.empty process capacity patterns).performAll acts)) :
    let drained := (Sink.captured process patterns acts).take (Sink.tally acts).drained
    let visible := drained.reverse.take (max capacity 1)
    (∀ n, let selected := if n = 0 then visible else visible.take n
      (r.logs name n).Pairwise (fun e f => f.time ≤ e.time) ∧
      (∀ t : Instant, (r.logs name n).filter (·.time = t) = selected.filter (·.time = t)) ∧
      (r.logs name n).Perm selected ∧
      (r.logs name n).Sublist (r.logs name 0)) ∧
    ∀ n, 0 < n → (r.logs name n = (r.logs name 0).take n ↔
      ∀ e ∈ visible.take n, ∀ f ∈ visible.drop n, f.time ≤ e.time) := by
  intro drained visible
  have hempty : (Sink.empty process capacity patterns).Shows [] {} :=
    ⟨.empty process capacity patterns, by decide⟩
  obtain ⟨hs, hcapacity⟩ := Sink.performAll_shows hempty acts
  have hvisible : ((Sink.empty process capacity patterns).performAll acts).entries = visible := by
    rw [hs.entries_eq, hcapacity]
    rfl
  have hlogs : ∀ n, r.logs name n = sortByTime (if n = 0 then visible else visible.take n) := by
    intro n
    unfold logs
    rw [hsink, ← hvisible]
    rfl
  refine ⟨fun n => ?_, fun n hn => ?_⟩
  · rw [hlogs, hlogs 0, if_pos rfl]
    refine ⟨sorted_sortByTime _, filter_sortByTime _, perm_sortByTime _, ?_⟩
    apply sortByTime_sublist
    split
    · exact List.Sublist.refl _
    · exact List.take_sublist n visible
  · rw [hlogs, hlogs 0, if_pos rfl, if_neg (Nat.ne_of_gt hn)]
    exact sortByTime_take_iff

/-- A process of which two lines were captured, the second one after the clock was set back. -/
def setBack : ProcessRegistry :=
  { captures := true
    processes := [("app",
      { settings := { command := ["app"] }
        sink := some ((Sink.empty "app" 10 []).performAll
          [.record (.ofSeconds 5) .stdout "a", .record (.ofSeconds 0) .stdout "b", .flush]) })] }

theorem logs_setBack :
    (setBack.logs "app" 0).Pairwise (fun e f => f.time ≤ e.time) ∧
    setBack.logs "app" 1 ≠ (setBack.logs "app" 0).take 1 ∧
    setBack.logs "app" 2 = (setBack.logs "app" 0).take 2 := by
  have hsink : (setBack.find? "app").bind (·.sink)
      = some ((Sink.empty "app" 10 []).performAll
          [.record (.ofSeconds 5) .stdout "a", .record (.ofSeconds 0) .stdout "b", .flush]) := rfl
  obtain ⟨hanswers, hfirst⟩ := logs_of_captured hsink
  refine ⟨(hanswers 0).1, fun h => ?_, (hfirst 2 Nat.two_pos).mpr fun _ _ _ hf => ?_⟩
  · -- the line before the last one is later
    have hle := (hfirst 1 Nat.one_pos).mp h ⟨.ofSeconds 0, "app", .stdout, "b"⟩ (by decide)
      ⟨.ofSeconds 5, "app", .stdout, "a"⟩ (by decide)
    exact absurd hle (by decide)
  · -- two lines are all there are
    exact absurd hf List.not_mem_nil

/-- **Limited answers are not the first lines of the unlimited one** where a clock was set back. -/
theorem not_logs_eq_take : ¬ ∀ (r : ProcessRegistry) (name process : String) (capacity : Nat)
    (patterns : List Pattern) (acts : List Sink.Act),
    (r.find? name).bind (·.sink)
        = some ((Sink.empty process capacity patterns).performAll acts) →
      ∀ n, 0 < n → r.logs name n = (r.logs name 0).take n := by
  intro h
  have htake := h setBack "app" _ _ _ _ rfl 1 Nat.one_pos
  exact absurd htake (by decide)

end CronSupervisor.ProcessRegistry
