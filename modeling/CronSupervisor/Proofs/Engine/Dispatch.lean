/-
  CronSupervisor.Proofs.Engine.Dispatch — an entry whose timer is set fires for every match.

  The instants at which a schedule is due are rounded up to whole milliseconds of the clock.  Two of
  them are a second apart or more, so none is lost to the rounding: after a firing the next match is
  later than the millisecond of the firing.  `ArmedAt` says that an entry waits for its first match
  after a moment, and `fireUntil` leads from one such moment to a later one, with one firing for
  each match in between.

  Main statements:
    * `armedAt_arm`, `armedAt_fire` — an entry that was armed or fired waits for its next match.
    * `fireUntil_spec` — what an entry does while time passes.
-/
import CronSupervisor.Engine.Basic
import CronSupervisor.Proofs.Clock
import CronSupervisor.Proofs.Cron.Match
import Mathlib.Data.List.Forall2

namespace CronSupervisor

open Calendar Cron

namespace Engine

/-! ## §1. Firings for a set of instants -/

/-- The milliseconds are those of the instants in a set, one for each and in their order. -/
def Falls (c : Clock) (S : Instant → Prop) (ks : List Nat) : Prop :=
  ∃ ms : List Instant, ms.Pairwise (· < ·) ∧ (∀ m, m ∈ ms ↔ S m) ∧ ks = ms.map c.millisAt

namespace Falls

variable {c : Clock} {S T : Instant → Prop} {ks ls : List Nat}

theorem nil (h : ∀ m, ¬ S m) : Falls c S [] :=
  ⟨[], .nil, fun m => iff_of_false List.not_mem_nil (h m), rfl⟩

theorem congr (h : Falls c S ks) (iff : ∀ m, S m ↔ T m) : Falls c T ks := by
  obtain ⟨ms, ascending, hmem, hks⟩ := h
  exact ⟨ms, ascending, fun m => (hmem m).trans (iff m), hks⟩

/-- What comes later is appended. -/
theorem append (hs : Falls c S ks) (ht : Falls c T ls) (later : ∀ m n, S m → T n → m < n) :
    Falls c (fun m => S m ∨ T m) (ks ++ ls) := by
  obtain ⟨ms, hms, hS, rfl⟩ := hs
  obtain ⟨ns, hns, hT, rfl⟩ := ht
  refine ⟨ms ++ ns, ?_, ?_, List.map_append.symm⟩
  · rw [List.pairwise_append]
    exact ⟨hms, hns, fun m hm n hn => later m n ((hS m).mp hm) ((hT n).mp hn)⟩
  · intro m
    rw [List.mem_append, hS, hT]

theorem singleton (c : Clock) (n : Instant) : Falls c (fun m => m = n) [c.millisAt n] :=
  ⟨[n], List.pairwise_singleton _ _, fun _ => List.mem_singleton, rfl⟩

/-- Every instant of the set has its millisecond, the first that is not before it. -/
theorem forall₂ (h : Falls c S ks) : ∃ ms : List Instant, ms.Pairwise (· < ·) ∧
    (∀ m, m ∈ ms ↔ S m) ∧ List.Forall₂ (fun m k => IsLeast {k | m ≤ c.instantAt k} k) ms ks := by
  obtain ⟨ms, ascending, hmem, rfl⟩ := h
  refine ⟨ms, ascending, hmem, ?_⟩
  rw [List.forall₂_map_right_iff, List.forall₂_same]
  exact fun m _ => c.isLeast_millisAt m

/-- Full seconds fall on different milliseconds. -/
theorem ascending (h : Falls c S ks) (seconds : ∀ m, S m → ∃ u, m = .ofSeconds u)
    (after : ∀ m, S m → c.instantAt 0 < m) : ks.Pairwise (· < ·) := by
  obtain ⟨ms, ascending, hmem, rfl⟩ := h
  rw [List.pairwise_map]
  refine ascending.imp_of_mem fun {m n} hm hn hlt => ?_
  obtain ⟨u, rfl⟩ := seconds m ((hmem m).mp hm)
  obtain ⟨v, rfl⟩ := seconds n ((hmem n).mp hn)
  rw [Clock.lt_millisAt_iff]
  exact (Clock.instantAt_millisAt_lt_iff (after _ ((hmem _).mp hm))).mpr hlt

end Falls

/-! ## §2. Entries that wait -/

namespace Entry

variable {α : Type} {e : Entry α} {c : Clock} {a b due : Nat}

/-- The entry waits for its first match after a moment. -/
structure ArmedAt (e : Entry α) (c : Clock) (k : Nat) : Prop where
  next : e.next = e.schedule.nextAfter? (c.instantAt k)
  timer : e.timer = e.next.map c.millisAt

/-- What an entry waits for does not depend on how late it is. -/
theorem ArmedAt.of_start (armed : e.ArmedAt c a) (c' : Clock) (h : c'.start = c.start) :
    e.ArmedAt c' a := by
  obtain ⟨start, elapsed⟩ := c
  obtain ⟨start', elapsed'⟩ := c'
  obtain rfl : start' = start := h
  exact ⟨armed.next, armed.timer⟩

/-- **An entry that is armed waits for its next match**: a timer that is set to the next millisecond
at the earliest is not set back by that. -/
theorem armedAt_arm (exact : e.schedule.Exact) {earliest : Nat} (h : earliest ≤ a + 1) :
    (e.arm c (c.instantAt a) earliest).ArmedAt c a := by
  refine ⟨rfl, ?_⟩
  show (e.schedule.nextAfter? (c.instantAt a)).map _ = (e.schedule.nextAfter? (c.instantAt a)).map _
  cases hn : e.schedule.nextAfter? (c.instantAt a) with
  | none => rfl
  | some n =>
    have hlt := Clock.lt_millisAt_iff.mpr (exact.lt hn)
    show some (max (c.millisAt n) earliest) = some (c.millisAt n)
    rw [Nat.max_eq_left (by omega)]

/-- The run that a timer stands for. -/
theorem ArmedAt.exists_next (armed : e.ArmedAt c a) (h : e.timer = some due) :
    ∃ n, e.next = some n ∧ e.schedule.nextAfter? (c.instantAt a) = some n ∧ c.millisAt n = due := by
  rw [armed.timer, Option.map_eq_some_iff] at h
  obtain ⟨n, hn, hdue⟩ := h
  exact ⟨n, hn, armed.next.symm.trans hn, hdue⟩

/-- **An entry that fires waits for its next match after the firing.** -/
theorem armedAt_fire (exact : e.schedule.Exact) (armed : e.ArmedAt c a) (h : e.timer = some due) :
    (e.fire c due).ArmedAt c due := by
  obtain ⟨n, hn, -, rfl⟩ := armed.exists_next h
  have hle : n ≤ c.instantAt (c.millisAt n) := Clock.millisAt_le_iff.mp (Nat.le_refl _)
  unfold fire
  simp only [hn, Instant.later, if_pos hle]
  exact armedAt_arm exact (Nat.le_refl _)

/-- An entry goes on waiting while its timer is not due. -/
theorem ArmedAt.of_le (exact : e.schedule.Exact) (armed : e.ArmedAt c a) (h : a ≤ b)
    (waits : ∀ due, e.timer = some due → b < due) : e.ArmedAt c b := by
  refine ⟨?_, armed.timer⟩
  rw [armed.next, exact.nextAfter?_of_le (Clock.instantAt_le h)]
  intro n hn
  refine Clock.lt_millisAt_iff.mp (waits _ ?_)
  rw [armed.timer, armed.next, hn, Option.map_some]

/-! ## §3. While time passes -/

/-- Matches are full seconds, so the next one comes after the millisecond of this one. -/
theorem lt_iff_of_isMatch {s : Schedule} {m n : Instant} (hn : s.IsMatch n) (hm : s.IsMatch m)
    (h : c.instantAt a < n) : c.instantAt (c.millisAt n) < m ↔ n < m := by
  obtain ⟨u, rfl, -⟩ := hn
  obtain ⟨v, rfl, -⟩ := hm
  exact Clock.instantAt_millisAt_lt_iff h

theorem eq_or_lt_of_isMatch {s : Schedule} (exact : s.Exact) {t m n : Instant}
    (h : s.nextAfter? t = some n) (hm : s.IsMatch m) (hlt : t < m) : m = n ∨ n < m := by
  rcases Int.lt_or_eq_of_le (exact.le_of_isMatch h hm hlt) with hlater | heq
  · exact .inr hlater
  · exact .inl (congrArg Instant.mk heq.symm)

theorem fireUntil_due (h : e.timer = some due) (hle : due ≤ b) : e.fireUntil c b =
    (((e.fire c due).fireUntil c b).1, due :: ((e.fire c due).fireUntil c b).2) := by
  rw [fireUntil]
  split
  next due' hdue =>
    rw [h] at hdue
    cases hdue
    rw [dif_pos hle]
  next hnone =>
    rw [h] at hnone
    cases hnone

theorem fireUntil_of_waits (h : ∀ due, e.timer = some due → b < due) :
    e.fireUntil c b = (e, []) := by
  rw [fireUntil]
  split
  next due hdue =>
    have hlt := h due hdue
    rw [dif_neg (by omega)]
  next => rfl

/-- Firing changes neither what an entry is nor what it hands out. -/
theorem fireUntil_keeps (c : Clock) (b : Nat) (e : Entry α) :
    (e.fireUntil c b).1.id = e.id ∧ (e.fireUntil c b).1.schedule = e.schedule ∧
      (e.fireUntil c b).1.payload = e.payload := by
  induction e using fireUntil.induct c b with
  | case1 e due h hle r times hr ih =>
    rw [fireUntil_due h hle]
    exact ih
  | case2 e due h hlt =>
    rw [fireUntil_of_waits fun due' hdue => by rw [h] at hdue; cases hdue; omega]
    exact ⟨rfl, rfl, rfl⟩
  | case3 e h =>
    rw [fireUntil_of_waits fun due' hdue => by rw [h] at hdue; cases hdue]
    exact ⟨rfl, rfl, rfl⟩

/-- The firings of any entry come in order, and its timer is set to a later millisecond. -/
theorem fireUntil_times (c : Clock) (b : Nat) (e : Entry α) {a : Nat}
    (ahead : ∀ due, e.timer = some due → a ≤ due) :
    (e.fireUntil c b).2.Pairwise (· < ·) ∧ (∀ k ∈ (e.fireUntil c b).2, a ≤ k ∧ k ≤ b) ∧
      ∀ due, (e.fireUntil c b).1.timer = some due → b < due := by
  induction e using fireUntil.induct c b generalizing a with
  | case1 e due h hle r times hr ih =>
    obtain ⟨hpairwise, hbounds, hlater⟩ := ih (a := due + 1) fun due' h' =>
      e.lt_timer_fire c due due' h'
    have hdue := ahead due h
    rw [fireUntil_due h hle]
    refine ⟨?_, fun k hk => ?_, hlater⟩
    · exact List.pairwise_cons.mpr ⟨fun k hk => (hbounds k hk).1, hpairwise⟩
    · rcases List.mem_cons.mp hk with rfl | hk
      · exact ⟨hdue, hle⟩
      · have hk' := hbounds k hk
        omega
  | case2 e due h hlt =>
    have hwaits : ∀ due', e.timer = some due' → b < due' := by
      intro due' hdue
      cases h.symm.trans hdue
      omega
    rw [fireUntil_of_waits hwaits]
    exact ⟨.nil, nofun, hwaits⟩
  | case3 e h =>
    have hwaits : ∀ due, e.timer = some due → b < due := by
      intro due hdue
      cases h.symm.trans hdue
    rw [fireUntil_of_waits hwaits]
    exact ⟨.nil, nofun, hwaits⟩

/-- **While time passes an entry fires once for every match**, and it waits for the next one at the
end. -/
theorem fireUntil_spec (c : Clock) (b : Nat) (e : Entry α) (exact : e.schedule.Exact) {a : Nat}
    (armed : e.ArmedAt c a) (hab : a ≤ b) :
    (e.fireUntil c b).1.ArmedAt c b ∧
      Falls c (fun m => e.schedule.IsMatch m ∧ c.instantAt a < m ∧ m ≤ c.instantAt b)
        (e.fireUntil c b).2 := by
  induction e using fireUntil.induct c b generalizing a with
  | case1 e due h hle r times hr ih =>
    obtain ⟨n, hn, hnext, rfl⟩ := armed.exists_next h
    obtain ⟨harmed, hfalls⟩ := ih exact (armedAt_fire exact armed h) hle
    rw [fireUntil_due h hle]
    refine ⟨harmed, ?_⟩
    have hmatch := exact.isMatch hnext
    have hlt := exact.lt hnext
    -- the match of this firing, and those after it, which are those after its millisecond
    refine ((Falls.singleton c n).append hfalls ?_).congr ?_
    · intro m m' hm hm'
      rw [hm]
      exact (lt_iff_of_isMatch hmatch hm'.1 hlt).mp hm'.2.1
    · intro m
      constructor
      · intro hm
        rcases hm with rfl | ⟨hm, hlater, hmb⟩
        · exact ⟨hmatch, hlt, Clock.millisAt_le_iff.mp hle⟩
        · exact ⟨hm, Int.lt_trans hlt ((lt_iff_of_isMatch hmatch hm hlt).mp hlater), hmb⟩
      · intro hc
        obtain ⟨hm, hma, hmb⟩ := hc
        rcases eq_or_lt_of_isMatch exact hnext hm hma with heq | hlater
        · exact .inl heq
        · exact .inr ⟨hm, (lt_iff_of_isMatch hmatch hm hlt).mpr hlater, hmb⟩
  | case2 e due h hlt =>
    have hwaits : ∀ due', e.timer = some due' → b < due' := by
      intro due' hdue
      rw [h] at hdue
      cases hdue
      omega
    rw [fireUntil_of_waits hwaits]
    refine ⟨armed.of_le exact hab hwaits, .nil ?_⟩
    rintro m ⟨hm, hma, hmb⟩
    -- a match so early would have set the timer to an earlier millisecond
    obtain ⟨n, -, hnext, rfl⟩ := armed.exists_next h
    have hge := exact.le_of_isMatch hnext hm hma
    refine hlt (Clock.millisAt_le_iff.mpr ?_)
    rw [Instant.le_iff] at hge hmb ⊢
    exact Int.le_trans hge hmb
  | case3 e h =>
    have hwaits : ∀ due, e.timer = some due → b < due := by
      intro due hdue
      rw [h] at hdue
      cases hdue
    rw [fireUntil_of_waits hwaits]
    refine ⟨armed.of_le exact hab hwaits, .nil ?_⟩
    rintro m ⟨hm, hma, -⟩
    have hnone : e.schedule.nextAfter? (c.instantAt a) = none := by
      have htimer := armed.timer
      rw [h] at htimer
      rw [← armed.next]
      exact Option.map_eq_none_iff.mp htimer.symm
    exact exact.not_lt_of_isMatch hnone hm hma

end Entry

end Engine

end CronSupervisor
