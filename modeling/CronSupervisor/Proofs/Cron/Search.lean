/-
  CronSupervisor.Proofs.Cron.Search — the search through a timetable finds the least wall time.

  The search is nested: days, and on a day that matches hours, minutes and seconds.  Each level runs
  through ascending candidates and stops at the first that yields something, so it finds the least
  element of a union as soon as the levels below find the least elements of its parts.  `Finds` says
  that about one level, and the levels are put together from the seconds outwards.

  Main statements:
    * `finds_findSome?` — one level of the search.
    * `finds_firstSecond?`, `finds_firstOfDay?`, `finds_firstOfDays?` — the levels of the search.
    * `finds_nextWall?` — the least matching wall time that is not before a given one and exists.
-/
import CronSupervisor.Cron.Timetable
import CronSupervisor.Proofs.Calendar.Zone

namespace CronSupervisor.Cron

open Calendar

/-! ## §1. Finding least elements -/

/-- What a search yields is the least of what it looks for, or there is nothing of it. -/
def Finds {α : Type} [LE α] (S : α → Prop) : Option α → Prop
  | some a => S a ∧ ∀ b, S b → a ≤ b
  | none => ∀ b, ¬ S b

theorem Finds.congr {α : Type} [LE α] {S T : α → Prop} {r : Option α} (h : Finds S r)
    (iff : ∀ a, S a ↔ T a) : Finds T r := by
  have heq : S = T := funext fun a => propext (iff a)
  rwa [← heq]

/-- The first of ascending candidates that yields something yields the least of all. -/
theorem finds_findSome? {xs : List Nat} {f : Nat → Option Nat} {S : Nat → Nat → Prop}
    (ascending : xs.Pairwise (· < ·)) (finds : ∀ x ∈ xs, Finds (S x) (f x))
    (later : ∀ x ∈ xs, ∀ y ∈ xs, x < y → ∀ a b, S x a → S y b → a < b) :
    Finds (fun a => ∃ x ∈ xs, S x a) (xs.findSome? f) := by
  induction xs with
  | nil =>
    intro b hc
    obtain ⟨x, hx, -⟩ := hc
    cases hx
  | cons x xs ih =>
    rw [List.pairwise_cons] at ascending
    have hhead := finds x List.mem_cons_self
    have htail := ih ascending.2 (fun y hy => finds y (List.mem_cons_of_mem _ hy))
      (fun y hy y' hy' => later y (List.mem_cons_of_mem _ hy) y' (List.mem_cons_of_mem _ hy'))
    rw [List.findSome?_cons]
    cases hx : f x with
    | some a =>
      -- what the rest would yield comes later
      rw [hx] at hhead
      refine ⟨⟨x, List.mem_cons_self, hhead.1⟩, ?_⟩
      intro b hc
      obtain ⟨y, hy, hb⟩ := hc
      rcases List.mem_cons.mp hy with rfl | hy'
      · exact hhead.2 b hb
      · have hlt := ascending.1 y hy'
        exact Nat.le_of_lt (later x List.mem_cons_self y hy hlt a b hhead.1 hb)
    | none =>
      -- the head has nothing, so it adds nothing to the union
      rw [hx] at hhead
      refine htail.congr (fun a => ⟨?_, ?_⟩)
      · intro hc
        obtain ⟨y, hy, ha⟩ := hc
        exact ⟨y, List.mem_cons_of_mem _ hy, ha⟩
      · intro hc
        obtain ⟨y, hy, ha⟩ := hc
        rcases List.mem_cons.mp hy with rfl | hy'
        · exact absurd ha (hhead a)
        · exact ⟨y, hy', ha⟩

/-- A single candidate is found when it qualifies. -/
theorem finds_candidate (a : Nat) (p : Prop) [Decidable p] :
    Finds (fun b => b = a ∧ p) (if p then some a else none) := by
  split
  next hp =>
    refine ⟨⟨rfl, hp⟩, ?_⟩
    intro b hc
    obtain ⟨rfl, -⟩ := hc
    exact Nat.le_refl b
  next hp =>
    intro b hc
    obtain ⟨-, hb⟩ := hc
    exact hp hb

namespace Timetable

/-! ## §2. Times of a day -/

/-- The fields of the time are ascending and within a day. -/
structure Ordered (t : Timetable) : Prop where
  seconds : t.seconds.Pairwise (· < ·)
  minutes : t.minutes.Pairwise (· < ·)
  hours : t.hours.Pairwise (· < ·)
  second_le : ∀ s ∈ t.seconds, s ≤ 59
  minute_le : ∀ m ∈ t.minutes, m ≤ 59
  hour_le : ∀ h ∈ t.hours, h ≤ 23

/-- A second of the day matches when it is made of the fields of the time. -/
theorem matchesSecond_iff {t : Timetable} (ht : t.Ordered) {a : Nat} :
    a < 86400 ∧ t.matchesSecond a = true
      ↔ ∃ h ∈ t.hours, ∃ m ∈ t.minutes, ∃ s ∈ t.seconds, a = h * 3600 + m * 60 + s := by
  unfold matchesSecond
  simp only [Bool.and_eq_true, List.contains_iff_mem]
  constructor
  · intro ⟨hlt, ⟨hh, hm⟩, hs⟩
    exact ⟨_, hh, _, hm, _, hs, by omega⟩
  · intro hc
    obtain ⟨h, hh, m, hm, s, hs, rfl⟩ := hc
    have h23 := ht.hour_le h hh
    have m59 := ht.minute_le m hm
    have s59 := ht.second_le s hs
    have heq : (h * 3600 + m * 60 + s) / 3600 = h := by omega
    have meq : (h * 3600 + m * 60 + s) / 60 % 60 = m := by omega
    have seq : (h * 3600 + m * 60 + s) % 60 = s := by omega
    rw [heq, meq, seq]
    exact ⟨by omega, ⟨hh, hm⟩, hs⟩

/-- **The first second of a day is the least one that matches.** -/
theorem finds_firstSecond? {t : Timetable} (ht : t.Ordered) (low : Nat) (p : Nat → Bool) :
    Finds (fun a => (a < 86400 ∧ t.matchesSecond a = true) ∧ low ≤ a ∧ p a = true)
      (t.firstSecond? low p) := by
  -- from the innermost level outwards: a level finds the least of what lies below it
  have hsecond : ∀ h m, Finds
      (fun a => ∃ s ∈ t.seconds, a = h * 3600 + m * 60 + s ∧ (low ≤ h * 3600 + m * 60 + s &&
        p (h * 3600 + m * 60 + s)) = true)
      (t.seconds.findSome? fun s => if low ≤ h * 3600 + m * 60 + s && p (h * 3600 + m * 60 + s)
        then some (h * 3600 + m * 60 + s) else none) := by
    intro h m
    refine finds_findSome? ht.seconds (fun s _ => finds_candidate _ _) ?_
    intro s _ s' _ hlt a b hfirst hsecond
    obtain ⟨rfl, -⟩ := hfirst
    obtain ⟨rfl, -⟩ := hsecond
    omega
  have hminute : ∀ h, Finds
      (fun a => ∃ m ∈ t.minutes, ∃ s ∈ t.seconds, a = h * 3600 + m * 60 + s ∧
        (low ≤ h * 3600 + m * 60 + s && p (h * 3600 + m * 60 + s)) = true)
      (t.minutes.findSome? fun m => t.seconds.findSome? fun s =>
        if low ≤ h * 3600 + m * 60 + s && p (h * 3600 + m * 60 + s)
        then some (h * 3600 + m * 60 + s) else none) := by
    intro h
    refine finds_findSome? ht.minutes (fun m _ => hsecond h m) ?_
    intro m _ m' _ hlt a b hfirst hsecond
    obtain ⟨s, hs, rfl, -⟩ := hfirst
    obtain ⟨s', hs', rfl, -⟩ := hsecond
    have s59 := ht.second_le s hs
    omega
  have hhour : Finds
      (fun a => ∃ h ∈ t.hours, ∃ m ∈ t.minutes, ∃ s ∈ t.seconds, a = h * 3600 + m * 60 + s ∧
        (low ≤ h * 3600 + m * 60 + s && p (h * 3600 + m * 60 + s)) = true)
      (t.firstSecond? low p) := by
    refine finds_findSome? ht.hours (fun h _ => ?_) ?_
    · split
      next hearly =>
        -- an hour that is passed over ends too early
        intro a hc
        obtain ⟨m, hm, s, hs, -, hlow⟩ := hc
        have m59 := ht.minute_le m hm
        have s59 := ht.second_le s hs
        rw [Bool.and_eq_true, decide_eq_true_eq] at hlow
        omega
      next => exact hminute h
    · intro h _ h' _ hlt a b hfirst hsecond
      obtain ⟨m, hm, s, hs, rfl, -⟩ := hfirst
      obtain ⟨m', hm', s', hs', rfl, -⟩ := hsecond
      have m59 := ht.minute_le m hm
      have s59 := ht.second_le s hs
      omega
  refine hhour.congr (fun a => ?_)
  rw [matchesSecond_iff ht]
  constructor
  · intro hc
    obtain ⟨h, hh, m, hm, s, hs, rfl, hlow⟩ := hc
    rw [Bool.and_eq_true, decide_eq_true_eq] at hlow
    exact ⟨⟨h, hh, m, hm, s, hs, rfl⟩, hlow⟩
  · intro hc
    obtain ⟨⟨h, hh, m, hm, s, hs, rfl⟩, hlow⟩ := hc
    refine ⟨h, hh, m, hm, s, hs, rfl, ?_⟩
    rw [Bool.and_eq_true, decide_eq_true_eq]
    exact hlow

/-! ## §3. Days -/

/-- The wall time matches in its date and its time, and the clock shows it. -/
def Admits (t : Timetable) (z : Zone) (w : Int) : Prop :=
  t.matchesDay (w / secondsPerDay) = true ∧ t.matchesSecond (w % secondsPerDay).toNat = true ∧
    ∃ utc, z.wall utc = w

theorem finds_firstOfDay? {t : Timetable} (ht : t.Ordered) (z : Zone) (day : Int) (low : Nat) :
    Finds (fun w => w / secondsPerDay = day ∧ low ≤ w % secondsPerDay ∧ t.Admits z w)
      (t.firstOfDay? z day low) := by
  unfold firstOfDay? Admits secondsPerDay
  have hfinds := finds_firstSecond? ht low
    fun s => (z.earliest? (day * (86400 : Nat) + s)).isSome
  by_cases hday : t.matchesDay day = true
  · rw [if_pos hday]
    -- seconds of the day and wall times of the day are the same
    have hwall : ∀ w, w / (86400 : Nat) = day → low ≤ w % (86400 : Nat) →
        t.matchesSecond (w % (86400 : Nat)).toNat = true → (∃ utc, z.wall utc = w) →
        ((w % (86400 : Nat)).toNat < 86400 ∧ t.matchesSecond (w % (86400 : Nat)).toNat = true) ∧
          low ≤ (w % (86400 : Nat)).toNat ∧
          (z.earliest? (day * (86400 : Nat) + ((w % (86400 : Nat)).toNat : Nat))).isSome
            = true := by
      intro w hw hwlow hws hwshown
      refine ⟨⟨by omega, hws⟩, by omega, ?_⟩
      rw [Zone.earliest?_isSome_iff]
      rw [show day * (86400 : Nat) + ((w % (86400 : Nat)).toNat : Int) = w by omega]
      exact hwshown
    cases hr : t.firstSecond? low fun s => (z.earliest? (day * (86400 : Nat) + s)).isSome with
    | some s =>
      rw [hr] at hfinds
      obtain ⟨⟨⟨hlt, hs⟩, hlow, hshown⟩, hleast⟩ := hfinds
      have hquot : (day * (86400 : Nat) + (s : Int)) / (86400 : Nat) = day := by omega
      have hrest : (day * (86400 : Nat) + (s : Int)) % (86400 : Nat) = s := by omega
      show Finds _ (some (day * (86400 : Nat) + (s : Int)))
      refine ⟨⟨hquot, by omega, ?_, ?_, Zone.earliest?_isSome_iff.mp hshown⟩, ?_⟩
      · rw [hquot]
        exact hday
      · rw [hrest, Int.toNat_natCast]
        exact hs
      · intro w hc
        obtain ⟨hw, hwlow, -, hws, hwshown⟩ := hc
        have hle := hleast _ (hwall w hw hwlow hws hwshown)
        omega
    | none =>
      rw [hr] at hfinds
      intro w hc
      obtain ⟨hw, hwlow, -, hws, hwshown⟩ := hc
      exact hfinds _ (hwall w hw hwlow hws hwshown)
  · rw [if_neg hday]
    intro w hc
    obtain ⟨rfl, -, hmatch, -⟩ := hc
    exact hday hmatch

theorem finds_firstOfDays? {t : Timetable} (ht : t.Ordered) (z : Zone) (n : Nat) (day : Int) :
    Finds (fun w => day ≤ w / secondsPerDay ∧ w / secondsPerDay < day + n ∧ t.Admits z w)
      (t.firstOfDays? z n day) := by
  induction n generalizing day with
  | zero =>
    intro w hc
    obtain ⟨hlow, hhigh, -⟩ := hc
    omega
  | succ n ih =>
    have hfirst := finds_firstOfDay? ht z day 0
    have hrest := ih (day + 1)
    unfold firstOfDays?
    unfold secondsPerDay at *
    cases hr : t.firstOfDay? z day 0 with
    | some w =>
      -- what the first day has comes before all that later days have
      rw [hr] at hfirst
      obtain ⟨⟨hw, hlow, hadmits⟩, hleast⟩ := hfirst
      refine ⟨⟨by omega, by omega, hadmits⟩, ?_⟩
      intro v hc
      obtain ⟨hvlow, hvhigh, hv⟩ := hc
      by_cases hsame : v / (86400 : Nat) = day
      · exact hleast v ⟨hsame, by omega, hv⟩
      · omega
    | none =>
      rw [hr] at hfirst
      refine hrest.congr (fun w => ⟨?_, ?_⟩)
      · intro hc
        obtain ⟨hlow, hhigh, hw⟩ := hc
        exact ⟨by omega, by omega, hw⟩
      · intro hc
        obtain ⟨hlow, hhigh, hw⟩ := hc
        -- the first day has nothing
        have hne : w / (86400 : Nat) ≠ day := fun h => hfirst w ⟨h, by omega, hw⟩
        exact ⟨by omega, by omega, hw⟩

/-! ## §4. The search -/

theorem matchesWall_iff {t : Timetable} {w : Int} : t.matchesWall w = true ↔
    (0 ≤ w / secondsPerDay ∧ w / secondsPerDay < endDay) ∧
      t.matchesDay (w / secondsPerDay) = true ∧
      t.matchesSecond (w % secondsPerDay).toNat = true := by
  unfold matchesWall
  simp only [Bool.and_eq_true, decide_eq_true_eq, and_assoc]

/-- **The search finds the least matching wall time that is not before a given one and exists.** -/
theorem finds_nextWall? {t : Timetable} (ht : t.Ordered) (z : Zone) (w : Int) :
    Finds (fun c => w ≤ c ∧ t.matchesWall c = true ∧ ∃ utc, z.wall utc = c)
      (t.nextWall? z w) := by
  obtain ⟨v, hv⟩ : ∃ v, v = max w 0 := ⟨_, rfl⟩
  obtain ⟨day, hday⟩ : ∃ day, day = v / secondsPerDay := ⟨_, rfl⟩
  have hfirst := finds_firstOfDay? ht z day (v % secondsPerDay).toNat
  have hrest := finds_firstOfDays? ht z (endDay - day - 1).toNat (day + 1)
  have hsplit : ∀ c, (w ≤ c ∧ t.matchesWall c = true ∧ ∃ utc, z.wall utc = c)
      ↔ v ≤ c ∧ c / secondsPerDay < endDay ∧ t.Admits z c := by
    intro c
    rw [matchesWall_iff]
    unfold Admits secondsPerDay
    constructor
    · intro ⟨hwc, ⟨⟨h0, hend⟩, hd, hs⟩, hshown⟩
      exact ⟨by omega, hend, hd, hs, hshown⟩
    · intro ⟨hvc, hend, hd, hs, hshown⟩
      exact ⟨by omega, ⟨⟨by omega, hend⟩, hd, hs⟩, hshown⟩
  refine Finds.congr ?_ (fun c => (hsplit c).symm)
  unfold nextWall?
  simp only
  rw [← hv, ← hday]
  unfold secondsPerDay at *
  by_cases hend : day < endDay
  · rw [if_pos hend]
    -- the rest of the day of `v`, and the whole days after it
    cases hr : t.firstOfDay? z day (v % (86400 : Nat)).toNat with
    | some c =>
      rw [hr] at hfirst
      obtain ⟨⟨hc, hlow, hadmits⟩, hleast⟩ := hfirst
      refine ⟨⟨by omega, by omega, hadmits⟩, ?_⟩
      intro b hc
      obtain ⟨hb, hbend, hbadmits⟩ := hc
      by_cases hsame : b / (86400 : Nat) = day
      · exact hleast b ⟨hsame, by omega, hbadmits⟩
      · omega
    | none =>
      rw [hr] at hfirst
      refine hrest.congr (fun c => ⟨?_, ?_⟩)
      · intro hp
        obtain ⟨hlow, hhigh, hc⟩ := hp
        exact ⟨by omega, by omega, hc⟩
      · intro hp
        obtain ⟨hvc, hcend, hc⟩ := hp
        have hne : c / (86400 : Nat) ≠ day := fun h => hfirst c ⟨h, by omega, hc⟩
        exact ⟨by omega, by omega, hc⟩
  · -- every later day is past the years that are searched
    rw [if_neg hend]
    intro c hc
    obtain ⟨hvc, hcend, -⟩ := hc
    omega

end Timetable

end CronSupervisor.Cron
