/-
  CronSupervisor.Proofs.Cron.Values — the numbers of a field.

  Under a step the numbers of a specifier are those that the step leads to from the first one on,
  and a single number stands for all from it to the upper bound.  A field has the numbers of all of
  its roots, and none at all if one of them leaves the bounds or has a step out of bounds.

  Main statements:
    * `mem_everyNth_range'` — which numbers a step leads to.
    * `values?_all`, `values?_point`, `values?_range` — specifiers with a step or without one.
    * `rootsValues?_eq_some_iff`, `mem_of_rootsValues?` — when a field has numbers, and which.
-/
import CronSupervisor.Proofs.Cron.Spelling

namespace CronSupervisor.Cron

/-! ## §1. Steps -/

theorem mem_everyNth_go {n : Nat} (hn : 1 ≤ n) (skip a len v : Nat) :
    v ∈ everyNth.go n skip (List.range' a len) ↔ ∃ i, v = a + skip + i * n ∧ v < a + len := by
  induction len generalizing skip a with
  | zero =>
    simp only [List.range'_zero, everyNth.go, List.not_mem_nil, false_iff]
    rintro ⟨i, rfl, hlt⟩
    omega
  | succ len ih =>
    rw [List.range'_succ]
    cases skip with
    | succ skip =>
      show v ∈ everyNth.go n skip _ ↔ _
      rw [ih]
      refine exists_congr fun i => ?_
      omega
    | zero =>
      -- the number in front is kept, and the next one is a step ahead
      show v ∈ a :: everyNth.go n (n - 1) _ ↔ _
      rw [List.mem_cons, ih]
      constructor
      · rintro (rfl | ⟨i, rfl, hlt⟩)
        · exact ⟨0, by omega, by omega⟩
        · refine ⟨i + 1, ?_, by omega⟩
          rw [Nat.add_mul]
          omega
      · rintro ⟨_ | i, hv, hlt⟩
        · exact .inl (by omega)
        · rw [Nat.add_mul] at hv
          exact .inr ⟨i, by omega, by omega⟩

/-- **The numbers that a step leads to.** -/
theorem mem_everyNth_range' {n : Nat} (hn : 1 ≤ n) (a len v : Nat) :
    v ∈ everyNth n (List.range' a len) ↔ ∃ i, v = a + i * n ∧ v < a + len :=
  mem_everyNth_go hn 0 a len v

theorem everyNth_one (xs : List Nat) : everyNth 1 xs = xs := by
  show everyNth.go 1 0 xs = xs
  induction xs with
  | nil => rfl
  | cons x xs ih => exact congrArg (x :: ·) ih

/-- The numbers from `first` to `last` that a step leads to, or all of them without a step. -/
def strides? (k : FieldKind) (step : Option Nat) (first last : Nat) : Option (List Nat) :=
  if ∀ s ∈ step, 1 ≤ s ∧ s ≤ k.high then
    some (everyNth (step.getD 1) (List.range' first (last + 1 - first)))
  else none

section Strides

variable {k : FieldKind} {step : Option Nat} {first last : Nat}

theorem strides?_none : strides? k none first last =
    some (List.range' first (last + 1 - first)) := by
  unfold strides?
  rw [if_pos (by simp)]
  exact congrArg some (everyNth_one _)

theorem isSome_strides? : (strides? k step first last).isSome = true ↔
    ∀ s ∈ step, 1 ≤ s ∧ s ≤ k.high := by
  unfold strides?
  split
  next h => exact iff_of_true rfl h
  next h => exact iff_of_false Bool.false_ne_true h

theorem mem_strides? {vs : List Nat} (h : strides? k step first last = some vs) (v : Nat) :
    v ∈ vs ↔ ∃ i, v = first + i * step.getD 1 ∧ v ≤ last := by
  unfold strides? at h
  split at h
  next hstep =>
    cases h
    have hpos : 1 ≤ step.getD 1 := by
      cases step with
      | none => exact Nat.le_refl 1
      | some s => exact (hstep s rfl).1
    rw [mem_everyNth_range' hpos]
    refine exists_congr fun i => ?_
    have hle : first ≤ first + i * step.getD 1 := Nat.le_add_right _ _
    omega
  next => cases h

/-! ## §2. Specifiers -/

/-- What a step goes through: a single number stands for all from it on. -/
def Specifier.run? (k : FieldKind) : Specifier → Option (List Nat)
  | point a => rangeValues? k a k.high
  | s => s.values? k

theorem values?_stepped (k : FieldKind) (s : Specifier) (n : Nat) : (Root.stepped s n).values? k =
    if 1 ≤ n ∧ n ≤ k.high then (s.run? k).map (everyNth n) else none := by
  cases s <;> rfl

theorem rangeValues?_of_le {a b : Nat} (h : k.low ≤ a ∧ a ≤ b ∧ b ≤ k.high) :
    rangeValues? k a b = some (List.range' a (b + 1 - a)) := if_pos h

/-- The numbers with a step are taken from what the step goes through. -/
theorem values?_of {s : Specifier} (plain : step = none → s.values? k =
      some (List.range' first (last + 1 - first)))
    (stepped : step ≠ none → s.run? k = some (List.range' first (last + 1 - first))) :
    (Root.of s step).values? k = strides? k step first last := by
  cases step with
  | none =>
    rw [strides?_none, ← plain rfl]
    rfl
  | some n =>
    rw [Root.of, values?_stepped, stepped nofun]
    unfold strides?
    simp only [Option.mem_some_iff, forall_eq', Option.getD_some, Option.map_some]

theorem values?_all : (Root.of .all step).values? k = strides? k step k.low k.high :=
  values?_of (fun _ => rfl) (fun _ => rfl)

theorem values?_range {a b : Nat} (h : k.low ≤ a ∧ a ≤ b ∧ b ≤ k.high) :
    (Root.of (.range a b) step).values? k = strides? k step a b :=
  values?_of (fun _ => rangeValues?_of_le h) (fun _ => rangeValues?_of_le h)

/-- **A single number under a step goes on to the upper bound.** -/
theorem values?_point {a : Nat} (h : k.low ≤ a ∧ a ≤ k.high) : (Root.of (.point a) step).values? k =
    strides? k step a (if step.isSome then k.high else a) := by
  refine values?_of (fun hstep => ?_) (fun hstep => ?_)
  · subst hstep
    exact rangeValues?_of_le ⟨h.1, Nat.le_refl a, h.2⟩
  · obtain ⟨n, rfl⟩ := Option.ne_none_iff_exists'.mp hstep
    exact rangeValues?_of_le ⟨h.1, h.2, Nat.le_refl _⟩

end Strides

/-! ## §3. Fields -/

section Fields

variable {k : FieldKind} {rs : List Root}

theorem exists_mapM_iff {α β : Type} {f : α → Option β} {xs : List α} :
    (∃ ys, xs.mapM f = some ys) ↔ ∀ x ∈ xs, (f x).isSome = true := by
  induction xs with
  | nil => exact iff_of_true ⟨[], rfl⟩ nofun
  | cons x xs ih =>
    rw [List.forall_mem_cons, ← ih, List.mapM_cons]
    simp only [Option.bind_eq_bind, Option.bind_eq_some_iff, Option.pure_def, Option.some.injEq,
      Option.isSome_iff_exists]
    constructor
    · rintro ⟨ys, y, hy, zs, hzs, -⟩
      exact ⟨⟨y, hy⟩, zs, hzs⟩
    · rintro ⟨⟨y, hy⟩, zs, hzs⟩
      exact ⟨_, y, hy, zs, hzs, rfl⟩

theorem mem_mapM_iff {α β : Type} {f : α → Option β} {xs : List α} {ys : List β}
    (h : xs.mapM f = some ys) (y : β) : y ∈ ys ↔ ∃ x ∈ xs, f x = some y := by
  induction xs generalizing ys with
  | nil =>
    cases h
    simp
  | cons x xs ih =>
    rw [List.mapM_cons] at h
    simp only [Option.bind_eq_bind, Option.bind_eq_some_iff, Option.pure_def,
      Option.some.injEq] at h
    obtain ⟨z, hz, zs, hzs, rfl⟩ := h
    rw [List.mem_cons, ih hzs]
    simp only [List.mem_cons, exists_eq_or_imp, hz, Option.some.injEq]
    rw [eq_comm]

/-- **A field has numbers if each of its roots does.** -/
theorem rootsValues?_eq_some_iff : (∃ vs, rootsValues? k rs = some vs) ↔
    ∀ r ∈ rs, (r.values? k).isSome = true := by
  rw [← exists_mapM_iff]
  unfold rootsValues?
  constructor
  · rintro ⟨vs, hvs⟩
    obtain ⟨sets, hsets, -⟩ := Option.map_eq_some_iff.mp hvs
    exact ⟨sets, hsets⟩
  · rintro ⟨sets, hsets⟩
    rw [hsets]
    exact ⟨_, rfl⟩

/-- **The numbers of a field are those of its roots**, within the bounds. -/
theorem mem_of_rootsValues? {vs : List Nat} (h : rootsValues? k rs = some vs) (v : Nat) :
    v ∈ vs ↔ (k.low ≤ v ∧ v ≤ k.high) ∧ ∃ r ∈ rs, ∃ set, r.values? k = some set ∧ v ∈ set := by
  unfold rootsValues? at h
  obtain ⟨sets, hsets, rfl⟩ := Option.map_eq_some_iff.mp h
  rw [List.mem_filter, mem_all_iff, List.any_eq_true]
  refine and_congr_right fun _ => ?_
  constructor
  · rintro ⟨set, hset, hv⟩
    obtain ⟨r, hr, hvalues⟩ := (mem_mapM_iff hsets set).mp hset
    exact ⟨r, hr, set, hvalues, List.contains_iff_mem.mp hv⟩
  · rintro ⟨r, hr, set, hvalues, hv⟩
    exact ⟨set, (mem_mapM_iff hsets set).mpr ⟨r, hr, hvalues⟩, List.contains_iff_mem.mpr hv⟩

end Fields

end CronSupervisor.Cron
