/-
  CronSupervisor.Proofs.Cron.Week — the items of weekday words.

  The items of a weekday word are stars, days and ranges in the numbers 0 to 7, each with a step or
  without one.  `Means` says which days of the week an item stands for, 0 and 7 being the same
  Sunday.  The renumbered text of an item is read as `roots`, whose numbers are worked out here step
  by step.  They are the days that the item stands for, in every form of an item but one: the second
  Sunday alone under a step becomes a single number, and a step takes a single number to the end of
  the week.

  Main statements:
    * `lists_renumberItem_iff` — the roots of a renumbered item.
    * `rooted` — the days that the roots of an item have.
-/
import CronSupervisor.Proofs.Cron.Layout
import CronSupervisor.Proofs.Cron.Values

namespace CronSupervisor.Cron

open Calendar Text

/-! ## §1. Items and what they mean -/

/-- A decimal numeral, which may begin with zeros. -/
structure Numeral where
  digits : List Char
  value : Nat
  reads : numeral? digits = some value

/-- What an item lists before its step. -/
inductive WeekdayBase where
  | every
  | day (n : Numeral) (le_seven : n.value ≤ 7)
  | range (first last : Numeral) (ordered : first.value ≤ last.value) (le_seven : last.value ≤ 7)

/-- An item of a weekday word.  A day alone takes a step unless it is the second Sunday. -/
structure WeekdayItem where
  base : WeekdayBase
  step : Option Numeral
  single : ∀ n h, base = .day n h → step ≠ none → n.value ≤ 6

def WeekdayBase.text : WeekdayBase → List Char
  | every => ['*']
  | day n _ => n.digits
  | range a b _ _ => a.digits ++ '-' :: b.digits

/-- The text of a step with its slash. -/
def stepText : Option Numeral → List Char
  | none => []
  | some s => '/' :: s.digits

def WeekdayItem.text (i : WeekdayItem) : List Char := i.base.text ++ stepText i.step

/-- The word that lists the items. -/
def weekdayWord (items : List WeekdayItem) : List Char := joinWith ',' (items.map WeekdayItem.text)

namespace WeekdayItem

/-- The number of the step. -/
def step? (i : WeekdayItem) : Option Nat := i.step.map Numeral.value

def stride (i : WeekdayItem) : Nat := i.step?.getD 1

/-- The day that the item begins with. -/
def first (i : WeekdayItem) : Nat :=
  match i.base with
  | .every => 0
  | .day n _ => n.value
  | .range a _ _ _ => a.value

/-- The day that the item does not go beyond. -/
def last (i : WeekdayItem) : Nat :=
  match i.base with
  | .every => 6
  | .day n _ => if i.step = none then n.value else 6
  | .range _ b _ _ => b.value

/-- The item stands for the day `d` of the week, from 0 for Sunday. -/
def Means (i : WeekdayItem) (d : Nat) : Prop :=
  ∃ k, i.first + k * i.stride ≤ i.last ∧ d = (i.first + k * i.stride) % 7

/-- The second Sunday alone, under a step. -/
def Overruns (i : WeekdayItem) : Prop := i.first = 7 ∧ i.step ≠ none

/-- The item is read as the day `d` of the week. -/
def Reads (i : WeekdayItem) (d : Nat) : Prop :=
  (¬ i.Overruns ∧ i.Means d) ∨ (i.Overruns ∧ ∃ k, k * i.stride ≤ 6 ∧ d = k * i.stride)

/-- A stepped range from a day after the first Sunday on to the second one. -/
def EndsInSunday (i : WeekdayItem) : Prop :=
  i.step ≠ none ∧ 1 ≤ i.first ∧ i.first ≤ 6 ∧ i.last = 7

/-- The steps that there are. -/
def StepInBounds (i : WeekdayItem) : Prop := ∀ s ∈ i.step?, 1 ≤ s ∧ s ≤ 7

theorem means_lt {i : WeekdayItem} {d : Nat} (h : i.Means d) : d < 7 := by
  obtain ⟨k, -, rfl⟩ := h
  exact Nat.mod_lt _ (by decide)

theorem reads_lt {i : WeekdayItem} {d : Nat} (h : i.Reads d) : d < 7 := by
  rcases h with ⟨-, h⟩ | ⟨-, k, hk, rfl⟩
  · exact means_lt h
  · omega

end WeekdayItem

/-! ## §2. Texts of items -/

namespace Numeral

variable (n : Numeral)

theorem isWhole : IsWhole n.digits :=
  isClass_digit.isWhole (numeral?_eq_some_iff.mp n.reads).2.1

theorem ne_nil : n.digits ≠ [] := (numeral?_eq_some_iff.mp n.reads).1

theorem not_mem {c : Char} (hc : isDigit c = false) : c ∉ n.digits := not_mem_numeral n.reads hc

end Numeral

namespace WeekdayBase

variable (b : WeekdayBase)

theorem not_mem {c : Char} (hc : isDigit c = false) (hstar : c ≠ '*') (hdash : c ≠ '-') :
    c ∉ b.text := by
  cases b with
  | every => simpa [text] using hstar
  | day n => exact n.not_mem hc
  | range m n =>
    simp only [text, List.mem_append, List.mem_cons, not_or]
    exact ⟨m.not_mem hc, hdash, n.not_mem hc⟩

theorem isWhole : IsWhole b.text ∧ b.text ≠ [] := by
  cases b with
  | every => exact ⟨by decide, by decide⟩
  | day n => exact ⟨n.isWhole, n.ne_nil⟩
  | range m n =>
    exact ⟨m.isWhole.join n.isWhole m.ne_nil n.ne_nil (by decide),
      List.append_ne_nil_of_left_ne_nil m.ne_nil _⟩

end WeekdayBase

theorem isStep_stepText (step : Option Numeral) : IsStep (stepText step) := by
  cases step with
  | none => exact .inl rfl
  | some s => exact .inr ⟨s.digits, rfl⟩

theorem comma_not_mem_stepText (step : Option Numeral) : ',' ∉ stepText step := by
  cases step with
  | none => exact List.not_mem_nil
  | some s =>
    simp only [stepText, List.mem_cons, not_or]
    exact ⟨by decide, s.not_mem (by decide)⟩

namespace WeekdayItem

variable (i : WeekdayItem)

theorem comma_not_mem : ',' ∉ i.text := by
  simp only [text, List.mem_append, not_or]
  exact ⟨i.base.not_mem (by decide) (by decide) (by decide), comma_not_mem_stepText i.step⟩

theorem isWhole : IsWhole i.text ∧ i.text ≠ [] := by
  obtain ⟨hwhole, hne⟩ := i.base.isWhole
  unfold text
  cases i.step with
  | none =>
    rw [stepText, List.append_nil]
    exact ⟨hwhole, hne⟩
  | some s =>
    exact ⟨hwhole.join s.isWhole hne s.ne_nil (by decide), List.append_ne_nil_of_left_ne_nil hne _⟩

end WeekdayItem

/-- Words of items hold together. -/
theorem isWhole_weekdayWord {items : List WeekdayItem} (hne : items ≠ []) :
    IsWhole (weekdayWord items) := by
  refine (isWhole_joinWith (mt List.map_eq_nil_iff.mp hne) fun p hp => ?_).1
  obtain ⟨i, -, rfl⟩ := List.mem_map.mp hp
  exact i.isWhole

theorem splitOn_weekdayWord {items : List WeekdayItem} (hne : items ≠ []) :
    splitOn ',' (weekdayWord items) = items.map WeekdayItem.text := by
  refine splitOn_joinWith (mt List.map_eq_nil_iff.mp hne) fun p hp => ?_
  obtain ⟨i, -, rfl⟩ := List.mem_map.mp hp
  exact i.comma_not_mem

/-! ## §3. Renumbered items -/

theorem splitOnce_of_not_mem {sep : Char} {cs : List Char} (h : sep ∉ cs) :
    splitOnce sep cs = none := by
  cases hs : splitOnce sep cs with
  | none => rfl
  | some p =>
    refine absurd ?_ h
    rw [splitOnce_eq hs]
    exact List.mem_append_right _ List.mem_cons_self

theorem Numeral.weekdayNumber_eq (n : Numeral) (h : n.value ≤ 7) :
    weekdayNumber n.digits = .ok (some n.value) := by
  unfold weekdayNumber
  rw [n.reads]
  exact if_pos h

namespace WeekdayItem

variable (i : WeekdayItem)

/-- The base of an item and its step are told apart by the slash. -/
theorem splitOnce_text :
    splitOnce '/' i.text = i.step.map fun s => (i.base.text, s.digits) := by
  have hslash : '/' ∉ i.base.text := i.base.not_mem (by decide) (by decide) (by decide)
  unfold text
  cases i.step with
  | none => rw [stepText, List.append_nil, splitOnce_of_not_mem hslash, Option.map_none]
  | some s => rw [stepText, splitOnce_append hslash, Option.map_some]

theorem renumberItem_text : renumberItem i.text = match i.base with
    | .every => .ok i.text
    | .day n _ => .ok (digitChar (n.value % 7 + 1) :: stepText i.step)
    | .range a b _ _ => renumberRange i.text (stepText i.step) a.value b.value := by
  unfold renumberItem
  rw [splitOnce_text]
  split
  rename_i base step hparts
  have hcut : (base, step) = (i.base.text, stepText i.step) := by
    rw [← hparts]
    unfold text
    cases i.step with
    | none => simp only [stepText, List.append_nil, Option.map_none]
    | some s => rfl
  obtain ⟨rfl, rfl⟩ := Prod.mk.inj hcut
  cases i.base with
  | every => rfl
  | day n h =>
    simp only [WeekdayBase.text, splitOnce_of_not_mem (n.not_mem (c := '-') (by decide)),
      n.weekdayNumber_eq h]
  | range a b hab hb =>
    simp only [WeekdayBase.text, splitOnce_append (a.not_mem (c := '-') (by decide)),
      a.weekdayNumber_eq (Nat.le_trans hab hb), b.weekdayNumber_eq hb]

/-- **The only items that are refused by their range** are stepped and end in the second Sunday. -/
theorem exists_renumberItem_iff :
    (∃ out, renumberItem i.text = .ok out) ↔ ¬ i.EndsInSunday := by
  rw [renumberItem_text]
  unfold EndsInSunday first last
  cases hbase : i.base with
  | every => exact iff_of_true ⟨_, rfl⟩ (by simp)
  | day n h =>
    refine iff_of_true ⟨_, rfl⟩ fun hc => ?_
    obtain ⟨hstep, -, -, hlast⟩ := hc
    simp only [if_neg hstep] at hlast
    omega
  | range a b hab hb =>
    have hstep : stepText i.step ≠ [] ↔ i.step ≠ none := by
      cases i.step <;> simp [stepText]
    simp only
    constructor
    · rintro ⟨out, hout⟩ ⟨hne, hlow, hhigh, hlast⟩
      have hstep := hstep.mpr hne
      rcases renumberRange_cases hout with h | h | h | h | h
      · omega
      · omega
      · exact hstep h.2.2.1
      · exact hstep h.2.2.2.2.1
      · exact h.1 hlast
    · intro hnot
      unfold renumberRange
      split
      next hb7 =>
        split
        next => exact ⟨_, rfl⟩
        next ha0 =>
          split
          next => exact ⟨_, rfl⟩
          next ha7 =>
            split
            next hne => exact absurd ⟨hstep.mp hne, by omega, by omega, hb7⟩ hnot
            next => split <;> exact ⟨_, rfl⟩
      next => exact ⟨_, rfl⟩

end WeekdayItem

/-! ## §4. Roots of renumbered items -/

/-- The roots that a range is renumbered to. -/
def rangeRoots (a b : Nat) (step : Option Nat) : List Root :=
  if b = 7 then
    if a = 0 then [.of .all step]
    else if a = 7 then [.of (.point 1) step]
    else if a = 6 then [.plain (.point 7), .plain (.point 1)]
    else [.plain (.range (a + 1) 7), .plain (.point 1)]
  else [.of (.range (a + 1) (b + 1)) step]

/-- The roots that an item is renumbered to. -/
def WeekdayItem.roots (i : WeekdayItem) : List Root :=
  match i.base with
  | .every => [.of .all i.step?]
  | .day n _ => [.of (.point (n.value % 7 + 1)) i.step?]
  | .range a b _ _ => rangeRoots a.value b.value i.step?

/-- The step is a number that can be written in a field. -/
def StepFits (step : Option Numeral) : Prop := ∀ s ∈ step, s.value ≤ maxOrdinal

theorem le_maxOrdinal_of_ordinal? {cs r : List Char} {n : Nat} (h : ordinal? cs = some (n, r)) :
    n ≤ maxOrdinal := by
  unfold ordinal? at h
  split at h
  next =>
    split at h
    next hle =>
      cases h
      exact hle
    next => cases h
  next => cases h

theorem readsStep_stepText_iff {step : Option Numeral} {n : Option Nat} :
    ReadsStep (stepText step) n ↔ StepFits step ∧ n = step.map Numeral.value := by
  unfold StepFits
  cases step with
  | none =>
    cases n with
    | none => simp [stepText, ReadsStep]
    | some n => simp [stepText, ReadsStep]
  | some s =>
    cases n with
    | none => simp [stepText, ReadsStep]
    | some n =>
      simp only [stepText, ReadsStep, List.cons.injEq, true_and, exists_eq_left',
        Option.mem_some_iff, forall_eq', Option.map_some, Option.some.injEq]
      constructor
      · intro h
        have compact : Compact s.digits := fun c hc =>
          isFieldBlank_of_isDigit ((numeral?_eq_some_iff.mp s.reads).2.1 c hc)
        obtain ⟨ds, hds, hn⟩ := numeral_of_ordinal? compact h
        rw [List.append_nil] at hds
        subst hds
        have heq : n = s.value := Option.some.inj (hn.symm.trans s.reads)
        exact ⟨heq ▸ le_maxOrdinal_of_ordinal? h, heq⟩
      · rintro ⟨hle, rfl⟩
        have hread := ordinal?_numeral (r := []) s.reads hle (by simp)
        rwa [List.append_nil] at hread

/-- A text of one specifier and a step is one root. -/
theorem lists_stepped_iff {k : FieldKind} {out : List Char} {s : Specifier} {step : Option Numeral}
    (hs : specifier? k out = some (s, stepText step)) (hcomma : ',' ∉ out) {ys : List Root} :
    Lists k out ys ↔ StepFits step ∧ ys = [.of s (step.map Numeral.value)] := by
  constructor
  · intro h
    obtain ⟨n, hn, rfl⟩ := single_of_specifier? hs hcomma h
    obtain ⟨hfits, rfl⟩ := readsStep_stepText_iff.mp hn
    exact ⟨hfits, rfl⟩
  · rintro ⟨hfits, rfl⟩
    exact .one ((root?_of_specifier? hs).mpr ⟨_, readsStep_stepText_iff.mpr ⟨hfits, rfl⟩, rfl⟩)

/-- A text of two specifiers is two roots. -/
theorem lists_pair_iff {k : FieldKind} {p q : List Char} {s t : Specifier}
    (hs : specifier? k p = some (s, [])) (ht : specifier? k q = some (t, [])) (hp : ',' ∉ p)
    (hq : ',' ∉ q) {ys : List Root} :
    Lists k (p ++ ',' :: q) ys ↔ ys = [.plain s, .plain t] := by
  refine ⟨pair_of_specifier? hs ht hp hq, ?_⟩
  rintro rfl
  have hroot : ∀ {cs : List Char} {s : Specifier}, specifier? k cs = some (s, []) →
      root? k cs = some (.plain s, []) := fun h => (root?_of_specifier? h).mpr ⟨none, rfl, rfl⟩
  exact (Lists.one (hroot hs)).append (.one (hroot ht))

theorem lists_renumberRange_iff {item out : List Char} {step : Option Numeral} {a b : Nat}
    (ha : a ≤ 7) (hb : b ≤ 7) (h : renumberRange item (stepText step) a b = .ok out)
    {ys : List Root} :
    Lists .dayOfWeek out ys ↔ StepFits step ∧ ys = rangeRoots a b (step.map Numeral.value) := by
  have hstep := isStep_stepText step
  have hcomma := comma_not_mem_stepText step
  have hseven := numeral?_digitChar (n := 7) (by decide)
  have hone := numeral?_digitChar (n := 1) (by decide)
  -- where the Sunday is put apart, there is no step
  have hfits : stepText step = [] → StepFits step := by
    cases step with
    | none => exact fun _ => nofun
    | some s => exact nofun
  rcases renumberRange_cases h with ⟨rfl, rfl, rfl⟩ | ⟨rfl, rfl, rfl⟩ | ⟨rfl, rfl, hnil, rfl⟩ |
    ⟨h0, h6, h7, rfl, hnil, rfl⟩ | ⟨h7, rfl⟩
  · exact lists_stepped_iff (s := .all) rfl (by simp [hcomma])
  · exact lists_stepped_iff (specifier?_point hone (by decide) hstep)
      (by simp [comma_ne_digitChar, hcomma])
  · rw [and_iff_right (hfits hnil)]
    exact lists_pair_iff (p := ['7']) (specifier?_point hseven (by decide) (.inl rfl))
      (specifier?_point hone (by decide) (.inl rfl)) (by decide) (by decide)
  · have ha' := numeral?_digitChar (n := a + 1) (by omega)
    rw [and_iff_right (hfits hnil), rangeRoots, if_pos rfl, if_neg h0, if_neg h7, if_neg h6]
    exact lists_pair_iff (p := [digitChar (a + 1), '-', '7'])
      (specifier?_range ha' hseven (le_maxOrdinal (by omega)) (by decide) (.inl rfl))
      (specifier?_point hone (by decide) (.inl rfl)) (by simp [comma_ne_digitChar]) (by decide)
  · have ha' := numeral?_digitChar (n := a + 1) (by omega)
    have hb' := numeral?_digitChar (n := b + 1) (by omega)
    rw [rangeRoots, if_neg h7]
    exact lists_stepped_iff
      (specifier?_range ha' hb' (le_maxOrdinal (by omega)) (le_maxOrdinal (by omega)) hstep)
      (by simp [comma_ne_digitChar, hcomma])

/-- **The roots of a renumbered item.** -/
theorem lists_renumberItem_iff {i : WeekdayItem} {out : List Char}
    (h : renumberItem i.text = .ok out) {ys : List Root} :
    Lists .dayOfWeek out ys ↔ StepFits i.step ∧ ys = i.roots := by
  rw [WeekdayItem.renumberItem_text] at h
  have hstep := isStep_stepText i.step
  have hcomma := comma_not_mem_stepText i.step
  unfold WeekdayItem.roots WeekdayItem.step?
  cases hbase : i.base with
  | every =>
    rw [hbase] at h
    cases h
    refine lists_stepped_iff ?_ i.comma_not_mem
    unfold WeekdayItem.text
    rw [hbase]
    rfl
  | day n hn =>
    rw [hbase] at h
    cases h
    have hday : n.value % 7 + 1 ≤ 8 := by omega
    exact lists_stepped_iff
      (specifier?_point (numeral?_digitChar hday) (le_maxOrdinal hday) hstep)
      (by simp [comma_ne_digitChar, hcomma])
  | range a b hab hb =>
    rw [hbase] at h
    exact lists_renumberRange_iff (Nat.le_trans hab hb) hb h

/-! ## §5. Days of roots -/

/-- The root has the weekday, from 1 for Sunday. -/
def Root.Has (x : Root) (v : Nat) : Prop := ∃ vs, x.values? .dayOfWeek = some vs ∧ v ∈ vs

section Strides

variable {x : Root} {step : Option Nat} {a b : Nat}
  (hx : x.values? .dayOfWeek = strides? .dayOfWeek step a b)

include hx in
theorem Root.isSome_values?_iff : (x.values? .dayOfWeek).isSome = true ↔
    ∀ s ∈ step, 1 ≤ s ∧ s ≤ 7 := by
  rw [hx]
  exact isSome_strides?

include hx in
theorem Root.has_iff (hstep : ∀ s ∈ step, 1 ≤ s ∧ s ≤ 7) (v : Nat) :
    x.Has v ↔ ∃ k, v = a + k * step.getD 1 ∧ v ≤ b := by
  obtain ⟨vs, hvs⟩ := Option.isSome_iff_exists.mp ((isSome_values?_iff hx).mpr hstep)
  rw [← mem_strides? (hx.symm.trans hvs)]
  constructor
  · rintro ⟨ws, hws, hv⟩
    rwa [Option.some.inj (hvs.symm.trans hws)]
  · exact fun hv => ⟨vs, hvs, hv⟩

end Strides

namespace WeekdayItem

variable {i : WeekdayItem}

/-- The roots of an item have numbers if its step is in bounds, and these are the days that it is
read as. -/
structure Rooted (i : WeekdayItem) : Prop where
  isSome_iff : (∀ r ∈ i.roots, (r.values? .dayOfWeek).isSome = true) ↔ i.StepInBounds
  has_iff : i.StepInBounds → ∀ d, (∃ r ∈ i.roots, r.Has (d + 1)) ↔ i.Reads d

theorem rooted_single {x : Root} {a b : Nat} (roots : i.roots = [x])
    (hx : x.values? .dayOfWeek = strides? .dayOfWeek i.step? a b)
    (days : ∀ d, (∃ k, d + 1 = a + k * i.stride ∧ d + 1 ≤ b) ↔ i.Reads d) : i.Rooted where
  isSome_iff := by
    rw [roots, List.forall_mem_singleton]
    exact Root.isSome_values?_iff hx
  has_iff hstep d := by
    rw [roots, ← days]
    simp only [List.mem_singleton, exists_eq_left]
    exact Root.has_iff hx hstep (d + 1)

theorem rooted_pair {x y : Root} {a b : Nat} (step : i.step = none) (roots : i.roots = [x, y])
    (hx : x.values? .dayOfWeek = strides? .dayOfWeek none a b)
    (hy : y.values? .dayOfWeek = strides? .dayOfWeek none 1 1)
    (days : ∀ d, (a ≤ d + 1 ∧ d + 1 ≤ b) ∨ d = 0 ↔ i.Reads d) : i.Rooted where
  isSome_iff := by
    have hbounds : i.StepInBounds := by
      unfold StepInBounds step?
      rw [step]
      exact nofun
    refine iff_of_true ?_ hbounds
    rw [roots]
    simp only [List.mem_cons, List.not_mem_nil, or_false, forall_eq_or_imp, forall_eq]
    exact ⟨(Root.isSome_values?_iff hx).mpr nofun, (Root.isSome_values?_iff hy).mpr nofun⟩
  has_iff _ d := by
    rw [roots, ← days]
    simp only [List.mem_cons, List.not_mem_nil, or_false, exists_eq_or_imp, exists_eq_left,
      Root.has_iff hx nofun, Root.has_iff hy nofun, Option.getD_none, Nat.mul_one]
    refine or_congr ⟨?_, ?_⟩ ⟨?_, ?_⟩
    · rintro ⟨k, hk, hle⟩
      omega
    · intro h
      exact ⟨d + 1 - a, by omega, h.2⟩
    · rintro ⟨k, hk, hle⟩
      omega
    · rintro rfl
      exact ⟨0, rfl, Nat.le_refl 1⟩

theorem reads_iff_means (h : ¬ i.Overruns) (d : Nat) : i.Reads d ↔ i.Means d := by
  unfold Reads
  rw [and_iff_right h, or_iff_left fun hc => h hc.1]

theorem last_le : i.last ≤ 7 := by
  unfold last
  cases i.base with
  | every => exact Nat.le_succ 6
  | day n h =>
    simp only
    split
    · exact h
    · exact Nat.le_succ 6
  | range a b hab hb => exact hb

/-- The second Sunday under a step is read as a Sunday too. -/
theorem reads_of_means {d : Nat} (h : i.Means d) : i.Reads d := by
  by_cases hover : i.Overruns
  · obtain ⟨k, hk, rfl⟩ := h
    have hfirst := hover.1
    have hlast := i.last_le
    refine .inr ⟨hover, 0, by omega, ?_⟩
    have hk : k * i.stride = 0 := by omega
    rw [hfirst, hk, Nat.zero_mul]
  · exact (i.reads_iff_means hover d).mpr h

theorem not_overruns_of_lt (h : i.first < 7) : ¬ i.Overruns := fun hc => Nat.ne_of_lt h hc.1

/-- In an item that ends before the second Sunday no day comes twice. -/
theorem reads_iff_of_last (hfirst : i.first ≤ i.last) (hlast : i.last ≤ 6) (d : Nat) :
    i.Reads d ↔ ∃ k, d = i.first + k * i.stride ∧ d ≤ i.last := by
  rw [reads_iff_means (not_overruns_of_lt (by omega))]
  refine exists_congr fun k => ?_
  omega

theorem isSome_step? : i.step?.isSome = true ↔ i.step ≠ none := by
  unfold step?
  cases i.step <;> simp

theorem stride_of_none (h : i.step = none) : i.stride = 1 := by
  unfold stride step?
  rw [h]
  rfl

/-- The second Sunday without a step is the Sunday. -/
theorem reads_iff_of_seven (step : i.step = none) (hfirst : i.first = 7) (hlast : i.last = 7)
    (d : Nat) : i.Reads d ↔ d = 0 := by
  rw [reads_iff_means fun h => h.2 step]
  unfold Means
  rw [hfirst, hlast, stride_of_none step]
  constructor
  · rintro ⟨k, hk, rfl⟩
    omega
  · rintro rfl
    exact ⟨0, by decide, rfl⟩

theorem rooted_every (hbase : i.base = .every) : i.Rooted := by
  have hfirst : i.first = 0 := by
    unfold first
    rw [hbase]
  have hlast : i.last = 6 := by
    unfold last
    rw [hbase]
  have hroots : i.roots = [.of .all i.step?] := by
    unfold roots
    rw [hbase]
  refine rooted_single hroots values?_all fun d => ?_
  rw [reads_iff_of_last (by omega) (by omega), hfirst, hlast]
  refine exists_congr fun k => ?_
  show d + 1 = 1 + _ ∧ d + 1 ≤ 7 ↔ _
  omega

theorem rooted_day {n : Numeral} {h : n.value ≤ 7} (hbase : i.base = .day n h) : i.Rooted := by
  have hfirst : i.first = n.value := by
    unfold first
    rw [hbase]
  have hlast : i.last = if i.step = none then n.value else 6 := by
    unfold last
    rw [hbase]
  have hroots : i.roots = [.of (.point (n.value % 7 + 1)) i.step?] := by
    unfold roots
    rw [hbase]
  have hlow : FieldKind.dayOfWeek.low ≤ n.value % 7 + 1 ∧
      n.value % 7 + 1 ≤ FieldKind.dayOfWeek.high := by
    show 1 ≤ n.value % 7 + 1 ∧ n.value % 7 + 1 ≤ 7
    omega
  refine rooted_single hroots (values?_point hlow) fun d => ?_
  by_cases hnone : i.step = none
  · rw [if_neg (by rw [isSome_step?]; simp [hnone])]
    rw [if_pos hnone] at hlast
    by_cases hseven : n.value = 7
    · rw [reads_iff_of_seven hnone (by omega) (by omega), hseven]
      constructor
      · rintro ⟨k, hk, hle⟩
        omega
      · rintro rfl
        exact ⟨0, by omega, by omega⟩
    · rw [reads_iff_of_last (by omega) (by omega), hfirst, hlast]
      refine exists_congr fun k => ?_
      omega
  · -- a single day goes on to the end of the week
    rw [if_pos (isSome_step?.mpr hnone)]
    rw [if_neg hnone] at hlast
    have hsix := i.single n h hbase hnone
    rw [reads_iff_of_last (by omega) (by omega), hfirst, hlast]
    refine exists_congr fun k => ?_
    show d + 1 = _ ∧ d + 1 ≤ 7 ↔ _
    omega

section Range

variable {a b : Nat} (hfirst : i.first = a) (hlast : i.last = b)
  (hroots : i.roots = rangeRoots a b i.step?)

include hfirst hlast hroots

/-- A range that ends before the second Sunday. -/
theorem rooted_of_lt (hab : a ≤ b) (hb : b < 7) : i.Rooted := by
  rw [rangeRoots, if_neg (by omega)] at hroots
  refine rooted_single hroots (values?_range ⟨Nat.le_add_left 1 a, by omega, hb⟩) fun d => ?_
  rw [reads_iff_of_last (by omega) (by omega), hfirst, hlast]
  refine exists_congr fun k => ?_
  omega

/-- The whole week: where the second Sunday is met, the first one is, too. -/
theorem rooted_of_week (ha : a = 0) (hb : b = 7) : i.Rooted := by
  rw [rangeRoots, if_pos hb, if_pos ha] at hroots
  refine rooted_single hroots values?_all fun d => ?_
  rw [reads_iff_means (not_overruns_of_lt (by omega))]
  unfold Means
  rw [hfirst, hlast, ha, hb]
  show (∃ k, d + 1 = 1 + k * i.stride ∧ d + 1 ≤ 7) ↔ _
  constructor
  · rintro ⟨k, hk, hle⟩
    exact ⟨k, by omega, by omega⟩
  · rintro ⟨k, hk, rfl⟩
    by_cases hmet : k * i.stride = 7
    · exact ⟨0, by omega, by omega⟩
    · exact ⟨k, by omega, by omega⟩

/-- The second Sunday alone, which is a single number in front of a step. -/
theorem rooted_of_seven (ha : a = 7) (hb : b = 7) : i.Rooted := by
  rw [rangeRoots, if_pos hb, if_neg (by omega), if_pos ha] at hroots
  refine rooted_single hroots (values?_point (by decide)) fun d => ?_
  by_cases hstep : i.step = none
  · rw [reads_iff_of_seven hstep (by omega) (by omega), if_neg (by rw [isSome_step?]; simp [hstep])]
    constructor
    · rintro ⟨k, hk, hle⟩
      omega
    · rintro rfl
      exact ⟨0, by omega, Nat.le_refl 1⟩
  · have hover : i.Overruns := ⟨by omega, hstep⟩
    rw [if_pos (isSome_step?.mpr hstep)]
    unfold Reads
    rw [or_iff_right fun h => h.1 hover, and_iff_right hover]
    refine exists_congr fun k => ?_
    show d + 1 = 1 + k * i.stride ∧ d + 1 ≤ 7 ↔ _
    omega

/-- A range to the second Sunday, which is put apart. -/
theorem rooted_of_sunday (ha : 1 ≤ a ∧ a ≤ 6) (hb : b = 7) (step : i.step = none) : i.Rooted := by
  rw [rangeRoots, if_pos hb, if_neg (by omega), if_neg (by omega)] at hroots
  have hdays : ∀ d, (a + 1 ≤ d + 1 ∧ d + 1 ≤ 7) ∨ d = 0 ↔ i.Reads d := by
    intro d
    rw [reads_iff_means fun h => h.2 step]
    unfold Means
    rw [hfirst, hlast, stride_of_none step]
    constructor
    · rintro (h | rfl)
      · exact ⟨d - a, by omega, by omega⟩
      · exact ⟨7 - a, by omega, by omega⟩
    · rintro ⟨k, hk, rfl⟩
      omega
  have hone : (Root.plain (.point 1)).values? .dayOfWeek = strides? .dayOfWeek none 1 1 := rfl
  by_cases hsix : a = 6
  · subst hsix
    exact rooted_pair step hroots (a := 7) (b := 7) rfl hone hdays
  · rw [if_neg hsix] at hroots
    refine rooted_pair step hroots ?_ hone hdays
    exact @values?_range .dayOfWeek none _ _ ⟨Nat.le_add_left 1 a, by omega, Nat.le_refl 7⟩

end Range

theorem rooted_range {m n : Numeral} {hmn : m.value ≤ n.value} {hn : n.value ≤ 7}
    (hbase : i.base = .range m n hmn hn) (supported : ¬ i.EndsInSunday) : i.Rooted := by
  have hfirst : i.first = m.value := by
    unfold first
    rw [hbase]
  have hlast : i.last = n.value := by
    unfold last
    rw [hbase]
  have hroots : i.roots = rangeRoots m.value n.value i.step? := by
    unfold roots
    rw [hbase]
  by_cases hlt : n.value < 7
  · exact rooted_of_lt hfirst hlast hroots hmn hlt
  have hseven : n.value = 7 := by omega
  by_cases hzero : m.value = 0
  · exact rooted_of_week hfirst hlast hroots hzero hseven
  by_cases hm : m.value = 7
  · exact rooted_of_seven hfirst hlast hroots hm hseven
  refine rooted_of_sunday hfirst hlast hroots (by omega) hseven ?_
  by_contra hne
  exact supported ⟨hne, by omega, by omega, by omega⟩

/-- **The days that the roots of an item have.** -/
theorem rooted (supported : ¬ i.EndsInSunday) : i.Rooted := by
  cases hbase : i.base with
  | every => exact rooted_every hbase
  | day n h => exact rooted_day hbase
  | range m n hmn hn => exact rooted_range hbase supported

end WeekdayItem

end CronSupervisor.Cron
