/-
  CronSupervisor.Proofs.Cron.Weekday — weekdays as they are written and as they are read.

  The weekday word is written in the numbers 0 to 7, of which 0 and 7 are Sunday, and is read in the
  numbers 1 to 7 after its text was renumbered.  An item that passes through unchanged although it
  has a numeral in front would be read in the wrong numbers.  But such an item is never a complete
  root: where the item is one, each numeral `d` has become `d % 7 + 1`.

  Main statements:
    * `renumberItem_cases`, `renumberRange_cases` — what renumbering does to an item.
    * `renumbers_of_renumberItem` — an item that is read in the end is renumbered throughout.
-/
import CronSupervisor.Cron.Weekday
import CronSupervisor.Proofs.Cron.Spelling
import CronSupervisor.Proofs.Text.Split

namespace CronSupervisor.Cron

open Text

/-! ## §1. Two numberings -/

/-- Weekdays from 0 for Sunday to 7, which is Sunday again. -/
def FieldKind.writtenWeekday : FieldKind where
  low := 0
  high := 7
  names := dayOfWeek.names.map fun p => (p.1, p.2 - 1)
  allowsQuestionMark := true

/-- The step of a root, if it has one. -/
def Root.step? : Root → Option Nat
  | plain _ => none
  | stepped _ step => some step
  | name _ => none

/-- The numbers of a root without its step. -/
def Root.base? (k : FieldKind) : Root → Option (List Nat)
  | plain s => s.values? k
  | stepped s _ => s.values? k
  | name n => (k.named? n).bind fun n => rangeValues? k n n

/-- The root has the number, but for its step. -/
def Root.Covers (k : FieldKind) (x : Root) (v : Nat) : Prop := ∃ vs, x.base? k = some vs ∧ v ∈ vs

/-- The roots `ys`, read from 1 for Sunday, stand for the root `x` as it is written: they have its
step, and each day `d` of it is the weekday `d % 7 + 1`. -/
structure Renumbers (x : Root) (ys : List Root) : Prop where
  step : ∀ y ∈ ys, y.step? = x.step?
  covers : ∀ v, (∃ y ∈ ys, y.Covers .dayOfWeek v) ↔ ∃ d, x.Covers .writtenWeekday d ∧ v = d % 7 + 1

theorem mem_rangeValues?_iff {k : FieldKind} {a b v : Nat} :
    (∃ vs, rangeValues? k a b = some vs ∧ v ∈ vs) ↔ k.low ≤ a ∧ a ≤ v ∧ v ≤ b ∧ b ≤ k.high := by
  unfold rangeValues?
  split
  next h =>
    simp only [Option.some.injEq, exists_eq_left', List.mem_range'_1]
    omega
  next h =>
    constructor
    · intro hv
      obtain ⟨vs, hvs, -⟩ := hv
      cases hvs
    · intro hv
      omega

@[simp]
theorem Root.step?_of (s : Specifier) (n : Option Nat) : (Root.of s n).step? = n := by
  cases n <;> rfl

theorem Root.covers_of {k : FieldKind} {s : Specifier} {n : Option Nat} {v : Nat} :
    (Root.of s n).Covers k v ↔ ∃ vs, s.values? k = some vs ∧ v ∈ vs := by
  cases n <;> rfl

section Covers

variable {k : FieldKind} {n : Option Nat} {v : Nat}

theorem Root.covers_all : (Root.of .all n).Covers k v ↔ k.low ≤ v ∧ v ≤ k.high := by
  rw [covers_of, ← mem_all_iff]
  exact ⟨fun ⟨vs, hvs, hv⟩ => Option.some.inj hvs ▸ hv, fun hv => ⟨_, rfl, hv⟩⟩

theorem Root.covers_point {a : Nat} :
    (Root.of (.point a) n).Covers k v ↔ k.low ≤ a ∧ a ≤ v ∧ v ≤ a ∧ a ≤ k.high :=
  covers_of.trans mem_rangeValues?_iff

theorem Root.covers_range {a b : Nat} :
    (Root.of (.range a b) n).Covers k v ↔ k.low ≤ a ∧ a ≤ v ∧ v ≤ b ∧ b ≤ k.high :=
  covers_of.trans mem_rangeValues?_iff

end Covers

/-- A single root in place of a single root. -/
theorem renumbers_singleton {x y : Root} (step : y.step? = x.step?)
    (covers : ∀ v, y.Covers .dayOfWeek v ↔ ∃ d, x.Covers .writtenWeekday d ∧ v = d % 7 + 1) :
    Renumbers x [y] where
  step := by
    intro z hz
    rw [List.mem_singleton.mp hz]
    exact step
  covers v := by
    simp only [List.mem_singleton, exists_eq_left]
    exact covers v

/-- The days from 1 to 7 are those from 0 to 6 as they are written. -/
theorem rangeValues?_written_iff {i j v : Nat} (hi : 1 ≤ i) (hj : 1 ≤ j ∧ j ≤ 7) :
    (∃ vs, rangeValues? .dayOfWeek i j = some vs ∧ v ∈ vs) ↔
      ∃ d, (∃ ds, rangeValues? .writtenWeekday (i - 1) (j - 1) = some ds ∧ d ∈ ds) ∧
        v = d % 7 + 1 := by
  simp only [mem_rangeValues?_iff]
  show 1 ≤ i ∧ i ≤ v ∧ v ≤ j ∧ j ≤ 7 ↔
    ∃ d, (0 ≤ i - 1 ∧ i - 1 ≤ d ∧ d ≤ j - 1 ∧ j - 1 ≤ 7) ∧ v = d % 7 + 1
  constructor
  · intro hv
    exact ⟨v - 1, by omega, by omega⟩
  · rintro ⟨d, hd, rfl⟩
    omega

/-! ## §2. Items without numerals -/

theorem lookup_map_snd {α β γ : Type} [BEq α] (f : β → γ) (xs : List (α × β)) (a : α) :
    (xs.map fun p => (p.1, f p.2)).lookup a = (xs.lookup a).map f := by
  induction xs with
  | nil => rfl
  | cons p xs ih =>
    obtain ⟨x, b⟩ := p
    rw [List.map_cons, List.lookup_cons, List.lookup_cons]
    cases a == x with
    | true => rfl
    | false => exact ih

/-- A name stands for the day before as it is written. -/
theorem named?_written (name : List Char) :
    FieldKind.writtenWeekday.named? name = (FieldKind.dayOfWeek.named? name).map (· - 1) :=
  lookup_map_snd (· - 1) FieldKind.dayOfWeek.names _

theorem named?_bounds {name : List Char} {v : Nat} (h : FieldKind.dayOfWeek.named? name = some v) :
    1 ≤ v ∧ v ≤ 7 := by
  have hall : ∀ p ∈ FieldKind.dayOfWeek.names, 1 ≤ p.2 ∧ p.2 ≤ 7 := by decide
  obtain ⟨l₁, l₂, hnames, -⟩ := List.lookup_eq_some_iff.mp h
  exact hall _ (hnames ▸ List.mem_append_right _ List.mem_cons_self)

/-- A star stands for all days in either numbers. -/
theorem renumbers_all (n : Option Nat) : Renumbers (.of .all n) [.of .all n] := by
  refine renumbers_singleton rfl fun v => ?_
  simp only [Root.covers_all]
  show 1 ≤ v ∧ v ≤ 7 ↔ ∃ d, (0 ≤ d ∧ d ≤ 7) ∧ v = d % 7 + 1
  constructor
  · intro hv
    exact ⟨v - 1, by omega, by omega⟩
  · rintro ⟨d, hd, rfl⟩
    omega

/-- A range of names is renumbered in the table of names. -/
theorem renumbers_namedRange (a b : List Char) (n : Option Nat) :
    Renumbers (.of (.namedRange a b) n) [.of (.namedRange a b) n] := by
  refine renumbers_singleton rfl fun v => ?_
  simp only [Root.covers_of, Specifier.values?]
  rw [named?_written, named?_written]
  cases ha : FieldKind.dayOfWeek.named? a with
  | none => simp
  | some i =>
    cases hb : FieldKind.dayOfWeek.named? b with
    | none => simp
    | some j => exact rangeValues?_written_iff (named?_bounds ha).1 (named?_bounds hb)

/-- A name is renumbered in the table of names. -/
theorem renumbers_name (name : List Char) : Renumbers (.name name) [.name name] := by
  refine renumbers_singleton rfl fun v => ?_
  show (∃ vs, (FieldKind.dayOfWeek.named? name).bind _ = some vs ∧ v ∈ vs) ↔
    ∃ d, (∃ ds, (FieldKind.writtenWeekday.named? name).bind _ = some ds ∧ d ∈ ds) ∧ v = d % 7 + 1
  rw [named?_written]
  cases hn : FieldKind.dayOfWeek.named? name with
  | none => simp
  | some i => exact rangeValues?_written_iff (named?_bounds hn).1 (named?_bounds hn)

/-! ## §3. What renumbering does -/

theorem weekdayNumber_eq_some {token : List Char} {n : Nat}
    (h : weekdayNumber token = .ok (some n)) : numeral? token = some n ∧ n ≤ 7 := by
  unfold weekdayNumber at h
  split at h
  next => cases h
  next m hm =>
    split at h
    next hle =>
      cases h
      exact ⟨hm, hle⟩
    next => cases h

theorem weekdayNumber_eq_none {token : List Char} (h : weekdayNumber token = .ok none) :
    numeral? token = none := by
  unfold weekdayNumber at h
  split at h
  next hnone => exact hnone
  next => split at h <;> cases h

/-- The base of an item is a numeral or a range of two. -/
def IsNumeric (base : List Char) : Prop :=
  (∃ n, numeral? base = some n) ∨
    ∃ lo hi a b, base = lo ++ '-' :: hi ∧ numeral? lo = some a ∧ numeral? hi = some b

/-- The parts of a range are told by its first dash. -/
theorem not_isNumeric_of_range {lo hi : List Char} (hlo : '-' ∉ lo)
    (h : numeral? lo = none ∨ numeral? hi = none) : ¬ IsNumeric (lo ++ '-' :: hi) := by
  rintro (⟨n, hn⟩ | ⟨lo', hi', a, b, heq, ha, hb⟩)
  · exact not_mem_numeral hn (by decide) (List.mem_append_right lo List.mem_cons_self)
  · have hsplit := splitOnce_append hlo hi
    rw [heq, splitOnce_append (not_mem_numeral ha (by decide))] at hsplit
    cases hsplit
    rcases h with h | h
    · rw [ha] at h
      cases h
    · rw [hb] at h
      cases h

/-- **What renumbering does to an item**: without a number or a range in front it stays as it is. -/
theorem renumberItem_cases {item out : List Char} (h : renumberItem item = .ok out) :
    ∃ base step, item = base ++ step ∧ '/' ∉ base ∧ IsStep step ∧
      ((out = item ∧ ¬ IsNumeric base) ∨
        (∃ n, numeral? base = some n ∧ n ≤ 7 ∧ out = digitChar (n % 7 + 1) :: step) ∨
        ∃ lo hi a b, base = lo ++ '-' :: hi ∧ numeral? lo = some a ∧ numeral? hi = some b ∧
          a ≤ 7 ∧ b ≤ 7 ∧ renumberRange item step a b = .ok out) := by
  unfold renumberItem at h
  split at h
  rename_i base step hcut
  have hparts : item = base ++ step ∧ '/' ∉ base ∧ IsStep step := by
    split at hcut
    next base st hslash =>
      cases hcut
      exact ⟨splitOnce_eq hslash, splitOnce_not_mem hslash, .inr ⟨st, rfl⟩⟩
    next hslash =>
      cases hcut
      exact ⟨(List.append_nil item).symm, splitOnce_eq_none hslash, .inl rfl⟩
  refine ⟨base, step, hparts.1, hparts.2.1, hparts.2.2, ?_⟩
  split at h
  next lo hi hdash =>
    -- a base with a dash is a range if both of its parts are numerals, and is kept otherwise
    have hbase := splitOnce_eq hdash
    have hlo := splitOnce_not_mem hdash
    have hkept : (weekdayNumber lo = .ok none ∨ weekdayNumber hi = .ok none) →
        ¬ IsNumeric base := fun hnone => hbase ▸
      not_isNumeric_of_range hlo (hnone.imp weekdayNumber_eq_none weekdayNumber_eq_none)
    cases ha : weekdayNumber lo with
    | error e =>
      rw [ha] at h
      cases h
    | ok a =>
      cases hb : weekdayNumber hi with
      | error e =>
        rw [ha, hb] at h
        cases h
      | ok b =>
        rw [ha, hb] at h hkept
        cases a with
        | none =>
          have hout : out = item := by cases b <;> cases h <;> rfl
          exact .inl ⟨hout, hkept (.inl rfl)⟩
        | some a =>
          cases b with
          | none =>
            cases h
            exact .inl ⟨rfl, hkept (.inr rfl)⟩
          | some b =>
            obtain ⟨ha, ha7⟩ := weekdayNumber_eq_some ha
            obtain ⟨hb, hb7⟩ := weekdayNumber_eq_some hb
            exact .inr (.inr ⟨lo, hi, a, b, hbase, ha, hb, ha7, hb7, h⟩)
  next hdash =>
    -- a base without a dash is a numeral, or is kept
    split at h
    next => cases h
    next n hn =>
      cases h
      obtain ⟨hn, hn7⟩ := weekdayNumber_eq_some hn
      exact .inr (.inl ⟨n, hn, hn7, rfl⟩)
    next hn =>
      cases h
      refine .inl ⟨rfl, ?_⟩
      rintro (⟨n, hn'⟩ | ⟨lo, hi, a, b, rfl, -⟩)
      · rw [weekdayNumber_eq_none hn] at hn'
        cases hn'
      · exact splitOnce_eq_none hdash (List.mem_append_right lo List.mem_cons_self)

/-- **What a range is renumbered to.**  The Sunday at its end is put apart, which no step allows. -/
theorem renumberRange_cases {item step out : List Char} {a b : Nat}
    (h : renumberRange item step a b = .ok out) :
    (a = 0 ∧ b = 7 ∧ out = '*' :: step) ∨ (a = 7 ∧ b = 7 ∧ out = '1' :: step) ∨
      (a = 6 ∧ b = 7 ∧ step = [] ∧ out = ['7', ',', '1']) ∨
      (a ≠ 0 ∧ a ≠ 6 ∧ a ≠ 7 ∧ b = 7 ∧ step = [] ∧ out = [digitChar (a + 1), '-', '7', ',', '1']) ∨
      (b ≠ 7 ∧ out = [digitChar (a + 1), '-', digitChar (b + 1)] ++ step) := by
  unfold renumberRange at h
  split at h
  next hb =>
    split at h
    next ha =>
      cases h
      exact .inl ⟨ha, hb, rfl⟩
    next ha0 =>
      split at h
      next ha =>
        cases h
        exact .inr (.inl ⟨ha, hb, rfl⟩)
      next ha7 =>
        split at h
        next => cases h
        next hstep =>
          split at h
          next ha =>
            cases h
            exact .inr (.inr (.inl ⟨ha, hb, not_not.mp hstep, rfl⟩))
          next ha6 =>
            cases h
            exact .inr (.inr (.inr (.inl ⟨ha0, ha6, ha7, hb, not_not.mp hstep, rfl⟩)))
  next hb =>
    cases h
    exact .inr (.inr (.inr (.inr ⟨hb, rfl⟩)))

/-! ## §4. Renumbered items -/

/-- Base and step are told by the first slash. -/
theorem base_eq {base step used r : List Char} (hbase : '/' ∉ base) (hused : '/' ∉ used)
    (hstep : IsStep step) (hr : IsStep r) (h : base ++ step = used ++ r) : base = used := by
  have hcut : ∀ {b t : List Char}, '/' ∉ b → IsStep t → (b ++ t).takeWhile (· != '/') = b := by
    intro b t hb ht
    have hall : ∀ c ∈ b, (c != '/') = true := fun c hc => bne_iff_ne.mpr fun heq => hb (heq ▸ hc)
    rw [List.takeWhile_append_of_pos hall]
    rcases ht with rfl | ⟨st, rfl⟩ <;> simp
  rw [← hcut hbase hstep, h, hcut hused hr]

/-- An item that passes through is no numeral, so nothing in it is to be renumbered. -/
theorem renumbers_kept {base step : List Char} {y : Root} (compact : Compact (base ++ step))
    (hslash : '/' ∉ base) (hstep : IsStep step) (hbase : ¬ IsNumeric base)
    (hy : root? .dayOfWeek (base ++ step) = some (y, [])) : Renumbers y [y] := by
  cases hs : specifier? .dayOfWeek (base ++ step) with
  | none =>
    -- what is no specifier is a name
    unfold root? at hy
    rw [hs] at hy
    obtain ⟨⟨n, r⟩, -, heq⟩ := Option.map_eq_some_iff.mp hy
    cases heq
    exact renumbers_name n
  | some p =>
    obtain ⟨s, r⟩ := p
    obtain ⟨n, hn, rfl⟩ := (root?_of_specifier? hs).mp hy
    have hspells := spells_of_specifier? compact hs
    cases s with
    | all => exact renumbers_all n
    | namedRange a b => exact renumbers_namedRange a b n
    -- a specifier of numbers is spelled in numerals, so its base would have been renumbered
    | point a =>
      obtain ⟨ds, heq, hds⟩ := hspells
      have hused := base_eq hslash (not_mem_numeral hds (by decide)) hstep hn.isStep heq
      exact absurd (.inl ⟨a, hused ▸ hds⟩) hbase
    | range a b =>
      obtain ⟨lo, hi, heq, hlo, hhi⟩ := hspells
      have hnot : '/' ∉ lo ++ '-' :: hi := by
        simp only [List.mem_append, List.mem_cons, not_or]
        exact ⟨not_mem_numeral hlo (by decide), by decide, not_mem_numeral hhi (by decide)⟩
      have heq' : base ++ step = (lo ++ '-' :: hi) ++ r := by
        rw [heq, List.append_assoc, List.cons_append]
      have hused := base_eq hslash hnot hstep hn.isStep heq'
      exact absurd (.inr ⟨lo, hi, a, b, hused, hlo, hhi⟩) hbase

/-- The rest of the week and a Sunday more. -/
theorem renumbers_sunday {a : Nat} (hlow : 1 ≤ a) (hhigh : a ≤ 6) {s : Specifier}
    (hs : ∀ v, (Root.plain s).Covers .dayOfWeek v ↔ a + 1 ≤ v ∧ v ≤ 7) :
    Renumbers (.plain (.range a 7)) [.plain s, .plain (.point 1)] where
  step := by
    intro y hy
    rcases List.mem_cons.mp hy with rfl | hy
    · rfl
    · rw [List.mem_singleton.mp hy]
      rfl
  covers v := by
    have hpoint : (Root.plain (.point 1)).Covers .dayOfWeek v ↔ 1 ≤ 1 ∧ 1 ≤ v ∧ v ≤ 1 ∧ 1 ≤ 7 :=
      Root.covers_point (n := none)
    have hrange : ∀ d, (Root.plain (.range a 7)).Covers .writtenWeekday d ↔
        0 ≤ a ∧ a ≤ d ∧ d ≤ 7 ∧ 7 ≤ 7 := fun d => Root.covers_range (n := none)
    simp only [List.mem_cons, List.not_mem_nil, or_false, exists_eq_or_imp, exists_eq_left, hs,
      hpoint, hrange]
    constructor
    · rintro (hv | hv)
      · exact ⟨v - 1, by omega, by omega⟩
      · exact ⟨7, by omega, by omega⟩
    · rintro ⟨d, hd, rfl⟩
      omega

section Ranges

variable {step : List Char} (hstep : IsStep step) (hcomma : ',' ∉ step)

include hstep hcomma in
/-- A range is renumbered as the days that it covers. -/
theorem renumbers_renumberRange {item out : List Char} {a b : Nat} {ys : List Root} (ha : a ≤ 7)
    (hb : b ≤ 7) (h : renumberRange item step a b = .ok out) (hys : Lists .dayOfWeek out ys) :
    ∃ n, ReadsStep step n ∧ Renumbers (.of (.range a b) n) ys := by
  have hseven := numeral?_digitChar (n := 7) (by decide)
  have hone := numeral?_digitChar (n := 1) (by decide)
  rcases renumberRange_cases h with ⟨rfl, rfl, rfl⟩ | ⟨rfl, rfl, rfl⟩ | ⟨rfl, rfl, rfl, rfl⟩ |
    ⟨h0, h6, h7, rfl, rfl, rfl⟩ | ⟨h7, rfl⟩
  · -- the whole week and a Sunday more
    have hout : ',' ∉ '*' :: step := by simp [hcomma]
    obtain ⟨n, hn, rfl⟩ := single_of_specifier? (s := .all) rfl hout hys
    refine ⟨n, hn, renumbers_singleton (by simp) fun v => ?_⟩
    simp only [Root.covers_all, Root.covers_range]
    show 1 ≤ v ∧ v ≤ 7 ↔ ∃ d, (0 ≤ 0 ∧ 0 ≤ d ∧ d ≤ 7 ∧ 7 ≤ 7) ∧ v = d % 7 + 1
    constructor
    · intro hv
      exact ⟨v - 1, by omega, by omega⟩
    · rintro ⟨d, hd, rfl⟩
      omega
  · -- the Sunday at the end of the week alone
    have hout : ',' ∉ '1' :: step := by simp [hcomma]
    obtain ⟨n, hn, rfl⟩ :=
      single_of_specifier? (specifier?_point hone (by decide) hstep) hout hys
    refine ⟨n, hn, renumbers_singleton (by simp) fun v => ?_⟩
    simp only [Root.covers_point, Root.covers_range]
    show 1 ≤ 1 ∧ 1 ≤ v ∧ v ≤ 1 ∧ 1 ≤ 7 ↔ ∃ d, (0 ≤ 7 ∧ 7 ≤ d ∧ d ≤ 7 ∧ 7 ≤ 7) ∧ v = d % 7 + 1
    constructor
    · intro hv
      exact ⟨7, by omega, by omega⟩
    · rintro ⟨d, hd, rfl⟩
      omega
  · -- Saturday and Sunday
    rw [pair_of_specifier? (p := ['7']) (specifier?_point hseven (by decide) hstep)
      (specifier?_point hone (by decide) hstep) (by decide) (by decide) hys]
    refine ⟨none, rfl, renumbers_sunday (by decide) (by decide) fun v =>
      (Root.covers_point (n := none)).trans ?_⟩
    show 1 ≤ 7 ∧ 7 ≤ v ∧ v ≤ 7 ∧ 7 ≤ 7 ↔ 6 + 1 ≤ v ∧ v ≤ 7
    omega
  · -- some days up to Saturday, and Sunday
    have ha' := numeral?_digitChar (n := a + 1) (by omega)
    rw [pair_of_specifier? (p := [digitChar (a + 1), '-', '7'])
      (specifier?_range ha' hseven (le_maxOrdinal (by omega)) (by decide) hstep)
      (specifier?_point hone (by decide) hstep) (by simp [comma_ne_digitChar]) (by decide) hys]
    refine ⟨none, rfl, renumbers_sunday (by omega) (by omega) fun v =>
      (Root.covers_range (n := none)).trans ?_⟩
    show 1 ≤ a + 1 ∧ a + 1 ≤ v ∧ v ≤ 7 ∧ 7 ≤ 7 ↔ a + 1 ≤ v ∧ v ≤ 7
    omega
  · -- a range that ends before the second Sunday
    have ha' := numeral?_digitChar (n := a + 1) (by omega)
    have hb' := numeral?_digitChar (n := b + 1) (by omega)
    have hout : ',' ∉ [digitChar (a + 1), '-', digitChar (b + 1)] ++ step := by
      simp [comma_ne_digitChar, hcomma]
    obtain ⟨n, hn, rfl⟩ := single_of_specifier?
      (specifier?_range ha' hb' (le_maxOrdinal (by omega)) (le_maxOrdinal (by omega)) hstep)
      hout hys
    refine ⟨n, hn, renumbers_singleton (by simp) fun v => ?_⟩
    simp only [Root.covers_of]
    exact rangeValues?_written_iff (by omega) (by omega)

end Ranges

/-- What is read as a root depends on whether the field has a question mark, not on its numbers. -/
theorem root?_written (cs : List Char) : root? .writtenWeekday cs = root? .dayOfWeek cs := rfl

/-- **An item that is read in the end is renumbered throughout**: it is a complete root as it was
written, and each of its days is read as the weekday that it stands for. -/
theorem renumbers_of_renumberItem {item out : List Char} {ys : List Root} (compact : Compact item)
    (hcomma : ',' ∉ item) (h : renumberItem item = .ok out) (hys : Lists .dayOfWeek out ys) :
    ∃ x, root? .writtenWeekday item = some (x, []) ∧ Renumbers x ys := by
  obtain ⟨base, step, rfl, hslash, hstep, hcases⟩ := renumberItem_cases h
  have hcomma' : ',' ∉ step := fun hmem => hcomma (List.mem_append_right base hmem)
  rcases hcases with ⟨rfl, hbase⟩ | ⟨n, hn, hn7, rfl⟩ | ⟨lo, hi, a, b, rfl, ha, hb, ha7, hb7, hout⟩
  · -- the item is kept
    obtain ⟨y, rfl, hy⟩ := hys.single hcomma
    exact ⟨y, (root?_written _).trans hy, renumbers_kept compact hslash hstep hbase hy⟩
  · -- a single day, of which 7 is the 0 of the next week
    have hday : n % 7 + 1 ≤ 8 := by omega
    have hout : ',' ∉ digitChar (n % 7 + 1) :: step := by simp [comma_ne_digitChar, hcomma']
    obtain ⟨m, hm, rfl⟩ := single_of_specifier?
      (specifier?_point (numeral?_digitChar hday) (le_maxOrdinal hday) hstep) hout hys
    have hs := specifier?_point (k := .writtenWeekday) hn (le_maxOrdinal (by omega)) hstep
    refine ⟨.of (.point n) m, (root?_of_specifier? hs).mpr ⟨m, hm, rfl⟩, ?_⟩
    refine renumbers_singleton (by simp) fun v => ?_
    simp only [Root.covers_point]
    show 1 ≤ n % 7 + 1 ∧ n % 7 + 1 ≤ v ∧ v ≤ n % 7 + 1 ∧ n % 7 + 1 ≤ 7 ↔
      ∃ d, (0 ≤ n ∧ n ≤ d ∧ d ≤ n ∧ n ≤ 7) ∧ v = d % 7 + 1
    constructor
    · intro hv
      exact ⟨n, by omega, by omega⟩
    · rintro ⟨d, hd, rfl⟩
      have hd' : d = n := by omega
      subst hd'
      omega
  · -- a range; the item has the step that the renumbered text has
    obtain ⟨n, hn, hrenumbers⟩ := renumbers_renumberRange hstep hcomma' ha7 hb7 hout hys
    have hs := specifier?_range (k := .writtenWeekday) ha hb (le_maxOrdinal (by omega))
      (le_maxOrdinal (by omega)) hstep
    rw [← List.cons_append, ← List.append_assoc] at hs
    exact ⟨_, (root?_of_specifier? hs).mpr ⟨n, hn, rfl⟩, hrenumbers⟩

end CronSupervisor.Cron
