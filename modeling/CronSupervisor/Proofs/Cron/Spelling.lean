/-
  CronSupervisor.Proofs.Cron.Spelling — how roots of numbers are spelled.

  A numeral that meets no further digit and no blank is read as its number, a point or a range of
  numerals as just that, and a specifier together with its step as a root.  The other way round,
  what is read as a number in a text without blanks is spelled there as a numeral.

  Main statements:
    * `specifier?_point`, `specifier?_range` — numerals in front of a step.
    * `root?_of_specifier?` — a specifier and what follows it are a root if the rest is a step.
    * `spells_of_specifier?` — what a specifier says in numbers is spelled in numerals.
-/
import CronSupervisor.Proofs.Cron.Items

namespace CronSupervisor.Cron

open Text

/-! ## §1. Numerals -/

theorem numeral?_eq_some_iff {ds : List Char} {n : Nat} :
    numeral? ds = some n ↔ ds ≠ [] ∧ (∀ c ∈ ds, isDigit c = true) ∧ digitsValue ds = n := by
  unfold numeral?
  rw [Option.ite_none_right_eq_some, List.all_eq_true, Option.some.injEq, and_assoc]

theorem not_mem_numeral {ds : List Char} {n : Nat} (h : numeral? ds = some n) {c : Char}
    (hc : isDigit c = false) : c ∉ ds := by
  intro hmem
  have hdigit := (numeral?_eq_some_iff.mp h).2.1 c hmem
  rw [hc] at hdigit
  cases hdigit

theorem isDigit_digitChar (n : Nat) : isDigit (digitChar n) = true := by
  have hall : ∀ d < 10, isDigit (Char.ofNat (48 + d)) = true := by decide
  exact hall (n % 10) (Nat.mod_lt n (by decide))

theorem numeral?_digitChar {n : Nat} (hn : n ≤ 8) : numeral? [digitChar n] = some n := by
  have hall : ∀ d ≤ 8, numeral? [digitChar d] = some d := by decide
  exact hall n hn

theorem comma_ne_digitChar (n : Nat) : ',' ≠ digitChar n := by
  intro h
  have hdigit := isDigit_digitChar n
  rw [← h] at hdigit
  revert hdigit
  decide

theorem le_maxOrdinal {n : Nat} (hn : n ≤ 8) : n ≤ maxOrdinal :=
  Nat.le_trans hn (by decide)

theorem isFieldBlank_of_isDigit {c : Char} (hc : isDigit c = true) : isFieldBlank c = false := by
  unfold isFieldBlank
  simp only [Bool.or_eq_false_iff, beq_eq_false_iff_ne, ne_eq]
  refine ⟨⟨⟨?_, ?_⟩, ?_⟩, ?_⟩ <;> rintro rfl <;> revert hc <;> decide

/-- A numeral that ends where no digit and no blank follows is read as its number. -/
theorem ordinal?_numeral {ds r : List Char} {n : Nat} (hn : numeral? ds = some n)
    (hmax : n ≤ maxOrdinal) (hr : ∀ c ∈ r.head?, isDigit c = false ∧ isFieldBlank c = false) :
    ordinal? (ds ++ r) = some (n, r) := by
  obtain ⟨hne, hdigits, hvalue⟩ := numeral?_eq_some_iff.mp hn
  obtain ⟨d, ds, rfl⟩ := List.exists_cons_of_ne_nil hne
  have hfirst : skipBlanks (d :: ds ++ r) = d :: ds ++ r := by
    unfold skipBlanks
    have hd := isFieldBlank_of_isDigit (hdigits d List.mem_cons_self)
    exact List.dropWhile_cons_of_neg (by rw [hd]; decide)
  -- nothing of what follows belongs to the numeral
  have hrest : skipBlanks r = r ∧ r.takeWhile isDigit = [] ∧ r.dropWhile isDigit = r := by
    cases r with
    | nil => exact ⟨rfl, rfl, rfl⟩
    | cons c r =>
      obtain ⟨hc, hblank⟩ := hr c rfl
      unfold skipBlanks
      rw [List.dropWhile_cons_of_neg (by rw [hblank]; decide),
        List.takeWhile_cons_of_neg (by rw [hc]; decide),
        List.dropWhile_cons_of_neg (by rw [hc]; decide)]
      exact ⟨rfl, rfl, rfl⟩
  unfold ordinal? spaced?
  simp only
  rw [hfirst, List.takeWhile_append_of_pos hdigits, List.dropWhile_append_of_pos hdigits,
    hrest.2.1, hrest.2.2, hrest.1, List.append_nil, List.isEmpty_cons, if_neg Bool.false_ne_true]
  simp only
  rw [hvalue, if_pos hmax]

/-- What is read as a number is spelled as a numeral. -/
theorem numeral_of_ordinal? {cs r : List Char} {n : Nat} (compact : Compact cs)
    (h : ordinal? cs = some (n, r)) : ∃ ds, cs = ds ++ r ∧ numeral? ds = some n := by
  unfold ordinal? spaced? at h
  simp only at h
  rw [compact.skipBlanks_eq, (compact.suffix (List.dropWhile_suffix _)).skipBlanks_eq] at h
  by_cases hnil : (cs.takeWhile isDigit).isEmpty = true
  · rw [if_pos hnil] at h
    cases h
  · rw [if_neg hnil] at h
    simp only at h
    split at h
    next =>
      cases h
      refine ⟨cs.takeWhile isDigit, List.takeWhile_append_dropWhile.symm, ?_⟩
      refine numeral?_eq_some_iff.mpr ⟨?_, fun c hc => List.mem_takeWhile_imp hc, rfl⟩
      intro heq
      rw [heq] at hnil
      exact hnil rfl
    next => cases h

/-! ## §2. Specifiers and steps -/

/-- A specifier with a step or without one. -/
def Root.of (s : Specifier) : Option Nat → Root
  | none => .plain s
  | some step => .stepped s step

/-- The text of a step: a slash and more, or nothing. -/
def IsStep (step : List Char) : Prop := step = [] ∨ ∃ st, step = '/' :: st

/-- The text is read as this step. -/
def ReadsStep (step : List Char) : Option Nat → Prop
  | none => step = []
  | some n => ∃ st, step = '/' :: st ∧ ordinal? st = some (n, [])

theorem ReadsStep.isStep {step : List Char} {n : Option Nat} (h : ReadsStep step n) :
    IsStep step := by
  cases n with
  | none => exact .inl h
  | some n =>
    obtain ⟨st, hst, -⟩ := h
    exact .inr ⟨st, hst⟩

/-- A step goes on with a slash. -/
theorem IsStep.ends {step : List Char} (h : IsStep step) :
    ∀ c ∈ step.head?, isDigit c = false ∧ isFieldBlank c = false := by
  intro c hc
  rcases h with rfl | ⟨st, rfl⟩
  · cases hc
  · cases hc
    decide

theorem IsStep.ne_dash {step : List Char} (h : IsStep step) : ∀ r, step ≠ '-' :: r := by
  intro r heq
  rcases h with rfl | ⟨st, rfl⟩ <;> cases heq

theorem specifier?_numeral {k : FieldKind} {ds : List Char} {n : Nat} (hn : numeral? ds = some n)
    (r : List Char) :
    specifier? k (ds ++ r) = (pointOrRange? (ds ++ r)).or (namedRange? (ds ++ r)) := by
  obtain ⟨hne, hdigits, -⟩ := numeral?_eq_some_iff.mp hn
  obtain ⟨d, ds, rfl⟩ := List.exists_cons_of_ne_nil hne
  have hd := hdigits d List.mem_cons_self
  refine specifier?_eq_or k ?_ ?_
  · intro q heq
    cases heq
    revert hd
    decide
  · intro q heq
    cases heq
    revert hd
    decide

theorem specifier?_point {k : FieldKind} {ds step : List Char} {n : Nat} (hn : numeral? ds = some n)
    (hmax : n ≤ maxOrdinal) (hstep : IsStep step) :
    specifier? k (ds ++ step) = some (.point n, step) := by
  have hpoint := pointOrRange?_point (ordinal?_numeral hn hmax hstep.ends) hstep.ne_dash
  rw [specifier?_numeral hn, hpoint, Option.some_or]

theorem specifier?_range {k : FieldKind} {lo hi step : List Char} {a b : Nat}
    (ha : numeral? lo = some a) (hb : numeral? hi = some b) (hamax : a ≤ maxOrdinal)
    (hbmax : b ≤ maxOrdinal) (hstep : IsStep step) :
    specifier? k (lo ++ '-' :: (hi ++ step)) = some (.range a b, step) := by
  have hdash : ∀ c ∈ ('-' :: (hi ++ step)).head?, isDigit c = false ∧ isFieldBlank c = false := by
    intro c hc
    cases hc
    decide
  rw [specifier?_numeral ha, pointOrRange?_dash (ordinal?_numeral ha hamax hdash),
    ordinal?_numeral hb hbmax hstep.ends, Option.some_or]

/-- A specifier and what follows it are a root if the rest is a step. -/
theorem root?_of_specifier? {k : FieldKind} {cs step : List Char} {s : Specifier}
    (h : specifier? k cs = some (s, step)) {x : Root} :
    root? k cs = some (x, []) ↔ ∃ n, ReadsStep step n ∧ x = .of s n := by
  by_cases hslash : ∃ st, step = '/' :: st
  · obtain ⟨st, rfl⟩ := hslash
    rw [root?_slash h]
    cases ho : ordinal? st with
    | none =>
      refine ⟨nofun, ?_⟩
      rintro ⟨_ | n, hn, -⟩
      · cases hn
      · obtain ⟨st', hst, hst'⟩ := hn
        cases hst
        rw [ho] at hst'
        cases hst'
    | some p =>
      obtain ⟨n, r⟩ := p
      constructor
      · intro heq
        cases heq
        exact ⟨some n, ⟨st, rfl, ho⟩, rfl⟩
      · rintro ⟨_ | m, hm, rfl⟩
        · cases hm
        · obtain ⟨st', hst, hst'⟩ := hm
          cases hst
          rw [ho] at hst'
          cases hst'
          rfl
  · -- without a slash nothing may be left
    rw [root?_plain h fun st heq => hslash ⟨st, heq⟩]
    constructor
    · intro heq
      cases heq
      exact ⟨none, rfl, rfl⟩
    · rintro ⟨_ | m, hm, rfl⟩
      · cases hm
        rfl
      · obtain ⟨st, hst, -⟩ := hm
        exact absurd ⟨st, hst⟩ hslash

/-- A text of one specifier and a step is one root. -/
theorem single_of_specifier? {k : FieldKind} {out step : List Char} {s : Specifier}
    {ys : List Root} (hs : specifier? k out = some (s, step)) (hcomma : ',' ∉ out)
    (h : Lists k out ys) : ∃ n, ReadsStep step n ∧ ys = [.of s n] := by
  obtain ⟨y, rfl, hy⟩ := h.single hcomma
  obtain ⟨n, hn, rfl⟩ := (root?_of_specifier? hs).mp hy
  exact ⟨n, hn, rfl⟩

/-- Two specifiers without steps. -/
theorem pair_of_specifier? {k : FieldKind} {p q : List Char} {s t : Specifier} {ys : List Root}
    (hs : specifier? k p = some (s, [])) (ht : specifier? k q = some (t, [])) (hp : ',' ∉ p)
    (hq : ',' ∉ q) (h : Lists k (p ++ ',' :: q) ys) : ys = [.plain s, .plain t] := by
  obtain ⟨xs, zs, rfl, hxs, hzs⟩ := h.of_append
  obtain ⟨n, hn, rfl⟩ := single_of_specifier? hs hp hxs
  obtain ⟨m, hm, rfl⟩ := single_of_specifier? ht hq hzs
  cases n with
  | none =>
    cases m with
    | none => rfl
    | some m =>
      obtain ⟨st, hst, -⟩ := hm
      cases hst
  | some n =>
    obtain ⟨st, hst, -⟩ := hn
    cases hst

/-! ## §3. From numbers to numerals -/

/-- In front of `r` the text spells the numbers of the specifier, if it has any. -/
def Spells (cs r : List Char) : Specifier → Prop
  | .point n => ∃ ds, cs = ds ++ r ∧ numeral? ds = some n
  | .range a b => ∃ lo hi, cs = lo ++ '-' :: (hi ++ r) ∧ numeral? lo = some a ∧ numeral? hi = some b
  | _ => True

theorem spells_of_pointOrRange? {cs r : List Char} {s : Specifier} (compact : Compact cs)
    (h : pointOrRange? cs = some (s, r)) : Spells cs r s := by
  unfold pointOrRange? at h
  split at h
  next a q ha =>
    obtain ⟨lo, hlo, ha'⟩ := numeral_of_ordinal? compact ha
    split at h
    next b q' hb =>
      cases h
      have hq := compact_tail compact (takes_ordinal? compact ha)
      obtain ⟨hi, rfl, hb'⟩ := numeral_of_ordinal? hq hb
      exact ⟨lo, hi, hlo, ha', hb'⟩
    next =>
      cases h
      exact ⟨lo, hlo, ha'⟩
  next a q _ ha =>
    cases h
    exact numeral_of_ordinal? compact ha
  next => cases h

/-- What a specifier says in numbers is spelled in numerals. -/
theorem spells_of_specifier? {k : FieldKind} {cs r : List Char} {s : Specifier}
    (compact : Compact cs) (h : specifier? k cs = some (s, r)) : Spells cs r s := by
  unfold specifier? at h
  split at h
  next =>
    cases h
    trivial
  next =>
    split at h
    next =>
      cases h
      trivial
    next => cases h
  next =>
    rcases Option.or_eq_some_iff.mp h with hpoint | ⟨-, hrange⟩
    · exact spells_of_pointOrRange? compact hpoint
    · unfold namedRange? at hrange
      split at hrange
      next =>
        obtain ⟨_, -, heq⟩ := Option.map_eq_some_iff.mp hrange
        cases heq
        trivial
      next => cases hrange

end CronSupervisor.Cron
