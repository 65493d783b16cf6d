/-
  CronSupervisor.Proofs.Calendar.Zone — the first instants of wall times come in their order.

  A clock that is set back shows some wall times twice.  Two searches on wall times can be compared
  by the instants that they lead to only if a later wall time is never shown for the first time
  before an earlier one.  This holds when whatever the clock shows after it was set back, it has
  shown before (`Repeats`), that is, when a summer is never shorter than its own hour.

  The rules of zones are data, so this is relied on and not proved of a book of zones in general
  (`LawfulZoneBook`), and so is that no clock is changed all the time (`KeepsWeek`).

  Main statements:
    * `Repeats.earliest_lt` — first instants are in the order of their wall times.
    * `KeepsWeek.exists_shown` — every day of the week is shown.
    * `repeats_seasonal` — clocks that change with the seasons repeat what they are set back by.
-/
import CronSupervisor.Calendar.Zone
import CronSupervisor.Proofs.Calendar.Date
import Mathlib.Order.Bounds.Basic
import Mathlib.Data.Int.Order.Basic

namespace CronSupervisor.Calendar

namespace Zone

/-! ## §1. First instants -/

/-- The first instant of a wall time is the least of those that show it. -/
theorem earliest?_eq_some_iff {z : Zone} {w utc : Int} :
    z.earliest? w = some utc ↔ IsLeast {u | z.wall u = w} utc := by
  unfold earliest?
  rw [List.min?_eq_some_iff]
  constructor
  · intro ⟨hmem, hle⟩
    exact ⟨mem_instants.mp hmem, fun u hu => hle u (mem_instants.mpr hu)⟩
  · intro ⟨hshow, hle⟩
    exact ⟨mem_instants.mpr hshow, fun u hu => hle (mem_instants.mp hu)⟩

/-- A wall time has a first instant when it is shown at all. -/
theorem earliest?_isSome_iff {z : Zone} {w : Int} :
    (z.earliest? w).isSome = true ↔ ∃ utc, z.wall utc = w := by
  constructor
  · intro h
    obtain ⟨utc, hutc⟩ := Option.isSome_iff_exists.mp h
    exact ⟨utc, (earliest?_eq_some_iff.mp hutc).1⟩
  · intro ⟨utc, hutc⟩
    cases he : z.earliest? w with
    | some u => rfl
    | none =>
      have hmem : utc ∈ z.instants w := mem_instants.mpr hutc
      rw [List.min?_eq_none_iff.mp he] at hmem
      cases hmem

/-- What the clock shows after it was set back, it has shown before. -/
def Repeats (z : Zone) : Prop :=
  ∀ u v, u < v → z.wall v < z.wall u → ∃ e, e < v ∧ z.wall e = z.wall v

/-- **First instants are in the order of their wall times.** -/
theorem Repeats.earliest_lt {z : Zone} (h : z.Repeats) {c d u v : Int} (hlt : c < d)
    (hc : IsLeast {u | z.wall u = c} u) (hd : IsLeast {u | z.wall u = d} v) : u < v := by
  have hu : z.wall u = c := hc.1
  have hv : z.wall v = d := hd.1
  by_contra hge
  have hne : u ≠ v := by
    intro heq
    subst heq
    omega
  -- the clock would be set back between the two, so `c` was shown before its first instant
  obtain ⟨e, he, hshow⟩ := h v u (by omega) (by omega)
  have hle := hc.2 (show z.wall e = c by omega)
  omega

theorem repeats_fixed (offset : Int) : (fixed offset).Repeats := by
  intro u v hlt hback
  simp only [wall, offsetAt] at hback
  omega

/-- The clock keeps one offset for a whole week of its days, in the years 1970 to 2100. -/
def KeepsWeek (z : Zone) : Prop :=
  ∃ day offset : Int, 0 ≤ day ∧ day + 7 ≤ Date.dayNumber ⟨2101, 1, 1⟩ ∧
    ∀ utc, day * secondsPerDay ≤ utc + offset → utc + offset < (day + 7) * secondsPerDay →
      z.offsetAt utc = offset

/-- **Every day of the week is shown**, from its midnight on, by a clock that keeps a week. -/
theorem KeepsWeek.exists_shown {z : Zone} (h : z.KeepsWeek) {d : Nat} (hd : d < 7) :
    ∃ utc day, z.wall utc = day * secondsPerDay ∧ 0 ≤ day ∧ day < Date.dayNumber ⟨2101, 1, 1⟩ ∧
      weekday day = d + 1 := by
  obtain ⟨first, offset, hfirst, hlast, hoffset⟩ := h
  -- one of the seven days from the first one on is the one that is looked for
  obtain ⟨day, hge, hlt, hweekday⟩ :
      ∃ day, first ≤ day ∧ day < first + 7 ∧ weekday day = d + 1 := by
    refine ⟨first + (d - (weekday first - 1 : Int)) % 7, ?_, ?_, ?_⟩ <;> unfold weekday <;> omega
  refine ⟨day * secondsPerDay - offset, day, ?_, by omega, by omega, hweekday⟩
  unfold wall
  rw [hoffset _ (by unfold secondsPerDay; omega) (by unfold secondsPerDay; omega)]
  omega

end Zone

/-- What is relied on of the zones of a book. -/
class LawfulZoneBook [ZoneBook] : Prop where
  /-- Every clock repeats what it is set back by. -/
  repeats {name : String} {z : Zone} : ZoneBook.named? name = some z → z.Repeats
  /-- Every clock keeps some week. -/
  keepsWeek {name : String} {z : Zone} : ZoneBook.named? name = some z → z.KeepsWeek

/-! ## §2. Years of universal time -/

theorem yearOf_eq_iff {utc y : Int} : Zone.yearOf utc = y ↔
    newYear y * secondsPerDay ≤ utc ∧ utc < newYear (y + 1) * secondsPerDay := by
  unfold Zone.yearOf
  rw [year_ofDayNumber_eq_iff]
  unfold secondsPerDay
  omega

/-- The days from 1 March to the first of a later month of the year. -/
def fromMarch (month : Nat) : Nat := (153 * (month - 3) + 2) / 5

/-- From March on a date is as far into its year as its month says, up to a leap day. -/
theorem dayNumber_bounds (y : Int) {month : Nat} (h : 3 ≤ month ∧ month ≤ 12) (day : Nat) :
    newYear y + 58 + fromMarch month + day ≤ Date.dayNumber ⟨y, month, day⟩ ∧
      Date.dayNumber ⟨y, month, day⟩ ≤ newYear y + 59 + fromMarch month + day := by
  have hyear := marchDays_succ (y - 1)
  rw [Int.sub_add_cancel] at hyear
  rw [newYear_eq, dayNumber_eq]
  unfold fromMarch
  simp only
  rw [if_neg (by omega)]
  omega

/-- A change as they are usual: from March to November, on one of the first four Sundays of the
month or the last one, and within a day of it. -/
structure Changeover.Usual (c : Changeover) : Prop where
  month : 3 ≤ c.month ∧ c.month ≤ 11
  sunday : ∀ n, c.sunday = .nth n → 1 ≤ n ∧ n ≤ 4
  second : -86400 ≤ c.second ∧ c.second ≤ 86400

theorem Changeover.Usual.nth {month n : Nat} {second : Int} (hm : 3 ≤ month ∧ month ≤ 11)
    (hn : 1 ≤ n ∧ n ≤ 4) (hs : -86400 ≤ second ∧ second ≤ 86400) :
    Changeover.Usual ⟨month, .nth n, second⟩ where
  month := hm
  sunday := by
    intro m heq
    cases heq
    exact hn
  second := hs

theorem Changeover.Usual.last {month : Nat} {second : Int} (hm : 3 ≤ month ∧ month ≤ 11)
    (hs : -86400 ≤ second ∧ second ≤ 86400) : Changeover.Usual ⟨month, .last, second⟩ where
  month := hm
  sunday := nofun
  second := hs

theorem daysInMonth_bounds (y : Int) (month : Nat) :
    28 ≤ daysInMonth y month ∧ daysInMonth y month ≤ 31 := by
  unfold daysInMonth
  split
  · split <;> omega
  · split <;> omega

/-- A usual change happens in its month or a day off it. -/
theorem Changeover.Usual.inYear_bounds {c : Changeover} (h : c.Usual) (y : Int) :
    (newYear y + 58 + fromMarch c.month) * 86400 ≤ c.inYear y ∧
      c.inYear y ≤ (newYear y + 91 + fromMarch c.month) * 86400 := by
  have hmonth : 3 ≤ c.month ∧ c.month ≤ 12 := ⟨h.month.1, by have := h.month.2; omega⟩
  have hsecond := h.second
  unfold Changeover.inYear secondsPerDay
  cases hs : c.sunday with
  | nth n =>
    have hn := h.sunday n hs
    have hfirst := dayNumber_bounds y hmonth 1
    simp only [nthSunday]
    omega
  | last =>
    have hlen := daysInMonth_bounds y c.month
    have hlast := dayNumber_bounds y hmonth (daysInMonth y c.month)
    have hpos := weekday_pos (Date.dayNumber ⟨y, c.month, daysInMonth y c.month⟩)
    have hle := weekday_le (Date.dayNumber ⟨y, c.month, daysInMonth y c.month⟩)
    simp only [lastSunday]
    omega

/-! ## §3. Summers -/

/-- The second lies in the period from the first change to the second. -/
def InSummer (start finish : Changeover) (utc : Int) : Prop :=
  let opens := start.inYear (Zone.yearOf utc)
  let closes := finish.inYear (Zone.yearOf utc)
  if opens ≤ closes then opens ≤ utc ∧ utc < closes else utc < closes ∨ opens ≤ utc

/-- A summer that ends is at least `shift` seconds old. -/
def Lasting (start finish : Changeover) (shift : Int) : Prop :=
  ∀ u v, InSummer start finish u → ¬ InSummer start finish v → u < v → v < u + shift →
    InSummer start finish (v - shift)

section Lasting

variable {start finish : Changeover} {shift : Int}

/-- Months that are two apart are far enough apart for their changes. -/
theorem fromMarch_add_le {m n : Nat} (hm : 3 ≤ m) (h : m + 2 ≤ n) :
    fromMarch m + 61 ≤ fromMarch n := by
  unfold fromMarch
  omega

theorem fromMarch_le {m : Nat} (h : m ≤ 11) : fromMarch m ≤ 245 := by
  unfold fromMarch
  omega

/-- Where summer opens first in the year, it is one stretch of it. -/
theorem inSummer_northern (hs : start.Usual) (hf : finish.Usual)
    (apart : start.month + 2 ≤ finish.month) {u y : Int} :
    InSummer start finish u ∧ Zone.yearOf u = y ↔ start.inYear y ≤ u ∧ u < finish.inYear y := by
  have hopens := hs.inYear_bounds y
  have hcloses := hf.inYear_bounds y
  have hk := fromMarch_add_le hs.month.1 apart
  have hk11 := fromMarch_le hf.month.2
  have hnext := (newYear_succ y).1
  -- the changes of a year are in order, so the first case of the definition applies
  constructor
  · intro hc
    obtain ⟨hsummer, rfl⟩ := hc
    unfold InSummer at hsummer
    simp only at hsummer
    rw [if_pos (by omega)] at hsummer
    exact hsummer
  · intro hu
    have hy : Zone.yearOf u = y := by
      rw [yearOf_eq_iff]
      unfold secondsPerDay
      omega
    refine ⟨?_, hy⟩
    unfold InSummer
    rw [hy]
    simp only
    rw [if_pos (by omega)]
    exact hu

theorem lasting_northern (hs : start.Usual) (hf : finish.Usual)
    (apart : start.month + 2 ≤ finish.month) (hshift : shift ≤ 86400) :
    Lasting start finish shift := by
  intro u v hu hv hlt hnear
  have hbounds := (inSummer_northern hs hf apart).mp ⟨hu, rfl⟩
  generalize Zone.yearOf u = y at hbounds
  have hopens := hs.inYear_bounds y
  have hcloses := hf.inYear_bounds y
  have hk := fromMarch_add_le hs.month.1 apart
  have hwithin : ∀ w, start.inYear y ≤ w → w < finish.inYear y → InSummer start finish w :=
    fun w h0 h1 => ((inSummer_northern hs hf apart).mpr ⟨h0, h1⟩).1
  -- summer ends between the two
  have hend : finish.inYear y ≤ v := by
    by_contra hbefore
    exact hv (hwithin v (by omega) (by omega))
  exact hwithin (v - shift) (by omega) (by omega)

/-- Where summer closes first in the year, it is what lies around one stretch of it. -/
theorem inSummer_southern (hs : start.Usual) (hf : finish.Usual)
    (apart : finish.month + 2 ≤ start.month) {u y : Int} (hy : Zone.yearOf u = y) :
    InSummer start finish u ↔ u < finish.inYear y ∨ start.inYear y ≤ u := by
  have hopens := hs.inYear_bounds y
  have hcloses := hf.inYear_bounds y
  have hk := fromMarch_add_le hf.month.1 apart
  unfold InSummer
  rw [hy]
  simp only
  rw [if_neg (by omega)]

theorem lasting_southern (hs : start.Usual) (hf : finish.Usual)
    (apart : finish.month + 2 ≤ start.month) (hshift : shift ≤ 86400) :
    Lasting start finish shift := by
  intro u v hu hv hlt hnear
  obtain ⟨y, hy⟩ : ∃ y, Zone.yearOf u = y := ⟨_, rfl⟩
  have hsummer := (inSummer_southern hs hf apart hy).mp hu
  obtain ⟨hfirst, hlast⟩ := yearOf_eq_iff.mp hy
  have hcloses := hf.inYear_bounds y
  have hcloses' := hf.inYear_bounds (y + 1)
  have hk11 := fromMarch_le hf.month.2
  have hnext := (newYear_succ y).1
  have hnext' := (newYear_succ (y + 1)).1
  unfold secondsPerDay at hfirst hlast
  have hyear : ∀ w, newYear y * 86400 ≤ w → w < newYear (y + 1) * 86400 → Zone.yearOf w = y :=
    fun w h0 h1 => yearOf_eq_iff.mpr ⟨h0, h1⟩
  rcases hsummer with hbefore | hafter
  · -- summer ends between the two, in the same year
    have hvy := hyear v (by omega) (by omega)
    have hend : finish.inYear y ≤ v := by
      by_contra hlate
      exact hv ((inSummer_southern hs hf apart hvy).mpr (.inl (by omega)))
    exact (inSummer_southern hs hf apart (hyear _ (by omega) (by omega))).mpr (.inl (by omega))
  · -- no summer ends within a day of New Year
    refine absurd ?_ hv
    by_cases hsame : v < newYear (y + 1) * 86400
    · exact (inSummer_southern hs hf apart (hyear v (by omega) hsame)).mpr (.inr (by omega))
    · have hvy : Zone.yearOf v = y + 1 := by
        rw [yearOf_eq_iff]
        unfold secondsPerDay
        omega
      exact (inSummer_southern hs hf apart hvy).mpr (.inl (by omega))

end Lasting

namespace Zone

/-! ## §4. Zones with summers -/

variable {start finish : Changeover} {standard shift utc : Int}

theorem wall_of_summer (h : InSummer start finish utc) :
    (seasonal standard (standard + shift) start finish).wall utc = utc + standard + shift := by
  have ho : (seasonal standard (standard + shift) start finish).offsetAt utc = standard + shift :=
    if_pos h
  unfold wall
  rw [ho, Int.add_assoc]

theorem wall_of_winter (h : ¬ InSummer start finish utc) :
    (seasonal standard (standard + shift) start finish).wall utc = utc + standard := by
  have ho : (seasonal standard (standard + shift) start finish).offsetAt utc = standard := if_neg h
  unfold wall
  rw [ho]

/-- Where the clock went back, a summer ended less than its shift before. -/
theorem summer_ended {u v : Int} (hshift : 0 ≤ shift) (hlt : u < v)
    (hback : (seasonal standard (standard + shift) start finish).wall v
      < (seasonal standard (standard + shift) start finish).wall u) :
    InSummer start finish u ∧ ¬ InSummer start finish v ∧ v < u + shift := by
  -- with the same offset at both ends, or a greater one at the later, the clock went forward
  by_cases hu : InSummer start finish u <;> by_cases hv : InSummer start finish v
  · rw [wall_of_summer hu, wall_of_summer hv] at hback
    omega
  · rw [wall_of_summer hu, wall_of_winter hv] at hback
    exact ⟨hu, hv, by omega⟩
  · rw [wall_of_winter hu, wall_of_summer hv] at hback
    omega
  · rw [wall_of_winter hu, wall_of_winter hv] at hback
    omega

/-- The clock shows again in winter what it has shown one shift earlier in summer. -/
theorem wall_sub_shift {v : Int} (hbefore : InSummer start finish (v - shift))
    (hv : ¬ InSummer start finish v) :
    (seasonal standard (standard + shift) start finish).wall (v - shift)
      = (seasonal standard (standard + shift) start finish).wall v := by
  rw [wall_of_summer hbefore, wall_of_winter hv]
  omega

/-- **Clocks that change with the seasons repeat what they are set back by.** -/
theorem repeats_seasonal (h : Lasting start finish shift) (hshift : 0 ≤ shift) :
    (seasonal standard (standard + shift) start finish).Repeats := by
  intro u v hlt hback
  obtain ⟨hu, hv, hnear⟩ := summer_ended hshift hlt hback
  exact ⟨v - shift, by omega, wall_sub_shift (h u v hu hv hlt hnear) hv⟩

/-! ## §5. Zones with eras -/

theorem wall_era_of_lt {border u : Int} {before after : Zone} (h : u < border) :
    (era border before after).wall u = before.wall u := by
  unfold wall
  rw [offsetAt, if_pos h]

theorem wall_era_of_le {border u : Int} {before after : Zone} (h : border ≤ u) :
    (era border before after).wall u = after.wall u := by
  unfold wall
  rw [offsetAt, if_neg (Int.not_lt.mpr h)]

end Zone

end CronSupervisor.Calendar
