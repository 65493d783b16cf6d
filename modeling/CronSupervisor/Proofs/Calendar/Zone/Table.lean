/-
  CronSupervisor.Proofs.Calendar.Zone.Table — the table of zones is a lawful one.

  Main statements:
    * `repeats_zones` — every clock of the table repeats what it is set back by.
    * `keepsWeek_zones` — every clock of the table keeps some week.
-/
import CronSupervisor.Platform
import CronSupervisor.Proofs.Calendar.Zone

namespace CronSupervisor.Calendar.Zone

/-! ## §1. Clocks that are set back -/

theorem repeats_northAmerican {standard startHour finishHour : Int}
    (hstandard : -43200 ≤ standard ∧ standard ≤ 0) (hstart : 0 ≤ startHour ∧ startHour ≤ 12)
    (hfinish : 1 ≤ finishHour ∧ finishHour ≤ 12) :
    (northAmerican standard startHour finishHour).Repeats := by
  have hs : Changeover.Usual ⟨3, .nth 2, startHour * 3600 - standard⟩ :=
    .nth (by decide) (by decide) (by omega)
  have hf : Changeover.Usual ⟨11, .nth 1, finishHour * 3600 - (standard + 3600)⟩ :=
    .nth (by decide) (by decide) (by omega)
  exact repeats_seasonal (lasting_northern hs hf (Nat.le_add_right 5 6) (by decide)) (by decide)

theorem repeats_european (standard : Int) : (european standard).Repeats := by
  have hs : Changeover.Usual ⟨3, .last, 3600⟩ := .last (by decide) (by decide)
  have hf : Changeover.Usual ⟨10, .last, 3600⟩ := .last (by decide) (by decide)
  exact repeats_seasonal (lasting_northern hs hf (by decide) (by decide)) (by decide)

theorem repeats_lordHowe : lordHowe.Repeats := by
  have hs : Changeover.Usual ⟨10, .nth 1, 2 * 3600 - east 10 30⟩ :=
    .nth (by decide) (by decide) (by decide)
  have hf : Changeover.Usual ⟨4, .nth 1, 2 * 3600 - east 11 0⟩ :=
    .nth (by decide) (by decide) (by decide)
  have hlasting : Lasting _ _ 1800 := lasting_southern hs hf (by decide) (by decide)
  exact repeats_seasonal hlasting (by decide)

/-! ### Samoa -/

/-- The clock crossed the date line at this second. -/
def apiaCrossing : Int := Date.dayNumber ⟨2011, 12, 30⟩ * secondsPerDay + 10 * 3600

/-- The last second of summer time was before this one. -/
def apiaReform : Int := Date.dayNumber ⟨2021, 6, 1⟩ * secondsPerDay

def apiaStart : Changeover := ⟨9, .last, 3 * 3600 - east 13 0⟩

def apiaFinish : Changeover := ⟨4, .nth 1, 4 * 3600 - east 14 0⟩

/-- The date line was crossed in a summer, an hour at least before its end. -/
theorem inSummer_apiaCrossing {u : Int} (h : apiaCrossing ≤ u ∧ u < apiaCrossing + 3600) :
    InSummer apiaStart apiaFinish u := by
  have hfirst : newYear 2011 * secondsPerDay ≤ apiaCrossing := by decide
  have hlast : apiaCrossing + 3600 ≤ newYear (2011 + 1) * secondsPerDay := by decide
  have hopen : apiaStart.inYear 2011 ≤ apiaCrossing := by decide
  have hyear : yearOf u = 2011 := yearOf_eq_iff.mpr (by omega)
  unfold InSummer
  rw [hyear]
  simp only
  rw [if_neg (by decide)]
  exact .inr (by omega)

/-- Summer time was given up in a winter, an hour at least after its beginning. -/
theorem not_inSummer_apiaReform {u : Int} (h : apiaReform - 3600 ≤ u ∧ u < apiaReform) :
    ¬ InSummer apiaStart apiaFinish u := by
  have hfirst : newYear 2021 * secondsPerDay ≤ apiaReform - 3600 := by decide
  have hlast : apiaReform ≤ newYear (2021 + 1) * secondsPerDay := by decide
  have hclose : apiaFinish.inYear 2021 ≤ apiaReform - 3600 := by decide
  have hopen : apiaReform ≤ apiaStart.inYear 2021 := by decide
  have hyear : yearOf u = 2021 := yearOf_eq_iff.mpr (by omega)
  unfold InSummer
  rw [hyear]
  simp only
  rw [if_neg (by decide)]
  omega

theorem apia_eq : apia = era apiaCrossing (fixed (-36000))
    (era apiaReform (seasonal 46800 (46800 + 3600) apiaStart apiaFinish) (fixed 46800)) := rfl

theorem wall_apia_before {u : Int} (h : u < apiaCrossing) : apia.wall u = u - 36000 := by
  rw [apia_eq, wall_era_of_lt h]
  rfl

theorem wall_apia_between {u : Int} (h : apiaCrossing ≤ u) (hr : u < apiaReform) :
    apia.wall u = (seasonal 46800 (46800 + 3600) apiaStart apiaFinish).wall u := by
  rw [apia_eq, wall_era_of_le h, wall_era_of_lt hr]

theorem wall_apia_after {u : Int} (h : apiaReform ≤ u) : apia.wall u = u + 46800 := by
  have horder : apiaCrossing < apiaReform := by decide
  rw [apia_eq, wall_era_of_le (by omega), wall_era_of_le h]
  rfl

/-- The clock was set forward across the date line. -/
theorem le_wall_apia {u : Int} (h : apiaCrossing ≤ u) : u + 46800 ≤ apia.wall u := by
  by_cases hr : u < apiaReform
  · rw [wall_apia_between h hr]
    by_cases hsummer : InSummer apiaStart apiaFinish u
    · rw [wall_of_summer hsummer]
      omega
    · rw [wall_of_winter hsummer]
  · rw [wall_apia_after (by omega)]

theorem repeats_apia : apia.Repeats := by
  have hlasting : Lasting apiaStart apiaFinish 3600 :=
    lasting_southern (.last (by decide) (by decide)) (.nth (by decide) (by decide) (by decide))
      (by decide) (by decide)
  intro u v hlt hback
  -- the clock is set back only between the crossing and the reform, with the seasons
  by_cases hv : v < apiaCrossing
  · rw [wall_apia_before hv, wall_apia_before (by omega)] at hback
    omega
  have hlow := le_wall_apia (u := v) (by omega)
  by_cases hu : u < apiaCrossing
  · rw [wall_apia_before hu] at hback
    omega
  by_cases hv' : v < apiaReform
  · -- both follow the seasons; a summer that the crossing lies in has not ended within its hour
    rw [wall_apia_between (by omega) hv', wall_apia_between (by omega) (by omega)] at hback
    obtain ⟨hus, hvs, hnear⟩ := summer_ended (by decide) hlt hback
    have hbefore := hlasting u v hus hvs hlt hnear
    have hcrossed : apiaCrossing ≤ v - 3600 := by
      by_contra hearly
      exact hvs (inSummer_apiaCrossing ⟨by omega, by omega⟩)
    refine ⟨v - 3600, by omega, ?_⟩
    rw [wall_apia_between hcrossed (by omega), wall_apia_between (by omega) hv']
    exact wall_sub_shift hbefore hvs
  · rw [wall_apia_after (u := v) (by omega)] at hback
    by_cases hu' : u < apiaReform
    · -- the clock was not in summer time when that was given up
      rw [wall_apia_between (by omega) hu'] at hback
      by_cases hus : InSummer apiaStart apiaFinish u
      · rw [wall_of_summer hus] at hback
        exact absurd hus (not_inSummer_apiaReform ⟨by omega, hu'⟩)
      · rw [wall_of_winter hus] at hback
        omega
    · rw [wall_apia_after (by omega)] at hback
      omega

theorem repeats_zones : ∀ p ∈ zones, p.2.Repeats := by
  have hnewYork : (northAmerican (west 5 0) 2 2).Repeats :=
    repeats_northAmerican (by decide) (by decide) (by decide)
  have hstJohns : (northAmerican (west 3 30) 2 2).Repeats :=
    repeats_northAmerican (by decide) (by decide) (by decide)
  have hhavana : (northAmerican (west 5 0) 0 1).Repeats :=
    repeats_northAmerican (by decide) (by decide) (by decide)
  simp only [zones, List.forall_mem_cons, repeats_fixed, repeats_european, hnewYork, hstJohns,
    hhavana, repeats_lordHowe, repeats_apia, true_and]
  exact nofun

/-! ## §2. A week of January 1970 -/

/-- The seconds of the second week of 1970 lie in that year, whatever the clock shows. -/
theorem yearOf_secondWeek {utc offset : Int} (hoffset : -86400 ≤ offset ∧ offset ≤ 86400)
    (hlow : 7 * secondsPerDay ≤ utc + offset) (hhigh : utc + offset < (7 + 7) * secondsPerDay) :
    yearOf utc = 1970 := by
  have hfirst : newYear 1970 = 0 := by decide
  have hnext : newYear (1970 + 1) = 365 := by decide
  rw [yearOf_eq_iff, hfirst, hnext]
  unfold secondsPerDay at *
  omega

theorem keepsWeek_fixed (offset : Int) : (fixed offset).KeepsWeek :=
  ⟨0, offset, by decide, by decide, fun _ _ _ => rfl⟩

/-- In the north it is winter. -/
theorem keepsWeek_northern {standard daylight : Int} {start finish : Changeover}
    (hstandard : -86400 ≤ standard ∧ standard ≤ 86400)
    (hopens : 15 * 86400 ≤ start.inYear 1970) (horder : start.inYear 1970 ≤ finish.inYear 1970) :
    (seasonal standard daylight start finish).KeepsWeek := by
  refine ⟨7, standard, by decide, by decide, fun utc hlow hhigh => if_neg ?_⟩
  rw [yearOf_secondWeek hstandard hlow hhigh]
  simp only [if_pos horder]
  unfold secondsPerDay at hhigh
  omega

/-- In the south it is summer. -/
theorem keepsWeek_southern {standard daylight : Int} {start finish : Changeover}
    (hdaylight : -86400 ≤ daylight ∧ daylight ≤ 86400)
    (hcloses : 15 * 86400 ≤ finish.inYear 1970) (horder : finish.inYear 1970 < start.inYear 1970) :
    (seasonal standard daylight start finish).KeepsWeek := by
  refine ⟨7, daylight, by decide, by decide, fun utc hlow hhigh => if_pos ?_⟩
  rw [yearOf_secondWeek hdaylight hlow hhigh]
  simp only [if_neg (Int.not_le.mpr horder)]
  unfold secondsPerDay at hhigh
  omega

theorem keepsWeek_apia : apia.KeepsWeek := by
  have hcrossing : 15 * 86400 ≤ apiaCrossing := by decide
  refine ⟨7, -36000, by decide, by decide, fun utc hlow hhigh => ?_⟩
  unfold secondsPerDay at hhigh
  have hbefore := wall_apia_before (show utc < apiaCrossing by omega)
  unfold wall at hbefore
  omega

theorem keepsWeek_zones : ∀ p ∈ zones, p.2.KeepsWeek := by
  have hnewYork : (northAmerican (west 5 0) 2 2).KeepsWeek :=
    keepsWeek_northern (by decide) (by decide) (by decide)
  have hstJohns : (northAmerican (west 3 30) 2 2).KeepsWeek :=
    keepsWeek_northern (by decide) (by decide) (by decide)
  have hhavana : (northAmerican (west 5 0) 0 1).KeepsWeek :=
    keepsWeek_northern (by decide) (by decide) (by decide)
  have hberlin : (european (east 1 0)).KeepsWeek :=
    keepsWeek_northern (by decide) (by decide) (by decide)
  have hlondon : (european 0).KeepsWeek :=
    keepsWeek_northern (by decide) (by decide) (by decide)
  have hlordHowe : lordHowe.KeepsWeek :=
    keepsWeek_southern (by decide) (by decide) (by decide)
  simp only [zones, List.forall_mem_cons, keepsWeek_fixed, hnewYork, hstJohns, hhavana, hberlin,
    hlondon, hlordHowe, keepsWeek_apia, true_and]
  exact nofun

end CronSupervisor.Calendar.Zone

namespace CronSupervisor.Platform

open Calendar

/-! ## §3. The table as a book -/

theorem mem_zones_of_named {name : String} {z : Zone} (h : ZoneBook.named? name = some z) :
    (name, z) ∈ zones := by
  obtain ⟨l, r, hzones, -⟩ := List.lookup_eq_some_iff.mp h
  rw [hzones]
  exact List.mem_append_right _ List.mem_cons_self

scoped instance lawfulZoneBook : LawfulZoneBook where
  repeats h := Zone.repeats_zones _ (mem_zones_of_named h)
  keepsWeek h := Zone.keepsWeek_zones _ (mem_zones_of_named h)

end CronSupervisor.Platform
