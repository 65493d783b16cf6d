/-
  CronSupervisor.Proofs.Calendar.Date — dates and day numbers are two names of the same days.

  Both conversions count years from March.  `marchDays` is the count that they share: a day number
  is the first day of such a year and a day of that year, and the date is read off the latter by
  arithmetic.  From this form come the inverse, the bounds of month and day, and the days of a year.

  Main statements:
    * `dayNumber_ofDayNumber` — the date of a day number has that day number.
    * `day_le_daysInMonth` — it is a date that its month has.
    * `year_ofDayNumber_eq_iff` — its year is the one whose first days it lies between.
-/
import CronSupervisor.Calendar.Date
import Mathlib.Tactic.IntervalCases

namespace CronSupervisor.Calendar

/-! ## §1. Years counted from March -/

/-- Days from 1 March of year 0 to 1 March of a year. -/
def marchDays (y : Int) : Int := 365 * y + y / 4 - y / 100 + y / 400

theorem marchDays_succ (y : Int) :
    marchDays y + 365 ≤ marchDays (y + 1) ∧ marchDays (y + 1) ≤ marchDays y + 366 := by
  unfold marchDays
  omega

theorem marchDays_add_cycles (y cycle : Int) :
    marchDays (y + cycle * 400) = marchDays y + cycle * daysPerCycle := by
  unfold marchDays daysPerCycle
  omega

/-- The year that begins in a leap year's March is the one before its leap day. -/
theorem isLeapYear_of_marchDays {y : Int} (h : marchDays (y + 1) = marchDays y + 366) :
    isLeapYear (y + 1) = true := by
  unfold marchDays at h
  have hy : (y + 1) % 4 = 0 ∧ ((y + 1) % 100 ≠ 0 ∨ (y + 1) % 400 = 0) := by omega
  unfold isLeapYear
  simpa using hy

/-- The day number of a date in years counted from March. -/
theorem dayNumber_eq (d : Date) :
    d.dayNumber = marchDays (if d.month ≤ 2 then d.year - 1 else d.year)
      + ((153 * (((d.month : Int) + 9) % 12) + 2) / 5 + d.day - 1) + cycleStart := by
  unfold Date.dayNumber marchDays daysPerCycle
  simp only
  generalize (if d.month ≤ 2 then d.year - 1 else d.year) = y
  omega

/-! ## §2. Days of a cycle -/

/-- A day of the cycle is some days into a year of a leap period of a century. -/
theorem exists_parts {n : Int} (h0 : 0 ≤ n) (h1 : n < daysPerCycle) :
    ∃ c k j d : Int, n = 36524 * c + 1461 * k + 365 * j + d ∧ (0 ≤ c ∧ c ≤ 3) ∧
      (0 ≤ k ∧ k ≤ 24) ∧ (0 ≤ j ∧ j ≤ 3) ∧ (0 ≤ d ∧ d ≤ 365) ∧
      (d = 365 → j = 3 ∧ (k < 24 ∨ c = 3)) := by
  unfold daysPerCycle at h1
  -- the last day of the cycle belongs to the last century, and a leap day to the last year
  obtain ⟨c, hc⟩ : ∃ c, c = min (n / 36524) 3 := ⟨_, rfl⟩
  obtain ⟨r, hr⟩ : ∃ r, r = (n - 36524 * c) % 1461 := ⟨_, rfl⟩
  refine ⟨c, (n - 36524 * c) / 1461, min (r / 365) 3, r - 365 * min (r / 365) 3, ?_⟩
  omega

theorem yearOfCycle_eq {n c k j d : Int} (hn : n = 36524 * c + 1461 * k + 365 * j + d)
    (hc : 0 ≤ c ∧ c ≤ 3) (hk : 0 ≤ k ∧ k ≤ 24) (hj : 0 ≤ j ∧ j ≤ 3) (hd : 0 ≤ d ∧ d ≤ 365)
    (hleap : d = 365 → j = 3 ∧ (k < 24 ∨ c = 3)) :
    (n - n / 1460 + n / 36524 - n / 146096) / 365 = 100 * c + 4 * k + j := by
  have hperiods : n / 1460
      = 25 * c + k + if 1460 ≤ 24 * c + k + 365 * j + d then 1 else 0 := by
    split <;> omega
  have hcenturies : n / 36524 - n / 146096 = c := by
    by_cases hend : n = 146096
    · omega
    · have hlt : n < 36524 * (c + 1) := by omega
      have hzero : n / 146096 = 0 := by omega
      omega
  have hdays : n - n / 1460 + n / 36524 - n / 146096 = 365 * (100 * c + 4 * k + j)
      + (d - if 1460 ≤ 24 * c + k + 365 * j + d then 1 else 0) := by
    omega
  rw [hdays]
  split <;> omega

/-- The year of the cycle is the one that a day of the cycle lies in. -/
theorem yearOfCycle_bounds {n : Int} (h0 : 0 ≤ n) (h1 : n < daysPerCycle) :
    let y := (n - n / 1460 + n / 36524 - n / 146096) / 365
    0 ≤ y ∧ y ≤ 399 ∧ marchDays y ≤ n ∧ n < marchDays (y + 1) := by
  obtain ⟨c, k, j, d, hn, hc, hk, hj, hd, hleap⟩ := exists_parts h0 h1
  intro y
  have hy : y = 100 * c + 4 * k + j := yearOfCycle_eq hn hc hk hj hd hleap
  clear_value y
  subst hy
  unfold marchDays
  have h4 : (100 * c + 4 * k + j) / 4 = 25 * c + k := by omega
  have h100 : (100 * c + 4 * k + j) / 100 = c := by omega
  have h400 : (100 * c + 4 * k + j) / 400 = 0 := by omega
  refine ⟨by omega, by omega, by omega, ?_⟩
  by_cases hj3 : j = 3
  · -- the fourth year has a leap day, unless it is the last of the first three centuries
    subst hj3
    by_cases hk24 : k = 24
    · subst hk24
      omega
    · have h4' : (100 * c + 4 * k + 3 + 1) / 4 = 25 * c + k + 1 := by omega
      have h100' : (100 * c + 4 * k + 3 + 1) / 100 = c := by omega
      omega
  · have h4' : (100 * c + 4 * k + j + 1) / 4 = 25 * c + k := by omega
    have h100' : (100 * c + 4 * k + j + 1) / 100 = c := by omega
    omega

/-! ## §3. Dates of day numbers -/

/-- A day number lies in one year counted from March, and its date is read off the day of that
year. -/
theorem ofDayNumber_eq (n : Int) : ∃ y dayOfYear : Int,
    n = marchDays y + dayOfYear + cycleStart ∧ 0 ≤ dayOfYear ∧
      marchDays y + dayOfYear < marchDays (y + 1) ∧
      Date.ofDayNumber n =
        let m := (5 * dayOfYear + 2) / 153
        { year := if m < 10 then y else y + 1
          month := (if m < 10 then m + 3 else m - 9).toNat
          day := (dayOfYear - (153 * m + 2) / 5 + 1).toNat } := by
  have h0 : 0 ≤ (n - cycleStart) % daysPerCycle := Int.emod_nonneg _ (by decide)
  have h1 : (n - cycleStart) % daysPerCycle < daysPerCycle := Int.emod_lt_of_pos _ (by decide)
  have hsplit := Int.ediv_mul_add_emod (n - cycleStart) daysPerCycle
  obtain ⟨hy0, hy1, hlow, hhigh⟩ := yearOfCycle_bounds h0 h1
  unfold Date.ofDayNumber
  simp only
  generalize (n - cycleStart) % daysPerCycle = day at *
  generalize (n - cycleStart) / daysPerCycle = cycle at *
  generalize (day - day / 1460 + day / 36524 - day / 146096) / 365 = y at *
  have hstart : marchDays y = 365 * y + y / 4 - y / 100 := by
    unfold marchDays
    omega
  refine ⟨y + cycle * 400, day - marchDays y, ?_, by omega, ?_, ?_⟩
  · rw [marchDays_add_cycles]
    omega
  · rw [Int.add_right_comm, marchDays_add_cycles, marchDays_add_cycles]
    omega
  · have hle := (marchDays_succ y).2
    have hd0 : 0 ≤ day - (365 * y + y / 4 - y / 100) := by omega
    have hd1 : day - (365 * y + y / 4 - y / 100) < 366 := by omega
    rw [hstart]
    generalize day - (365 * y + y / 4 - y / 100) = d at hd0 hd1 ⊢
    by_cases hm : (5 * d + 2) / 153 < 10
    · rw [if_pos hm, if_pos hm, if_neg (by omega), Int.add_zero]
    · rw [if_neg hm, if_neg hm, if_pos (by omega)]

theorem dayOfYear_lt {y d : Int} (h : marchDays y + d < marchDays (y + 1)) : d < 366 := by
  have hle := (marchDays_succ y).2
  omega

/-- **The date of a day number has that day number.** -/
theorem dayNumber_ofDayNumber (n : Int) : (Date.ofDayNumber n).dayNumber = n := by
  obtain ⟨y, d, hn, h0, h1, hdate⟩ := ofDayNumber_eq n
  have hd := dayOfYear_lt h1
  rw [hdate, dayNumber_eq]
  simp only
  -- the month from March on, and the days before it
  have hm0 : 0 ≤ (5 * d + 2) / 153 := by omega
  have hm1 : (5 * d + 2) / 153 ≤ 11 := by omega
  have hbefore : (153 * ((5 * d + 2) / 153) + 2) / 5 ≤ d := by omega
  generalize (5 * d + 2) / 153 = m at *
  have hday : ((d - (153 * m + 2) / 5 + 1).toNat : Int) = d - (153 * m + 2) / 5 + 1 := by omega
  rw [hday]
  by_cases hm : m < 10
  · have hmonth : (((m + 3).toNat : Int) + 9) % 12 = m := by omega
    rw [if_pos hm, if_pos hm, if_neg (by omega), hmonth]
    omega
  · have hmonth : (((m - 9).toNat : Int) + 9) % 12 = m := by omega
    rw [if_neg hm, if_neg hm, if_pos (by omega), hmonth, Int.add_sub_cancel]
    omega

theorem month_ofDayNumber (n : Int) :
    1 ≤ (Date.ofDayNumber n).month ∧ (Date.ofDayNumber n).month ≤ 12 := by
  obtain ⟨y, d, hn, h0, h1, hdate⟩ := ofDayNumber_eq n
  have hd := dayOfYear_lt h1
  rw [hdate]
  simp only
  split <;> omega

theorem day_ofDayNumber_pos (n : Int) : 1 ≤ (Date.ofDayNumber n).day := by
  obtain ⟨y, d, hn, h0, h1, hdate⟩ := ofDayNumber_eq n
  rw [hdate]
  simp only
  omega

/-- Months but February, counted from March, have the lengths of the linear rule. -/
theorem daysInMonth_of_march (y : Int) {m : Nat} (h : m ≤ 10) :
    daysInMonth y (if m < 10 then m + 3 else m - 9)
      = (153 * (m + 1) + 2) / 5 - (153 * m + 2) / 5 := by
  interval_cases m <;> rfl

/-- **The date of a day number is a date that its month has.** -/
theorem day_le_daysInMonth (n : Int) :
    (Date.ofDayNumber n).day
      ≤ daysInMonth (Date.ofDayNumber n).year (Date.ofDayNumber n).month := by
  obtain ⟨y, d, hn, h0, h1, hdate⟩ := ofDayNumber_eq n
  have hd := dayOfYear_lt h1
  rw [hdate]
  simp only
  obtain ⟨m, hm⟩ : ∃ m : Nat, (5 * d + 2) / 153 = m := ⟨((5 * d + 2) / 153).toNat, by omega⟩
  rw [hm]
  have hmonth : (if (m : Int) < 10 then (m : Int) + 3 else m - 9).toNat
      = if m < 10 then m + 3 else m - 9 := by
    split <;> split <;> omega
  rw [hmonth]
  have hfirst : (153 * (m : Int) + 2) / 5 = ((153 * m + 2) / 5 : Nat) := by push_cast; rfl
  have hlast : d < ((153 * (m + 1) + 2) / 5 : Nat) := by omega
  rw [hfirst]
  by_cases hfeb : m = 11
  · -- February ends the year; it has a 29th only if the year has 366 days
    subst hfeb
    have hleap : isLeapYear (y + 1) = true ∨ d < 365 := by
      by_cases hlong : marchDays (y + 1) = marchDays y + 366
      · exact .inl (isLeapYear_of_marchDays hlong)
      · have hle := (marchDays_succ y).2
        exact .inr (by omega)
    show (d - (337 : Nat) + 1).toNat ≤ if isLeapYear (y + 1) = true then 29 else 28
    split
    next => omega
    next hcommon =>
      have hlt := hleap.resolve_left hcommon
      omega
  · rw [daysInMonth_of_march _ (by omega)]
    omega

/-! ## §4. Years -/

/-- The day number of 1 January. -/
def newYear (y : Int) : Int := Date.dayNumber ⟨y, 1, 1⟩

theorem newYear_eq (y : Int) : newYear y = marchDays (y - 1) + 306 + cycleStart := by
  unfold newYear
  rw [dayNumber_eq]
  simp

theorem newYear_succ (y : Int) :
    newYear y + 365 ≤ newYear (y + 1) ∧ newYear (y + 1) ≤ newYear y + 366 := by
  have h := marchDays_succ (y - 1)
  rw [Int.sub_add_cancel] at h
  rw [newYear_eq, newYear_eq, Int.add_sub_cancel]
  omega

theorem newYear_le {y z : Int} (h : y < z) : newYear (y + 1) ≤ newYear z := by
  rw [newYear_eq, newYear_eq]
  unfold marchDays
  omega

/-- A day lies between the first days of its year and of the next. -/
theorem year_ofDayNumber (n : Int) :
    newYear (Date.ofDayNumber n).year ≤ n ∧ n < newYear ((Date.ofDayNumber n).year + 1) := by
  obtain ⟨y, d, hn, h0, h1, hdate⟩ := ofDayNumber_eq n
  have hd := dayOfYear_lt h1
  have hprev := marchDays_succ (y - 1)
  have hnext := marchDays_succ y
  rw [Int.sub_add_cancel] at hprev
  rw [hdate]
  simp only
  rw [newYear_eq, newYear_eq]
  -- January and February belong to the year that is counted from the March before
  by_cases hm : (5 * d + 2) / 153 < 10
  · rw [if_pos hm, Int.add_sub_cancel]
    omega
  · rw [if_neg hm, Int.add_sub_cancel, Int.add_sub_cancel]
    omega

/-- **The year of a day is the one whose first days it lies between.** -/
theorem year_ofDayNumber_eq_iff {n y : Int} :
    (Date.ofDayNumber n).year = y ↔ newYear y ≤ n ∧ n < newYear (y + 1) := by
  have h := year_ofDayNumber n
  constructor
  · intro heq
    subst heq
    exact h
  · intro ⟨h0, h1⟩
    rcases Int.lt_trichotomy (Date.ofDayNumber n).year y with hlt | heq | hgt
    · have hle := newYear_le hlt
      omega
    · exact heq
    · have hle := newYear_le hgt
      omega

/-- The days from one New Year to another are those of the years between. -/
theorem year_ofDayNumber_mem_iff {n y z : Int} :
    y ≤ (Date.ofDayNumber n).year ∧ (Date.ofDayNumber n).year < z
      ↔ newYear y ≤ n ∧ n < newYear z := by
  have h := year_ofDayNumber n
  generalize (Date.ofDayNumber n).year = x at h ⊢
  have hmono : ∀ a b, a < b → newYear (a + 1) ≤ newYear b := fun _ _ => newYear_le
  constructor
  · intro ⟨hy, hz⟩
    have hlow : newYear y ≤ newYear x := by
      rcases Int.lt_or_eq_of_le hy with hlt | rfl
      · have h1 := hmono y x hlt
        have h2 := (newYear_succ y).1
        omega
      · exact Int.le_refl _
    have hhigh := hmono x z hz
    omega
  · intro ⟨hy, hz⟩
    constructor
    · by_contra hlt
      have hle := hmono x y (by omega)
      omega
    · by_contra hge
      rcases Int.lt_or_eq_of_le (Int.not_lt.mp hge) with hlt | rfl
      · have h1 := hmono z x hlt
        have h2 := (newYear_succ z).1
        omega
      · omega

end CronSupervisor.Calendar
