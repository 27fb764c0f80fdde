import Ladybug.Instant.Basic
import Mathlib.Algebra.Order.Group.Nat

/-!
# Days of the calendar

A number of days is taken apart into a period of 400 years, a year of the period that begins in
March, and a day of that year. A year of a period is found by a quotient that grows with the days,
so it is enough to look at the first and the last day of each year.

* `Date.firstDay`        the first day of a year of a period
* `Date.yearOf_eq`       the year that the quotient gives
* `Date.inYear`          the day of the calendar for a period, a year and a day of it
* `Date.exists_inYear`   every number of days is such a day
* `Date.valid_ofNumber`  from year 0 up to year 9999, a number of days gives a day of the calendar
-/

namespace Ladybug.Date

/-! ### years of a period -/

/-- the first day of a year of a period -/
def firstDay (year : Nat) : Nat := 365 * year + year / 4 - year / 100 + year / 400

/-- the days of the year that begins in March of some year -/
def yearLength (year : Nat) : Nat := if isLeap (year + 1) then 366 else 365

theorem yearLength_le (year : Nat) : yearLength year ≤ 366 := by
  unfold yearLength
  split_ifs <;> decide

theorem isLeap_iff (year : Nat) :
    isLeap year = true ↔ 4 ∣ year ∧ (¬ 100 ∣ year ∨ 400 ∣ year) := by
  simp only [isLeap, Bool.and_eq_true, Bool.or_eq_true, beq_iff_eq, bne_iff_ne, ne_eq,
    Nat.dvd_iff_mod_eq_zero]

theorem firstDay_succ (year : Nat) : firstDay (year + 1) = firstDay year + yearLength year := by
  have hle : year / 100 ≤ year / 4 := Nat.div_le_div_left (by decide) (by decide)
  have hcentury : 100 ∣ year + 1 → 4 ∣ year + 1 := fun h => Nat.dvd_trans (by decide) h
  have hperiod : 400 ∣ year + 1 → 100 ∣ year + 1 := fun h => Nat.dvd_trans (by decide) h
  simp only [firstDay, yearLength, isLeap_iff, Nat.succ_div]
  by_cases h4 : 4 ∣ year + 1
  · by_cases h100 : 100 ∣ year + 1
    · by_cases h400 : 400 ∣ year + 1
      · simp only [h4, h100, h400, not_true_eq_false, or_true, and_self, ↓reduceIte]
        omega
      · simp only [h4, h100, h400, not_true_eq_false, or_self, and_false, ↓reduceIte]
        omega
    · have h400 : ¬ 400 ∣ year + 1 := fun h => h100 (hperiod h)
      simp only [h4, h100, h400, not_false_eq_true, true_or, and_self, ↓reduceIte]
      omega
  · have h100 : ¬ 100 ∣ year + 1 := fun h => h4 (hcentury h)
    have h400 : ¬ 400 ∣ year + 1 := fun h => h100 (hperiod h)
    simp only [h4, h100, h400, false_and, ↓reduceIte]
    omega

theorem firstDay_mono : Monotone firstDay :=
  monotone_nat_of_le_succ fun year => by
    rw [firstDay_succ]
    exact Nat.le_add_right _ _

/-- what a day of a period is divided by the length of a year -/
def evened (day : Nat) : Nat := day - day / 1460 + day / 36524 - day / 146096

def yearOf (day : Nat) : Nat := evened day / 365

theorem evened_mono : Monotone evened := by
  refine monotone_nat_of_le_succ fun day => ?_
  -- a division by 146096 is one by 36524 and one by 4
  have hsplit (day : Nat) : day / 146096 = day / 36524 / 4 := by rw [Nat.div_div_eq_div_mul]
  unfold evened
  rw [hsplit, hsplit]
  omega

/-- The first and the last day of a year of a period. -/
theorem evened_ends : ∀ year < 400,
    365 * year ≤ evened (firstDay year) ∧ evened (firstDay (year + 1) - 1) < 365 * (year + 1) := by
  decide +kernel

theorem yearOf_eq {year day : Nat} (hyear : year < 400) (hle : firstDay year ≤ day)
    (hlt : day < firstDay (year + 1)) : yearOf day = year := by
  obtain ⟨hfirst, hlast⟩ := evened_ends year hyear
  have hfrom := evened_mono hle
  have hto : evened day ≤ evened (firstDay (year + 1) - 1) := evened_mono (by omega)
  unfold yearOf
  omega

/-- Every day before a year lies in one before it. -/
theorem exists_year {day last : Nat} (h : day < firstDay last) :
    ∃ year < last, firstDay year ≤ day ∧ day < firstDay (year + 1) := by
  induction last with
  | zero => exact absurd h (Nat.not_lt_zero day)
  | succ last ih =>
    by_cases hlast : day < firstDay last
    · obtain ⟨year, hyear, hday⟩ := ih hlast
      exact ⟨year, Nat.lt_succ_of_lt hyear, hday⟩
    · exact ⟨last, Nat.lt_succ_self last, Nat.le_of_not_lt hlast, h⟩

/-! ### days of a year -/

/-- The day of the calendar for a day of a year of a period, both counted from zero. -/
def inYear (period : Int) (year day : Nat) : Date :=
  let month := (5 * day + 2) / 153
  { year := (period * 400 + year + (if month < 10 then 0 else 1)).toNat
    month := if month < 10 then month + 3 else month - 9
    day := day - (153 * month + 2) / 5 + 1 }

/-- **Every number of days is a day of a year of a period.** -/
theorem exists_inYear (n : Int) : ∃ period year day, ofNumber n = inYear period year day ∧
    year < 400 ∧ day < yearLength year ∧
      n + 719468 = period * 146097 + (firstDay year + day : Nat) := by
  have hperiod : ((n + 719468) % 146097).toNat < firstDay 400 := by
    have hdays : firstDay 400 = 146097 := by decide
    omega
  obtain ⟨year, hyear, hle, hlt⟩ := exists_year hperiod
  refine ⟨(n + 719468) / 146097, year, ((n + 719468) % 146097).toNat - firstDay year, ?_, hyear,
    ?_, ?_⟩
  · have hfound := yearOf_eq hyear hle hlt
    have hfirst : 365 * year + year / 4 - year / 100 = firstDay year := by
      rw [firstDay, Nat.div_eq_of_lt hyear, Nat.add_zero]
    unfold yearOf evened at hfound
    unfold ofNumber inYear
    simp only [hfound, hfirst]
  · rw [firstDay_succ] at hlt
    omega
  · omega

/-- Months have their days: the last one has 29 of them at the end of a long year only. -/
theorem month_days : ∀ day < 366,
    let d := inYear 0 0 day
    1 ≤ d.month ∧ d.month ≤ 12 ∧ 1 ≤ d.day ∧ d.day ≤ daysIn 2000 d.month ∧
      (day < 365 → d.day ≤ daysIn 2001 d.month) ∧ (day = 365 → d.month = 2) := by
  decide +kernel

/-- Only whether it is leap matters of a year. -/
theorem daysIn_congr {year year' : Nat} (h : isLeap year = isLeap year') (month : Nat) :
    daysIn year month = daysIn year' month := by
  unfold daysIn
  rw [h]

/-- Leap years come again after a period. -/
theorem isLeap_period {period : Int} {year year' : Nat} (h : (year' : Int) = period * 400 + year) :
    isLeap year' = isLeap year := by
  have h4 : year' % 4 = year % 4 := by omega
  have h100 : year' % 100 = year % 100 := by omega
  have h400 : year' % 400 = year % 400 := by omega
  unfold isLeap
  rw [h4, h100, h400]

/-- **A day of a year of a period is one of the calendar**, from year 0 on. -/
theorem valid_inYear {period : Int} {year day : Nat} (hday : day < yearLength year)
    (hpos : 0 ≤ period * 400 + year + (if (5 * day + 2) / 153 < 10 then 0 else 1)) :
    (inYear period year day).Valid := by
  have hlong : day < 366 := Nat.lt_of_lt_of_le hday (yearLength_le year)
  obtain ⟨hmonth, hmonth', hfirst, hleap, hcommon, hlast⟩ := month_days day hlong
  refine ⟨hmonth, hmonth', hfirst, ?_⟩
  show (inYear 0 0 day).day ≤ daysIn (inYear period year day).year (inYear 0 0 day).month
  cases hkind : isLeap (inYear period year day).year with
  | true => rwa [daysIn_congr (hkind.trans (by decide : true = isLeap 2000))]
  | false =>
    rw [daysIn_congr (hkind.trans (by decide : false = isLeap 2001))]
    refine hcommon (Nat.lt_of_le_of_ne (Nat.le_of_lt_succ hlong) ?_)
    -- the last day of February is the day before March of a leap year
    rintro rfl
    have hnext : isLeap (year + 1) = true := by
      unfold yearLength at hday
      split_ifs at hday with h
      · exact h
      · exact absurd hday (by decide)
    have hyear : ((inYear period year 365).year : Int) = period * 400 + (year + 1 : Nat) := by
      refine (Int.toNat_of_nonneg hpos).trans ?_
      rw [if_neg (by decide)]
      omega
    rw [isLeap_period hyear, hnext] at hkind
    cases hkind

/-- **A number of days gives a day of the calendar**, from year 0 up to year 9999. -/
theorem valid_ofNumber {n : Int} (h : -719528 ≤ n) (h' : n ≤ 2932896) :
    (ofNumber n).Valid ∧ (ofNumber n).year < 10000 := by
  obtain ⟨period, year, day, heq, hyear, hday, hsum⟩ := exists_inYear n
  have hlast : firstDay 399 = 145731 := by decide
  have hyears : year = 399 ∨ year < 399 ∧ firstDay year + day < 145731 := by
    rcases Nat.lt_or_eq_of_le (Nat.le_of_lt_succ hyear) with hlt | heq
    · have hle : firstDay (year + 1) ≤ firstDay 399 := firstDay_mono hlt
      rw [firstDay_succ, hlast] at hle
      exact .inr ⟨hlt, by omega⟩
    · exact .inl heq
  have hlong : day < 366 := Nat.lt_of_lt_of_le hday (yearLength_le year)
  -- January and February of the first year lie in the period before it
  have hbounds : 0 ≤ period * 400 + year + (if (5 * day + 2) / 153 < 10 then 0 else 1) ∧
      period * 400 + year + (if (5 * day + 2) / 153 < 10 then 0 else 1) < 10000 := by
    rcases hyears with rfl | ⟨hlt, hbefore⟩
    · rw [hlast] at hsum
      split_ifs <;> omega
    · split_ifs <;> omega
  obtain ⟨hpos, hlt⟩ := hbounds
  rw [heq]
  exact ⟨valid_inYear hday hpos, (Int.toNat_lt hpos).mpr hlt⟩

end Ladybug.Date
