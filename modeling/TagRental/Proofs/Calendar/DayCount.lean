import Mathlib.Algebra.BigOperators.Intervals
import Mathlib.Algebra.Order.BigOperators.Group.Finset
import Mathlib.Tactic.IntervalCases
import TagRental.Calendar

/-!
# Counting days

A date says how many days have gone by since the first day of 1970, and the calendar itself says how
to count them: add up the lengths of the years before the date's, then the lengths of the months
before the date's, then the days before it (`Date.number`).  Nothing of the arithmetic that finds a
date is in this count, only how long the months and the years are.  A date that is found is one that
the calendar has, and its count is the number that it was found for (`Date.ofDay_spec`).

## Why one count of leap days is enough

The days of the first `y` years are `365 * y` and one for each leap year among them (`elapsed`).  A
year that begins in March has its leap day at the end, so the same number is where the March of year
`y` begins, counted from the March of year zero.  The search divides a day of this kind into a year
and a rest that is shorter than the year (`MarchDay.ofDay_spec`), and the division of the rest into
months does not know about leap years at all (`monthStart`).

## The order of dates

A date that is earlier by its year, or its month, or its day, has a smaller number, because a month
is never longer than what is left of its year, and a day never later than the end of its month
(`Date.number_lt_of_before`).  So the numbers of dates are ordered as the dates are, and a number
has only one date.
-/

namespace TagRental
namespace Calendar

/-- The number of days of a year. -/
def yearLength (year : Nat) : Nat := if isLeapYear year then 366 else 365

/-- A day that the calendar has. -/
structure Date.Valid (d : Date) : Prop where
  month_pos : 1 ≤ d.month
  month_le : d.month ≤ 12
  day_pos : 1 ≤ d.day
  day_le : d.day ≤ monthLength d.year d.month

/-- The days of the years from 1970 up to a year. -/
def daysOfYears (year : Nat) : Nat := ∑ y ∈ Finset.Ico 1970 year, yearLength y

/-- The days of the months of a year up to a month. -/
def daysOfMonths (year month : Nat) : Nat := ∑ m ∈ Finset.Ico 1 month, monthLength year m

/-- The days from the first day of 1970 to a date. -/
def Date.number (d : Date) : Nat :=
  daysOfYears d.year + daysOfMonths d.year d.month + (d.day - 1)

theorem isLeapYear_iff {year : Nat} :
    isLeapYear year = true ↔ year % 4 = 0 ∧ (year % 100 ≠ 0 ∨ year % 400 = 0) := by
  simp [isLeapYear]

/-! ## Years -/

/-- The days of so many years, from the first one on. -/
def elapsed (years : Nat) : Nat := 365 * years + years / 4 - years / 100 + years / 400

theorem elapsed_succ (year : Nat) : elapsed (year + 1) = elapsed year + yearLength (year + 1) := by
  have hquads : year / 100 ≤ year / 4 := Nat.div_le_div_left (by decide) (by decide)
  have hrule : isLeapYear (year + 1) = true ↔ 4 ∣ year + 1 ∧
      (¬100 ∣ year + 1 ∨ 400 ∣ year + 1) := by
    simp only [isLeapYear_iff, Nat.dvd_iff_mod_eq_zero, ne_eq]
  have hcentury : 100 ∣ year + 1 → 4 ∣ year + 1 := Nat.dvd_trans (by decide)
  have hcycle : 400 ∣ year + 1 → 100 ∣ year + 1 := Nat.dvd_trans (by decide)
  rw [elapsed, elapsed, yearLength, Nat.succ_div, Nat.succ_div, Nat.succ_div,
    if_congr hrule rfl rfl]
  generalize year / 4 = quads at *
  generalize year / 100 = centuries at *
  -- a year that four does not divide, a year of no full century, a full century, and a fourth one
  by_cases h4 : 4 ∣ year + 1
  · by_cases h100 : 100 ∣ year + 1
    · by_cases h400 : 400 ∣ year + 1
      · simp only [h4, h100, h400, if_true, not_true, false_or, and_self]
        omega
      · simp only [h4, h100, h400, if_true, if_false, not_true, false_or, and_false]
        omega
    · have h400 : ¬400 ∣ year + 1 := fun h => h100 (hcycle h)
      simp only [h4, h100, h400, if_true, if_false, not_false_iff, true_or, and_self]
      omega
  · have h100 : ¬100 ∣ year + 1 := fun h => h4 (hcentury h)
    have h400 : ¬400 ∣ year + 1 := fun h => h100 (hcycle h)
    simp only [h4, h100, h400, if_false, false_and]
    omega

theorem daysOfYears_succ {year : Nat} (h : 1970 ≤ year) :
    daysOfYears (year + 1) = daysOfYears year + yearLength year :=
  Finset.sum_Ico_succ_top h yearLength

/-- Adding up the years from 1970 on. -/
theorem daysOfYears_add_elapsed {year : Nat} (h : 1969 ≤ year) :
    daysOfYears (year + 1) + elapsed 1969 = elapsed year := by
  induction year, h using Nat.le_induction with
  | base =>
    rw [daysOfYears, Finset.Ico_self, Finset.sum_empty, Nat.zero_add]
  | succ year h ih =>
    rw [daysOfYears_succ (by omega), elapsed_succ year, ← ih]
    exact Nat.add_right_comm _ _ _

theorem daysOfYears_mono : Monotone daysOfYears := fun _ _ h =>
  Finset.sum_le_sum_of_subset (Finset.Ico_subset_Ico_right h)

theorem daysOfYears_le_of_lt {year other : Nat} (hyear : 1970 ≤ year) (h : year < other) :
    daysOfYears year + yearLength year ≤ daysOfYears other := by
  rw [← daysOfYears_succ hyear]
  exact daysOfYears_mono h

/-! ## Months -/

theorem daysOfMonths_succ (year : Nat) {month : Nat} (h : 1 ≤ month) :
    daysOfMonths year (month + 1) = daysOfMonths year month + monthLength year month :=
  Finset.sum_Ico_succ_top h (monthLength year)

theorem daysOfMonths_le_of_lt (year : Nat) {month other : Nat} (hmonth : 1 ≤ month)
    (h : month < other) :
    daysOfMonths year month + monthLength year month ≤ daysOfMonths year other := by
  rw [← daysOfMonths_succ year hmonth]
  exact Finset.sum_le_sum_of_subset (Finset.Ico_subset_Ico_right h)

/-- The twelve months are the year. -/
theorem daysOfMonths_thirteen (year : Nat) : daysOfMonths year 13 = yearLength year := by
  simp only [daysOfMonths, yearLength, monthLength, Finset.sum_Ico_succ_top, Nat.reduceLeDiff,
    Finset.Ico_self, Finset.sum_empty]
  cases isLeapYear year <;> rfl

/-- Where a month begins in a year that begins in March, which is month zero. -/
def monthStart (month : Nat) : Nat := (153 * month + 2) / 5

/-- Up to December the months are as long as the division by five says. -/
theorem monthStart_succ (year : Nat) {month : Nat} (h : month ≤ 9) :
    monthStart (month + 1) = monthStart month + monthLength year (month + 3) := by
  interval_cases month <;> rfl

theorem daysOfMonths_from_march (year : Nat) {month : Nat} (h : month ≤ 9) :
    daysOfMonths year (month + 3) + monthStart 10 = yearLength year + monthStart month := by
  induction month with
  | zero =>
    simp only [daysOfMonths, yearLength, monthLength, Finset.sum_Ico_succ_top, Nat.reduceLeDiff,
      Finset.Ico_self, Finset.sum_empty]
    cases isLeapYear year <;> rfl
  | succ month ih =>
    have hbefore := ih (by omega)
    have hlength := monthStart_succ year (show month ≤ 9 by omega)
    rw [daysOfMonths_succ year (by omega), hlength]
    omega

/-! ## Years that begin in March -/

/-- **A day is divided** into a year that begins in March and a day of it.  Such a year is as long
as the one that its February belongs to. -/
theorem MarchDay.ofDay_spec (n : Nat) :
    elapsed (ofDay n).year + (ofDay n).day = n ∧
      (ofDay n).day < yearLength ((ofDay n).year + 1) := by
  simp only [ofDay]
  generalize hcycle : n / 146097 = cycle
  generalize hinCycle : n % 146097 = inCycle
  generalize hcentury : min (inCycle / 36524) 3 = century
  generalize hinCentury : inCycle - century * 36524 = inCentury
  generalize hquad : inCentury / 1461 = quad
  generalize hinQuad : inCentury % 1461 = inQuad
  generalize hyear : min (inQuad / 365) 3 = year
  have hn : n = 146097 * cycle + inCycle := by omega
  have hcenturies : inCycle = 36524 * century + inCentury ∧ century ≤ 3 ∧
      (inCentury < 36524 ∨ century = 3 ∧ inCentury ≤ 36524) := by omega
  have hquads : inCentury = 1461 * quad + inQuad ∧ quad ≤ 24 ∧ inQuad < 1461 ∧
      (inCentury < 36524 → quad = 24 → inQuad < 1460) := by omega
  have hyears : year ≤ 3 ∧ 365 * year ≤ inQuad ∧
      (inQuad - year * 365 < 365 ∨ year = 3 ∧ inQuad = 1460) := by
    omega
  have helapsed : elapsed (cycle * 400 + century * 100 + quad * 4 + year) =
      146097 * cycle + 36524 * century + 1461 * quad + 365 * year := by
    have h4 : (cycle * 400 + century * 100 + quad * 4 + year) / 4 =
        cycle * 100 + century * 25 + quad := by
      omega
    have h100 : (cycle * 400 + century * 100 + quad * 4 + year) / 100 = cycle * 4 + century :=
      by omega
    have h400 : (cycle * 400 + century * 100 + quad * 4 + year) / 400 = cycle := by omega
    rw [elapsed, h4, h100, h400]
    omega
  refine ⟨by omega, ?_⟩
  unfold yearLength
  split
  · omega
  · next hleap =>
    rw [isLeapYear_iff] at hleap
    omega

/-- The day is in the month that the division by 153 finds. -/
theorem monthStart_le_and_lt (day : Nat) :
    monthStart ((5 * day + 2) / 153) ≤ day ∧ day < monthStart ((5 * day + 2) / 153 + 1) := by
  unfold monthStart
  omega

/-- The first of January of 1970 is the 306th day after the first of March of 1969. -/
theorem epochDay_eq : epochDay = elapsed 1969 + monthStart 10 := rfl

/-- A month from March to December is in the year in which the year began. -/
theorem MarchDay.date_of_lt {d : MarchDay} (h : (5 * d.day + 2) / 153 < 10)
    (hyear : 1970 ≤ d.year) :
    d.date.Valid ∧ d.date.number + epochDay = elapsed d.year + d.day := by
  obtain ⟨hstart, hend⟩ := monthStart_le_and_lt d.day
  have hdate : d.date = ⟨d.year, (5 * d.day + 2) / 153 + 3,
      d.day - monthStart ((5 * d.day + 2) / 153) + 1⟩ := if_pos h
  generalize (5 * d.day + 2) / 153 = month at *
  rw [hdate]
  have hmonth := monthStart_succ d.year (Nat.le_of_lt_succ h)
  refine ⟨⟨by simp, by simp; omega, by simp, by simp; omega⟩, ?_⟩
  obtain ⟨before, hbefore⟩ : ∃ before, d.year = before + 1 := ⟨d.year - 1, by omega⟩
  have hyears := daysOfYears_add_elapsed (show 1969 ≤ before by omega)
  have hlast := elapsed_succ before
  have hmonths := daysOfMonths_from_march d.year (Nat.le_of_lt_succ h)
  rw [← hbefore] at hyears hlast
  rw [Date.number, epochDay_eq, hlast, ← hyears]
  generalize elapsed 1969 = base
  simp only [Nat.add_sub_cancel]
  omega

/-- January and February end where the division by five says that they do, or with the year. -/
theorem lt_monthEnd {year day month : Nat} (hmonth : month = 10 ∨ month = 11)
    (hend : day < monthStart (month + 1)) (hday : day < yearLength year) :
    day < monthStart month + monthLength year (month - 9) := by
  rcases hmonth with rfl | rfl
  · exact hend
  · have hlength : yearLength year = monthStart 11 + monthLength year 2 := by
      unfold yearLength monthLength
      cases isLeapYear year <;> rfl
    exact hlength ▸ hday

/-- A month that is January or February is in the year behind it. -/
theorem MarchDay.date_of_ge {d : MarchDay} (h : 10 ≤ (5 * d.day + 2) / 153)
    (hday : d.day < yearLength (d.year + 1)) (hyear : 1969 ≤ d.year) :
    d.date.Valid ∧ d.date.number + epochDay = elapsed d.year + d.day := by
  obtain ⟨hstart, hend⟩ := monthStart_le_and_lt d.day
  have hdate : d.date = ⟨d.year + 1, (5 * d.day + 2) / 153 - 9,
      d.day - monthStart ((5 * d.day + 2) / 153) + 1⟩ := if_neg (Nat.not_lt.mpr h)
  have hmonth : (5 * d.day + 2) / 153 = 10 ∨ (5 * d.day + 2) / 153 = 11 := by
    have hlength : yearLength (d.year + 1) ≤ 366 := by
      unfold yearLength
      split <;> decide
    omega
  generalize (5 * d.day + 2) / 153 = month at *
  have hlast := lt_monthEnd hmonth hend hday
  have hmonths : daysOfMonths (d.year + 1) (month - 9) + monthStart 10 = monthStart month := by
    rcases hmonth with rfl | rfl <;> rfl
  have hyears := daysOfYears_add_elapsed hyear
  rw [hdate]
  refine ⟨⟨by simp; omega, by simp; omega, by simp, by simp; omega⟩, ?_⟩
  rw [Date.number, epochDay_eq, ← hyears]
  generalize elapsed 1969 = base
  simp only [Nat.add_sub_cancel]
  omega

/-! ## Days since 1970 -/

theorem elapsed_mono : Monotone elapsed :=
  monotone_nat_of_le_succ fun year => by
    rw [elapsed_succ]
    exact Nat.le_add_right _ _

/-- A day since 1970 is in a year that began in March of 1970 or later, or it is one of the last
days of the year that began in March of 1969. -/
theorem MarchDay.year_ofDay (n : Nat) :
    1970 ≤ (ofDay (n + epochDay)).year ∨
      (ofDay (n + epochDay)).year = 1969 ∧ monthStart 10 ≤ (ofDay (n + epochDay)).day := by
  obtain ⟨hcount, hday⟩ := ofDay_spec (n + epochDay)
  generalize ofDay (n + epochDay) = d at *
  have hsucc := elapsed_succ d.year
  rw [epochDay_eq] at hcount
  rcases Nat.lt_trichotomy d.year 1969 with hlt | heq | hgt
  · have hmono : elapsed (d.year + 1) ≤ elapsed 1969 := elapsed_mono hlt
    generalize elapsed 1969 = base at *
    omega
  · rw [heq] at hcount
    generalize elapsed 1969 = base at *
    exact Or.inr ⟨heq, by omega⟩
  · exact Or.inl hgt

/-- **A day has a date** that the calendar has, in a year from 1970 on, and counting up to that date
gives the day. -/
theorem Date.ofDay_spec (n : Nat) :
    (ofDay n).Valid ∧ 1970 ≤ (ofDay n).year ∧ (ofDay n).number = n := by
  obtain ⟨hcount, hday⟩ := MarchDay.ofDay_spec (n + epochDay)
  have hyear := MarchDay.year_ofDay n
  rw [Date.ofDay]
  generalize MarchDay.ofDay (n + epochDay) = d at *
  by_cases hmonth : (5 * d.day + 2) / 153 < 10
  · have hyear : 1970 ≤ d.year := by
      refine hyear.resolve_right fun ⟨_, hlate⟩ => ?_
      unfold monthStart at hlate
      omega
    obtain ⟨hvalid, hnumber⟩ := MarchDay.date_of_lt hmonth hyear
    refine ⟨hvalid, ?_, Nat.add_right_cancel (hnumber.trans hcount)⟩
    rw [MarchDay.date, if_pos hmonth]
    exact hyear
  · have hyear : 1969 ≤ d.year := by omega
    obtain ⟨hvalid, hnumber⟩ := MarchDay.date_of_ge (Nat.not_lt.mp hmonth) hday hyear
    refine ⟨hvalid, ?_, Nat.add_right_cancel (hnumber.trans hcount)⟩
    rw [MarchDay.date, if_neg hmonth]
    exact Nat.succ_le_succ hyear

/-! ## The order of dates -/

/-- The date is earlier: by its year, by its month if the years agree, or else by its day. -/
def Date.Before (d e : Date) : Prop :=
  d.year < e.year ∨ d.year = e.year ∧ (d.month < e.month ∨ d.month = e.month ∧ d.day < e.day)

section Order

variable {d e : Date}

/-- An earlier date has a smaller number. -/
theorem Date.number_lt_of_before (hd : d.Valid) (hyear : 1970 ≤ d.year) (he : 1 ≤ e.day)
    (h : d.Before e) : d.number < e.number := by
  have hday : d.day - 1 < monthLength d.year d.month := by
    have := hd.day_pos
    have := hd.day_le
    omega
  unfold Date.number
  rcases h with hlt | ⟨heq, hlt | ⟨heq', hlt⟩⟩
  · have hmonths := daysOfMonths_le_of_lt d.year hd.month_pos (Nat.lt_succ_of_le hd.month_le)
    have hyears := daysOfYears_le_of_lt hyear hlt
    rw [daysOfMonths_thirteen] at hmonths
    omega
  · have hmonths := daysOfMonths_le_of_lt d.year hd.month_pos hlt
    rw [← heq]
    omega
  · rw [← heq, ← heq']
    have := hd.day_pos
    omega

theorem Date.before_trichotomy (d e : Date) : d.Before e ∨ d = e ∨ e.Before d := by
  obtain ⟨year, month, day⟩ := d
  obtain ⟨year', month', day'⟩ := e
  simp only [Before, Date.mk.injEq]
  omega

end Order

end Calendar
end TagRental
