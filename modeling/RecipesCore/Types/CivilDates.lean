import Mathlib.Order.Monotone.Basic
import Mathlib.Order.Nat
import Mathlib.Tactic.IntervalCases
import RecipesCore.Types.Calendar

/-!
# Day counts and civil dates

A valid date comes back from its day count. `toSysDays` and `ofSysDays` both cut time into eras of
400 years that begin in March, so that a leap day is the last day of its year. Inside an era the
year is found by a division that has to leave out the leap days first (`withoutLeapDays`); it is
checked on the first and the last day of each year, and everything between them follows by
monotonicity.
-/

namespace RecipesCore.Types

namespace YearMonthDay

/-! ## The year inside an era -/

/-- The days of an era before its year `yearOfEra`. -/
def daysBefore (yearOfEra : Nat) : Nat := yearOfEra * 365 + yearOfEra / 4 - yearOfEra / 100

/-- The last day of a year that begins in March, its first day being `0`. -/
def lastDayOfYear (yearOfEra : Nat) : Nat := if isLeap (yearOfEra + 1) then 365 else 364

def withoutLeapDays (dayOfEra : Nat) : Nat :=
  dayOfEra - dayOfEra / 1460 + dayOfEra / 36524 - dayOfEra / 146096

theorem withoutLeapDays_monotone : Monotone withoutLeapDays := by
  apply monotone_nat_of_le_succ
  intro n
  unfold withoutLeapDays
  omega

theorem withoutLeapDays_bounds : ∀ yearOfEra < 400,
    365 * yearOfEra ≤ withoutLeapDays (daysBefore yearOfEra) ∧
      withoutLeapDays (daysBefore yearOfEra + lastDayOfYear yearOfEra) < 365 * (yearOfEra + 1) := by
  decide +kernel

/-- The year is read off any of its days. -/
theorem yearOfEra_eq {yearOfEra dayOfYear : Nat} (hyear : yearOfEra < 400)
    (hday : dayOfYear ≤ lastDayOfYear yearOfEra) :
    withoutLeapDays (daysBefore yearOfEra + dayOfYear) / 365 = yearOfEra := by
  obtain ⟨hfirst, hlast⟩ := withoutLeapDays_bounds yearOfEra hyear
  have hge : withoutLeapDays (daysBefore yearOfEra) ≤
      withoutLeapDays (daysBefore yearOfEra + dayOfYear) :=
    withoutLeapDays_monotone (Nat.le_add_right _ _)
  have hle : withoutLeapDays (daysBefore yearOfEra + dayOfYear) ≤
      withoutLeapDays (daysBefore yearOfEra + lastDayOfYear yearOfEra) :=
    withoutLeapDays_monotone (Nat.add_le_add_left hday _)
  omega

theorem daysBefore_add_le : ∀ yearOfEra < 400,
    daysBefore yearOfEra + lastDayOfYear yearOfEra ≤ 146096 := by
  decide +kernel

/-! ## The month inside a year -/

/-- The month, counted from March. -/
def shiftedMonth (month : Nat) : Nat := if month ≤ 2 then month + 9 else month - 3

/-- Its first day, counted from the first of March. -/
def daysBeforeMonth (shifted : Nat) : Nat := (153 * shifted + 2) / 5

theorem lastDay_le (year : Int) (month : Nat) :
    lastDay year month ≤ 31 ∧ (month = 2 → lastDay year month ≤ 29) ∧
      (month = 4 ∨ month = 6 ∨ month = 9 ∨ month = 11 → lastDay year month = 30) := by
  unfold lastDay
  grind

theorem ok_iff {ymd : YearMonthDay} : ymd.ok = true ↔
    1 ≤ ymd.month ∧ ymd.month ≤ 12 ∧ 1 ≤ ymd.day ∧ ymd.day ≤ lastDay ymd.year ymd.month := by
  simp [ok, and_assoc]

theorem shiftedMonth_eq {month dayOfMonth : Nat} {year : Int} (hm : 1 ≤ month) (hm' : month ≤ 12)
    (hd : dayOfMonth < lastDay year month) :
    (5 * (daysBeforeMonth (shiftedMonth month) + dayOfMonth) + 2) / 153 = shiftedMonth month := by
  have hlast := lastDay_le year month
  unfold daysBeforeMonth
  interval_cases month <;> simp [shiftedMonth] at * <;> omega

/-- January and February end the year. -/
theorem dayOfYear_le {yearOfEra month dayOfMonth : Nat} {era year : Int} (hm : 1 ≤ month)
    (hm' : month ≤ 12) (hd : dayOfMonth < lastDay year month)
    (hyear : year = era * 400 + yearOfEra + if month ≤ 2 then 1 else 0) :
    daysBeforeMonth (shiftedMonth month) + dayOfMonth ≤ lastDayOfYear yearOfEra := by
  have hlast := lastDay_le year month
  unfold daysBeforeMonth lastDayOfYear
  by_cases hfeb : month = 2
  · subst hfeb
    simp only [shiftedMonth, lastDay, isLeap] at *
    grind
  · interval_cases month <;> simp [shiftedMonth] at * <;> split <;> omega

/-! ## From a date to its day, and back -/

theorem era_fdiv {n : Nat} (era : Int) {rest : Nat} (h : rest < n) :
    (era * n + rest).fdiv n = era := by
  have hn : (n : Int) ≠ 0 := by omega
  rw [Int.fdiv_eq_ediv_of_nonneg _ (Int.natCast_nonneg n), Int.add_comm,
    Int.add_mul_ediv_right _ _ hn, Int.ediv_eq_zero_of_lt (Int.natCast_nonneg rest) (by omega),
    Int.zero_add]

theorem era_fmod {n : Nat} (era : Int) {rest : Nat} (h : rest < n) :
    (era * n + rest).fmod n = rest := by
  rw [Int.fmod_eq_emod_of_nonneg _ (Int.natCast_nonneg n), Int.add_comm, Int.add_mul_emod_self_right,
    Int.emod_eq_of_lt (Int.natCast_nonneg rest) (by omega)]

/-- The day count of a date: its era, and where it lies in it. -/
theorem toSysDays_eq {ymd : YearMonthDay} {era : Int} {yearOfEra : Nat} (hyear : yearOfEra < 400)
    (hday : 1 ≤ ymd.day)
    (h : ymd.year = era * 400 + yearOfEra + if ymd.month ≤ 2 then 1 else 0) :
    (ymd.toSysDays : Int) = era * 146097 + ((daysBefore yearOfEra +
      (daysBeforeMonth (shiftedMonth ymd.month) + (ymd.day - 1)) : Nat) : Int) - 719468 := by
  have hshift : ymd.year - (if ymd.month ≤ 2 then 1 else 0) = era * 400 + yearOfEra := by
    rw [h]
    omega
  have hmonth : (if ymd.month > 2 then (ymd.month : Int) - 3 else ymd.month + 9) =
      shiftedMonth ymd.month := by
    unfold shiftedMonth
    split <;> split <;> omega
  have hera : (era * 400 + yearOfEra).fdiv 400 = era := era_fdiv era hyear
  have hyears : (era * 400 + yearOfEra).fmod 400 = yearOfEra := era_fmod era hyear
  simp only [toSysDays, hshift, hmonth, hera, hyears]
  rw [Int.fdiv_eq_ediv_of_nonneg _ (by decide), Int.fdiv_eq_ediv_of_nonneg _ (by decide),
    Int.fdiv_eq_ediv_of_nonneg _ (by decide)]
  unfold daysBefore daysBeforeMonth
  show (_ : Int) = _
  omega

/-- The date of a day of an era. -/
theorem ofSysDays_eq {era : Int} {yearOfEra month dayOfMonth : Nat} (hyear : yearOfEra < 400)
    (hm : 1 ≤ month) (hm' : month ≤ 12)
    (hd : dayOfMonth < lastDay (era * 400 + yearOfEra + if month ≤ 2 then 1 else 0) month) :
    ofSysDays (era * 146097 + ((daysBefore yearOfEra +
      (daysBeforeMonth (shiftedMonth month) + dayOfMonth) : Nat) : Int) - 719468) =
      ⟨(era * 400 + yearOfEra + if month ≤ 2 then 1 else 0).bmod (2 ^ 16), month,
        dayOfMonth + 1⟩ := by
  have hdayOfYear := dayOfYear_le hm hm' hd rfl
  have hyearOfEra := yearOfEra_eq hyear hdayOfYear
  have hmonth := shiftedMonth_eq hm hm' hd
  have hbound := daysBefore_add_le yearOfEra hyear
  generalize hdoy : daysBeforeMonth (shiftedMonth month) + dayOfMonth = dayOfYear at *
  have hera : (era * 146097 + (daysBefore yearOfEra + dayOfYear : Nat)).fdiv 146097 = era :=
    era_fdiv (n := 146097) era (by omega)
  have hdayOfEra : (era * 146097 + (daysBefore yearOfEra + dayOfYear : Nat)).fmod 146097 =
      (daysBefore yearOfEra + dayOfYear : Nat) := era_fmod (n := 146097) era (by omega)
  have hback : (if shiftedMonth month < 10 then shiftedMonth month + 3 else
      shiftedMonth month - 9) = month := by
    unfold shiftedMonth
    split <;> split <;> omega
  have hdayOfMonth : dayOfYear - (153 * shiftedMonth month + 2) / 5 = dayOfMonth := by
    unfold daysBeforeMonth at hdoy
    omega
  rw [withoutLeapDays] at hyearOfEra
  simp only [ofSysDays, Int.sub_add_cancel, hera, hdayOfEra, Int.toNat_natCast, hyearOfEra]
  rw [show 365 * yearOfEra + yearOfEra / 4 - yearOfEra / 100 = daysBefore yearOfEra by
    rw [daysBefore, Nat.mul_comm], Nat.add_sub_cancel_left, hmonth, hback, hdayOfMonth,
    Int.add_comm (yearOfEra : Int)]

/-- **A valid date comes back from its day count**, its year in the 16 bits of `year`. -/
theorem ofSysDays_toSysDays {ymd : YearMonthDay} (hok : ymd.ok = true) :
    ofSysDays ymd.toSysDays = { ymd with year := ymd.year.bmod (2 ^ 16) } := by
  obtain ⟨hm, hm', hd, hd'⟩ := ok_iff.mp hok
  obtain ⟨year, month, day⟩ := ymd
  obtain ⟨era, yearOfEra, hyear, rfl⟩ : ∃ (era : Int) (yearOfEra : Nat), yearOfEra < 400 ∧
      year = era * 400 + yearOfEra + if month ≤ 2 then 1 else 0 := by
    let y := year - if month ≤ 2 then 1 else 0
    exact ⟨y / 400, (y % 400).toNat, by omega, by omega⟩
  rw [toSysDays_eq hyear hd rfl, ofSysDays_eq hyear hm hm' (by simp only at *; omega)]
  simp only at *
  rw [Nat.sub_add_cancel hd]

end YearMonthDay
end RecipesCore.Types
