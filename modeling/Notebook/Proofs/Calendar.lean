import Mathlib.Data.Nat.Init
import Notebook.Calendar

/-!
# Counting days

The number of a date is how many days come before it: it is zero for the first date, and grows by
one from each date to the next, at the end of a month and of a year too.  So dates follow one
another as their numbers do.
-/

namespace Notebook

theorem daysInMonth_le (y m : Nat) : daysInMonth y m ≤ 31 := by
  unfold daysInMonth
  split
  · split <;> omega
  · split <;> omega

/-- How long a year is. -/
def daysInYear (y : Nat) : Nat := if isLeapYear y then 366 else 365

namespace Date

/-- Does the date come before another, by year, then by month, then by day? -/
def IsBefore (a b : Date) : Prop :=
  a.year < b.year ∨ a.year = b.year ∧
    (a.month < b.month ∨ a.month = b.month ∧ a.day < b.day)

/-- Is `b` the day after `a`? -/
def IsNext (a b : Date) : Prop :=
  b.year = a.year ∧ b.month = a.month ∧ b.day = a.day + 1 ∨
    a.day = daysInMonth a.year a.month ∧ b.day = 1 ∧
      (b.year = a.year ∧ b.month = a.month + 1 ∨
        a.month = 12 ∧ b.year = a.year + 1 ∧ b.month = 1)

/-! ### Months and years -/

theorem daysBeforeMonth_succ (y : Nat) {m : Nat} (hm : 1 ≤ m) :
    daysBeforeMonth y (m + 1) = daysBeforeMonth y m + daysInMonth y m := by
  obtain ⟨k, rfl⟩ := Nat.exists_eq_add_of_le' hm
  simp [daysBeforeMonth, List.range_succ]

/-- The months of a year make up the year. -/
theorem daysBeforeMonth_thirteen (y : Nat) : daysBeforeMonth y 13 = daysInYear y := by
  cases h : isLeapYear y <;> simp [daysBeforeMonth, List.range_succ, daysInMonth, daysInYear, h]

theorem isLeapYear_iff {y : Nat} : isLeapYear y = true ↔ 4 ∣ y ∧ (100 ∣ y → 400 ∣ y) := by
  simp [isLeapYear, Nat.dvd_iff_mod_eq_zero, Decidable.imp_iff_not_or]

/-- In a leap year one more fourth of the years is complete, but for most of the hundreds. -/
theorem daysBeforeYear_succ {y : Nat} (hy : 1 ≤ y) :
    daysBeforeYear (y + 1) = daysBeforeYear y + daysInYear y := by
  obtain ⟨k, rfl⟩ := Nat.exists_eq_add_of_le' hy
  have hcentury : k / 100 ≤ k := Nat.div_le_self k 100
  have h100 : 100 ∣ k + 1 → 4 ∣ k + 1 := Nat.dvd_trans ⟨25, rfl⟩
  have h400 : 400 ∣ k + 1 → 100 ∣ k + 1 := Nat.dvd_trans ⟨4, rfl⟩
  simp only [daysBeforeYear, daysInYear, isLeapYear_iff, Nat.add_sub_cancel, Nat.succ_div]
  by_cases hfour : 4 ∣ k + 1
  · by_cases hhundred : 100 ∣ k + 1
    · by_cases hboth : 400 ∣ k + 1
      · simp only [hfour, hhundred, hboth, if_true, true_and, imp_self]
        omega
      · simp only [hfour, hhundred, hboth, if_true, if_false, true_and, true_imp_iff]
        omega
    · simp only [hfour, hhundred, mt h400 hhundred, if_true, if_false, true_and, false_imp_iff]
      omega
  · simp only [hfour, mt h100 hfour, mt (h100 ∘ h400) hfour, if_false, false_and]
    omega

/-! ### From one date to the next -/

variable {a b : Date}

theorem dayNumber_first : first.dayNumber = 0 := by decide

/-- The days of a month follow one another, so do the months of a year, and so do the years. -/
theorem dayNumber_of_isNext (h : a.IsNext b) : b.dayNumber = a.dayNumber + 1 := by
  obtain ⟨hy, -, hm, -, hd, -⟩ := a.exists_day
  rcases h with ⟨hyear, hmonth, hday⟩ | ⟨hlast, hday, ⟨hyear, hmonth⟩ | ⟨hend, hyear, hmonth⟩⟩
  all_goals simp only [dayNumber, hyear, hmonth, hday]
  · omega
  · rw [daysBeforeMonth_succ a.year hm]
    omega
  · have hfirst : daysBeforeMonth (a.year + 1) 1 = 0 := rfl
    have hmonths := daysBeforeMonth_succ a.year hm
    rw [hend, daysBeforeMonth_thirteen] at hmonths
    rw [daysBeforeYear_succ hy, hend]
    rw [hend] at hlast
    omega

/-! ### The order of dates -/

theorem daysBeforeYear_mono {y z : Nat} (hy : 1 ≤ y) (h : y < z) :
    daysBeforeYear y + daysInYear y ≤ daysBeforeYear z := by
  induction z, h using Nat.le_induction with
  | base => exact Nat.le_of_eq (daysBeforeYear_succ hy).symm
  | succ z hz ih =>
    rw [daysBeforeYear_succ (by omega : 1 ≤ z)]
    omega

theorem daysBeforeMonth_mono {y m k : Nat} (hm : 1 ≤ m) (h : m < k) :
    daysBeforeMonth y m + daysInMonth y m ≤ daysBeforeMonth y k := by
  induction k, h using Nat.le_induction with
  | base => exact Nat.le_of_eq (daysBeforeMonth_succ y hm).symm
  | succ k hk ih =>
    rw [daysBeforeMonth_succ y (by omega : 1 ≤ k)]
    omega

/-- No date is as far from the beginning of its year as the year is long. -/
theorem dayNumber_lt (a : Date) : a.dayNumber < daysBeforeYear a.year + daysInYear a.year := by
  obtain ⟨y, m, d, hy, -, hm, hm12, hd, hdays⟩ := a
  have hmonths := daysBeforeMonth_mono (y := y) hm (by omega : m < 13)
  rw [daysBeforeMonth_thirteen] at hmonths
  simp only [dayNumber]
  omega

theorem dayNumber_lt_of_isBefore (h : a.IsBefore b) : a.dayNumber < b.dayNumber := by
  rcases h with hyear | ⟨hyear, hmonth | ⟨hmonth, hday⟩⟩
  · have hlength := dayNumber_lt a
    have hyears := daysBeforeYear_mono a.exists_day.1 hyear
    show a.dayNumber < daysBeforeYear b.year + daysBeforeMonth b.year b.month + (b.day - 1)
    omega
  · have hmonths := daysBeforeMonth_mono (y := a.year) a.exists_day.2.2.1 hmonth
    obtain ⟨-, -, -, -, hd, hdays⟩ := a.exists_day
    simp only [dayNumber, ← hyear]
    omega
  · obtain ⟨-, -, -, -, hd, -⟩ := a.exists_day
    simp only [dayNumber, ← hyear, ← hmonth]
    omega

/-- Of two dates one comes before the other, if they are not the same. -/
theorem isBefore_or_eq_or_isBefore (a b : Date) : a.IsBefore b ∨ a = b ∨ b.IsBefore a := by
  obtain ⟨y, m, d, ha⟩ := a
  obtain ⟨y', m', d', hb⟩ := b
  simp only [IsBefore, Date.mk.injEq]
  omega

theorem dayNumber_lt_iff : a.dayNumber < b.dayNumber ↔ a.IsBefore b := by
  refine ⟨fun h => ?_, dayNumber_lt_of_isBefore⟩
  rcases isBefore_or_eq_or_isBefore a b with hbefore | rfl | hafter
  · exact hbefore
  · exact absurd h (Nat.lt_irrefl _)
  · exact absurd (dayNumber_lt_of_isBefore hafter) (Nat.lt_asymm h)

end Date

end Notebook
