import Mathlib.Algebra.BigOperators.Intervals

/-!
# The proleptic Gregorian calendar

Years and months are counted from their lengths: `dayNumber y m d` is the number
of days between 1 January 1970 and the given day.

**Results.**
* `daysBeforeMonth_leap`: February apart, all years have the same months.
* `sum_yearLength`: the days of whole years, by the leap year rule.
-/

namespace Gregorian

/-- Every fourth year is a leap year, but of the centuries only every fourth. -/
def isLeap (y : Nat) : Bool :=
  y % 4 = 0 ∧ (y % 100 ≠ 0 ∨ y % 400 = 0)

/-- Days of a month, by its number from 1 to 12. -/
def monthLength (leap : Bool) (m : Nat) : Nat :=
  if m = 2 then if leap then 29 else 28
  else if m = 4 ∨ m = 6 ∨ m = 9 ∨ m = 11 then 30
  else 31

/-- Days of a year. -/
def yearLength (leap : Bool) : Nat :=
  ∑ m ∈ Finset.Ico 1 13, monthLength leap m

/-- Days of a year before a month. -/
def daysBeforeMonth (leap : Bool) (m : Nat) : Nat :=
  ∑ k ∈ Finset.Ico 1 m, monthLength leap k

/-- Days since 1 January 1970. -/
def dayNumber (y m d : Nat) : Nat :=
  ∑ k ∈ Finset.Ico 1970 y, yearLength (isLeap k) + daysBeforeMonth (isLeap y) m + (d - 1)

/-- The months of a leap year against those of any year. -/
theorem daysBeforeMonth_leap : ∀ leap, ∀ m < 13,
    daysBeforeMonth true m =
      daysBeforeMonth leap m + if leap = false ∧ 3 ≤ m then 1 else 0 := by
  decide

theorem yearLength_eq : ∀ leap, yearLength leap = if leap then 366 else 365 := by
  decide

/-- The leap year rule, as it is used in counting. -/
theorem yearLength_rule (y : Nat) :
    yearLength (isLeap y) + (if y % 100 = 0 then 1 else 0) =
      365 + (if y % 4 = 0 then 1 else 0) + if y % 400 = 0 then 1 else 0 := by
  have hhundred : y % 100 = 0 → y % 4 = 0 := by omega
  have hfourHundred : y % 400 = 0 → y % 100 = 0 := by omega
  rw [yearLength_eq, isLeap]
  by_cases h4 : y % 4 = 0
  · by_cases h100 : y % 100 = 0
    · by_cases h400 : y % 400 = 0
      · simp [h4, h100, h400]
      · simp [h4, h100, h400]
    · have h400 : ¬ y % 400 = 0 := mt hfourHundred h100
      simp [h4, h100, h400]
  · have h100 : ¬ y % 100 = 0 := mt hhundred h4
    have h400 : ¬ y % 400 = 0 := mt hfourHundred h100
    simp [h4, h100, h400]

/-- Counting the multiples of `d` from one of them on. -/
theorem quotient_succ (y c d : Nat)
    (hcy : c < y)
    (hdc : d ∣ c) :
    (y + 1 - (c + 1)) / d = (y - (c + 1)) / d + if y % d = 0 then 1 else 0 := by
  have hnext : y + 1 - (c + 1) = y - (c + 1) + 1 := by omega
  have hmultiple : d ∣ y - (c + 1) + 1 ↔ y % d = 0 := by
    rw [← hnext, Nat.add_sub_add_right, Nat.dvd_sub_iff_left hcy.le hdc,
      Nat.dvd_iff_mod_eq_zero]
  rw [hnext, Nat.succ_div, if_congr hmultiple rfl rfl]

/-- The leap years since 1970 by the rule: every fourth year, less the
centuries, plus every fourth of these. -/
theorem sum_yearLength {y : Nat}
    (hy : 1970 ≤ y) :
    ∑ k ∈ Finset.Ico 1970 y, yearLength (isLeap k) + (y - 1901) / 100 =
      365 * (y - 1970) + (y - 1969) / 4 + (y - 1601) / 400 := by
  induction y, hy using Nat.le_induction with
  | base =>
      rfl
  | succ y hy ih =>
      -- each quotient grows in the years that its divisor divides
      have hfour := quotient_succ y 1968 4 (by omega) (by decide)
      have hcentury := quotient_succ y 1900 100 (by omega) (by decide)
      have hfourth := quotient_succ y 1600 400 (by omega) (by decide)
      have hlength : yearLength (isLeap y) + (if y % 100 = 0 then 1 else 0) =
          365 + (if y % 4 = 0 then 1 else 0) + if y % 400 = 0 then 1 else 0 :=
        yearLength_rule y
      rw [Finset.sum_Ico_succ_top hy, hfour, hcentury, hfourth]
      omega

end Gregorian
