import Mathlib.Algebra.BigOperators.Group.List.Basic
import Mathlib.Tactic.NormNum

/-! # The Gregorian calendar

Days are counted from the first of January 1970, and days of a year from `0`.

* `splitYear`: the year of a day, and the day of that year.
* `daysFromCivil`: the day of a date, with months and days of the month that may exceed their range,
  as `timegm` takes them. -/

namespace Nmxptool.Lib.Calendar

/-- Leap years. -/
def IsLeap (year : ℤ) : Prop := year % 400 = 0 ∨ (year % 4 = 0 ∧ year % 100 ≠ 0)

instance (year : ℤ) : Decidable (IsLeap year) := by unfold IsLeap; infer_instance

def yearLength (year : ℤ) : ℤ := if IsLeap year then 366 else 365

/-- The number of days before a year. -/
def daysBeforeYear (year : ℤ) : ℤ :=
  365 * (year - 1970) + (year - 1) / 4 - (year - 1) / 100 + (year - 1) / 400 - 477

/-- The lengths of the months. -/
def monthLengths (leap : Prop) [Decidable leap] : List ℤ :=
  [31, if leap then 29 else 28, 31, 30, 31, 30, 31, 31, 30, 31, 30, 31]

/-- The number of days of a year before a month. -/
def daysBeforeMonth (leap : Prop) [Decidable leap] (mon : ℕ) : ℤ :=
  ((monthLengths leap).take mon).sum

/-- The day of a date. Months are numbered from `0` and days of the month from `1`. -/
def daysFromCivil (year mon mday : ℤ) : ℤ :=
  daysBeforeYear (year + mon / 12) +
    daysBeforeMonth (IsLeap (year + mon / 12)) (mon % 12).toNat + (mday - 1)

/-- The year of a day, and the day of that year, searched from a year on. -/
def splitYear : ℕ → ℤ → ℤ → ℤ × ℤ
  | 0, year, day => (year, day)
  | fuel + 1, year, day =>
    if day < yearLength year then (year, day)
    else splitYear fuel (year + 1) (day - yearLength year)

theorem yearLength_pos (year : ℤ) : 0 < yearLength year := by
  unfold yearLength
  split_ifs <;> decide

theorem daysBeforeYear_succ (year : ℤ) :
    daysBeforeYear (year + 1) = daysBeforeYear year + yearLength year := by
  unfold daysBeforeYear yearLength IsLeap
  split_ifs with h <;> omega

/-- **The year of a day.** The number of days is fuel enough. -/
theorem splitYear_spec (fuel : ℕ) : ∀ (year day : ℤ), 0 ≤ day → day ≤ fuel →
    year ≤ (splitYear fuel year day).1 ∧
    0 ≤ (splitYear fuel year day).2 ∧
    (splitYear fuel year day).2 < yearLength (splitYear fuel year day).1 ∧
    daysBeforeYear (splitYear fuel year day).1 + (splitYear fuel year day).2 =
      daysBeforeYear year + day := by
  induction fuel with
  | zero =>
    intro year day h0 hle
    have : day < yearLength year := lt_of_le_of_lt (by simpa using hle) (yearLength_pos year)
    exact ⟨le_rfl, h0, this, rfl⟩
  | succ fuel ih =>
    intro year day h0 hle
    unfold splitYear
    split_ifs with h
    · exact ⟨le_rfl, h0, h, rfl⟩
    · have hpos := yearLength_pos year
      obtain ⟨h1, h2, h3, h4⟩ := ih (year + 1) (day - yearLength year) (by omega)
        (by push_cast at hle; omega)
      refine ⟨by omega, h2, h3, ?_⟩
      rw [h4, daysBeforeYear_succ]
      omega

/-- The months of a leap year begin a day later, from March on. -/
theorem daysBeforeMonth_leap (leap leap' : Prop) [Decidable leap] [Decidable leap'] {mon : ℕ}
    (hmon : mon < 12) :
    daysBeforeMonth leap mon = daysBeforeMonth leap' mon ↔ (leap ↔ leap') ∨ mon ≤ 1 := by
  by_cases h : leap <;> by_cases h' : leap' <;>
    simp only [daysBeforeMonth, monthLengths, h, h', if_true, if_false] <;> decide +revert

/-- January and February together. -/
theorem daysBeforeMonth_february (leap : Prop) [Decidable leap] {mon : ℕ} (hmon : mon < 12) :
    (mon ≤ 1 → daysBeforeMonth leap (mon + 1) ≤ if leap then 60 else 59) ∧
      (2 ≤ mon → (if leap then 60 else 59) ≤ daysBeforeMonth leap mon) := by
  by_cases h : leap <;>
    simp only [daysBeforeMonth, monthLengths, h, if_true, if_false] <;> decide +revert

theorem sum_monthLengths (leap : Prop) [Decidable leap] :
    (monthLengths leap).sum = if leap then 366 else 365 := by
  by_cases h : leap <;> simp only [monthLengths, h, if_true, if_false] <;> rfl

end Nmxptool.Lib.Calendar
