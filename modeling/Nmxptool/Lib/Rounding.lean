import Mathlib.Algebra.Order.Floor.Ring
import Mathlib.Data.Int.Log
import Mathlib.Data.Rat.Floor
import Mathlib.Tactic.Linarith
import Mathlib.Tactic.Positivity

/-! # Rounding to doubles

Numbers are rationals, and each operation on doubles rounds its exact result to a number with `p`
bits, to the nearest one, ties to even. The exponent is not bounded: no number here overflows, or is
so small that it has fewer bits.

* `abs_nearestEven_sub_le`, `abs_round_sub_le`: how far rounding goes.
* `Near`: what is left of a number that is not negative after some roundings. -/

namespace Nmxptool.Lib.Rounding

/-- The nearest integer, ties to even. -/
def nearestEven (q : ℚ) : ℤ :=
  if q - ⌊q⌋ < 1 / 2 then ⌊q⌋
  else if 1 / 2 < q - ⌊q⌋ then ⌊q⌋ + 1
  else if ⌊q⌋ % 2 = 0 then ⌊q⌋
  else ⌊q⌋ + 1

/-- The unit in the last of the `p` bits. -/
def unit (p : ℕ) (q : ℚ) : ℚ := 2 ^ (Int.log 2 |q| + 1 - p)

/-- Rounding to `p` bits. -/
def round (p : ℕ) (q : ℚ) : ℚ := nearestEven (q / unit p q) * unit p q

/-- Rounding to a double. -/
def toDouble (q : ℚ) : ℚ := round 53 q

theorem abs_nearestEven_sub_le (q : ℚ) : |(nearestEven q : ℚ) - q| ≤ 1 / 2 := by
  have h0 := Int.floor_le q
  have h1 := Int.lt_floor_add_one q
  unfold nearestEven
  rw [abs_le]
  split_ifs with hlow hhigh <;> push_cast <;> constructor <;> linarith

theorem unit_pos (p : ℕ) (q : ℚ) : 0 < unit p q := zpow_pos two_pos _

/-- Half a unit is small against the number. -/
theorem unit_le (p : ℕ) {q : ℚ} (h : q ≠ 0) : unit p q / 2 ≤ |q| / 2 ^ p := by
  have hlog : (2 : ℚ) ^ Int.log 2 |q| ≤ |q| :=
    mod_cast Int.zpow_log_le_self Nat.one_lt_two (abs_pos.mpr h)
  calc unit p q / 2 = 2 ^ Int.log 2 |q| / 2 ^ p := by
        rw [unit, zpow_sub₀ two_ne_zero, zpow_add_one₀ two_ne_zero, zpow_natCast]
        ring
    _ ≤ |q| / 2 ^ p := by gcongr

@[simp] theorem round_zero (p : ℕ) : round p 0 = 0 := by simp [round, nearestEven]

/-- **The rounding error.** -/
theorem abs_round_sub_le (p : ℕ) (q : ℚ) : |round p q - q| ≤ |q| / 2 ^ p := by
  rcases eq_or_ne q 0 with rfl | h
  · simp
  · have hpos := unit_pos p q
    calc |round p q - q|
        = |((nearestEven (q / unit p q) : ℚ) - q / unit p q) * unit p q| := by
          rw [round, sub_mul, div_mul_cancel₀ q hpos.ne']
      _ = |(nearestEven (q / unit p q) : ℚ) - q / unit p q| * unit p q := by
          rw [abs_mul, abs_of_pos hpos]
      _ ≤ 1 / 2 * unit p q :=
          mul_le_mul_of_nonneg_right (abs_nearestEven_sub_le _) hpos.le
      _ = unit p q / 2 := by ring
      _ ≤ |q| / 2 ^ p := unit_le p h

/-! ### Numbers that are not negative -/

/-- What is left of `q` after `k` roundings: each takes away or adds at most a fraction of it. -/
structure Near (p k : ℕ) (q x : ℚ) : Prop where
  lower : q * (1 - 1 / 2 ^ p) ^ k ≤ x
  upper : x ≤ q * (1 + 1 / 2 ^ p) ^ k

theorem factor_nonneg (p : ℕ) : (0 : ℚ) ≤ 1 - 1 / 2 ^ p := by
  rw [sub_nonneg, div_le_one (by positivity)]
  exact one_le_pow₀ one_le_two

namespace Near

variable {p k : ℕ} {q x c : ℚ}

theorem refl (p : ℕ) (q : ℚ) : Near p 0 q q := ⟨by simp, by simp⟩

theorem nonneg (h : Near p k q x) (hq : 0 ≤ q) : 0 ≤ x :=
  (mul_nonneg hq (pow_nonneg (factor_nonneg p) k)).trans h.lower

/-- **One more rounding.** -/
theorem round (h : Near p k q x) (hq : 0 ≤ q) : Near p (k + 1) q (round p x) := by
  have herr := abs_round_sub_le p x
  rw [abs_of_nonneg (h.nonneg hq), abs_le, div_eq_mul_one_div] at herr
  constructor
  · calc q * (1 - 1 / 2 ^ p) ^ (k + 1) = q * (1 - 1 / 2 ^ p) ^ k * (1 - 1 / 2 ^ p) := by ring
      _ ≤ x * (1 - 1 / 2 ^ p) := mul_le_mul_of_nonneg_right h.lower (factor_nonneg p)
      _ ≤ Rounding.round p x := by linarith [herr.1]
  · calc Rounding.round p x ≤ x * (1 + 1 / 2 ^ p) := by linarith [herr.2]
      _ ≤ q * (1 + 1 / 2 ^ p) ^ k * (1 + 1 / 2 ^ p) :=
          mul_le_mul_of_nonneg_right h.upper (by positivity)
      _ = q * (1 + 1 / 2 ^ p) ^ (k + 1) := by ring

theorem mul_left (h : Near p k q x) (hc : 0 ≤ c) : Near p k (c * q) (c * x) := by
  constructor
  · rw [mul_assoc]
    exact mul_le_mul_of_nonneg_left h.lower hc
  · rw [mul_assoc]
    exact mul_le_mul_of_nonneg_left h.upper hc

theorem div_right (h : Near p k q x) (hc : 0 ≤ c) : Near p k (q / c) (x / c) := by
  constructor
  · rw [div_mul_eq_mul_div]
    exact div_le_div_of_nonneg_right h.lower hc
  · rw [div_mul_eq_mul_div]
    exact div_le_div_of_nonneg_right h.upper hc

end Near

end Nmxptool.Lib.Rounding
