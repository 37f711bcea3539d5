import Nmxptool.Lib.Rounding

/-! # Doubles

The values of a `double` as a comparison tells them apart: a number, one of the two infinities, or
NaN. Numbers are rationals. The operations are exact, and `round` takes a result to the nearest
double. An integer that is converted is never `-0.0`, so a division by zero of converted integers
has the sign of the dividend.

* `quotient_of_ne`, `finite_add`, `finite_sub`, `finite_mul`: arithmetic of numbers.
* `le_finite`: the comparison of numbers. NaN compares with nothing. -/

namespace Nmxptool.Lib.Floating

open Nmxptool.Lib.Rounding (toDouble)

inductive Double
  | finite (q : ℚ)
  | infinite (positive : Bool)
  | nan
  deriving DecidableEq

namespace Double

/-- The quotient of two integers, each converted to a double. -/
def quotient (n d : ℤ) : Double :=
  if d ≠ 0 then finite (n / d)
  else if n = 0 then nan
  else infinite (decide (0 < n))

def neg : Double → Double
  | finite q => finite (-q)
  | infinite positive => infinite (!positive)
  | nan => nan

def add : Double → Double → Double
  | finite a, finite b => finite (a + b)
  | finite _, infinite positive => infinite positive
  | infinite positive, finite _ => infinite positive
  | infinite positive, infinite positive' => if positive = positive' then infinite positive else nan
  | _, nan => nan
  | nan, _ => nan

def mul : Double → Double → Double
  | finite a, finite b => finite (a * b)
  | finite a, infinite positive => if a = 0 then nan else infinite (positive == decide (0 < a))
  | infinite positive, finite a => if a = 0 then nan else infinite (positive == decide (0 < a))
  | infinite positive, infinite positive' => infinite (positive == positive')
  | _, nan => nan
  | nan, _ => nan

instance : Neg Double := ⟨neg⟩
instance : Add Double := ⟨add⟩
instance : Sub Double := ⟨fun a b => a + -b⟩
instance : Mul Double := ⟨mul⟩

/-- The comparison `<=`. -/
def le : Double → Double → Prop
  | finite a, finite b => a ≤ b
  | finite _, infinite positive => positive = true
  | infinite positive, finite _ => positive = false
  | infinite positive, infinite positive' => positive = true → positive' = true
  | _, nan => False
  | nan, _ => False

/-- The comparison `<`. -/
def lt : Double → Double → Prop
  | finite a, finite b => a < b
  | finite _, infinite positive => positive = true
  | infinite positive, finite _ => positive = false
  | infinite positive, infinite positive' => positive = false ∧ positive' = true
  | _, nan => False
  | nan, _ => False

instance : LE Double := ⟨le⟩
instance : LT Double := ⟨lt⟩

instance decidableLe : ∀ a b : Double, Decidable (a ≤ b)
  | finite a, finite b => inferInstanceAs (Decidable (a ≤ b))
  | finite _, infinite positive => inferInstanceAs (Decidable (positive = true))
  | infinite positive, finite _ => inferInstanceAs (Decidable (positive = false))
  | infinite positive, infinite positive' =>
    inferInstanceAs (Decidable (positive = true → positive' = true))
  | finite _, nan => inferInstanceAs (Decidable False)
  | infinite _, nan => inferInstanceAs (Decidable False)
  | nan, finite _ => inferInstanceAs (Decidable False)
  | nan, infinite _ => inferInstanceAs (Decidable False)
  | nan, nan => inferInstanceAs (Decidable False)

instance decidableLt : ∀ a b : Double, Decidable (a < b)
  | finite a, finite b => inferInstanceAs (Decidable (a < b))
  | finite _, infinite positive => inferInstanceAs (Decidable (positive = true))
  | infinite positive, finite _ => inferInstanceAs (Decidable (positive = false))
  | infinite positive, infinite positive' =>
    inferInstanceAs (Decidable (positive = false ∧ positive' = true))
  | finite _, nan => inferInstanceAs (Decidable False)
  | infinite _, nan => inferInstanceAs (Decidable False)
  | nan, finite _ => inferInstanceAs (Decidable False)
  | nan, infinite _ => inferInstanceAs (Decidable False)
  | nan, nan => inferInstanceAs (Decidable False)

/-- The nearest double. -/
def round : Double → Double
  | finite q => finite (toDouble q)
  | x => x

/-- The number; zero for what is none. -/
def toRat : Double → ℚ
  | finite q => q
  | _ => 0

/-! ### Numbers -/

theorem quotient_of_ne (n : ℤ) {d : ℤ} (h : d ≠ 0) : quotient n d = finite (n / d) := if_pos h

@[simp] theorem finite_add (a b : ℚ) : (finite a : Double) + finite b = finite (a + b) := rfl

@[simp] theorem finite_sub (a b : ℚ) : (finite a : Double) - finite b = finite (a - b) :=
  congrArg finite (sub_eq_add_neg a b).symm

@[simp] theorem finite_mul (a b : ℚ) : (finite a : Double) * finite b = finite (a * b) := rfl

@[simp] theorem le_finite {a b : ℚ} : (finite a : Double) ≤ finite b ↔ a ≤ b := Iff.rfl

end Double

end Nmxptool.Lib.Floating
