import Mathlib.Data.Nat.Notation
import Mathlib.Logic.Function.Iterate
import Mathlib.Tactic.SplitIfs

/-! # The reflected shift register

A register of `w` bits that shifts to the right, and to which a polynomial is added where the bit
shifted out is set. Bits enter at the low end, one with every shift.

* `shifts_xor`: shifting is linear.
* `serial_lsbFirst`: bits that enter one by one do the same as the bits added all at once, shifted.
* `shifts_split`: the low bits of the register can be shifted for themselves, which is what a table
  is good for.
* `serial_burst`: bits that differ within the width of the register are told apart. -/

namespace Nmxptool.Lib.ShiftRegister

variable {w n : ℕ} (poly : BitVec w)

/-- One shift. -/
def shift (r : BitVec w) : BitVec w := (r >>> 1) ^^^ (if r.getLsbD 0 then poly else 0)

/-- `n` shifts. -/
def shifts (n : ℕ) (r : BitVec w) : BitVec w := (shift poly)^[n] r

/-- One shift with which a bit enters. -/
def enter (r : BitVec w) (bit : Bool) : BitVec w :=
  (r >>> 1) ^^^ (if r.getLsbD 0 ^^ bit then poly else 0)

/-- **The bit-serial register**: the bits enter one after the other. -/
def serial (r : BitVec w) (bits : List Bool) : BitVec w := bits.foldl (enter poly) r

/-- The bits of a number, the least significant one first. -/
def lsbFirst (x : BitVec n) : List Bool := (List.range n).map fun k => x.getLsbD k

/-! ### Linearity -/

theorem shift_xor (a b : BitVec w) : shift poly (a ^^^ b) = shift poly a ^^^ shift poly b := by
  have hpoly (x y : Bool) : (if x ^^ y then poly else 0#w) =
      (if x then poly else 0#w) ^^^ (if y then poly else 0#w) := by
    cases x <;> cases y <;> simp
  unfold shift
  rw [BitVec.ushiftRight_xor_distrib, BitVec.getLsbD_xor]
  calc a >>> 1 ^^^ b >>> 1 ^^^ (if a.getLsbD 0 ^^ b.getLsbD 0 then poly else 0#w)
      = a >>> 1 ^^^ b >>> 1 ^^^
          ((if a.getLsbD 0 then poly else 0#w) ^^^ (if b.getLsbD 0 then poly else 0#w)) := by
        rw [hpoly]
    _ = (a >>> 1 ^^^ (if a.getLsbD 0 then poly else 0#w)) ^^^
          (b >>> 1 ^^^ (if b.getLsbD 0 then poly else 0#w)) := by ac_rfl

@[simp] theorem shifts_zero (r : BitVec w) : shifts poly 0 r = r := rfl

theorem shifts_succ (n : ℕ) (r : BitVec w) :
    shifts poly (n + 1) r = shifts poly n (shift poly r) := rfl

theorem shifts_succ' (n : ℕ) (r : BitVec w) :
    shifts poly (n + 1) r = shift poly (shifts poly n r) :=
  Function.iterate_succ_apply' (shift poly) n r

theorem shifts_add (m n : ℕ) (r : BitVec w) :
    shifts poly (m + n) r = shifts poly m (shifts poly n r) :=
  Function.iterate_add_apply (shift poly) m n r

/-- **Shifting is linear.** -/
theorem shifts_xor (n : ℕ) (a b : BitVec w) :
    shifts poly n (a ^^^ b) = shifts poly n a ^^^ shifts poly n b := by
  induction n generalizing a b with
  | zero => rfl
  | succ n ih => rw [shifts_succ, shift_xor, ih, shifts_succ, shifts_succ]

/-! ### The bits that are not shifted out -/

/-- As long as no bit that is set is shifted out, the polynomial is not added. -/
theorem shifts_high {n : ℕ} {r : BitVec w} (h : ∀ i < n, r.getLsbD i = false) :
    shifts poly n r = r >>> n := by
  induction n generalizing r with
  | zero => rw [shifts_zero, BitVec.ushiftRight_zero]
  | succ n ih =>
    have hshift : shift poly r = r >>> 1 := by
      simp [shift, h 0 (Nat.succ_pos n)]
    rw [shifts_succ, hshift, ih, ← BitVec.shiftRight_add, Nat.add_comm 1 n]
    intro i hi
    rw [BitVec.getLsbD_ushiftRight]
    exact h (1 + i) (by omega)

/-- **The low bits can be shifted for themselves.** -/
theorem shifts_split {n : ℕ} {mask : BitVec w}
    (hmask : ∀ i < w, mask.getLsbD i = decide (i < n)) (r : BitVec w) :
    shifts poly n r = shifts poly n (r &&& mask) ^^^ (r >>> n) := by
  have hsplit : r = (r &&& mask) ^^^ (r &&& ~~~mask) := by
    apply BitVec.eq_of_getLsbD_eq
    intro i hi
    simp only [BitVec.getLsbD_xor, BitVec.getLsbD_and, BitVec.getLsbD_not]
    cases r.getLsbD i <;> cases mask.getLsbD i <;> simp [hi]
  have hlow : ∀ i < n, (r &&& ~~~mask).getLsbD i = false := by
    intro i hi
    by_cases hw : i < w
    · simp [hmask i hw, hi]
    · exact BitVec.getLsbD_of_ge _ i (by omega)
  have hhigh : (r &&& ~~~mask) >>> n = r >>> n := by
    apply BitVec.eq_of_getLsbD_eq
    intro i hi
    by_cases hw : n + i < w
    · simp only [BitVec.getLsbD_ushiftRight, BitVec.getLsbD_and, BitVec.getLsbD_not,
        hmask (n + i) hw]
      simp [hw]
    · simp [BitVec.getLsbD_of_ge r (n + i) (by omega)]
  calc shifts poly n r = shifts poly n ((r &&& mask) ^^^ (r &&& ~~~mask)) := by rw [← hsplit]
    _ = shifts poly n (r &&& mask) ^^^ (r >>> n) := by
      rw [shifts_xor, shifts_high poly hlow, hhigh]

theorem shifts_twoPow {k : ℕ} (hk : k < w) : shifts poly k (BitVec.twoPow w k) = 1#w := by
  rw [shifts_high poly fun i hi => ?_]
  · apply BitVec.eq_of_getLsbD_eq
    intro i hi
    have hpos : 0 < w := by omega
    simp [BitVec.getLsbD_twoPow, BitVec.getLsbD_one, hk, hpos]
  · rw [BitVec.getLsbD_twoPow]
    simp [show ¬k = i by omega]

/-! ### Bits that enter -/

theorem enter_eq (hw : 0 < w) (r : BitVec w) (bit : Bool) :
    enter poly r bit = shift poly (r ^^^ (if bit then 1#w else 0#w)) := by
  cases bit with
  | false => simp [enter, shift]
  | true =>
    have hone : (1#w) >>> 1 = 0#w := by
      apply BitVec.eq_of_getLsbD_eq
      intro i hi
      simp [BitVec.getLsbD_one]
    unfold enter shift
    rw [if_pos rfl, BitVec.ushiftRight_xor_distrib, hone, BitVec.getLsbD_xor]
    simp [hw]

/-- The low `k` bits of a number. -/
def low (w k : ℕ) (x : BitVec n) : BitVec w := (x.setWidth k).setWidth w

theorem low_zero (x : BitVec n) : low w 0 x = 0#w := by
  apply BitVec.eq_of_getLsbD_eq
  intro i hi
  simp [low]

theorem low_succ {k : ℕ} (hk : k < w) (x : BitVec n) :
    low w (k + 1) x = low w k x ^^^ (if x.getLsbD k then BitVec.twoPow w k else 0#w) := by
  apply BitVec.eq_of_getLsbD_eq
  intro i hi
  have hbit : (if x.getLsbD k then BitVec.twoPow w k else 0#w).getLsbD i =
      (decide (i = k) && x.getLsbD i) := by
    by_cases hik : i = k
    · subst hik
      split_ifs with hx <;> simp [hx, hk]
    · split_ifs with hx <;> simp [hik, Ne.symm hik]
  unfold low
  simp only [BitVec.getLsbD_xor, BitVec.getLsbD_setWidth, hi, hbit, decide_true, Bool.true_and]
  by_cases hik : i = k
  · simp [hik]
  · have hlt : i < k + 1 ↔ i < k := by omega
    simp [hik, hlt]

/-- **Entering one by one** is adding all at once, and shifting. -/
theorem serial_lsbFirst (hn : n ≤ w) (r : BitVec w) (x : BitVec n) :
    serial poly r (lsbFirst x) = shifts poly n (r ^^^ x.setWidth w) := by
  have hstep (k : ℕ) (hk : k ≤ n) :
      serial poly r ((List.range k).map fun j => x.getLsbD j) =
        shifts poly k (r ^^^ low w k x) := by
    induction k with
    | zero => simp [serial, low_zero]
    | succ k ih =>
      have hkw : k < w := by omega
      have hbit : (if x.getLsbD k then 1#w else 0#w) =
          shifts poly k (if x.getLsbD k then BitVec.twoPow w k else 0#w) := by
        split_ifs
        · rw [shifts_twoPow poly hkw]
        · rw [shifts_high poly (by simp)]
          simp
      unfold serial at ih ⊢
      rw [List.range_succ, List.map_append, List.foldl_append, ih (by omega)]
      simp only [List.map_cons, List.map_nil, List.foldl_cons, List.foldl_nil]
      rw [enter_eq poly (by omega), hbit, ← shifts_xor, ← shifts_succ', low_succ hkw,
        BitVec.xor_assoc]
  unfold lsbFirst
  rw [hstep n n.le_refl, low, BitVec.setWidth_eq]

/-! ### Bursts -/

section Bursts
variable {poly}

/-- **Shifting loses nothing**, if the polynomial has its top bit: that bit of the result tells
whether the polynomial was added. -/
theorem shift_injective (htop : poly.getLsbD (w - 1) = true) : Function.Injective (shift poly) := by
  have hw : 0 < w := by
    by_contra hw
    rw [BitVec.getLsbD_of_ge poly (w - 1) (by omega)] at htop
    exact absurd htop (by decide)
  have hzero : ∀ r : BitVec w, shift poly r = 0#w → r = 0#w := by
    intro r h
    have hbit : ∀ i < w, (r.getLsbD (1 + i) ^^ (r.getLsbD 0 && poly.getLsbD i)) = false := by
      intro i hi
      have hi' := congrArg (fun v => v.getLsbD i) h
      unfold shift at hi'
      rw [BitVec.getLsbD_xor, BitVec.getLsbD_ushiftRight, BitVec.getLsbD_zero] at hi'
      cases h0 : r.getLsbD 0 <;> simpa [h0] using hi'
    have h0 : r.getLsbD 0 = false := by
      have := hbit (w - 1) (by omega)
      rw [BitVec.getLsbD_of_ge r (1 + (w - 1)) (by omega), htop] at this
      simpa using this
    apply BitVec.eq_of_getLsbD_eq
    intro i hi
    rw [BitVec.getLsbD_zero]
    cases i with
    | zero => exact h0
    | succ i =>
      have := hbit i (by omega)
      rwa [h0, Bool.false_and, Bool.xor_false, Nat.add_comm] at this
  intro a b hab
  refine BitVec.xor_eq_zero_iff.mp (hzero _ ?_)
  rw [shift_xor, hab, BitVec.xor_self]

theorem shifts_injective (htop : poly.getLsbD (w - 1) = true) (n : ℕ) :
    Function.Injective (shifts poly n) := (shift_injective htop).iterate n

/-- Different registers stay different, whatever enters. -/
theorem serial_injective (htop : poly.getLsbD (w - 1) = true) (bits : List Bool) :
    Function.Injective fun r => serial poly r bits := by
  have hw : 0 < w := by
    by_contra hw
    rw [BitVec.getLsbD_of_ge poly (w - 1) (by omega)] at htop
    exact absurd htop (by decide)
  induction bits with
  | nil => exact fun a b h => h
  | cons bit bits ih =>
    intro a b h
    have henter : enter poly a bit = enter poly b bit := ih h
    rw [enter_eq poly hw, enter_eq poly hw] at henter
    exact (BitVec.xor_left_inj _).mp (shift_injective htop henter)

/-- A list of bits is the bits of a number. -/
theorem exists_lsbFirst (bits : List Bool) (h : bits.length = n) :
    ∃ x : BitVec n, lsbFirst x = bits := by
  subst h
  refine ⟨BitVec.ofBoolListLE bits, List.ext_getElem (by simp [lsbFirst]) fun i h1 h2 => ?_⟩
  simp [lsbFirst, List.getElem?_eq_getElem h2]

/-- **Bursts are detected**: bits that differ only within the width of the register leave different
registers, whatever is before and behind them. -/
theorem serial_burst (htop : poly.getLsbD (w - 1) = true) (r : BitVec w) (before behind : List Bool)
    {xs ys : List Bool} (hxs : xs.length = n) (hys : ys.length = n) (hn : n ≤ w)
    (h : serial poly r (before ++ xs ++ behind) = serial poly r (before ++ ys ++ behind)) :
    xs = ys := by
  obtain ⟨x, rfl⟩ := exists_lsbFirst xs hxs
  obtain ⟨y, rfl⟩ := exists_lsbFirst ys hys
  unfold serial at h
  rw [List.foldl_append, List.foldl_append, List.foldl_append, List.foldl_append] at h
  have hburst : serial poly (serial poly r before) (lsbFirst x) =
      serial poly (serial poly r before) (lsbFirst y) := serial_injective htop behind h
  rw [serial_lsbFirst poly hn, serial_lsbFirst poly hn] at hburst
  have hxy := (BitVec.xor_right_inj _).mp (shifts_injective htop n hburst)
  congr 1
  apply BitVec.eq_of_toNat_eq
  have htoNat := congrArg BitVec.toNat hxy
  rwa [BitVec.toNat_setWidth_of_le hn, BitVec.toNat_setWidth_of_le hn] at htoNat

end Bursts

end Nmxptool.Lib.ShiftRegister
