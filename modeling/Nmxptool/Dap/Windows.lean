import Nmxptool.Dap.Trim
import Nmxptool.Lib.Window

/-! # What trimming keeps

A sample stands for the interval up to the next one. `nmxp_data_trim` rounds the number of samples
to remove at either end, and so keeps the samples whose intervals have their midpoints strictly
inside the window.

* `removals`: the two rounded numbers never exceed the samples together, and leave those samples.
* `trim_keeps`: what is left of a packet, and that there is never an error.
* `adjacent_iff`: two windows that meet lose just a sample whose midpoint lies where they meet. -/

namespace Nmxptool.Dap.Windows

open Nmxptool.Data.Process Nmxptool.Lib.Floating Nmxptool.Lib.Window
open Nmxptool.Pds.Clip Nmxptool.Dap.Trim

/-- The middle of the interval of sample `i`. -/
def midpoint (pd : NmxpDataProcess ℚ) (i : ℕ) : ℚ := pd.time + (i + 1 / 2) / pd.sampRate.toInt

/-- The samples with their midpoints. -/
def stamped (pd : NmxpDataProcess ℚ) : List (ℚ × Int32) :=
  pd.samples.mapIdx fun i x => (midpoint pd i, x)

/-- `last_time`, for a packet with a rate. -/
def lastTime (pd : NmxpDataProcess ℚ) : ℚ := pd.time + pd.nSamp.toInt / pd.sampRate.toInt

/-- A packet with a rate, whose array holds its samples. -/
structure PacketOK (pd : NmxpDataProcess ℚ) : Prop where
  sampRate : 0 < pd.sampRate.toInt
  samples : pd.samples.length = pd.nSamp.toInt.toNat

/-! ### Rounding -/

theorem toInt_truncate {x : ℚ} (h0 : 0 ≤ x) (hlt : ⌊x⌋ < 2 ^ 31) : (truncate x).toInt = ⌊x⌋ := by
  have hfloor := Int.floor_nonneg.mpr h0
  rw [truncate_of_nonneg h0]
  exact toInt_ofInt_of_range (by omega) hlt

variable {pd : NmxpDataProcess ℚ} {a b : ℚ}

namespace PacketOK
variable (h : PacketOK pd)
include h

theorem rate_pos : (0 : ℚ) < pd.sampRate.toInt := Int.cast_pos.mpr h.sampRate

theorem endTime_eq : pd.exactEndTime = .finite (lastTime pd) :=
  NmxpDataProcess.exactEndTime_of_ne h.sampRate.ne'

theorem le_endTime_iff : .finite a ≤ pd.exactEndTime ↔ a ≤ lastTime pd := by
  rw [h.endTime_eq, Double.le_finite]

theorem outside_iff : Outside a b pd ↔
    (pd.time < a ∧ lastTime pd < a) ∨ (pd.time > b ∧ lastTime pd > b) := by
  unfold Outside
  rw [h.endTime_eq]
  exact Iff.rfl

theorem first_eq (bits : UInt8) : firstNsamplesToRemove a bits pd =
    if pd.time ≤ a ∧ a ≤ lastTime pd then
      truncate ((a - pd.time) * pd.sampRate.toInt + 1 / 2) +
        if bits &&& NMXP_DATA_TRIM_EXCLUDE_FIRST ≠ 0 then 1 else 0
    else 0 := by
  unfold firstNsamplesToRemove
  simp only [h.le_endTime_iff]

theorem last_eq (bits : UInt8) : lastNsamplesToRemove b bits pd =
    if pd.time ≤ b ∧ b ≤ lastTime pd then
      truncate ((lastTime pd - b) * pd.sampRate.toInt + 1 / 2) +
        if bits &&& NMXP_DATA_TRIM_EXCLUDE_LAST ≠ 0 then 1 else 0
    else 0 := by
  unfold lastNsamplesToRemove
  simp only [h.endTime_eq, Double.le_finite, Double.finite_sub, Double.finite_mul,
    Double.finite_add, truncateDouble]

theorem lt_midpoint_iff (i : ℕ) :
    a < midpoint pd i ↔ (a - pd.time) * pd.sampRate.toInt < i + 1 / 2 := by
  rw [← lt_div_iff₀ h.rate_pos, midpoint, sub_lt_iff_lt_add']

theorem midpoint_lt_iff (i : ℕ) :
    midpoint pd i < b ↔ i + 1 / 2 < (b - pd.time) * pd.sampRate.toInt := by
  rw [← div_lt_iff₀ h.rate_pos, midpoint, lt_sub_iff_add_lt']

theorem midpoint_mono {i j : ℕ} (hij : i ≤ j) : midpoint pd i ≤ midpoint pd j := by
  have := h.rate_pos
  unfold midpoint
  gcongr

end PacketOK

section Removals
variable (h : PacketOK pd) {n : ℕ} (hn : pd.nSamp.toInt = n)
include h hn

/-- The samples reach up to the end of the packet. -/
theorem lastTime_sub (t : ℚ) :
    (lastTime pd - t) * pd.sampRate.toInt = n - (t - pd.time) * pd.sampRate.toInt := by
  have := h.rate_pos
  rw [lastTime, hn]
  field_simp
  push_cast
  ring

theorem mul_le_of_le_lastTime {t : ℚ} (ht : t ≤ lastTime pd) :
    (t - pd.time) * pd.sampRate.toInt ≤ n := by
  have hend := lastTime_sub h hn t
  have := mul_nonneg (sub_nonneg.mpr ht) h.rate_pos.le
  linarith

/-- A window that starts in the packet. -/
theorem first_inside (ha : pd.time ≤ a ∧ a ≤ lastTime pd) : ∃ k : ℕ,
    (firstNsamplesToRemove a 0 pd).toInt = k ∧ k ≤ n ∧ ∀ i : ℕ, a < midpoint pd i ↔ k ≤ i := by
  set x := (a - pd.time) * pd.sampRate.toInt with hx
  have hx0 : 0 ≤ x := mul_nonneg (sub_nonneg.mpr ha.1) h.rate_pos.le
  have hxn : x ≤ n := mul_le_of_le_lastTime h hn ha.2
  have hfloor : ⌊x + 1 / 2⌋ ≤ n := Int.floor_le_iff.mpr (by push_cast; linarith)
  have hfloor0 : 0 ≤ ⌊x + 1 / 2⌋ := Int.floor_nonneg.mpr (by linarith)
  have hlt := pd.nSamp.toInt_lt
  have hfirst : (firstNsamplesToRemove a 0 pd).toInt = ⌊x + 1 / 2⌋ := by
    have hbit : ¬ (0 &&& NMXP_DATA_TRIM_EXCLUDE_FIRST : UInt8) ≠ 0 := by decide
    rw [h.first_eq, if_pos ha, if_neg hbit, Int32.add_zero, ← hx]
    exact toInt_truncate (by linarith) (by omega)
  refine ⟨⌊x + 1 / 2⌋.toNat, by rw [hfirst]; omega, by omega, fun i => ?_⟩
  rw [h.lt_midpoint_iff, ← hx, Int.toNat_le, Int.floor_le_iff]
  push_cast
  constructor <;> intro _ <;> linarith

/-- A window that ends in the packet. -/
theorem last_inside (hb : pd.time ≤ b ∧ b ≤ lastTime pd) : ∃ m : ℕ,
    (lastNsamplesToRemove b 0 pd).toInt = m ∧ m ≤ n ∧
      ∀ i : ℕ, midpoint pd i < b ↔ i + m < n := by
  set y := (lastTime pd - b) * pd.sampRate.toInt with hy
  have hy0 : 0 ≤ y := mul_nonneg (sub_nonneg.mpr hb.2) h.rate_pos.le
  have hend : y = n - (b - pd.time) * pd.sampRate.toInt := lastTime_sub h hn b
  have hyn : y ≤ n := by
    have := mul_nonneg (sub_nonneg.mpr hb.1) h.rate_pos.le
    linarith
  have hfloor : ⌊y + 1 / 2⌋ ≤ n := Int.floor_le_iff.mpr (by push_cast; linarith)
  have hfloor0 : 0 ≤ ⌊y + 1 / 2⌋ := Int.floor_nonneg.mpr (by linarith)
  have hlt := pd.nSamp.toInt_lt
  have hlast : (lastNsamplesToRemove b 0 pd).toInt = ⌊y + 1 / 2⌋ := by
    have hbit : ¬ (0 &&& NMXP_DATA_TRIM_EXCLUDE_LAST : UInt8) ≠ 0 := by decide
    rw [h.last_eq, if_pos hb, if_neg hbit, Int32.add_zero, ← hy]
    exact toInt_truncate (by linarith) (by omega)
  refine ⟨⌊y + 1 / 2⌋.toNat, by rw [hlast]; omega, by omega, fun i => ?_⟩
  have hcount : i + ⌊y + 1 / 2⌋.toNat < n ↔ ⌊y + 1 / 2⌋ < (n : ℤ) - i := by omega
  rw [h.midpoint_lt_iff, hcount, Int.floor_lt]
  push_cast
  constructor <;> intro _ <;> linarith

/-- **The removals** leave the samples with their midpoints inside the window; the two together are
no more than there are samples. -/
theorem removals (hab : a < b) : ∃ k m : ℕ,
    (if Outside a b pd then pd.nSamp else firstNsamplesToRemove a 0 pd).toInt = k ∧
      (lastNsamplesToRemove b 0 pd).toInt = m ∧ k + m ≤ n ∧
      ∀ i < n, (a < midpoint pd i ∧ midpoint pd i < b) ↔ k ≤ i ∧ i < n - m := by
  have hle : pd.time ≤ lastTime pd := by
    have hr := h.rate_pos
    rw [lastTime, hn]
    exact le_add_of_nonneg_right (by positivity)
  have hlast0 : ¬ (pd.time ≤ b ∧ b ≤ lastTime pd) → (lastNsamplesToRemove b 0 pd).toInt = 0 :=
    fun hb => by
      rw [h.last_eq, if_neg hb]
      rfl
  have hbefore : ∀ i < n, midpoint pd i < lastTime pd := fun i hi => by
    have hr := h.rate_pos
    have : (i : ℚ) + 1 ≤ n := by exact_mod_cast hi
    rw [h.midpoint_lt_iff, lastTime, hn, add_sub_cancel_left,
      div_mul_cancel₀ _ hr.ne']
    push_cast
    linarith
  have hbehind : ∀ i, pd.time < midpoint pd i := fun i => by
    rw [h.lt_midpoint_iff, sub_self, zero_mul]
    positivity
  by_cases hout : Outside a b pd
  · -- nothing is left
    rw [if_pos hout]
    refine ⟨n, 0, hn, ?_, by omega, fun i hi => iff_of_false ?_ (by omega)⟩
    · refine hlast0 fun hb => ?_
      rcases h.outside_iff.mp hout with ⟨-, h2⟩ | ⟨h1, -⟩
      · exact absurd (hab.trans_le hb.2) h2.not_gt
      · exact absurd hb.1 (not_le.mpr h1)
    · rintro ⟨h1, h2⟩
      rcases h.outside_iff.mp hout with ⟨-, hend⟩ | ⟨htime, -⟩
      · exact absurd (h1.trans (hbefore i hi)) hend.not_gt
      · exact absurd ((hbehind i).trans h2) htime.not_gt
  · rw [if_neg hout]
    -- at each end the window is inside the packet, or removes nothing
    have hfirst : ∃ k : ℕ, (firstNsamplesToRemove a 0 pd).toInt = k ∧ k ≤ n ∧
        ∀ i : ℕ, a < midpoint pd i ↔ k ≤ i := by
      by_cases ha : pd.time ≤ a ∧ a ≤ lastTime pd
      · exact first_inside h hn ha
      · have hat : a < pd.time := by
          by_contra hta
          rw [not_lt] at hta
          have hae : lastTime pd < a := not_le.mp fun hae => ha ⟨hta, hae⟩
          exact hout (h.outside_iff.mpr (Or.inl ⟨hle.trans_lt hae, hae⟩))
        refine ⟨0, ?_, Nat.zero_le n, fun i => iff_of_true (hat.trans (hbehind i)) i.zero_le⟩
        rw [h.first_eq, if_neg ha]
        rfl
    have hlast : ∃ m : ℕ, (lastNsamplesToRemove b 0 pd).toInt = m ∧ m ≤ n ∧
        ∀ i < n, midpoint pd i < b ↔ i + m < n := by
      by_cases hb : pd.time ≤ b ∧ b ≤ lastTime pd
      · obtain ⟨m, h1, h2, h3⟩ := last_inside h hn hb
        exact ⟨m, h1, h2, fun i _ => h3 i⟩
      · have heb : lastTime pd < b := by
          by_contra hbe
          rw [not_lt] at hbe
          have hbt : b < pd.time := not_le.mp fun hbt => hb ⟨hbt, hbe⟩
          exact hout (h.outside_iff.mpr (Or.inr ⟨hbt, hbt.trans_le hle⟩))
        exact ⟨0, hlast0 hb, Nat.zero_le n,
          fun i hi => iff_of_true ((hbefore i hi).trans heb) (by omega)⟩
    obtain ⟨k, hk, hkn, hka⟩ := hfirst
    obtain ⟨m, hm, hmn, hmb⟩ := hlast
    refine ⟨k, m, hk, hm, ?_, fun i hi => ?_⟩
    · -- the last sample removed at the front is before the window, and so before its end
      rcases Nat.eq_zero_or_pos k with rfl | hpos
      · omega
      · have hfront : midpoint pd (k - 1) ≤ a :=
          not_lt.mp fun hlt => absurd ((hka (k - 1)).mp hlt) (by omega)
        have := (hmb (k - 1) (by omega)).mp (hfront.trans_lt hab)
        omega
    · rw [hka, hmb i hi]
      omega

end Removals

/-! ### Moving the samples -/

/-- After the rounds from `i` on, each place that was written holds what stood `k` places further;
a round reads at or behind the place that it writes, where nothing has been written. -/
theorem moveSamples_ok {k : ℕ} : ∀ (left i : ℕ) (a : List Int32), i + left + k ≤ a.length →
    ∃ a', moveSamples k left i a = some a' ∧ a'.length = a.length ∧
      ∀ j, a'[j]? = if i ≤ j ∧ j < i + left then a[j + k]? else a[j]? := by
  intro left
  induction left with
  | zero =>
    intro i a _
    exact ⟨a, rfl, rfl, fun j => (if_neg (by omega)).symm⟩
  | succ left ih =>
    intro i a hlen
    have hread : a[i + k]? = some (a.get ⟨i + k, by omega⟩) := List.getElem?_eq_getElem _
    have hcopy : copySample a i (k + i) = some (a.set i (a.get ⟨i + k, by omega⟩)) := by
      unfold copySample
      have hnat : ((k : ℤ) + i).toNat = i + k := by omega
      rw [if_pos ⟨by omega, by omega⟩, hnat, hread]
      rfl
    obtain ⟨a', hrun, hlen', hget⟩ := ih (i + 1) (a.set i (a.get ⟨i + k, by omega⟩))
      (by rw [List.length_set]; omega)
    refine ⟨a', ?_, by rw [hlen', List.length_set], fun j => ?_⟩
    · rw [moveSamples, hcopy]
      exact hrun
    · rw [hget j]
      by_cases hij : i = j
      · subst hij
        rw [if_neg (by omega), if_pos (by omega), List.getElem?_set_self (by omega), hread]
      · by_cases hj : i + 1 ≤ j ∧ j < i + 1 + left
        · rw [if_pos hj, if_pos (by omega), List.getElem?_set_ne (by omega)]
        · rw [if_neg hj, if_neg (by omega), List.getElem?_set_ne hij]

/-- The samples of a packet are the cells of its array. -/
theorem samples_getElem? {j : ℕ} (hj : j < pd.nSamp.toInt.toNat) :
    pd.samples[j]? = (pd.pDataPtr.getD [])[j]? :=
  List.getElem?_take_of_lt hj

/-- **What is removed**: `k` samples in front and `m` at the end, where some are left. -/
structure Removed (k m : ℕ) (pd pd' : NmxpDataProcess ℚ) : Prop where
  samples : pd'.samples = (pd.samples.take (pd.samples.length - m)).drop k
  nSamp : pd'.nSamp.toInt = pd.nSamp.toInt - (k + m)
  time : pd'.time = sampleTime pd k
  x0 : if k = 0 then pd'.x0 = pd.x0 else pd.samples[k]? = some pd'.x0
  xn : (pd.samples ++ [pd.xn])[pd.samples.length - m]? = some pd'.xn

section Remove
variable (h : PacketOK pd) {n k m : ℕ} (hn : pd.nSamp.toInt = n) {first last : Int32}
include h hn

theorem newEnd_first (hk : first.toInt = k) (hlt : k < n) :
    ∃ x0, newEnd first first pd.x0 pd.pDataPtr = some x0 ∧
      if k = 0 then x0 = pd.x0 else pd.samples[k]? = some x0 := by
  have hlen := h.samples
  have hzero : (0 : Int32).toInt = 0 := rfl
  unfold newEnd
  by_cases hpos : first > 0
  · have hlt' := Int32.lt_iff_toInt_lt.mp hpos
    have hcell : pd.samples[k]? = (pd.pDataPtr.getD [])[k]? := samples_getElem? (by omega)
    have hsome : pd.samples[k]? = some (pd.samples.get ⟨k, by omega⟩) :=
      List.getElem?_eq_getElem _
    refine ⟨_, ?_, (if_neg (by omega : ¬ k = 0)).mpr hsome⟩
    rw [if_pos hpos, readSample, if_pos (by omega), hk, Int.toNat_natCast, ← hcell, hsome]
  · have hle : ¬ (0 : Int32).toInt < first.toInt :=
      fun hlt => hpos (Int32.lt_iff_toInt_lt.mpr hlt)
    exact ⟨_, if_neg hpos, (if_pos (by omega : k = 0)).mpr rfl⟩

theorem newEnd_last (hm : last.toInt = m) (hle : m ≤ n) :
    ∃ xn, newEnd last (pd.nSamp - last) pd.xn pd.pDataPtr = some xn ∧
      (pd.samples ++ [pd.xn])[n - m]? = some xn := by
  have hlen := h.samples
  have hbound := pd.nSamp.toInt_lt
  unfold newEnd
  by_cases hpos : last > 0
  · have hmpos : 0 < m := by
      have := Int32.lt_iff_toInt_lt.mp hpos
      have h0 : (0 : Int32).toInt = 0 := rfl
      omega
    have hsub : (pd.nSamp - last).toInt = (n - m : ℕ) := by
      rw [toInt_sub_of_range (by omega) (by omega)]
      omega
    have hcell : pd.samples[n - m]? = (pd.pDataPtr.getD [])[n - m]? :=
      samples_getElem? (by omega)
    have hsome : pd.samples[n - m]? = some (pd.samples.get ⟨n - m, by omega⟩) :=
      List.getElem?_eq_getElem _
    refine ⟨_, ?_, by rw [List.getElem?_append_left (by omega), hsome]⟩
    rw [if_pos hpos, readSample, if_pos (by omega), hsub, Int.toNat_natCast, ← hcell, hsome]
  · have hzero : m = 0 := by
      have : ¬ (0 : Int32).toInt < last.toInt := fun hlt => hpos (Int32.lt_iff_toInt_lt.mpr hlt)
      have h0 : (0 : Int32).toInt = 0 := rfl
      omega
    subst hzero
    refine ⟨_, if_neg hpos, ?_⟩
    rw [List.getElem?_append_right (by omega)]
    have hz : n - 0 - pd.samples.length = 0 := by omega
    rw [hz]
    rfl

theorem removeSamples_ok (hk : first.toInt = k) (hm : last.toInt = m) (hlt : k + m < n) :
    ∃ pd', removeSamples first last (pd.nSamp - (first + last)) pd = some pd' ∧
      Removed k m pd pd' := by
  have hlen := h.samples
  have hbound := pd.nSamp.toInt_lt
  obtain ⟨x0, hx0', hx0⟩ := newEnd_first h hn hk (by omega)
  obtain ⟨xn, hxn', hxn⟩ := newEnd_last h hn hm (by omega)
  have harray : n ≤ (pd.pDataPtr.getD []).length := by
    rw [NmxpDataProcess.samples, List.length_take] at hlen
    omega
  have hrounds : (pd.nSamp - first).toInt.toNat = n - k := by
    rw [toInt_sub_of_range (by omega) (by omega)]
    omega
  have hnew : (pd.nSamp - (first + last)).toInt = (n - (k + m) : ℕ) := by
    have hsum : (first + last).toInt = (k + m : ℕ) := by
      rw [toInt_add_of_range (by omega) (by omega)]
      omega
    rw [toInt_sub_of_range (by omega) (by omega)]
    omega
  obtain ⟨a, hmove, -, hget⟩ := moveSamples_ok (k := k) (n - k) 0 (pd.pDataPtr.getD []) (by omega)
  have hrun : removeSamples first last (pd.nSamp - (first + last)) pd = some { pd with
      pDataPtr := some a
      nSamp := pd.nSamp - (first + last)
      time := pd.time + first.toInt / pd.sampRate.toInt
      x0 := x0
      xn := xn } := by
    rw [removeSamples, hx0', hxn', hk, hrounds]
    show (moveSamples k (n - k) 0 _).bind _ = some _
    rw [hmove]
    rfl
  refine ⟨_, hrun, ?_, ?_, ?_, hx0, ?_⟩
  · apply List.ext_getElem?
    intro j
    show (a.take (pd.nSamp - (first + last)).toInt.toNat)[j]? = _
    rw [hnew, Int.toNat_natCast, List.getElem?_drop]
    by_cases hj : j < n - (k + m)
    · rw [List.getElem?_take_of_lt hj, hget j, if_pos (by omega),
        List.getElem?_take_of_lt (by omega), samples_getElem? (by omega), Nat.add_comm]
    · rw [List.getElem?_take_eq_none (by omega), List.getElem?_take_eq_none (by omega)]
  · show (pd.nSamp - (first + last)).toInt = _
    omega
  · show pd.time + (first.toInt : ℚ) / pd.sampRate.toInt = _
    rw [hk]
    rfl
  · rw [hlen, hn, Int.toNat_natCast]
    exact hxn

end Remove

/-- Nothing is removed. -/
theorem removed_refl (pd : NmxpDataProcess ℚ) : Removed 0 0 pd pd where
  samples := by rw [Nat.sub_zero, List.take_length, List.drop_zero]
  nSamp := by omega
  time := by
    unfold sampleTime
    rw [Nat.cast_zero, zero_div, add_zero]
  x0 := (if_pos (rfl : (0 : ℕ) = 0)).mpr rfl
  xn := by
    rw [Nat.sub_zero, List.getElem?_append_right le_rfl, Nat.sub_self]
    rfl

section Trim
variable (h : PacketOK pd) (h0 : 0 ≤ pd.nSamp.toInt) (hab : a < b)
include h h0 hab

/-- **All that trimming can do**: leave the packet as it is, empty it, or remove the samples outside
the window. -/
theorem trim_cases : ∃ k m : ℕ,
    (∀ i < pd.samples.length,
      (a < midpoint pd i ∧ midpoint pd i < b) ↔ k ≤ i ∧ i < pd.samples.length - m) ∧
    ((k = 0 ∧ m = 0 ∧ nmxpDataTrim a b 0 pd = some (2, pd)) ∨
      (0 < k + m ∧ k + m = pd.samples.length ∧
        nmxpDataTrim a b 0 pd = some (1, { pd with nSamp := 0, x0 := -1, xn := -1 })) ∨
      (0 < k + m ∧ k + m < pd.samples.length ∧
        ∃ pd', nmxpDataTrim a b 0 pd = some (1, pd') ∧ Removed k m pd pd')) := by
  have hn : pd.nSamp.toInt = pd.samples.length := by rw [h.samples, Int.toNat_of_nonneg h0]
  have hbound := pd.nSamp.toInt_lt
  have hzero : (0 : Int32).toInt = 0 := rfl
  obtain ⟨k, m, hk, hm, hle, hwin⟩ := removals h hn hab
  refine ⟨k, m, hwin, ?_⟩
  unfold nmxpDataTrim
  set first := if Outside a b pd then pd.nSamp else firstNsamplesToRemove a 0 pd
  set last := lastNsamplesToRemove b 0 pd
  dsimp only
  have hsum : (first + last).toInt = (k + m : ℕ) := by
    rw [toInt_add_of_range (by omega) (by omega)]
    omega
  have hnew : (pd.nSamp - (first + last)).toInt = pd.samples.length - (k + m : ℕ) := by
    rw [toInt_sub_of_range (by omega) (by omega), hsum, hn]
  by_cases hany : first > 0 ∨ last > 0
  · have hpos : 0 < k + m := by
      rcases hany with hf | hl
      · have := Int32.lt_iff_toInt_lt.mp hf
        omega
      · have := Int32.lt_iff_toInt_lt.mp hl
        omega
    rw [if_pos hany]
    by_cases hsome : pd.nSamp - (first + last) > 0
    · have hlt := Int32.lt_iff_toInt_lt.mp hsome
      obtain ⟨pd', hrun, hremoved⟩ := removeSamples_ok h hn hk hm (by omega)
      rw [if_pos hsome, hrun]
      exact Or.inr (Or.inr ⟨hpos, by omega, pd', rfl, hremoved⟩)
    · have hge : ¬ (0 : Int32).toInt < (pd.nSamp - (first + last)).toInt :=
        fun hlt => hsome (Int32.lt_iff_toInt_lt.mpr hlt)
      have hnone : pd.nSamp - (first + last) = 0 := Int32.toInt_inj.mp (by omega)
      rw [if_neg hsome, if_pos hnone]
      exact Or.inr (Or.inl ⟨hpos, by omega, rfl⟩)
  · rw [if_neg hany]
    rw [not_or] at hany
    have hf : ¬ (0 : Int32).toInt < first.toInt :=
      fun hlt => hany.1 (Int32.lt_iff_toInt_lt.mpr hlt)
    have hl : ¬ (0 : Int32).toInt < last.toInt :=
      fun hlt => hany.2 (Int32.lt_iff_toInt_lt.mpr hlt)
    exact Or.inl ⟨by omega, by omega, rfl⟩

end Trim

/-! ### What is kept -/

theorem map_stamped (pd : NmxpDataProcess ℚ) : (stamped pd).map Prod.snd = pd.samples := by
  apply List.ext_getElem?
  intro i
  rw [stamped, List.getElem?_map, List.getElem?_mapIdx, Option.map_map]
  cases pd.samples[i]? <;> rfl

/-- The samples whose midpoints are inside the window `(a, b)`. -/
def inWindow (a b : ℚ) (pd : NmxpDataProcess ℚ) : List Int32 :=
  (within Prod.fst a b (stamped pd)).map Prod.snd

theorem inWindow_eq {k m : ℕ} (hwin : ∀ i < pd.samples.length,
    (a < midpoint pd i ∧ midpoint pd i < b) ↔ k ≤ i ∧ i < m) :
    inWindow a b pd = (pd.samples.take m).drop k := by
  have hfilter : within Prod.fst a b (stamped pd) = ((stamped pd).take m).drop k := by
    refine filter_eq_drop_take fun i x hx => ?_
    rw [stamped, List.getElem?_mapIdx, Option.map_eq_some_iff] at hx
    obtain ⟨y, hy, rfl⟩ := hx
    rw [decide_eq_true_iff]
    exact hwin i (List.getElem?_eq_some_iff.mp hy).1
  rw [inWindow, hfilter, List.map_drop, List.map_take, map_stamped]

/-- Sample `i` is the first one inside the window. -/
def FirstInside (a b : ℚ) (pd : NmxpDataProcess ℚ) (i : ℕ) : Prop :=
  i < pd.samples.length ∧ (a < midpoint pd i ∧ midpoint pd i < b) ∧
    ∀ j < i, ¬ (a < midpoint pd j ∧ midpoint pd j < b)

/-- Sample `i` is the last one inside the window. -/
def LastInside (a b : ℚ) (pd : NmxpDataProcess ℚ) (i : ℕ) : Prop :=
  i < pd.samples.length ∧ (a < midpoint pd i ∧ midpoint pd i < b) ∧
    ∀ j < pd.samples.length, i < j → ¬ (a < midpoint pd j ∧ midpoint pd j < b)

/-- **What trimming should give**: the samples inside the window, with the time and the value of the
first one, and the value behind the last one; `2` is returned just if these are all. -/
structure KeepsWindow (a b : ℚ) (pd : NmxpDataProcess ℚ) (ret : ℤ) (pd' : NmxpDataProcess ℚ) :
    Prop where
  returns : ret = 1 ∨ ret = 2
  samples : pd'.samples = inWindow a b pd
  nSamp : pd'.nSamp.toInt = pd'.samples.length
  first : ∀ i, FirstInside a b pd i →
    pd'.time = sampleTime pd i ∧ pd.samples[i]? = some pd'.x0
  last : ∀ i, LastInside a b pd i → (pd.samples ++ [pd.xn])[i + 1]? = some pd'.xn
  unchanged : ret = 2 ↔ pd'.samples = pd.samples
  same : ret = 2 → pd' = pd

/-- What is left between the removals. -/
theorem keepsWindow_of_removed {k m : ℕ} {ret : ℤ} {pd' : NmxpDataProcess ℚ}
    (hwin : ∀ i < pd.samples.length,
      (a < midpoint pd i ∧ midpoint pd i < b) ↔ k ≤ i ∧ i < pd.samples.length - m)
    (hn : pd.nSamp.toInt = pd.samples.length) (hlt : k + m < pd.samples.length)
    (hx0 : ∀ x, pd.samples.head? = some x → pd.x0 = x)
    (hr : Removed k m pd pd') (hret : ret = 1 ∧ 0 < k + m ∨ ret = 2 ∧ k + m = 0 ∧ pd' = pd) :
    KeepsWindow a b pd ret pd' := by
  have hlen : pd'.samples.length = pd.samples.length - m - k := by
    rw [hr.samples, List.length_drop, List.length_take_of_le (Nat.sub_le _ _)]
  refine ⟨?_, hr.samples.trans (inWindow_eq hwin).symm, ?_, ?_, ?_, ?_, ?_⟩
  · rcases hret with ⟨rfl, -⟩ | ⟨rfl, -⟩
    · exact Or.inl rfl
    · exact Or.inr rfl
  · rw [hr.nSamp, hn, hlen]
    omega
  · rintro i ⟨hi, hin, hmin⟩
    have hki := (hwin i hi).mp hin
    obtain rfl : i = k := by
      by_contra hne
      exact hmin k (by omega) ((hwin k (by omega)).mpr (by omega))
    refine ⟨hr.time, ?_⟩
    have hx := hr.x0
    split_ifs at hx with hzero
    · subst hzero
      have hsome : pd.samples[0]? = some (pd.samples.get ⟨0, hi⟩) := List.getElem?_eq_getElem _
      rw [hx, hsome]
      exact congrArg some (hx0 _ (by rw [List.head?_eq_getElem?, hsome])).symm
    · exact hx
  · rintro i ⟨hi, hin, hmax⟩
    have hki := (hwin i hi).mp hin
    obtain hi' : i + 1 = pd.samples.length - m := by
      by_contra hne
      exact hmax (i + 1) (by omega) (Nat.lt_succ_self i) ((hwin (i + 1) (by omega)).mpr (by omega))
    rw [hi']
    exact hr.xn
  · rcases hret with ⟨rfl, hpos⟩ | ⟨rfl, -, rfl⟩
    · refine iff_of_false (by norm_num) fun heq => ?_
      rw [heq] at hlen
      omega
    · exact iff_of_true rfl rfl
  · rcases hret with ⟨rfl, -⟩ | ⟨-, -, hsame⟩
    · exact fun h2 => absurd h2 (by norm_num)
    · exact fun _ => hsame

/-- **Trimming keeps the window.** For every packet and every window, the samples inside it are
left, and no error is returned. -/
theorem trim_keeps (a b : ℚ) (pd : NmxpDataProcess ℚ) (hrate : 0 < pd.sampRate.toInt)
    (hn : (pd.samples.length : ℤ) = pd.nSamp.toInt)
    (hx0 : ∀ x, pd.samples.head? = some x → pd.x0 = x) (hab : a < b) :
    ∃ ret pd', nmxpDataTrim a b 0 pd = some (ret, pd') ∧ KeepsWindow a b pd ret pd' := by
  have h : PacketOK pd := ⟨hrate, by omega⟩
  obtain ⟨k, m, hwin, ⟨rfl, rfl, heq⟩ | ⟨hpos, hall, heq⟩ | ⟨hpos, hlt, pd', heq, hr⟩⟩ :=
    trim_cases h (by omega) hab
  · refine ⟨2, pd, heq, ?_⟩
    rcases Nat.eq_zero_or_pos pd.samples.length with hzero | hpos
    · have hnil := List.eq_nil_of_length_eq_zero hzero
      refine ⟨Or.inr rfl, ?_, hn.symm, ?_, ?_, iff_of_true rfl rfl, fun _ => rfl⟩
      · rw [inWindow_eq hwin, hnil]
        rfl
      · rintro i ⟨hi, -⟩
        omega
      · rintro i ⟨hi, -⟩
        omega
    · exact keepsWindow_of_removed hwin hn.symm hpos hx0 (removed_refl pd)
        (Or.inr ⟨rfl, rfl, rfl⟩)
  · -- nothing is inside
    refine ⟨1, _, heq, Or.inl rfl, ?_, rfl, ?_, ?_, iff_of_false (by norm_num) ?_, ?_⟩
    · rw [inWindow_eq hwin, List.drop_of_length_le (by rw [List.length_take]; omega)]
      rfl
    · rintro i ⟨hi, hin, -⟩
      have := (hwin i hi).mp hin
      omega
    · rintro i ⟨hi, hin, -⟩
      have := (hwin i hi).mp hin
      omega
    · intro heq
      have hzero : pd.samples.length = 0 := by
        rw [← heq]
        rfl
      omega
    · exact fun h2 => absurd h2 (by norm_num)
  · exact ⟨1, pd', heq, keepsWindow_of_removed hwin hn.symm hlt hx0 hr (Or.inl ⟨rfl, hpos⟩)⟩

/-- A packet of one sample a second that starts half a second behind a full second. -/
def halfSecondLate : NmxpDataProcess ℚ :=
  { nmxpDataInit (2001 / 2) with
    x0 := 7
    pDataPtr := some [7, 8, 9]
    nSamp := 3
    sampRate := 1 }

/-- The midpoints of the first and the last sample lie at the ends of the window. -/
theorem trim_keeps_middle : ∃ ret pd', nmxpDataTrim 1001 1003 0 halfSecondLate = some (ret, pd') ∧
    KeepsWindow 1001 1003 halfSecondLate ret pd' :=
  trim_keeps 1001 1003 halfSecondLate (by decide) rfl (fun _ hx => Option.some.inj hx)
    (by norm_num)

/-! ### Adjacent windows -/

/-- The samples that trimming a copy of the packet to a window leaves. -/
def samplesLeft (a b : ℚ) (pd : NmxpDataProcess ℚ) : Option (List Int32) :=
  (nmxpDataTrim a b 0 pd).map fun r => r.2.samples

/-- A packet with a negative number of samples stays as it is. -/
theorem trim_of_neg (h : PacketOK pd) (hneg : pd.nSamp.toInt < 0) (a b : ℚ) :
    nmxpDataTrim a b 0 pd = some (2, pd) := by
  have hend : lastTime pd < pd.time := by
    rw [lastTime]
    exact add_lt_of_neg_right _ (div_neg_of_neg_of_pos (Int.cast_lt_zero.mpr hneg) h.rate_pos)
  have hnot : ∀ t : ℚ, ¬ (pd.time ≤ t ∧ t ≤ lastTime pd) :=
    fun t ht => absurd (ht.1.trans ht.2) (not_le.mpr hend)
  have hfirst : ¬ (if Outside a b pd then pd.nSamp else firstNsamplesToRemove a 0 pd) > 0 := by
    intro hpos
    have hlt := Int32.lt_iff_toInt_lt.mp hpos
    have hzero : (0 : Int32).toInt = 0 := rfl
    split_ifs at hlt with hout
    · omega
    · rw [h.first_eq, if_neg (hnot a)] at hlt
      exact lt_irrefl _ hlt
  have hlast : ¬ lastNsamplesToRemove b 0 pd > 0 := by
    rw [h.last_eq, if_neg (hnot b)]
    exact Int32.lt_irrefl
  unfold nmxpDataTrim
  dsimp only
  rw [if_neg (not_or.mpr ⟨hfirst, hlast⟩)]

/-- Whatever the packet says of `x0`, the samples inside the window are left. -/
theorem samplesLeft_eq (h : PacketOK pd) (hab : a < b) :
    samplesLeft a b pd = some (inWindow a b pd) := by
  unfold samplesLeft
  rcases le_or_gt 0 pd.nSamp.toInt with h0 | hneg
  · obtain ⟨k, m, hwin, ⟨rfl, rfl, heq⟩ | ⟨-, hall, heq⟩ | ⟨-, -, pd', heq, hr⟩⟩ :=
      trim_cases h h0 hab
    · rw [heq, inWindow_eq hwin]
      exact congrArg some (removed_refl pd).samples
    · rw [heq, inWindow_eq hwin, List.drop_of_length_le (by rw [List.length_take]; omega)]
      rfl
    · rw [heq, inWindow_eq hwin]
      exact congrArg some hr.samples
  · rw [trim_of_neg h hneg]
    have hlen := h.samples
    have hnil : pd.samples = [] := List.eq_nil_of_length_eq_zero (by omega)
    have hin : inWindow a b pd = [] := by
      rw [inWindow, stamped, hnil]
      rfl
    rw [hin]
    exact congrArg some hnil

theorem pairwise_stamped (h : PacketOK pd) :
    (stamped pd).Pairwise fun x y => x.1 ≤ y.1 := by
  rw [List.pairwise_iff_getElem]
  intro i j hi hj hij
  rw [stamped, List.length_mapIdx] at hi hj
  simp only [stamped, List.getElem_mapIdx]
  exact h.midpoint_mono hij.le

/-- **Adjacent windows.** Trimmed to two windows that meet at `b`, copies of a packet have together
the samples of a copy trimmed to both, iff no sample has its midpoint at `b`. -/
theorem adjacent_iff (a b c : ℚ) (pd : NmxpDataProcess ℚ) (hrate : 0 < pd.sampRate.toInt)
    (hn : pd.samples.length = pd.nSamp.toInt.toNat) (hab : a < b) (hbc : b < c) :
    (∃ l r, samplesLeft a b pd = some l ∧ samplesLeft b c pd = some r ∧
      samplesLeft a c pd = some (l ++ r)) ↔
    ∀ i < pd.samples.length, b ≠ pd.time + (i + 1 / 2) / pd.sampRate.toInt := by
  have h : PacketOK pd := ⟨hrate, hn⟩
  have hmid : (∀ x ∈ stamped pd, x.1 ≠ b) ↔ ∀ i < pd.samples.length, b ≠ midpoint pd i := by
    constructor
    · intro hx i hi he
      refine hx (midpoint pd i, pd.samples[i]) (List.mem_iff_getElem?.mpr ⟨i, ?_⟩) he.symm
      rw [stamped, List.getElem?_mapIdx, List.getElem?_eq_getElem hi]
      rfl
    · intro hi x hx he
      obtain ⟨i, hget⟩ := List.mem_iff_getElem?.mp hx
      rw [stamped, List.getElem?_mapIdx, Option.map_eq_some_iff] at hget
      obtain ⟨y, hy, rfl⟩ := hget
      exact hi i (List.getElem?_eq_some_iff.mp hy).1 he.symm
  have hadj := @within_append_iff _ _ _ _ Prod.fst _ _ _ _ Prod.snd hab hbc (pairwise_stamped h)
  unfold midpoint at hmid
  rw [← hmid, ← hadj, samplesLeft_eq h hab, samplesLeft_eq h hbc, samplesLeft_eq h (hab.trans hbc)]
  constructor
  · rintro ⟨l, r, hl, hr, hlr⟩
    obtain rfl := Option.some.inj hl
    obtain rfl := Option.some.inj hr
    exact (Option.some.inj hlr).symm
  · exact fun heq => ⟨_, _, rfl, rfl, congrArg some heq.symm⟩

/-- The windows meet a quarter of a second behind the midpoint of the first sample. -/
theorem adjacent_iff_between : ∃ l r, samplesLeft 990 (4005 / 4) halfSecondLate = some l ∧
    samplesLeft (4005 / 4) 1011 halfSecondLate = some r ∧
      samplesLeft 990 1011 halfSecondLate = some (l ++ r) := by
  refine (adjacent_iff 990 (4005 / 4) 1011 halfSecondLate (by decide) rfl (by norm_num)
    (by norm_num)).mpr fun i hi => ?_
  have hrate : halfSecondLate.sampRate.toInt = 1 := rfl
  have htime : halfSecondLate.time = 2001 / 2 := rfl
  rw [hrate, htime]
  intro he
  have hi' : (i : ℚ) = 1 / 4 := by
    push_cast at he
    linarith
  have hnat : (4 * i : ℕ) = 1 := by
    have : ((4 * i : ℕ) : ℚ) = 1 := by
      push_cast
      linarith
    exact_mod_cast this
  omega

/-- The windows meet at the midpoint of the first sample, which both lose. -/
theorem adjacent_tie : ¬ ∀ (a b c : ℚ) (pd : NmxpDataProcess ℚ), 0 < pd.sampRate.toInt →
    pd.samples.length = pd.nSamp.toInt.toNat → a < b → b < c →
      ∃ l r, samplesLeft a b pd = some l ∧ samplesLeft b c pd = some r ∧
        samplesLeft a c pd = some (l ++ r) := by
  intro hclaim
  obtain ⟨l, r, hl, hr, hlr⟩ := hclaim 990 1001 1011 halfSecondLate (by decide) rfl
    (by norm_num) (by norm_num)
  have h1 : samplesLeft 990 1001 halfSecondLate = some [] := by decide +kernel
  have h2 : samplesLeft 1001 1011 halfSecondLate = some [8, 9] := by decide +kernel
  have h3 : samplesLeft 990 1011 halfSecondLate = some [7, 8, 9] := by decide +kernel
  rw [h1] at hl
  rw [h2] at hr
  rw [h3, ← Option.some.inj hl, ← Option.some.inj hr] at hlr
  exact absurd hlr (by decide)

end Nmxptool.Dap.Windows
