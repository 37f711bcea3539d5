import Nmxptool.Pds.Clip

/-! # Trimming a packet to a time window

`nmxp_data_trim` removes the samples of a packet that are before the start of a time window or
behind its end. What is left is moved to the front of the array. Times are exact here.

* `trim_frame`: apart from the samples, their number, their time, `x0` and `xn`, nothing changes.
* `trim_of_empty`: a packet without samples stays as it is. -/

namespace Nmxptool.Dap.Trim

open Nmxptool.Data.Process Nmxptool.Lib.Floating Nmxptool.Pds.Clip

def NMXP_DATA_TRIM_EXCLUDE_FIRST : UInt8 := 2
def NMXP_DATA_TRIM_EXCLUDE_LAST : UInt8 := 4

/-- The conversion of a double to an `int`. What is no number becomes the smallest `int`. -/
def truncateDouble : Double → Int32
  | .finite q => truncate q
  | _ => Int32.minValue

/-- `first_nsamples_to_remove`, where the window starts inside the packet. -/
def firstNsamplesToRemove (trimStartTime : ℚ) (excludeBitmap : UInt8) (pd : NmxpDataProcess ℚ) :
    Int32 :=
  if pd.time ≤ trimStartTime ∧ .finite trimStartTime ≤ pd.exactEndTime then
    truncate ((trimStartTime - pd.time) * pd.sampRate.toInt + 1 / 2) +
      if excludeBitmap &&& NMXP_DATA_TRIM_EXCLUDE_FIRST ≠ 0 then 1 else 0
  else 0

/-- `last_nsamples_to_remove`, where the window ends inside the packet. -/
def lastNsamplesToRemove (trimEndTime : ℚ) (excludeBitmap : UInt8) (pd : NmxpDataProcess ℚ) :
    Int32 :=
  if pd.time ≤ trimEndTime ∧ .finite trimEndTime ≤ pd.exactEndTime then
    truncateDouble ((pd.exactEndTime - .finite trimEndTime) * .finite pd.sampRate.toInt +
        .finite (1 / 2)) +
      if excludeBitmap &&& NMXP_DATA_TRIM_EXCLUDE_LAST ≠ 0 then 1 else 0
  else 0

/-- The packet is all before the window or all behind it. -/
def Outside (trimStartTime trimEndTime : ℚ) (pd : NmxpDataProcess ℚ) : Prop :=
  (pd.time < trimStartTime ∧ pd.exactEndTime < .finite trimStartTime) ∨
    (pd.time > trimEndTime ∧ pd.exactEndTime > .finite trimEndTime)

instance (trimStartTime trimEndTime : ℚ) (pd : NmxpDataProcess ℚ) :
    Decidable (Outside trimStartTime trimEndTime pd) := by
  unfold Outside
  infer_instance

/-- The sample at `i`, if samples are to be removed at this end; else `x`. -/
def newEnd (toRemove i x : Int32) (pDataPtr : Option (List Int32)) : Option Int32 :=
  if toRemove > 0 then readSample pDataPtr i else some x

/-- `pDataPtr[i] = pDataPtr[k]`, if both are in the array. -/
def copySample (a : List Int32) (i : ℕ) (k : ℤ) : Option (List Int32) :=
  if 0 ≤ k ∧ i < a.length then a[k.toNat]?.map fun v => a.set i v else none

/-- `for(i = 0; ...; i++) pDataPtr[i] = pDataPtr[first + i]`, in `left` rounds from `i`. -/
def moveSamples (first : ℤ) : ℕ → ℕ → List Int32 → Option (List Int32)
  | 0, _, a => some a
  | left + 1, i, a => (copySample a i (first + i)).bind (moveSamples first left (i + 1))

/-- The removal, where `newNSamp` samples are left. -/
def removeSamples (first last newNSamp : Int32) (pd : NmxpDataProcess ℚ) :
    Option (NmxpDataProcess ℚ) := do
  let x0 ← newEnd first first pd.x0 pd.pDataPtr
  let xn ← newEnd last (pd.nSamp - last) pd.xn pd.pDataPtr
  let a ← moveSamples first.toInt (pd.nSamp - first).toInt.toNat 0 (pd.pDataPtr.getD [])
  return { pd with
    pDataPtr := some a
    nSamp := newNSamp
    time := pd.time + first.toInt / pd.sampRate.toInt
    x0 := x0
    xn := xn }

/-- **`nmxp_data_trim`**, for a packet that is not NULL: what it returns, and the packet. There is
no result if it leaves the array. -/
def nmxpDataTrim (trimStartTime trimEndTime : ℚ) (excludeBitmap : UInt8)
    (pd : NmxpDataProcess ℚ) : Option (ℤ × NmxpDataProcess ℚ) :=
  let first := if Outside trimStartTime trimEndTime pd then pd.nSamp
    else firstNsamplesToRemove trimStartTime excludeBitmap pd
  let last := lastNsamplesToRemove trimEndTime excludeBitmap pd
  if first > 0 ∨ last > 0 then
    let newNSamp := pd.nSamp - (first + last)
    if newNSamp > 0 then (removeSamples first last newNSamp pd).map fun pd' => (1, pd')
    else if newNSamp = 0 then some (1, { pd with nSamp := 0, x0 := -1, xn := -1 })
    else some (0, pd)
  else some (2, pd)

/-- Nothing else of the packet changes. -/
theorem trim_frame {trimStartTime trimEndTime : ℚ} {excludeBitmap : UInt8}
    {pd pd' : NmxpDataProcess ℚ} {ret : ℤ}
    (h : nmxpDataTrim trimStartTime trimEndTime excludeBitmap pd = some (ret, pd')) :
    pd' = { pd with
      pDataPtr := pd'.pDataPtr
      nSamp := pd'.nSamp
      time := pd'.time
      x0 := pd'.x0
      xn := pd'.xn } := by
  unfold nmxpDataTrim at h
  generalize (if Outside trimStartTime trimEndTime pd then pd.nSamp
    else firstNsamplesToRemove trimStartTime excludeBitmap pd) = first at h
  generalize lastNsamplesToRemove trimEndTime excludeBitmap pd = last at h
  dsimp only at h
  split_ifs at h with hany hpos hzero
  · obtain ⟨q, hq, heq⟩ := Option.map_eq_some_iff.mp h
    obtain rfl : q = pd' := (Prod.mk.inj heq).2
    unfold removeSamples at hq
    simp only [Option.bind_eq_bind, Option.bind_eq_some_iff, Option.pure_def,
      Option.some.injEq] at hq
    obtain ⟨x0, -, xn, -, a, -, rfl⟩ := hq
    rfl
  all_goals
    obtain rfl := (Prod.mk.inj (Option.some.inj h)).2
    rfl

/-- A packet without samples is at one time, and rounding removes nothing there. (Where the sampling
rate is zero its end is NaN, which is nowhere in a window.) -/
theorem trim_of_empty (trimStartTime trimEndTime : ℚ) {pd : NmxpDataProcess ℚ}
    (hn : pd.nSamp = 0) : nmxpDataTrim trimStartTime trimEndTime 0 pd = some (2, pd) := by
  have hend {t : ℚ} (h : .finite t ≤ pd.exactEndTime) : pd.exactEndTime = .finite pd.time := by
    have h0 : (0 : Int32).toInt = 0 := rfl
    by_cases hrate : pd.sampRate.toInt = 0
    · rw [NmxpDataProcess.exactEndTime, hn, hrate] at h
      exact h.elim
    · rw [NmxpDataProcess.exactEndTime_of_ne hrate, hn, h0, Int.cast_zero, zero_div, add_zero]
  have hhalf : truncate ((0 : ℚ) * pd.sampRate.toInt + 1 / 2) = 0 := by
    rw [zero_mul, zero_add]
    decide +kernel
  have hfirst : firstNsamplesToRemove trimStartTime 0 pd = 0 := by
    unfold firstNsamplesToRemove
    split_ifs with h1 h2
    · exact absurd rfl h2
    · have hs : trimStartTime - pd.time = 0 := by
        have hle := h1.2
        rw [hend h1.2, Double.le_finite] at hle
        exact sub_eq_zero.mpr (le_antisymm hle h1.1)
      rw [hs, hhalf]
      rfl
    · rfl
  have hlast : lastNsamplesToRemove trimEndTime 0 pd = 0 := by
    unfold lastNsamplesToRemove
    split_ifs with h1 h2
    · exact absurd rfl h2
    · have hs : pd.time - trimEndTime = 0 := by
        have hle := h1.2
        rw [hend h1.2, Double.le_finite] at hle
        exact sub_eq_zero.mpr (le_antisymm h1.1 hle)
      rw [hend h1.2, Double.finite_sub, hs, Double.finite_mul, Double.finite_add, truncateDouble,
        hhalf]
      rfl
    · rfl
  unfold nmxpDataTrim
  dsimp only
  rw [hfirst, hlast, hn, ite_self, if_neg (by decide)]

end Nmxptool.Dap.Trim
