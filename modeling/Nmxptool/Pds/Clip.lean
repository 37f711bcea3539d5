import Nmxptool.Data.Process
import Mathlib.Algebra.Order.Field.Basic
import Mathlib.Data.Rat.Floor
import Mathlib.Tactic.FieldSimp
import Mathlib.Tactic.Linarith
import Mathlib.Tactic.Ring

/-! # Clipping at the resume time

With a state file or a buffered time, the PDS loop drops the beginning of a packet that starts
before the time to resume at. It lowers `nSamp` and changes the time and `x0`; the samples stay
where they are. Times are exact here.

* `KeepsSamples`: the clipped packet holds the rest of the samples, at their times.
* `clip_iff`: the packet is skipped or keeps its samples if and only if the cut leaves nothing, or
  falls between two samples in a packet where moving the samples would change nothing. -/

namespace Nmxptool.Pds.Clip

open Nmxptool.Data.Process Nmxptool.Lib.Floating

/-! ### The clipping block -/

/-- The parameters of the tool that the block reads. -/
structure NmxptoolParams where
  statefile : Bool
  bufferedTime : ℚ
  timeoutrecv : Int32
  deriving DecidableEq

def DEFAULT_BUFFERED_TIME : ℚ := -1

/-- Whether the block is entered, and `cur_after_start_time` there. -/
def curAfterStartTime (params : NmxptoolParams) (afterStartTime : ℚ) : Option ℚ :=
  if (params.statefile ∨ params.bufferedTime ≠ 0) ∧ params.timeoutrecv ≤ 0 then
    some (if params.statefile ∧ afterStartTime > 0 then afterStartTime
      else if params.bufferedTime ≠ 0 then params.bufferedTime
      else DEFAULT_BUFFERED_TIME)
  else none

/-- The conversion of a double to an `int`. -/
def truncate (x : ℚ) : Int32 := Int32.ofInt (x.num.tdiv x.den)

/-- `pDataPtr[i]`, if that is in the array. -/
def readSample (pDataPtr : Option (List Int32)) (i : Int32) : Option Int32 :=
  if 0 ≤ i.toInt then (pDataPtr.getD [])[i.toInt.toNat]? else none

/-- The comparison with the resume time: `skip_current_packet`, and the packet. There is no result
if it reads outside the array. -/
def clip (curAfterStartTime : ℚ) (pd : NmxpDataProcess ℚ) : Option (Bool × NmxpDataProcess ℚ) :=
  if pd.exactEndTime ≥ .finite curAfterStartTime then
    if pd.time < curAfterStartTime then
      let firstNsampleToRemove :=
        truncate ((curAfterStartTime - pd.time) * pd.sampRate.toInt) + 1
      if pd.nSamp > firstNsampleToRemove then do
        let x0 ← readSample pd.pDataPtr firstNsampleToRemove
        return (false, { pd with
          nSamp := pd.nSamp - firstNsampleToRemove
          time := curAfterStartTime
          x0 := x0 })
      else some (true, pd)
    else some (false, pd)
  else some (true, pd)

/-- **The clipping block** of the PDS loop, for a packet. -/
def clippingBlock (params : NmxptoolParams) (afterStartTime : ℚ) (pd : NmxpDataProcess ℚ) :
    Option (Bool × NmxpDataProcess ℚ) :=
  match curAfterStartTime params afterStartTime with
  | some t => clip t pd
  | none => some (false, pd)

/-! ### What it should do -/

/-- The time of sample `i`. -/
def sampleTime (pd : NmxpDataProcess ℚ) (i : ℕ) : ℚ := pd.time + i / pd.sampRate.toInt

/-- **The packet `pd'` is `pd`, resumed at `t`**: its samples are the last ones of `pd`, from the
first one at or after `t` on, and its time and `x0` are those of this sample. -/
structure KeepsSamples (t : ℚ) (pd pd' : NmxpDataProcess ℚ) : Prop where
  suffix : pd'.samples <:+ pd.samples
  first : pd'.samples.head? = some pd'.x0
  atOrAfter : t ≤ sampleTime pd (pd.samples.length - pd'.samples.length)
  near : sampleTime pd (pd.samples.length - pd'.samples.length) ≤ t + 1 / pd.sampRate.toInt
  label : |pd'.time - sampleTime pd (pd.samples.length - pd'.samples.length)| <
    1 / pd.sampRate.toInt

/-- The position of the cut, in samples. -/
def cut (t : ℚ) (pd : NmxpDataProcess ℚ) : ℚ := (t - pd.time) * pd.sampRate.toInt

/-- The samples to remove. -/
def removed (t : ℚ) (pd : NmxpDataProcess ℚ) : ℕ := ⌊cut t pd⌋₊ + 1

/-! ### The position of the cut -/

theorem truncate_of_nonneg {x : ℚ} (h : 0 ≤ x) : truncate x = Int32.ofInt ⌊x⌋ := by
  rw [truncate, Int.tdiv_eq_ediv_of_nonneg (Rat.num_nonneg.mpr h), ← Rat.floor_def']

variable {t : ℚ} {pd : NmxpDataProcess ℚ}

/-- The packet reaches over the time to resume at. -/
structure Reaches (t : ℚ) (pd : NmxpDataProcess ℚ) : Prop where
  sampRate : 0 < pd.sampRate.toInt
  samples : (pd.samples.length : ℤ) = pd.nSamp.toInt
  before : pd.time < t
  upTo : .finite t ≤ pd.exactEndTime

theorem Reaches.rate_pos (h : Reaches t pd) : (0 : ℚ) < pd.sampRate.toInt :=
  Int.cast_pos.mpr h.sampRate

theorem Reaches.cut_pos (h : Reaches t pd) : 0 < cut t pd :=
  mul_pos (sub_pos.mpr h.before) h.rate_pos

theorem Reaches.cut_le (h : Reaches t pd) : cut t pd ≤ pd.samples.length := by
  have hr := h.rate_pos
  have hend := h.upTo
  have hn : ((pd.samples.length : ℤ) : ℚ) = pd.nSamp.toInt := by rw [h.samples]
  rw [Int.cast_natCast] at hn
  rw [hn, cut, ← le_div_iff₀ hr]
  rw [NmxpDataProcess.exactEndTime_of_ne h.sampRate.ne', Double.le_finite] at hend
  linarith

theorem Reaches.floor_le (h : Reaches t pd) : ⌊cut t pd⌋₊ ≤ pd.samples.length :=
  Nat.floor_le_of_le h.cut_le

theorem Reaches.truncate_eq (h : Reaches t pd) :
    truncate (cut t pd) = Int32.ofInt ⌊cut t pd⌋₊ := by
  rw [truncate_of_nonneg h.cut_pos.le, Int.natCast_floor_eq_floor h.cut_pos.le]

/-- The number that the block computes, unless it overflows. -/
theorem Reaches.toInt_first (h : Reaches t pd) (hlt : removed t pd < 2 ^ 31) :
    (truncate (cut t pd) + 1).toInt = removed t pd := by
  have h1 : (1 : Int32).toInt = 1 := rfl
  have hm : (Int32.ofInt ⌊cut t pd⌋₊).toInt = ⌊cut t pd⌋₊ := by
    unfold removed at hlt
    exact toInt_ofInt_of_range (by omega) (by omega)
  unfold removed at hlt ⊢
  rw [h.truncate_eq, toInt_add_of_range (by omega) (by omega), hm, h1]
  push_cast
  rfl

theorem Reaches.clip_eq (h : Reaches t pd) : clip t pd =
    if pd.nSamp > truncate (cut t pd) + 1 then
      (readSample pd.pDataPtr (truncate (cut t pd) + 1)).bind fun x0 =>
        some (false, { pd with
          nSamp := pd.nSamp - (truncate (cut t pd) + 1), time := t, x0 := x0 })
    else some (true, pd) := by
  rw [clip, if_pos h.upTo, if_pos h.before]
  rfl

/-- The samples are the first cells of the array. -/
theorem Reaches.samples_eq (h : Reaches t pd) :
    (pd.pDataPtr.getD []).take pd.samples.length = pd.samples := by
  have hn := h.samples
  have hl : pd.nSamp.toInt.toNat = pd.samples.length := by omega
  rw [← hl]
  rfl

/-- Reading a sample reads the array. -/
theorem Reaches.readSample_eq (h : Reaches t pd) {i : Int32} {k : ℕ} (hi : i.toInt = k)
    (hk : k < pd.samples.length) : readSample pd.pDataPtr i = pd.samples[k]? := by
  rw [readSample, hi, if_pos (by omega), Int.toNat_natCast]
  conv_rhs => rw [← h.samples_eq]
  rw [List.getElem?_take_of_lt hk]

/-- **What the block does**: it skips the packet; or it lowers the number of samples and sets the
time and `x0`, and the samples read are then the first ones; or, if `first_nsample_to_remove`
overflows, it reads outside the array. -/
theorem Reaches.clip_cases (h : Reaches t pd) :
    (removed t pd < 2 ^ 31 ∧ pd.samples.length ≤ removed t pd ∧ clip t pd = some (true, pd)) ∨
    (removed t pd < pd.samples.length ∧ ∃ pd', clip t pd = some (false, pd') ∧
      pd'.samples = pd.samples.take (pd.samples.length - removed t pd) ∧ pd'.time = t ∧
      pd.samples[removed t pd]? = some pd'.x0) ∨
    (2 ^ 31 ≤ removed t pd ∧ ⌊cut t pd⌋₊ = pd.samples.length ∧ clip t pd = none) := by
  have hn := h.samples
  have hmax := pd.nSamp.toInt_lt
  have hfloor := h.floor_le
  rcases Nat.lt_or_ge (removed t pd) (2 ^ 31) with hlt | hge
  · have hfirst := h.toInt_first hlt
    have hgt : pd.nSamp > truncate (cut t pd) + 1 ↔ removed t pd < pd.samples.length := by
      rw [gt_iff_lt, Int32.lt_iff_toInt_lt, hfirst, ← hn, Int.ofNat_lt]
    rcases Nat.lt_or_ge (removed t pd) pd.samples.length with hr | hr
    · have hget : pd.samples[removed t pd]? = some (pd.samples.get ⟨removed t pd, hr⟩) :=
        List.getElem?_eq_getElem hr
      have hcount : (pd.nSamp - (truncate (cut t pd) + 1)).toInt.toNat =
          pd.samples.length - removed t pd := by
        rw [toInt_sub_of_range (by omega) (by omega), hfirst]
        omega
      refine Or.inr (Or.inl ⟨hr, { pd with
        nSamp := pd.nSamp - (truncate (cut t pd) + 1)
        time := t
        x0 := pd.samples.get ⟨removed t pd, hr⟩ }, ?_, ?_, rfl, hget⟩)
      · rw [h.clip_eq, if_pos (hgt.mpr hr), h.readSample_eq hfirst hr, hget]
        rfl
      · change (pd.pDataPtr.getD []).take _ = _
        rw [hcount]
        conv_rhs => rw [← h.samples_eq]
        rw [List.take_take, h.samples_eq, min_eq_left (by omega)]
    · refine Or.inl ⟨hlt, hr, ?_⟩
      rw [h.clip_eq, if_neg (by rw [hgt]; omega)]
  · -- the packet has the most samples there can be, and the cut is at its end
    have hfull : ⌊cut t pd⌋₊ = 2 ^ 31 - 1 := by unfold removed at hge; omega
    have hover : truncate (cut t pd) + 1 = -2147483648 := by
      rw [h.truncate_eq, hfull]
      decide
    have hneg : (-2147483648 : Int32).toInt = -2147483648 := rfl
    refine Or.inr (Or.inr ⟨hge, by omega, ?_⟩)
    rw [h.clip_eq, hover, if_pos, readSample, if_neg (by rw [hneg]; omega)]
    · rfl
    · rw [gt_iff_lt, Int32.lt_iff_toInt_lt, hneg, ← hn]
      omega

/-! ### The samples kept -/

/-- The first sample that is not removed is at most one interval behind the cut. -/
theorem Reaches.sampleTime_removed (h : Reaches t pd) :
    sampleTime pd (removed t pd) = t + (removed t pd - cut t pd) / pd.sampRate.toInt := by
  have hr := h.rate_pos.ne'
  rw [sampleTime, cut, sub_div, mul_div_cancel_right₀ _ hr]
  ring

theorem Reaches.removed_bounds (h : Reaches t pd) :
    (0 : ℚ) < removed t pd - cut t pd ∧ (removed t pd - cut t pd : ℚ) ≤ 1 ∧
      ((removed t pd - cut t pd : ℚ) < 1 ↔ cut t pd ≠ ⌊cut t pd⌋₊) := by
  have hle := Nat.floor_le h.cut_pos.le
  have hlt := Nat.lt_floor_add_one (cut t pd)
  unfold removed
  push_cast
  refine ⟨by linarith, by linarith, fun hc heq => by linarith, fun hne => ?_⟩
  have := lt_of_le_of_ne hle hne.symm
  linarith

/-- **What is read keeps the samples** if the cut falls between two samples, and the first samples
that are read are the last ones. -/
theorem Reaches.keepsSamples_iff (h : Reaches t pd) {pd' : NmxpDataProcess ℚ}
    (hr : removed t pd < pd.samples.length)
    (hs : pd'.samples = pd.samples.take (pd.samples.length - removed t pd)) (ht : pd'.time = t)
    (hx0 : pd.samples[removed t pd]? = some pd'.x0) :
    KeepsSamples t pd pd' ↔ cut t pd ≠ ⌊cut t pd⌋₊ ∧
      pd.samples.take (pd.samples.length - removed t pd) = pd.samples.drop (removed t pd) := by
  have hrate := h.rate_pos
  obtain ⟨hpos, hle, hlt⟩ := h.removed_bounds
  have hlen : pd.samples.length - pd'.samples.length = removed t pd := by
    rw [hs, List.length_take]
    omega
  have hlabel : |pd'.time - sampleTime pd (removed t pd)| =
      (removed t pd - cut t pd) / pd.sampRate.toInt := by
    rw [ht, h.sampleTime_removed, sub_add_cancel_left, abs_neg, abs_of_pos (div_pos hpos hrate)]
  have hsuffix : pd'.samples <:+ pd.samples ↔
      pd.samples.take (pd.samples.length - removed t pd) = pd.samples.drop (removed t pd) := by
    rw [List.suffix_iff_eq_drop, hlen, hs]
  constructor
  · intro hk
    have hl := hk.label
    rw [hlen, hlabel, div_lt_div_iff_of_pos_right hrate] at hl
    exact ⟨hlt.mp hl, hsuffix.mp hk.suffix⟩
  · rintro ⟨hne, heq⟩
    refine ⟨hsuffix.mpr heq, ?_, ?_, ?_, ?_⟩
    · rw [hs, heq, List.head?_drop, hx0]
    · rw [hlen, h.sampleTime_removed]
      have := div_pos hpos hrate
      linarith
    · rw [hlen, h.sampleTime_removed]
      have := div_le_div_of_nonneg_right hle hrate.le
      linarith
    · rw [hlen, hlabel, div_lt_div_iff_of_pos_right hrate]
      exact hlt.mpr hne

/-- **Clipping.** For every packet that reaches over the time to resume at: the block skips it or
keeps its samples if and only if nothing is left behind the cut, or the cut falls between two
samples and the first samples that are read are the same as the last ones. -/
theorem clip_iff (params : NmxptoolParams) (afterStartTime t : ℚ) (pd : NmxpDataProcess ℚ)
    (ht : curAfterStartTime params afterStartTime = some t) (hrate : 0 < pd.sampRate.toInt)
    (hdata : (pd.samples.length : ℤ) = pd.nSamp.toInt) (hbefore : pd.time < t)
    (hupTo : t ≤ pd.time + pd.nSamp.toInt / pd.sampRate.toInt) :
    (∃ skip pd', clippingBlock params afterStartTime pd = some (skip, pd') ∧
        (skip = true ∨ KeepsSamples t pd pd')) ↔
      (removed t pd < 2 ^ 31 ∧ pd.samples.length ≤ removed t pd) ∨
      (cut t pd ≠ ⌊cut t pd⌋₊ ∧
        pd.samples.take (pd.samples.length - removed t pd) = pd.samples.drop (removed t pd)) := by
  have hend : Double.finite t ≤ pd.exactEndTime := by
    rw [NmxpDataProcess.exactEndTime_of_ne hrate.ne']
    exact hupTo
  have h : Reaches t pd := ⟨hrate, hdata, hbefore, hend⟩
  have hblock : clippingBlock params afterStartTime pd = clip t pd := by
    rw [clippingBlock, ht]
  rw [hblock]
  rcases h.clip_cases with ⟨hlt, hle, hc⟩ | ⟨hr, pd', hc, hs, ht', hx0⟩ |
    ⟨hge, hfull, hc⟩
  · rw [hc]
    exact ⟨fun _ => Or.inl ⟨hlt, hle⟩, fun _ => ⟨true, pd, rfl, Or.inl rfl⟩⟩
  · rw [← h.keepsSamples_iff hr hs ht' hx0, hc]
    constructor
    · rintro ⟨skip, pd'', heq, hor⟩
      simp only [Option.some.injEq, Prod.mk.injEq] at heq
      obtain ⟨rfl, rfl⟩ := heq
      exact Or.inr (hor.resolve_left (by simp))
    · rintro (⟨-, hle⟩ | hk)
      · exact absurd hr (by omega)
      · exact ⟨false, pd', rfl, Or.inr hk⟩
  · rw [hc]
    constructor
    · rintro ⟨skip, pd', heq, -⟩
      exact absurd heq (by simp)
    · rintro (⟨hlt, -⟩ | ⟨hne, -⟩)
      · omega
      · refine absurd (le_antisymm ?_ (Nat.floor_le h.cut_pos.le)) hne
        rw [hfull]
        exact h.cut_le

/-- The parameters for a state file. -/
def withStatefile : NmxptoolParams := ⟨true, DEFAULT_BUFFERED_TIME, 0⟩

/-- A packet that starts at time 0, with 10 samples a second. -/
def packetOf (samples : List Int32) : NmxpDataProcess ℚ :=
  { nmxpDataInit 0 with
    pDataPtr := some samples
    nSamp := Int32.ofInt samples.length
    sampRate := 10 }

/-- Resumed half a sample behind its start, a packet of equal samples keeps them. -/
theorem clip_iff_constant :
    ∃ skip pd', clippingBlock withStatefile (1 / 20) (packetOf [7, 7, 7]) = some (skip, pd') ∧
      (skip = true ∨ KeepsSamples (1 / 20) (packetOf [7, 7, 7]) pd') := by
  have hcut : cut (1 / 20) (packetOf [7, 7, 7]) = 1 / 2 := by
    have : (packetOf [7, 7, 7]).sampRate.toInt = 10 := rfl
    rw [cut, this]
    norm_num [packetOf, nmxpDataInit]
  have hfloor : ⌊cut (1 / 20) (packetOf [7, 7, 7])⌋₊ = 0 := by rw [hcut]; norm_num
  refine (clip_iff withStatefile (1 / 20) (1 / 20) (packetOf [7, 7, 7]) (by decide +kernel)
    (by decide) (by decide) (by decide +kernel) (by decide +kernel)).mpr (Or.inr ⟨?_, ?_⟩)
  · rw [hfloor, hcut]
    norm_num
  · rw [removed, hfloor]
    rfl

/-- Of five different samples the first four are read, under the time and `x0` of the second. -/
theorem clip_moves : ¬ ∀ (params : NmxptoolParams) (afterStartTime t : ℚ) (pd : NmxpDataProcess ℚ),
    curAfterStartTime params afterStartTime = some t → 0 < pd.sampRate.toInt →
    (pd.samples.length : ℤ) = pd.nSamp.toInt → pd.time < t →
    t ≤ pd.time + pd.nSamp.toInt / pd.sampRate.toInt →
    ∃ skip pd', clippingBlock params afterStartTime pd = some (skip, pd') ∧
      (skip = true ∨ KeepsSamples t pd pd') := by
  intro hclaim
  have hrun : clippingBlock withStatefile (1 / 20) (packetOf [1, 2, 3, 4, 5]) =
      some (false, { packetOf [1, 2, 3, 4, 5] with nSamp := 4, time := 1 / 20, x0 := 2 }) := by
    decide +kernel
  obtain ⟨skip, pd', heq, hor⟩ := hclaim withStatefile (1 / 20) (1 / 20) (packetOf [1, 2, 3, 4, 5])
    (by decide +kernel) (by decide) (by decide) (by decide +kernel) (by decide +kernel)
  rw [hrun, Option.some.injEq, Prod.mk.injEq] at heq
  obtain ⟨rfl, rfl⟩ := heq
  have hsuffix := (hor.resolve_left (by simp)).suffix
  revert hsuffix
  decide +kernel

end Nmxptool.Pds.Clip
