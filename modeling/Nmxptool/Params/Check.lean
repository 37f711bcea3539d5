import Nmxptool.Params.Parameters

/-! # Checking the parameters

The rules behind a condition that ends the chain of `nmxptool_check_params` without refusing the
parameters are not checked.

* `Valid`: what accepted parameters should satisfy.
* `ret_eq_zero_iff`: which parameters are accepted.
* `valid_iff`: what is left to check of those that the chain does not refuse.
* `check_iff`: when accepted parameters are valid. -/

namespace Nmxptool.Params.Check

open Nmxptool.Data.Process Nmxptool.Pds.Requests Nmxptool.Params.Parameters

/-! ### The rules -/

/-- The value lies in its declared range. -/
def InRange (v : Int32) (minimum maximum : ℤ) : Prop := minimum ≤ v.toInt ∧ v.toInt ≤ maximum

instance (v : Int32) (minimum maximum : ℤ) : Decidable (InRange v minimum maximum) :=
  inferInstanceAs (Decidable (_ ∧ _))

/-- `<end_time>` or `<interval>` goes with `<start_time>`, and not both. -/
def StartRule (p : NmxptoolParams) : Prop :=
  p.startTime ≠ 0 →
    (p.endTime ≠ 0 ∧ p.endTime > p.startTime ∧ p.interval.toInt = DEFAULT_INTERVAL_NO_VALUE) ∨
      (p.endTime = 0 ∧ p.interval.toInt > 0)

instance (p : NmxptoolParams) : Decidable (StartRule p) := inferInstanceAs (Decidable (_ → _))

/-- `<delay>` is absent, or in its range and long enough for `<span_data>`. -/
def DelayRule (p : NmxptoolParams) : Prop :=
  p.delay.toInt = 0 ∨
    (InRange p.delay DEFAULT_DELAY_MINIMUM DEFAULT_DELAY_MAXIMUM ∧
      p.spanData.toInt < p.delay.toInt - NMXP_DAP_TIMEOUT_KEEPALIVE)

instance (p : NmxptoolParams) : Decidable (DelayRule p) := inferInstanceAs (Decidable (_ ∨ _))

def LatencyRule (p : NmxptoolParams) : Prop :=
  InRange p.maxTolerableLatency DEFAULT_MAX_TOLERABLE_LATENCY_MINIMUM
    DEFAULT_MAX_TOLERABLE_LATENCY_MAXIMUM

instance (p : NmxptoolParams) : Decidable (LatencyRule p) := inferInstanceAs (Decidable (_ ∧ _))

def TimeoutRule (p : NmxptoolParams) : Prop :=
  p.timeoutrecv.toInt = 0 ∨
    InRange p.timeoutrecv DEFAULT_TIMEOUTRECV_MINIMUM DEFAULT_TIMEOUTRECV_MAXIMUM

instance (p : NmxptoolParams) : Decidable (TimeoutRule p) := inferInstanceAs (Decidable (_ ∨ _))

/-- **What accepted parameters should satisfy.** -/
structure Valid (p : NmxptoolParams) : Prop where
  hostname : p.hostname ≠ none
  channels : p.channels ≠ none
  stc : InRange p.stc DEFAULT_STC_MINIMUM DEFAULT_STC_MAXIMUM
  rate : InRange p.rate DEFAULT_RATE_MINIMUM DEFAULT_RATE_MAXIMUM
  verboseLevel : InRange p.verboseLevel DEFAULT_VERBOSE_LEVEL_MINIMUM DEFAULT_VERBOSE_LEVEL_MAXIMUM
  maxDataToRetrieve : InRange p.maxDataToRetrieve DEFAULT_MAX_TIME_TO_RETRIEVE_MINIMUM
    DEFAULT_MAX_TIME_TO_RETRIEVE_MAXIMUM
  spanData : InRange p.spanData DEFAULT_SPANINTERVAL_MINIMUM DEFAULT_SPANINTERVAL_MAXIMUM
  networkdelay : InRange p.networkdelay DEFAULT_NETWORKDELAY_MINIMUM DEFAULT_NETWORKDELAY_MAXIMUM
  delay : DelayRule p
  start : StartRule p
  rawStream : p.stc.toInt = -1 → p.rate.toInt = -1 ∧ LatencyRule p ∧ TimeoutRule p
  noTimeout : p.stc.toInt ≠ -1 → p.timeoutrecv.toInt = 0
  mschan : p.timeoutrecv.toInt > 0 → p.usec = 0 ∧ p.nChannel = 0

/-! ### Which parameters are accepted -/

/-- A SEED output is asked for, which ends the chain. -/
def SeedOutput (p : NmxptoolParams) : Prop := p.outdirseed ≠ none ∨ p.typeWriteseed ≠ 0

instance (p : NmxptoolParams) : Decidable (SeedOutput p) := inferInstanceAs (Decidable (_ ∨ _))

/-- Refused by the chain, up to `<maxdataretr>`. -/
def RefusedEarly (p : NmxptoolParams) : Prop := ∃ r ∈ refusals p, r.applies = true

instance (p : NmxptoolParams) : Decidable (RefusedEarly p) :=
  inferInstanceAs (Decidable (∃ _ ∈ _, _))

/-- Refused by the chain, from the output directory on. -/
def RefusedLate (b : Build) (p : NmxptoolParams) : Prop :=
  (∃ d, p.outdirseed = some d ∧ b.nmxpDataDirExists d = false) ∨
    (¬SeedOutput p ∧
      ((p.stc.toInt = -1 ∧ ¬LatencyRule p) ∨ (p.stc.toInt = -1 ∧ ¬TimeoutRule p) ∨
        ((p.stc.toInt = -1 → p.timeoutrecv.toInt ≠ 0) ∧
          ¬InRange p.networkdelay DEFAULT_NETWORKDELAY_MINIMUM DEFAULT_NETWORKDELAY_MAXIMUM)))

/-- Refused by one of the checks behind the chain. -/
def RefusedBehind (b : Build) (p : NmxptoolParams) : Prop :=
  (b.seedlink = true ∧ SlinkNetworkIdAlone p) ∨ (b.seedlink = true ∧ TimingQualityWrong p) ∨
    ¬CheckMschan p.usec.toInt p.nChannel.toInt

def Refused (b : Build) (p : NmxptoolParams) : Prop :=
  RefusedEarly p ∨ RefusedLate b p ∨ RefusedBehind b p

/-! ### Which rules are not checked -/

/-- A start time with neither an end time nor an interval: the condition for it asks for an end time
without a start time. -/
def StartAlone (p : NmxptoolParams) : Prop :=
  p.startTime ≠ 0 ∧ p.endTime = 0 ∧ p.interval.toInt = DEFAULT_INTERVAL_NO_VALUE

/-- A SEED output ends the chain before the rules for the latency, the time-out and the network
delay. -/
def SeedOutputEnds (p : NmxptoolParams) : Prop :=
  SeedOutput p ∧
    (¬InRange p.networkdelay DEFAULT_NETWORKDELAY_MINIMUM DEFAULT_NETWORKDELAY_MAXIMUM ∨
      (p.stc.toInt = -1 ∧ ¬(LatencyRule p ∧ TimeoutRule p)) ∨
        (p.stc.toInt ≠ -1 ∧ p.timeoutrecv.toInt ≠ 0))

/-- A Raw Stream without a time-out ends the chain before the rule for the network delay. -/
def NoTimeoutEnds (p : NmxptoolParams) : Prop :=
  ¬SeedOutput p ∧ p.stc.toInt = -1 ∧ p.timeoutrecv.toInt = 0 ∧
    ¬InRange p.networkdelay DEFAULT_NETWORKDELAY_MINIMUM DEFAULT_NETWORKDELAY_MAXIMUM

/-- A time-out without a Raw Stream is kept: it is negative, or the warning about the latency ends
the chain. -/
def TimeoutKept (p : NmxptoolParams) : Prop :=
  ¬SeedOutput p ∧ p.stc.toInt ≠ -1 ∧
    (p.timeoutrecv.toInt < 0 ∨ (p.timeoutrecv.toInt > 0 ∧ p.maxTolerableLatency.toInt > 0))

/-- **A rule is broken that the chain does not come to.** -/
def Unchecked (p : NmxptoolParams) : Prop :=
  StartAlone p ∨ SeedOutputEnds p ∨ NoTimeoutEnds p ∨ TimeoutKept p

/-! ### The chain -/

/-- The `timeoutrecv` that the chain leaves: it is reset at its very end only. -/
def timeoutLeft (p : NmxptoolParams) : Int32 :=
  if ¬SeedOutput p ∧ p.stc.toInt ≠ -1 ∧ p.maxTolerableLatency.toInt ≤ 0 ∧
      p.timeoutrecv.toInt > 0 then 0
  else p.timeoutrecv

theorem inRange_iff {v : Int32} {minimum maximum : ℤ} :
    InRange v minimum maximum ↔ outOfRange v minimum maximum = false := by
  unfold InRange outOfRange
  rw [decide_eq_false_iff_not]
  omega

theorem outOfRange_iff {v : Int32} {minimum maximum : ℤ} :
    outOfRange v minimum maximum = true ↔ ¬InRange v minimum maximum := by
  rw [inRange_iff, Bool.not_eq_false]

theorem conditions_eq (b : Build) {p : NmxptoolParams} (hew : p.ewConfigurationFile = none)
    (hl : p.flagListchannels = 0) (hnaqs : p.flagListchannelsnaqs = 0) :
    conditions b p = ((refusals p).find? (·.applies)).elim (seedConditions b p)
      fun r => (accept p).refuse r.text := by
  unfold conditions
  rw [if_neg (by simp [hew]), if_neg (by simp [hl] : ¬p.flagListchannels ≠ 0),
    if_neg (by simp [hnaqs] : ¬p.flagListchannelsnaqs ≠ 0)]
  by_cases hhost : p.hostname = none
  · simp [refusals, hhost]
  · rw [if_neg hhost]
    cases (refusals p).find? (·.applies) <;> rfl

theorem find_refusals (p : NmxptoolParams) :
    (refusals p).find? (·.applies) = none ↔ ¬RefusedEarly p := by
  unfold RefusedEarly
  simp only [List.find?_eq_none, not_exists, not_and]

theorem lastConditions_ret (p : NmxptoolParams) :
    (lastConditions p).ret = 0 ↔
      ¬((p.stc.toInt = -1 ∧ ¬LatencyRule p) ∨ (p.stc.toInt = -1 ∧ ¬TimeoutRule p) ∨
        ((p.stc.toInt = -1 → p.timeoutrecv.toInt ≠ 0) ∧
          ¬InRange p.networkdelay DEFAULT_NETWORKDELAY_MINIMUM DEFAULT_NETWORKDELAY_MAXIMUM)) := by
  unfold lastConditions LatencyRule TimeoutRule
  simp only [outOfRange_iff]
  by_cases hraw : p.stc.toInt = -1
  · by_cases hlat : InRange p.maxTolerableLatency DEFAULT_MAX_TOLERABLE_LATENCY_MINIMUM
      DEFAULT_MAX_TOLERABLE_LATENCY_MAXIMUM
    · by_cases h0 : p.timeoutrecv.toInt = 0
      · have hout : ¬InRange p.timeoutrecv DEFAULT_TIMEOUTRECV_MINIMUM
            DEFAULT_TIMEOUTRECV_MAXIMUM := by
          unfold InRange DEFAULT_TIMEOUTRECV_MINIMUM
          omega
        simp [hraw, hlat, h0, hout, accept]
      · by_cases hin : InRange p.timeoutrecv DEFAULT_TIMEOUTRECV_MINIMUM
            DEFAULT_TIMEOUTRECV_MAXIMUM
        · split_ifs <;> simp_all [accept, Checked.refuse]
        · simp [hraw, hlat, h0, hin, Checked.refuse]
    · simp [hraw, hlat, Checked.refuse]
  · split_ifs <;> simp_all [accept, Checked.refuse]

theorem lastConditions_timeoutrecv {p : NmxptoolParams} (hseed : ¬SeedOutput p)
    (h : (lastConditions p).ret = 0) :
    (lastConditions p).params.timeoutrecv = timeoutLeft p := by
  unfold lastConditions at h ⊢
  unfold timeoutLeft
  simp only [hseed, not_false_eq_true, true_and]
  split_ifs at h ⊢ <;> simp_all [accept, Checked.refuse]
  all_goals omega

theorem seedConditions_ret {b : Build} (hb : b.libmseed = true) (p : NmxptoolParams) :
    (seedConditions b p).ret = 0 ↔ ¬RefusedLate b p := by
  unfold seedConditions RefusedLate SeedOutput
  cases hout : p.outdirseed with
  | some d => cases hd : b.nmxpDataDirExists d <;> simp [hb, hd, accept, Checked.refuse]
  | none =>
    by_cases htype : p.typeWriteseed = 0
    · simp [hb, htype, lastConditions_ret]
    · simp [hb, htype, accept]

/-- `q` is `p` but for the two parameters that the chain writes. -/
def Adjusted (p q : NmxptoolParams) : Prop :=
  q = { p with outdirseed := q.outdirseed, timeoutrecv := q.timeoutrecv }

theorem Adjusted.rfl {p : NmxptoolParams} : Adjusted p p := Eq.refl p

theorem adjusted_lastConditions (p : NmxptoolParams) : Adjusted p (lastConditions p).params := by
  unfold lastConditions
  split_ifs
  all_goals exact Eq.refl _

theorem adjusted_seedConditions (b : Build) (p : NmxptoolParams) :
    Adjusted p (seedConditions b p).params := by
  unfold seedConditions
  cases p.outdirseed with
  | some d =>
    simp only
    split_ifs
    · exact Adjusted.rfl
    · exact Adjusted.rfl
    · exact adjusted_lastConditions p
  | none =>
    simp only
    split_ifs
    · exact Eq.refl _
    · exact adjusted_lastConditions p

theorem adjusted_conditions (b : Build) (p : NmxptoolParams) :
    Adjusted p (conditions b p).params := by
  unfold conditions
  repeat' split
  all_goals first | exact Adjusted.rfl | exact adjusted_seedConditions b p

theorem Adjusted.refusedBehind {b : Build} {p q : NmxptoolParams} (h : Adjusted p q) :
    RefusedBehind b q ↔ RefusedBehind b p := by
  rw [h]
  exact Iff.rfl

theorem timeoutLeft_seed {p : NmxptoolParams} (h : SeedOutput p) :
    timeoutLeft p = p.timeoutrecv := by
  unfold timeoutLeft
  rw [if_neg fun hc => hc.1 h]

theorem seedConditions_timeoutrecv {b : Build} (hb : b.libmseed = true) {p : NmxptoolParams}
    (h : (seedConditions b p).ret = 0) :
    (seedConditions b p).params.timeoutrecv = timeoutLeft p := by
  unfold seedConditions at h ⊢
  cases hout : p.outdirseed with
  | some d =>
    rw [timeoutLeft_seed (Or.inl (by simp [hout]))]
    simp only [hb, if_true]
    split_ifs <;> rfl
  | none =>
    by_cases htype : p.typeWriteseed = 0
    · have hseed : ¬SeedOutput p := by simp [SeedOutput, hout, htype]
      rw [hout] at h
      simp only [hb, htype, ne_eq, not_true_eq_false, and_false, if_false] at h ⊢
      exact lastConditions_timeoutrecv hseed h
    · rw [timeoutLeft_seed (Or.inr htype)]
      simp [hb, htype, accept]

section

variable {P : Prop} [Decidable P] (c : Checked) (text : String)

theorem ret_refuse_if :
    (if P then c.refuse text else c).ret = 0 ↔ c.ret = 0 ∧ ¬P := by
  split_ifs with h
  · simp [Checked.refuse, h]
  · simp [h]

theorem params_refuse_if : (if P then c.refuse text else c).params = c.params := by
  split_ifs <;> rfl

end

theorem checkMschan_params (c : Checked) : (checkMschan c).params = c.params := by
  unfold checkMschan
  split_ifs <;> rfl

theorem checkMschan_ret (c : Checked) :
    (checkMschan c).ret = 0 ↔
      c.ret = 0 ∧ CheckMschan c.params.usec.toInt c.params.nChannel.toInt := by
  have hzero (v : Int32) : v = 0 ↔ v.toInt = 0 := by
    rw [← Int32.toInt_inj]
    rfl
  unfold checkMschan CheckMschan
  simp only [hzero, outOfRange_iff, InRange]
  by_cases h0 : c.params.usec.toInt = 0 ∧ c.params.nChannel.toInt = 0
  · simp [h0]
  · rw [if_neg h0]
    split_ifs with husec hn
    · simp [h0, husec, hn]
    · simp [Checked.refuse, h0, hn]
    · simp [Checked.refuse, h0, husec]

theorem resetMschan_ret (c : Checked) : (resetMschan c).ret = c.ret := by
  unfold resetMschan
  split_ifs <;> rfl

theorem resetMschan_params (c : Checked) :
    (resetMschan c).params =
      if c.params.timeoutrecv.toInt > 0 then { c.params with usec := 0, nChannel := 0 }
      else c.params := by
  unfold resetMschan
  by_cases ht : c.params.timeoutrecv.toInt > 0
  · by_cases hn : c.params.usec ≠ 0 ∨ c.params.nChannel ≠ 0
    · rw [if_pos ⟨ht, hn⟩, if_pos ht]
    · rw [if_neg fun hc => hn hc.2, if_pos ht]
      have hsame : c.params =
          { c.params with usec := c.params.usec, nChannel := c.params.nChannel } := rfl
      simp only [not_or, not_not] at hn
      rwa [hn.1, hn.2] at hsame
  · rw [if_neg fun hc => ht hc.1, if_neg ht]

section

variable {b : Build} (hb : b.libmseed = true) {p : NmxptoolParams}
  (hew : p.ewConfigurationFile = none) (hl : p.flagListchannels = 0)
  (hnaqs : p.flagListchannelsnaqs = 0)

include hew hl hnaqs

theorem conditions_early (h : RefusedEarly p) : (conditions b p).ret = -1 := by
  rw [conditions_eq b hew hl hnaqs]
  cases hfind : (refusals p).find? (·.applies) with
  | some r => rfl
  | none => exact absurd h ((find_refusals p).mp hfind)

theorem conditions_late (h : ¬RefusedEarly p) : conditions b p = seedConditions b p := by
  rw [conditions_eq b hew hl hnaqs, (find_refusals p).mpr h, Option.elim_none]

include hb

theorem conditions_ret :
    (conditions b p).ret = 0 ↔ ¬RefusedEarly p ∧ ¬RefusedLate b p := by
  by_cases h : RefusedEarly p
  · simp [conditions_early hew hl hnaqs h, h]
  · rw [conditions_late hew hl hnaqs h, seedConditions_ret hb]
    simp [h]

/-- **Which parameters are accepted.** -/
theorem ret_eq_zero_iff : (nmxptoolCheckParams b p).ret = 0 ↔ ¬Refused b p := by
  have hbehind := (adjusted_conditions b p).refusedBehind (b := b)
  unfold nmxptoolCheckParams checkTimingQuality checkSlinkNetworkId
  simp only [resetMschan_ret, checkMschan_ret, ret_refuse_if, params_refuse_if,
    conditions_ret hb hew hl hnaqs]
  unfold Refused
  rw [← hbehind]
  unfold RefusedBehind
  simp only [not_or, not_not, and_assoc]

/-- **What becomes of accepted parameters.** -/
theorem params_of_accepted (h : (nmxptoolCheckParams b p).ret = 0) :
    ∃ o u n, (nmxptoolCheckParams b p).params =
        { p with outdirseed := o, timeoutrecv := timeoutLeft p, usec := u, nChannel := n } ∧
      ((timeoutLeft p).toInt > 0 → u = 0 ∧ n = 0) := by
  have hrefused := (ret_eq_zero_iff hb hew hl hnaqs).mp h
  unfold Refused at hrefused
  simp only [not_or] at hrefused
  have hret := (seedConditions_ret hb p).mpr hrefused.2.1
  have hadj := adjusted_seedConditions b p
  rw [Adjusted, seedConditions_timeoutrecv hb hret] at hadj
  unfold nmxptoolCheckParams checkTimingQuality checkSlinkNetworkId
  rw [resetMschan_params, conditions_late hew hl hnaqs hrefused.1]
  simp only [checkMschan_params, params_refuse_if]
  rw [hadj]
  by_cases ht : (timeoutLeft p).toInt > 0
  · rw [if_pos ht]
    exact ⟨_, 0, 0, rfl, fun _ => ⟨rfl, rfl⟩⟩
  · rw [if_neg ht]
    exact ⟨_, p.usec, p.nChannel, rfl, fun h => absurd h ht⟩

end

/-! ### Which accepted parameters are valid -/

/-- The rules that the chain checks in any case. -/
structure EarlyRules (p : NmxptoolParams) : Prop where
  hostname : p.hostname ≠ none
  channels : p.channels ≠ none
  stc : InRange p.stc DEFAULT_STC_MINIMUM DEFAULT_STC_MAXIMUM
  rate : InRange p.rate DEFAULT_RATE_MINIMUM DEFAULT_RATE_MAXIMUM
  verboseLevel : InRange p.verboseLevel DEFAULT_VERBOSE_LEVEL_MINIMUM DEFAULT_VERBOSE_LEVEL_MAXIMUM
  maxDataToRetrieve : InRange p.maxDataToRetrieve DEFAULT_MAX_TIME_TO_RETRIEVE_MINIMUM
    DEFAULT_MAX_TIME_TO_RETRIEVE_MAXIMUM
  spanData : InRange p.spanData DEFAULT_SPANINTERVAL_MINIMUM DEFAULT_SPANINTERVAL_MAXIMUM
  delay : DelayRule p
  rawRate : p.stc.toInt = -1 → p.rate.toInt = -1
  start : ¬StartAlone p → StartRule p

theorem earlyRules_of {p : NmxptoolParams} (h : ¬RefusedEarly p) : EarlyRules p := by
  unfold RefusedEarly refusals at h
  simp only [List.mem_cons, List.not_mem_nil, or_false, exists_eq_or_imp, exists_eq_left,
    decide_eq_true_eq, not_or, outOfRange_iff, not_not] at h
  obtain ⟨hhost, hchan, -, hboth, hpos, -, horder, hstc, hraw, -, hdelay, hspan, hlong, hverb,
    hrate, -, -, hmax⟩ := h
  refine ⟨hhost, hchan, hstc, hrate, hverb, hmax, hspan, ?_, ?_, ?_⟩
  · by_cases h0 : p.delay.toInt = 0
    · exact Or.inl h0
    · refine Or.inr ⟨?_, ?_⟩
      · by_contra hin
        exact hdelay ⟨h0, hin⟩
      · by_contra hle
        exact hlong ⟨h0, not_lt.mp hle⟩
  · intro hstc
    by_contra hne
    exact hraw ⟨hstc, hne⟩
  · intro halone hs
    by_cases hend : p.endTime = 0
    · have hne : p.interval.toInt ≠ DEFAULT_INTERVAL_NO_VALUE := fun hi => halone ⟨hs, hend, hi⟩
      exact Or.inr ⟨hend, not_le.mp fun hle => hpos ⟨hne, hle⟩⟩
    · refine Or.inl ⟨hend, not_le.mp fun hle => horder ⟨hs, hend, hle⟩, ?_⟩
      by_contra hi
      exact hboth ⟨hs, hend, hi⟩

/-- The rules for the time-out, of what the chain leaves. -/
theorem timeoutLeft_eq_zero {p : NmxptoolParams} (hstc : p.stc.toInt ≠ -1) :
    (timeoutLeft p).toInt = 0 ↔
      p.timeoutrecv.toInt = 0 ∨
        (¬SeedOutput p ∧ p.timeoutrecv.toInt > 0 ∧ p.maxTolerableLatency.toInt ≤ 0) := by
  unfold timeoutLeft
  split_ifs with h
  · simp [h]
  · constructor
    · exact Or.inl
    · rintro (h0 | ⟨hs, ht, hl⟩)
      · exact h0
      · exact absurd ⟨hs, hstc, hl, ht⟩ h

theorem timeoutLeft_rawStream {p : NmxptoolParams} (hstc : p.stc.toInt = -1) :
    timeoutLeft p = p.timeoutrecv := by
  unfold timeoutLeft
  rw [if_neg fun hc => hc.2.1 hstc]

/-- Of parameters that are not refused, the valid ones break no rule that the chain skips. -/
theorem valid_iff {b : Build} {p : NmxptoolParams} (hearly : EarlyRules p)
    (hlate : ¬RefusedLate b p) {o : Option CStr} {u n : Int32}
    (hmschan : (timeoutLeft p).toInt > 0 → u = 0 ∧ n = 0) :
    Valid { p with outdirseed := o, timeoutrecv := timeoutLeft p, usec := u, nChannel := n } ↔
      ¬Unchecked p := by
  unfold RefusedLate at hlate
  simp only [not_or] at hlate
  constructor
  · rintro hv (⟨hs, hend, hi⟩ | ⟨hs, hnet | ⟨hstc, hraw⟩ | ⟨hstc, ht⟩⟩ | ⟨-, -, -, hnet⟩ |
      ⟨hs, hstc, ht⟩)
    · rcases hv.start hs with ⟨hne, -, -⟩ | ⟨-, hpos⟩
      · exact hne hend
      · rw [hi] at hpos
        exact absurd hpos (by decide)
    · exact hnet hv.networkdelay
    · have htimeout := (hv.rawStream hstc).2.2
      rw [TimeoutRule, timeoutLeft_rawStream hstc] at htimeout
      exact hraw ⟨(hv.rawStream hstc).2.1, htimeout⟩
    · rcases (timeoutLeft_eq_zero hstc).mp (hv.noTimeout hstc) with h0 | ⟨hns, -⟩
      · exact ht h0
      · exact hns hs
    · exact hnet hv.networkdelay
    · rcases (timeoutLeft_eq_zero hstc).mp (hv.noTimeout hstc) with h0 | ⟨-, h0, hl⟩ <;> omega
  · intro hno
    simp only [Unchecked, not_or] at hno
    obtain ⟨halone, hseed, hnotime, hkept⟩ := hno
    refine ⟨hearly.hostname, hearly.channels, hearly.stc, hearly.rate, hearly.verboseLevel,
      hearly.maxDataToRetrieve, hearly.spanData, ?_, hearly.delay, hearly.start halone, ?_, ?_,
      hmschan⟩
    · by_contra hnet
      by_cases hs : SeedOutput p
      · exact hseed ⟨hs, Or.inl hnet⟩
      · refine hlate.2 ⟨hs, Or.inr (Or.inr ⟨fun hstc h0 => ?_, hnet⟩)⟩
        exact hnotime ⟨hs, hstc, h0, hnet⟩
    · intro (hstc : p.stc.toInt = -1)
      have hraw : LatencyRule p ∧ TimeoutRule p := by
        by_contra hraw
        by_cases hs : SeedOutput p
        · exact hseed ⟨hs, Or.inr (Or.inl ⟨hstc, hraw⟩)⟩
        · refine hlate.2 ⟨hs, ?_⟩
          by_cases hlat : LatencyRule p
          · exact Or.inr (Or.inl ⟨hstc, fun ht => hraw ⟨hlat, ht⟩⟩)
          · exact Or.inl ⟨hstc, hlat⟩
      have htimeout := hraw.2
      rw [TimeoutRule, ← timeoutLeft_rawStream hstc] at htimeout
      exact ⟨hearly.rawRate hstc, hraw.1, htimeout⟩
    · intro (hstc : p.stc.toInt ≠ -1)
      rw [timeoutLeft_eq_zero hstc]
      by_contra hno
      simp only [not_or, not_and] at hno
      by_cases hs : SeedOutput p
      · exact hseed ⟨hs, Or.inr (Or.inr ⟨hstc, hno.1⟩)⟩
      · have hmax := hno.2 hs
        exact hkept ⟨hs, hstc, by omega⟩

/-- **When accepted parameters are valid**: where they break no rule that the chain skips. -/
theorem check_iff {b : Build} (hb : b.libmseed = true) {p : NmxptoolParams}
    (hew : p.ewConfigurationFile = none) (hl : p.flagListchannels = 0)
    (hnaqs : p.flagListchannelsnaqs = 0) :
    ((nmxptoolCheckParams b p).ret = 0 → Valid (nmxptoolCheckParams b p).params) ↔
      Refused b p ∨ ¬Unchecked p := by
  by_cases hrefused : Refused b p
  · have hret : ¬(nmxptoolCheckParams b p).ret = 0 := fun h =>
      (ret_eq_zero_iff hb hew hl hnaqs).mp h hrefused
    exact ⟨fun _ => Or.inl hrefused, fun _ h => absurd h hret⟩
  · have hret := (ret_eq_zero_iff hb hew hl hnaqs).mpr hrefused
    obtain ⟨o, u, n, hparams, hmschan⟩ := params_of_accepted hb hew hl hnaqs hret
    have hnot := hrefused
    simp only [Refused, not_or] at hnot
    rw [hparams, valid_iff (earlyRules_of hnot.1) hnot.2.1 hmschan]
    exact ⟨fun h => Or.inr (h hret), fun h _ => h.resolve_left hrefused⟩

/-- A time-out asked for together with short-term completion. -/
def shortTermTimeout : NmxptoolParams :=
  { NMXPTOOL_PARAMS_DEFAULT with
    hostname := some "naqs".toList
    channels := some "STA.HHZ".toList
    stc := 5
    timeoutrecv := 20 }

/-- The warning about the latency ends the chain, and the time-out is kept. -/
theorem shortTermTimeout_kept : ¬∀ (b : Build) (p : NmxptoolParams), b.libmseed = true →
    p.ewConfigurationFile = none → p.flagListchannels = 0 → p.flagListchannelsnaqs = 0 →
      (nmxptoolCheckParams b p).ret = 0 → Valid (nmxptoolCheckParams b p).params := by
  intro hclaim
  have hvalid := hclaim seedBuild shortTermTimeout (by decide) (by decide) (by decide) (by decide)
    (by decide)
  exact absurd (hvalid.noTimeout (by decide)) (by decide)

/-- With no latency to warn about, the chain comes to the rule that takes the time-out back. -/
theorem check_iff_shortTermTimeout :
    let p := { shortTermTimeout with maxTolerableLatency := 0 }
    (seedBuild.libmseed = true ∧ p.ewConfigurationFile = none ∧
      p.flagListchannels = 0 ∧ p.flagListchannelsnaqs = 0) ∧
    (nmxptoolCheckParams seedBuild p).ret = 0 ∧
    Valid (nmxptoolCheckParams seedBuild p).params := by
  refine ⟨by decide, by decide, (check_iff (by decide) (by decide) (by decide) (by decide)).mpr
    (.inr ?_) (by decide)⟩
  unfold Unchecked StartAlone SeedOutputEnds NoTimeoutEnds TimeoutKept
  decide

end Nmxptool.Params.Check
