import Nmxptool.Chan.Subset
import Nmxptool.ChanSeq.States
import Nmxptool.Dap.Trim
import Nmxptool.Decode.Receive

/-! # Charging packets to channels

Both loops look up the channel of a packet by its key, and the index `cur_chan` decides whose state
the packet changes. For a packet with a key that is not in the subset the decoders return a packet
with default fields, and there is no index: `nmxp_chan_lookupKeyIndex` returns `-1`.

* `pdsHandle_default`: the PDS loop goes on with `channelList_Seq[-1]`, unless it skips the packet.
* `dapStep_unknown`: the DAP loop does nothing with it, because it has no samples.
* `charged_iff`: every packet is charged to a real channel iff no packet with an unknown key comes,
  or the packet with default fields is before the time to resume at. -/

namespace Nmxptool.Pds.Charge

open Nmxptool.Data.Process Nmxptool.Chan.Channels Nmxptool.Chan.Match Nmxptool.Chan.Subset
open Nmxptool.Lib.Floating Nmxptool.Lib.Run Nmxptool.Lib.Sorting Nmxptool.Lib.Bytes
open Nmxptool.Wire.Model Nmxptool.Decode.Bundle Nmxptool.Decode.Compressed
open Nmxptool.Decode.Decompressed Nmxptool.Decode.Receive
open Nmxptool.RawStream.Model Nmxptool.RawStream.Flush Nmxptool.ChanSeq.States
open Nmxptool.Pds.Clip Nmxptool.Dap.Trim

/-! ### Faults and outputs -/

/-- What ends the handling of a packet: the decoder, an access outside `channelList_Seq` or outside
the samples, or a fault of the Raw Stream. -/
inductive LoopFault
  | stopped (stop : Stop)
  | chanOutOfRange (i : ℤ)
  | sampleOutOfRange
  | rawStream (fault : Fault)
  deriving DecidableEq

/-- Where the loops hand packets to themselves. -/
inductive Output
  | nmxptoolWriteMiniseed
  | nmxptoolSendRawDepoch
  | nmxptoolMsrSendMseed
  | nmxptoolEwNmx2ew
  | outfile
  deriving DecidableEq

/-- What a loop does to the outside: events of the Raw Stream of a channel, and packets handed to
outputs. -/
inductive LoopEvent
  | rawStream (chan : ℤ) (event : Event)
  | handed (output : Output) (pd : Pd)
  deriving DecidableEq

/-- The parameters that the loops read. -/
structure LoopParams extends NmxptoolParams where
  stc : Int32
  timingQuality : Int32
  typeWriteseed : Bool
  flagSlink : Bool
  flagSlinkms : Bool
  ewConfigurationFile : Bool

/-- The outputs of a loop, in order. -/
def LoopParams.outputs (p : LoopParams) : List Output :=
  (if p.typeWriteseed then [.nmxptoolWriteMiniseed] else []) ++
  (if p.flagSlink then [.nmxptoolSendRawDepoch] else []) ++
  (if p.flagSlinkms then [.nmxptoolMsrSendMseed] else []) ++
  (if p.ewConfigurationFile then [.nmxptoolEwNmx2ew] else [])

/-- What does not change during a session. `-1` is no key of the subset (`key_ne_of_subset`), and
`-1.0` is what the decoders set a time to. -/
structure LoopSetting where
  receive : ReceiveSetting
  params : LoopParams
  qsort : Qsort
  nFuncPd : ℕ
  key_ne : ∀ ch ∈ receive.channelList.channel, ch.key ≠ -1
  toTime_minusOne : receive.toTime minusOne = -1

/-- `-1` has none of the data types. -/
theorem key_ne_of_subset {dataType : NmxpDatatype} {nd ld : CStr} {channelList : NmxpChanList}
    {staChanList : CStr} :
    ∀ ch ∈ (nmxpChanSubset dataType nd ld channelList staChanList).channel, ch.key ≠ -1 := by
  intro ch hch hkey
  obtain ⟨ch', -, hk, htype, -⟩ :=
    (subset_sound channelList dataType staChanList nd ld).sound ch hch
  rw [hk, hkey] at htype
  cases dataType <;> exact absurd htype (by decide)

/-- The setting for the channels of a server that match a list of patterns. -/
def LoopSetting.ofSubset (host : Host) (toTime : UInt64 → ℚ) (h : toTime minusOne = -1)
    (nd ld : CStr) (channelList : NmxpChanList) (staChanList : CStr) (params : LoopParams)
    (qsort : Qsort) (nFuncPd : ℕ) : LoopSetting where
  receive := ⟨host, toTime, nmxpChanSubset .timeseries nd ld channelList staChanList, nd, ld⟩
  params := params
  qsort := qsort
  nFuncPd := nFuncPd
  key_ne := key_ne_of_subset
  toTime_minusOne := h

/-- The number of channels of a setting. -/
def LoopSetting.number (s : LoopSetting) : ℕ := s.receive.channelList.number

/-- The channels of the subset, while a loop runs. -/
abbrev Seqs := List NmxptoolChanSeq

/-- What a part of a loop gives: the channels, and what it does to the outside. -/
abbrev Handled := Except LoopFault (Seqs × List LoopEvent)

/-! ### Access -/

/-- `channelList_Seq[i]`. -/
def seqAt (seqs : Seqs) (i : ℤ) : Except LoopFault NmxptoolChanSeq :=
  if h : 0 ≤ i ∧ i.toNat < seqs.length then .ok (seqs.get ⟨i.toNat, h.2⟩)
  else .error (.chanOutOfRange i)

/-- A change of `channelList_Seq[i]`. -/
def updateSeq (seqs : Seqs) (i : ℤ)
    (f : NmxptoolChanSeq → Except LoopFault (NmxptoolChanSeq × List LoopEvent)) : Handled := do
  let q ← seqAt seqs i
  let r ← f q
  return (seqs.set i.toNat r.1, r.2)

/-- What is read from the samples. -/
def ofSamples {α : Type} : Option α → Except LoopFault α
  | some a => .ok a
  | none => .error .sampleOutOfRange

/-! ### The parts of an iteration -/

/-- `pd->timing_quality`, if it is declared in the command line. -/
def forceTimingQuality (p : LoopParams) (pd : Pd) : Pd :=
  if p.timingQuality ≠ -1 then { pd with timingQuality := p.timingQuality } else pd

/-- `channelList_Seq[cur_chan].after_start_time`, which is read for a state file only. -/
def readAfterStartTime (p : LoopParams) (seqs : Seqs) (curChan : ℤ) : Except LoopFault ℚ :=
  if p.statefile ∧ p.timeoutrecv ≤ 0 then do
    let q ← seqAt seqs curChan
    return q.afterStartTime
  else return 0

/-- Whether the packet is skipped, and the packet. -/
def skipOrClip (p : LoopParams) (seqs : Seqs) (curChan : ℤ) (pd : Pd) :
    Except LoopFault (Bool × Pd) := do
  let afterStartTime ← readAfterStartTime p seqs curChan
  ofSamples (clippingBlock p.toNmxptoolParams afterStartTime pd)

/-- The clock readings of an iteration: in the call for the packet and behind it, and, for each
channel, at the test for a time-out, in the call and behind it. -/
structure LoopClock where
  manage : Clock
  called : ℤ
  checked : ℕ → ℤ
  timeout : ℕ → Clock
  recalled : ℕ → ℤ

section Parts
variable (s : LoopSetting) (c : LoopClock)

/-- A call of `nmxp_raw_stream_manage` for a channel, and its `last_time_call_raw_stream`. -/
def callRawStream (chan : ℤ) (clock : Clock) (now : ℤ) (pd : Option Pd) (q : NmxptoolChanSeq) :
    Except LoopFault (NmxptoolChanSeq × List LoopEvent) :=
  match nmxpRawStreamManage s.qsort s.nFuncPd clock q.rawStreamBuffer pd with
  | .ok r => .ok ({ q with rawStreamBuffer := r.1, lastTimeCallRawStream := now },
      r.2.map (.rawStream chan))
  | .error fault => .error (.rawStream fault)

/-- *Manage Raw Stream*, for the packet and its `cur_chan`. -/
def manageRawStream (seqs : Seqs) : Option (ℤ × Pd) → Handled
  | some (curChan, pd) =>
    updateSeq seqs curChan (callRawStream s curChan c.manage c.called (some pd))
  | none => return (seqs, [])

/-- *Timeout for channel*. -/
def timeoutRound (toCurChan : ℕ) (seqs : Seqs) : Handled := do
  let q ← seqAt seqs toCurChan
  if q.lastTimeCallRawStream ≠ 0 ∧
      c.checked toCurChan - q.lastTimeCallRawStream ≥ s.params.timeoutrecv.toInt then
    updateSeq seqs toCurChan
      (callRawStream s toCurChan (c.timeout toCurChan) (c.recalled toCurChan) none)
  else return (seqs, [])

/-- *Check timeout for other channels*, with `left` of them from `to_cur_chan` on. -/
def timeoutLoop : ℕ → ℕ → Seqs → Handled
  | 0, _, seqs => return (seqs, [])
  | left + 1, toCurChan, seqs => do
    let r ← timeoutRound s c toCurChan seqs
    let r' ← timeoutLoop left (toCurChan + 1) r.1
    return (r'.1, r.2 ++ r'.2)

/-- *Management of gaps*, and the outputs. -/
def manageGap (seqs : Seqs) : Option (ℤ × Pd) → Handled
  | some (curChan, pd) => do
    let r ← updateSeq seqs curChan fun q => return ((nmxptoolChanseqGap q pd).1, [])
    return (r.1, s.params.outputs.map fun output => .handed output pd)
  | none => return (seqs, [])

/-- What an iteration does if the packet is not skipped. -/
def notSkipped (seqs : Seqs) (pd : Option (ℤ × Pd)) : Handled :=
  if s.params.stc = -1 then do
    let r ← manageRawStream s c seqs pd
    if s.params.timeoutrecv > 0 then
      let r' ← timeoutLoop s c s.number 0 r.1
      return (r'.1, r.2 ++ r'.2)
    else return r
  else manageGap s seqs pd

/-- *Store x_1*. -/
def storeX1 (seqs : Seqs) (curChan : ℤ) (pd : Pd) : Handled :=
  if pd.nSamp > 0 then
    updateSeq seqs curChan fun q => do
      let v ← ofSamples (readSample pd.pDataPtr (pd.nSamp - 1))
      return ({ q with x1 := v }, [])
  else return (seqs, [])

/-- An iteration of the PDS loop, with the packet that `nmxp_receiveData` returned. -/
def pdsHandle (seqs : Seqs) : Option Pd → Handled
  | none => notSkipped s c seqs none
  | some pd => do
    let pd := forceTimingQuality s.params pd
    let curChan := nmxpChanLookupKeyIndex pd.key s.receive.channelList
    let skip ← skipOrClip s.params seqs curChan pd
    let r ← (if skip.1 then return (seqs, []) else notSkipped s c seqs (some (curChan, skip.2)))
    let r' ← storeX1 r.1 curChan skip.2
    return (r'.1, r.2 ++ r'.2)

end Parts

/-! ### The loops -/

/-- The decoder's part of an iteration. -/
def decoded {α : Type} : Except Stop α → Except LoopFault α
  | .ok a => .ok a
  | .error stop => .error (.stopped stop)

/-- What an iteration of the PDS loop is given: the array to decode into, what comes and when. -/
structure PdsInput where
  outdata : OutData
  received : Received
  clock : LoopClock

/-- **An iteration of the PDS loop.** -/
def pdsStep (s : LoopSetting) (seqs : Seqs) (m : PdsInput) : Handled := do
  let pd ← decoded (processMessage s.receive m.outdata m.received)
  pdsHandle s m.clock seqs pd

/-- A request of the DAP loop: the channel and the time window, and whether there is an output
file. -/
structure DapRequest where
  requestChan : ℤ
  startTime : ℚ
  endTime : ℚ
  outfile : Bool

/-- What an iteration of the DAP loop is given: the buffer, in which earlier messages have left
their bytes. -/
structure DapInput where
  outdata : OutData
  buffer : List UInt8
  length : Int32
  size : buffer.length = NMXP_MAX_LENGTH_DATA_BUFFER

/-- What an iteration of the DAP loop does with a packet of the channel that was requested. -/
def dapPacket (s : LoopSetting) (d : DapRequest) (length : Int32) (seqs : Seqs) (curChan : ℤ)
    (pd : Pd) : Handled := do
  let r ← manageGap s seqs (some (curChan, pd))
  let r' ← storeX1 r.1 curChan pd
  return (r'.1, r.2 ++ (if d.outfile ∧ length > 0 then [.handed .outfile pd] else []) ++ r'.2)

/-- **An iteration of the DAP loop.** -/
def dapStep (s : LoopSetting) (d : DapRequest) (seqs : Seqs) (m : DapInput) : Handled := do
  let pd ← decoded (nmxpProcessCompressedData s.receive.host m.outdata
    (compressedView m.buffer m.length) s.receive.channelList s.receive.networkCode
    s.receive.locationCode)
  let r ← ofSamples (nmxpDataTrim d.startTime d.endTime 0 (forceTimingQuality s.params pd))
  let pd := r.2
  if pd.nSamp > 0 then
    let curChan := nmxpChanLookupKeyIndex pd.key s.receive.channelList
    if d.requestChan ≠ curChan ∧ curChan ≠ -1 then return (seqs, [])
    else dapPacket s d m.length seqs curChan pd
  else return (seqs, [])

/-! ### Packets with an index in range -/

/-- The fault is no access outside `channelList_Seq`. -/
def InRange (fault : LoopFault) : Prop := ∀ i, fault ≠ .chanOutOfRange i

/-- No access is outside `channelList_Seq`, and no channel is lost. -/
def Keeps (n : ℕ) : Handled → Prop := Ends InRange fun r => r.1.length = n

theorem inRange_ofSamples {α : Type} (o : Option α) :
    Ends InRange (fun _ => True) (ofSamples o) := by
  cases o with
  | none => exact fun i h => absurd h (by simp)
  | some a => trivial

theorem seqAt_inRange {seqs : Seqs} {i : ℤ} (h0 : 0 ≤ i) (hi : i < seqs.length) :
    Ends InRange (fun _ => True) (seqAt seqs i) := by
  unfold seqAt
  rw [dif_pos ⟨h0, by omega⟩]
  trivial

theorem updateSeq_keeps {seqs : Seqs} {i : ℤ} (h0 : 0 ≤ i) (hi : i < seqs.length)
    {f : NmxptoolChanSeq → Except LoopFault (NmxptoolChanSeq × List LoopEvent)}
    (hf : ∀ q, Ends InRange (fun _ => True) (f q)) : Keeps seqs.length (updateSeq seqs i f) :=
  (seqAt_inRange h0 hi).bind fun q _ => (hf q).bind fun _ _ => List.length_set

section InRange
variable (s : LoopSetting) (c : LoopClock) {seqs : Seqs}

theorem callRawStream_inRange (chan : ℤ) (clock : Clock) (now : ℤ) (pd : Option Pd)
    (q : NmxptoolChanSeq) :
    Ends InRange (fun _ => True) (callRawStream s chan clock now pd q) := by
  unfold callRawStream
  cases nmxpRawStreamManage s.qsort s.nFuncPd clock q.rawStreamBuffer pd with
  | ok r => trivial
  | error fault => exact fun i h => absurd h (by simp)

/-- What is handed on with an index, if anything, has one in range. -/
def IndexOK (n : ℕ) (pd : Option (ℤ × Pd)) : Prop := ∀ r ∈ pd, 0 ≤ r.1 ∧ r.1 < n

theorem manageRawStream_keeps {pd : Option (ℤ × Pd)} (hpd : IndexOK seqs.length pd) :
    Keeps seqs.length (manageRawStream s c seqs pd) := by
  cases pd with
  | none => exact rfl
  | some r =>
    obtain ⟨h0, hi⟩ := hpd r rfl
    exact updateSeq_keeps h0 hi (callRawStream_inRange s r.1 c.manage c.called (some r.2))

theorem timeoutRound_keeps {toCurChan : ℕ} (h : toCurChan < seqs.length) :
    Keeps seqs.length (timeoutRound s c toCurChan seqs) := by
  have h0 : (0 : ℤ) ≤ toCurChan := Int.natCast_nonneg _
  have hi : (toCurChan : ℤ) < seqs.length := Int.ofNat_lt.mpr h
  refine (seqAt_inRange h0 hi).bind fun q _ => ?_
  split_ifs
  · exact updateSeq_keeps h0 hi (callRawStream_inRange s _ _ _ none)
  · exact rfl

theorem timeoutLoop_keeps : ∀ (left toCurChan : ℕ) (seqs : Seqs),
    left + toCurChan = seqs.length → Keeps seqs.length (timeoutLoop s c left toCurChan seqs)
  | 0, _, _, _ => rfl
  | left + 1, toCurChan, seqs, h => by
    refine (timeoutRound_keeps s c (by omega)).bind fun r hr => ?_
    have hrest := timeoutLoop_keeps left (toCurChan + 1) r.1 (by omega)
    rw [hr] at hrest
    exact hrest.bind fun _ h => h

theorem manageGap_keeps {pd : Option (ℤ × Pd)} (hpd : IndexOK seqs.length pd) :
    Keeps seqs.length (manageGap s seqs pd) := by
  cases pd with
  | none => exact rfl
  | some r =>
    obtain ⟨h0, hi⟩ := hpd r rfl
    refine (updateSeq_keeps h0 hi fun q => ?_).bind fun _ h => h
    exact trivial

theorem notSkipped_keeps (hseqs : seqs.length = s.number) {pd : Option (ℤ × Pd)}
    (hpd : IndexOK seqs.length pd) : Keeps seqs.length (notSkipped s c seqs pd) := by
  unfold notSkipped
  split_ifs with hstc htimeout
  · refine (manageRawStream_keeps s c hpd).bind fun r hr => ?_
    have hloop := timeoutLoop_keeps s c s.number 0 r.1 (by omega)
    rw [hr] at hloop
    exact hloop.bind fun _ h => h
  · exact (manageRawStream_keeps s c hpd).bind fun _ h => h
  · exact manageGap_keeps s hpd

theorem storeX1_keeps (seqs : Seqs) {i : ℤ} (h0 : 0 ≤ i) (hi : i < seqs.length) (pd : Pd) :
    Keeps seqs.length (storeX1 seqs i pd) := by
  unfold storeX1
  split_ifs
  · exact updateSeq_keeps h0 hi fun q => (inRange_ofSamples _).bind fun _ _ => trivial
  · exact rfl

theorem skipOrClip_inRange (p : LoopParams) {i : ℤ} (h0 : 0 ≤ i) (hi : i < seqs.length) (pd : Pd) :
    Ends InRange (fun _ => True) (skipOrClip p seqs i pd) := by
  have hread : Ends InRange (fun _ => True) (readAfterStartTime p seqs i) := by
    unfold readAfterStartTime
    split_ifs
    · exact (seqAt_inRange h0 hi).bind fun _ _ => trivial
    · trivial
  exact hread.bind fun t _ => inRange_ofSamples _

/-- A key of the subset has an index in range. -/
theorem lookup_inRange {key : Int32} (hkey : Known s.receive.channelList key) :
    0 ≤ nmxpChanLookupKeyIndex key s.receive.channelList ∧
      nmxpChanLookupKeyIndex key s.receive.channelList < s.number := by
  obtain ⟨i, hi, heq, -⟩ := nmxpChanLookupKeyIndex_spec (List.mem_map.mpr hkey)
  rw [heq]
  exact ⟨Int.natCast_nonneg i, Int.ofNat_lt.mpr hi⟩

theorem forceTimingQuality_key (p : LoopParams) (pd : Pd) :
    (forceTimingQuality p pd).key = pd.key := by
  unfold forceTimingQuality
  split_ifs <;> rfl

/-- **No packet, or one with a key of the subset**: every access is in range. -/
theorem pdsHandle_keeps (hseqs : seqs.length = s.number) {pd : Option Pd}
    (hkey : ∀ p ∈ pd, Known s.receive.channelList p.key) :
    Keeps seqs.length (pdsHandle s c seqs pd) := by
  cases pd with
  | none => exact notSkipped_keeps s c hseqs fun r hr => absurd hr (by simp)
  | some pd =>
    obtain ⟨h0, hi⟩ := lookup_inRange s (hkey pd rfl)
    rw [← forceTimingQuality_key s.params pd] at h0 hi
    rw [← hseqs] at hi
    refine (skipOrClip_inRange s.params h0 hi _).bind fun skip _ => ?_
    have hhandled : Keeps seqs.length (if skip.1 then return (seqs, []) else notSkipped s c seqs
        (some (nmxpChanLookupKeyIndex (forceTimingQuality s.params pd).key s.receive.channelList,
          skip.2))) := by
      split_ifs
      · exact rfl
      · refine notSkipped_keeps s c hseqs fun r hr => ?_
        rw [← Option.some.inj hr]
        exact ⟨h0, hi⟩
    refine hhandled.bind fun r hr => ?_
    have hstore := storeX1_keeps r.1 h0 (by omega) skip.2
    rw [hr] at hstore
    exact hstore.bind fun _ h => h

end InRange

/-! ### The packet with default fields -/

/-- The packet with default fields is skipped, and no channel is looked at for that: there is a
buffered time, behind one second before the epoch, but no state file. -/
def DefaultSkipped (p : LoopParams) : Prop :=
  p.statefile = false ∧ p.bufferedTime ≠ 0 ∧ p.timeoutrecv ≤ 0 ∧ -1 < p.bufferedTime

instance (p : LoopParams) : Decidable (DefaultSkipped p) := by
  unfold DefaultSkipped
  infer_instance

theorem updateSeq_neg (seqs : Seqs)
    (f : NmxptoolChanSeq → Except LoopFault (NmxptoolChanSeq × List LoopEvent)) :
    updateSeq seqs (-1) f = .error (.chanOutOfRange (-1)) := by
  unfold updateSeq seqAt
  rw [dif_neg (by omega), error_bind]

/-- A packet at one time is skipped if it is before the time to resume at. -/
theorem clip_of_endTime {t : ℚ} {pd : Pd} (h : pd.exactEndTime = .finite pd.time) :
    clip t pd = some (decide (pd.time < t), pd) := by
  unfold clip
  rw [h]
  by_cases ht : pd.time < t
  · rw [if_neg fun hle => not_le.mpr ht (Double.le_finite.mp hle), decide_eq_true ht]
  · rw [if_pos (Double.le_finite.mpr (not_lt.mp ht)), if_neg ht, decide_eq_false ht]

section Default
variable (s : LoopSetting) (c : LoopClock) (seqs : Seqs)

theorem lookup_minusOne : nmxpChanLookupKeyIndex (-1) s.receive.channelList = -1 := by
  rw [nmxpChanLookupKeyIndex_eq_neg_one]
  intro hmem
  obtain ⟨ch, hch, hk⟩ := List.mem_map.mp hmem
  exact s.key_ne ch hch hk

/-- With the index `-1`, either part of an iteration leaves the array. -/
theorem notSkipped_neg (pd : Pd) :
    notSkipped s c seqs (some (-1, pd)) = .error (.chanOutOfRange (-1)) := by
  unfold notSkipped manageRawStream manageGap
  split_ifs
  all_goals
    dsimp only
    rw [updateSeq_neg, error_bind]

/-- The fields that the loop reads of the packet with default fields. -/
structure IsDefault (pd : Pd) : Prop where
  key : pd.key = -1
  nSamp : pd.nSamp = 0
  time : pd.time = -1
  endTime : pd.exactEndTime = .finite pd.time

theorem isDefault_init (p : LoopParams) :
    IsDefault (forceTimingQuality p (nmxpDataInit (-1))) := by
  have hend : ((nmxpDataInit (-1)) : Pd).exactEndTime = .finite (-1) := by decide +kernel
  unfold forceTimingQuality
  split_ifs
  · exact ⟨rfl, rfl, rfl, hend⟩
  · exact ⟨rfl, rfl, rfl, hend⟩

variable {seqs} in
theorem storeX1_default {pd : Pd} (h : IsDefault pd) (i : ℤ) :
    storeX1 seqs i pd = .ok (seqs, []) := by
  unfold storeX1
  rw [h.nSamp, if_neg (by decide)]
  rfl

/-- Whether the packet is skipped. With a state file the channel is looked at. -/
theorem skipOrClip_default {pd : Pd} (h : IsDefault pd) :
    skipOrClip s.params seqs (-1) pd =
      if s.params.statefile = true ∧ s.params.timeoutrecv ≤ 0 then .error (.chanOutOfRange (-1))
      else .ok (decide (DefaultSkipped s.params), pd) := by
  unfold skipOrClip readAfterStartTime
  by_cases hfile : s.params.statefile = true ∧ s.params.timeoutrecv ≤ 0
  · have hat : seqAt seqs (-1) = .error (.chanOutOfRange (-1)) := dif_neg (by omega)
    rw [if_pos hfile, if_pos hfile, hat]
    rfl
  · rw [if_neg hfile, if_neg hfile]
    have hblock : clippingBlock s.params.toNmxptoolParams 0 pd =
        some (decide (DefaultSkipped s.params), pd) := by
      unfold clippingBlock curAfterStartTime DefaultSkipped
      by_cases hrecv : s.params.timeoutrecv ≤ 0
      · have hstate : s.params.statefile = false := by
          rw [← Bool.not_eq_true]
          exact fun hs => hfile ⟨hs, hrecv⟩
        by_cases hbuffered : s.params.bufferedTime = 0
        · simp [hstate, hbuffered]
        · simp [hstate, hbuffered, hrecv, clip_of_endTime h.endTime, h.time]
      · simp [hrecv]
    show ofSamples (clippingBlock s.params.toNmxptoolParams 0 pd) = _
    rw [hblock]
    rfl

/-- **The packet with default fields**: the loop does nothing with it if it is skipped; else it goes
on with `channelList_Seq[-1]`. -/
theorem pdsHandle_default : pdsHandle s c seqs (some (nmxpDataInit (-1))) =
    if DefaultSkipped s.params then .ok (seqs, []) else .error (.chanOutOfRange (-1)) := by
  have h := isDefault_init s.params
  unfold pdsHandle
  dsimp only
  rw [h.key, lookup_minusOne, skipOrClip_default s seqs h]
  by_cases hfile : s.params.statefile = true ∧ s.params.timeoutrecv ≤ 0
  · have hskip : ¬ DefaultSkipped s.params := fun hd => by
      rw [hd.1] at hfile
      exact absurd hfile.1 (by simp)
    rw [if_pos hfile, if_neg hskip, error_bind]
  · rw [if_neg hfile, ok_bind]
    by_cases hskip : DefaultSkipped s.params
    · rw [if_pos hskip, decide_eq_true hskip, if_pos rfl, pure_eq_ok, ok_bind,
        storeX1_default h, ok_bind]
      rfl
    · rw [if_neg hskip, decide_eq_false hskip, if_neg (by simp), notSkipped_neg, error_bind]

/-- An iteration without a packet, where the packet with default fields would be skipped. -/
theorem pdsHandle_none (h : DefaultSkipped s.params) :
    pdsHandle s c seqs none = .ok (seqs, []) := by
  have hrecv : ¬ s.params.timeoutrecv > 0 := fun hgt => Int32.not_le.mpr hgt h.2.2.1
  unfold pdsHandle notSkipped manageRawStream manageGap
  split_ifs <;> rfl

end Default

/-! ### The loops -/

/-- **The packet of an iteration of the PDS loop is charged to a real channel**: no access is
outside `channelList_Seq`, and a packet with an unknown key makes no difference to an iteration
without a packet. -/
def Charged (s : LoopSetting) (seqs : Seqs) (m : PdsInput) : Prop :=
  (∀ i, pdsStep s seqs m ≠ .error (.chanOutOfRange i)) ∧
    (UnknownKey s.receive m.received → pdsStep s seqs m = pdsHandle s m.clock seqs none)

/-- A message of the DAP loop that is decoded, with data of a channel that is not in the subset. -/
def DapUnknownKey (s : LoopSetting) (m : DapInput) : Prop :=
  ¬ Filler (compressedView m.buffer m.length) ∧
    ¬ Known s.receive.channelList (headerKey (compressedView m.buffer m.length))

/-- The same for an iteration of the DAP loop. -/
def DapCharged (s : LoopSetting) (d : DapRequest) (seqs : Seqs) (m : DapInput) : Prop :=
  (∀ i, dapStep s d seqs m ≠ .error (.chanOutOfRange i)) ∧
    (DapUnknownKey s m → dapStep s d seqs m = .ok (seqs, []))

/-- What an iteration needs for that. -/
def ChargeOK (s : LoopSetting) (_ : Seqs) (m : PdsInput) : Prop :=
  UnknownKey s.receive m.received → DefaultSkipped s.params

section Loops
variable (s : LoopSetting) {seqs : Seqs}

/-- **An iteration of the PDS loop**, by the key of its packet. -/
theorem pdsStep_cases (hseqs : seqs.length = s.number) (m : PdsInput) :
    (UnknownKey s.receive m.received ∧ pdsStep s seqs m =
      if DefaultSkipped s.params then .ok (seqs, []) else .error (.chanOutOfRange (-1))) ∨
    (¬ UnknownKey s.receive m.received ∧ Keeps seqs.length (pdsStep s seqs m)) := by
  by_cases hunknown : UnknownKey s.receive m.received
  · refine Or.inl ⟨hunknown, ?_⟩
    unfold pdsStep
    rw [processMessage_unknown s.toTime_minusOne m.outdata hunknown, decoded, ok_bind,
      pdsHandle_default]
  · refine Or.inr ⟨hunknown, ?_⟩
    unfold pdsStep
    cases hpd : processMessage s.receive m.outdata m.received with
    | error stop => exact fun i h => absurd h (by simp)
    | ok pd =>
      rw [decoded, ok_bind]
      refine pdsHandle_keeps s m.clock hseqs fun p hp => ?_
      obtain rfl : pd = some p := hp
      exact processMessage_known hpd hunknown

theorem pdsStep_length (hseqs : seqs.length = s.number) {m : PdsInput} {seqs' : Seqs}
    {evs : List LoopEvent} (h : pdsStep s seqs m = .ok (seqs', evs)) :
    seqs'.length = s.number := by
  rcases pdsStep_cases s hseqs m with ⟨-, hstep⟩ | ⟨-, hstep⟩
  · rw [hstep] at h
    split_ifs at h
    · rw [← (Prod.mk.inj (Except.ok.inj h)).1, hseqs]
  · rw [h] at hstep
    exact hstep.trans hseqs

/-- **One iteration of the PDS loop.** -/
theorem charged_step (hseqs : seqs.length = s.number) (m : PdsInput) :
    Charged s seqs m ↔ ChargeOK s seqs m := by
  unfold Charged ChargeOK
  rcases pdsStep_cases s hseqs m with ⟨hunknown, hstep⟩ | ⟨hunknown, hstep⟩
  · rw [hstep, forall_prop_of_true hunknown, forall_prop_of_true hunknown]
    by_cases hskip : DefaultSkipped s.params
    · rw [if_pos hskip, pdsHandle_none s m.clock seqs hskip]
      exact iff_of_true ⟨fun i => by simp, rfl⟩ hskip
    · rw [if_neg hskip]
      exact iff_of_false (fun h => h.1 (-1) rfl) hskip
  · refine iff_of_true ⟨fun i h => ?_, fun h => absurd h hunknown⟩ fun h => absurd h hunknown
    rw [h] at hstep
    exact hstep i rfl

/-- With an unknown key the DAP loop does nothing: there are no samples. -/
theorem dapStep_unknown (d : DapRequest) {m : DapInput} (h : DapUnknownKey s m) :
    dapStep s d seqs m = .ok (seqs, []) := by
  have hn := (isDefault_init s.params).nSamp
  unfold dapStep
  rw [compressed_unknown s.receive.host m.outdata (length_compressedView m.size.ge m.length) h.1
    h.2, decoded, ok_bind, trim_of_empty _ _ hn, ofSamples, ok_bind]
  dsimp only
  rw [hn, if_neg (by decide)]
  rfl

theorem dapPacket_keeps (d : DapRequest) (length : Int32) {i : ℤ} (h0 : 0 ≤ i)
    (hi : i < seqs.length) (pd : Pd) : Keeps seqs.length (dapPacket s d length seqs i pd) := by
  have hgap : Keeps seqs.length (manageGap s seqs (some (i, pd))) :=
    manageGap_keeps s fun r hr => by
      rw [← Option.some.inj hr]
      exact ⟨h0, hi⟩
  refine hgap.bind fun r hr => ?_
  have hstore := storeX1_keeps r.1 h0 (by omega) pd
  rw [hr] at hstore
  exact hstore.bind fun _ h => h

/-- **An iteration of the DAP loop**: whatever comes, every access is in range. -/
theorem dapStep_keeps (hseqs : seqs.length = s.number) (d : DapRequest) (m : DapInput) :
    Keeps seqs.length (dapStep s d seqs m) := by
  have hL := length_compressedView m.size.ge m.length
  by_cases hunknown : DapUnknownKey s m
  · rw [dapStep_unknown s d hunknown]
    exact rfl
  unfold dapStep
  cases hpd : nmxpProcessCompressedData s.receive.host m.outdata (compressedView m.buffer m.length)
      s.receive.channelList s.receive.networkCode s.receive.locationCode with
  | error stop => exact fun i h => absurd h (by simp)
  | ok pd =>
    have hfiller : ¬ Filler (compressedView m.buffer m.length) := not_filler_of_ok hL hpd
    have hkey : Known s.receive.channelList (headerKey (compressedView m.buffer m.length)) :=
      not_not.mp fun hn => hunknown ⟨hfiller, hn⟩
    rw [decoded, ok_bind]
    cases htrim : nmxpDataTrim d.startTime d.endTime 0 (forceTimingQuality s.params pd) with
    | none => exact fun i h => absurd h (by simp)
    | some r =>
      have hr : r.2.key = headerKey (compressedView m.buffer m.length) := by
        rw [trim_frame htrim]
        exact (forceTimingQuality_key s.params pd).trans
          (compressed_key s.receive.host m.outdata hL hkey hpd)
      obtain ⟨h0, hi⟩ := lookup_inRange s hkey
      rw [← hseqs] at hi
      rw [ofSamples, ok_bind]
      dsimp only
      rw [hr]
      split_ifs
      · exact rfl
      · exact dapPacket_keeps s d m.length h0 hi r.2
      · exact rfl

/-- **Packets are charged to real channels**: in the PDS loop iff no packet with an unknown key
comes unless the packet with default fields is skipped, in the DAP loop always. -/
theorem charged_iff (hseqs : seqs.length = s.number) (ms : List PdsInput) (d : DapRequest)
    (ns : List DapInput) :
    (AllSteps (pdsStep s) (Charged s) seqs ms ∧
        AllSteps (dapStep s d) (DapCharged s d) seqs ns) ↔
      AllSteps (pdsStep s) (ChargeOK s) seqs ms := by
  have hdap : AllSteps (dapStep s d) (DapCharged s d) seqs ns := by
    refine (allSteps_iff (C := fun _ _ => True) (fun q => q.length = s.number) ?_ ?_ hseqs ns).mpr
      (allSteps_of_forall (fun _ _ _ => trivial) seqs)
    · intro q m q' evs hq _ h
      have := dapStep_keeps s hq d m
      rw [h] at this
      exact this.trans hq
    · intro q m hq
      refine iff_of_true ⟨fun i h => ?_, dapStep_unknown s d⟩ trivial
      have := dapStep_keeps s hq d m
      rw [h] at this
      exact this i rfl
  rw [and_iff_left hdap]
  exact allSteps_iff (fun q => q.length = s.number)
    (fun _ _ _ _ hq _ h => pdsStep_length s hq h) (fun _ m hq => charged_step s hq m) hseqs ms

end Loops

/-! ### Default parameters -/

/-- The default parameters: Raw Stream, no state file, no buffered time, no time-out. -/
def defaultParams : LoopParams where
  statefile := false
  bufferedTime := DEFAULT_BUFFERED_TIME
  timeoutrecv := 0
  stc := -1
  timingQuality := -1
  typeWriteseed := false
  flagSlink := false
  flagSlinkms := false
  ewConfigurationFile := false

/-- One subscribed channel, `S.BHZ` with the key `65792`. -/
def oneSubscribed : LoopSetting :=
  .ofSubset .little (fun t => if t = minusOne then -1 else 0) rfl ['N'] []
    ⟨[⟨65792, ['S', '.', 'B', 'H', 'Z'], by decide⟩]⟩ ['S', '.', 'B', 'H', 'Z']
    defaultParams insertion 0

def oneSeq : Seqs := nmxptoolChanseqInit 1 DEFAULT_BUFFERED_TIME 600 0

/-- A decompressed packet with one sample arrives. -/
def oneSample (key : Int32) : PdsInput where
  outdata := zeroed
  received := ⟨NMXP_SOCKET_OK, NMXP_MSG_DECOMPRESSED, 24, encode key 0 100 [7], 0⟩
  clock := ⟨fun _ => 0, 0, fun _ => 0, fun _ _ => 0, fun _ => 0⟩

/-- A compressed packet without bundles in the buffer of the DAP loop. -/
def headerOnly : DapInput where
  outdata := zeroed
  buffer := List.replicate NMXP_MAX_LENGTH_DATA_BUFFER 0
  length := 21
  size := List.length_replicate

/-- A packet of the subscribed channel is charged to it. -/
theorem charged_iff_known :
    AllSteps (pdsStep oneSubscribed) (Charged oneSubscribed) oneSeq [oneSample 65792] ∧
      AllSteps (dapStep oneSubscribed ⟨0, 0, 1, false⟩)
        (DapCharged oneSubscribed ⟨0, 0, 1, false⟩) oneSeq [headerOnly] := by
  have hknown : ¬ UnknownKey oneSubscribed.receive (oneSample 65792).received := by
    rintro ⟨-, ⟨hc, -⟩ | ⟨-, hkey⟩⟩
    · exact absurd hc (by decide)
    · exact hkey (by decide +kernel)
  refine (charged_iff oneSubscribed (by decide +kernel) [oneSample 65792] ⟨0, 0, 1, false⟩
    [headerOnly]).mpr (allSteps_of_forall (fun _ m hm h => ?_) oneSeq)
  rw [List.mem_singleton.mp hm] at h
  exact absurd h hknown

/-- A packet of another channel is charged to `channelList_Seq[-1]`. -/
theorem charged_other :
    pdsStep oneSubscribed oneSeq (oneSample 65793) = .error (.chanOutOfRange (-1)) ∧
      ¬ AllSteps (pdsStep oneSubscribed) (Charged oneSubscribed) oneSeq [oneSample 65793] := by
  have hunknown : UnknownKey oneSubscribed.receive (oneSample 65793).received :=
    ⟨rfl, Or.inr ⟨rfl, by decide +kernel⟩⟩
  have hstep : pdsStep oneSubscribed oneSeq (oneSample 65793) =
      .error (.chanOutOfRange (-1)) := by
    have hseqs : oneSeq.length = oneSubscribed.number := by decide +kernel
    rcases pdsStep_cases oneSubscribed hseqs (oneSample 65793) with ⟨-, h⟩ | ⟨h, -⟩
    · rw [h, if_neg (by decide +kernel)]
    · exact absurd hunknown h
  exact ⟨hstep, fun h => h.1.1 (-1) hstep⟩

end Nmxptool.Pds.Charge
