import Mathlib.Algebra.Order.Field.Basic
import Mathlib.Data.Rat.Floor
import Mathlib.Tactic.FieldSimp
import Mathlib.Tactic.Linarith
import Mathlib.Tactic.Ring
import Nmxptool.Data.Process
import Nmxptool.Lib.Run

/-! # Packing mini-SEED records

`nmxp_data_msr_pack` collects the samples of a channel in the buffer of its record and hands the
buffer to libmseed's `msr_pack`, which packs some of the samples at its front, or all of them when
told to flush. `msr_pack` is a parameter.

* `MsrPackOK`, `AdvancesTime`: what is documented of `msr_pack`.
* `pack_conserves`: over a run, each sample is packed once and in order.
* `labels_iff`: all samples handed over are labelled with their own rate and time iff no packet with
  another rate meets samples in the buffer. -/

namespace Nmxptool.Seed.Pack

open Nmxptool.Data.Process Nmxptool.Lib.Run

/-- `MSRecord`: the fields that the function reads or sets. -/
structure MsRecord where
  starttime : ℚ
  samprate : ℚ
  datasamples : Option (List Int32)
  numsamples : ℕ
  byteorder : ℤ
  sampletype : Char
  dataquality : Char

/-- What `msr_pack` does to a record, how many samples it reports as packed, and what it returns. -/
structure PackResult where
  msr : MsRecord
  psamples : ℕ
  precords : ℤ

/-- `msr_pack(msr, .., &psamples, flush, ..)`. -/
abbrev MsrPack := MsRecord → Bool → PackResult

/-- The samples in the buffer. -/
def MsRecord.content (msr : MsRecord) : List Int32 := (msr.datasamples.getD []).take msr.numsamples

/-- A call of `msr_pack`: what it is handed and how much of it it packs. -/
structure Handed where
  samprate : ℚ
  starttime : ℚ
  samples : List Int32
  psamples : ℕ

/-- The samples that are packed. -/
def Handed.packed (c : Handed) : List Int32 := c.samples.take c.psamples

/-- The call of `msr_pack` on a record. -/
def handOver (msrPack : MsrPack) (msr : MsRecord) (flush : Bool) : Handed :=
  ⟨msr.samprate, msr.starttime, msr.content, (msrPack msr flush).psamples⟩

/-- A buffer with the samples of a packet only. -/
def newBuffer (pd : NmxpDataProcess ℚ) (msr : MsRecord) : MsRecord :=
  { msr with
    starttime := pd.time
    datasamples := some pd.samples
    numsamples := pd.nSamp.toInt.toNat }

/-- The samples of a packet behind those in the buffer. -/
def addSamples (pd : NmxpDataProcess ℚ) (msr : MsRecord) : MsRecord :=
  { msr with
    datasamples := some (msr.content ++ pd.samples)
    numsamples := msr.numsamples + pd.nSamp.toInt.toNat }

/-- The loop that shifts the samples that were not packed to the front. -/
def shiftDown (psamples numsamples : ℕ) (datasamples : List Int32) : List Int32 :=
  (List.range (numsamples - psamples)).foldl
    (fun ptr i => ptr.set i (ptr.getD (i + psamples) 0)) datasamples

/-- What is done about the samples that `msr_pack` reports as packed. -/
def removePacked (r : PackResult) : MsRecord :=
  if r.precords = -1 then r.msr
  else if r.psamples > 0 then
    if r.psamples = r.msr.numsamples then { r.msr with datasamples := none, numsamples := 0 }
    else if r.psamples < r.msr.numsamples then
      { r.msr with
        datasamples := r.msr.datasamples.map (shiftDown r.psamples r.msr.numsamples)
        numsamples := r.msr.numsamples - r.psamples }
    else r.msr
  else r.msr

/-- `expected_next_time`. -/
def expectedNextTime (msr : MsRecord) : ℚ := msr.starttime + msr.numsamples * (1 / msr.samprate)

/-- The fields of the record that are set whatever is in the buffer. -/
def setFields (qualityIndicator : Char) (pd : NmxpDataProcess ℚ) (msr : MsRecord) : MsRecord :=
  { msr with
    byteorder := 1
    sampletype := 'i'
    dataquality := qualityIndicator
    samprate := pd.sampRate.toInt }

/-- The samples of a packet enter the buffer, which is flushed first if they do not follow. -/
def fillBuffer (msrPack : MsrPack) (pd : NmxpDataProcess ℚ) (msr : MsRecord) :
    MsRecord × List Handed :=
  if msr.datasamples = none then (newBuffer pd msr, [])
  else if |pd.time - expectedNextTime msr| < |1 / (2 * msr.samprate)| then (addSamples pd msr, [])
  else (newBuffer pd (msrPack msr true).msr, [handOver msrPack msr true])

/-- The record is packed without flushing. -/
def packFront (msrPack : MsrPack) (r : MsRecord × List Handed) : MsRecord × List Handed :=
  (removePacked (msrPack r.1 false), r.2 ++ [handOver msrPack r.1 false])

/-- `nmxp_data_msr_pack`, and the calls of `msr_pack` it makes. -/
def nmxpDataMsrPack (msrPack : MsrPack) (qualityIndicator : Char)
    (pd : Option (NmxpDataProcess ℚ)) (msr : MsRecord) : MsRecord × List Handed :=
  match pd with
  | some pd => packFront msrPack (fillBuffer msrPack pd (setFields qualityIndicator pd msr))
  | none =>
    let msr := { msr with byteorder := 1, sampletype := 'i' }
    if msr.datasamples = none then (msr, [])
    else ({ (msrPack msr true).msr with datasamples := none, numsamples := 0 },
      [handOver msrPack msr true])

/-! ### What is documented of `msr_pack` -/

/-- `msr_pack` does not fail on samples, packs all of them when it flushes, a prefix otherwise, and
leaves the buffer as it is. -/
structure MsrPackOK (msrPack : MsrPack) : Prop where
  returns : ∀ msr flush, 0 < msr.numsamples → (msrPack msr flush).precords ≠ -1
  flush_all : ∀ msr, (msrPack msr true).psamples = msr.numsamples
  psamples_le : ∀ msr, (msrPack msr false).psamples ≤ msr.numsamples
  datasamples : ∀ msr flush, (msrPack msr flush).msr.datasamples = msr.datasamples
  numsamples : ∀ msr flush, (msrPack msr flush).msr.numsamples = msr.numsamples

/-- `msr_pack` advances the start time by the samples it packs, at the rate of the record. -/
structure AdvancesTime (msrPack : MsrPack) : Prop where
  samprate : ∀ msr flush, (msrPack msr flush).msr.samprate = msr.samprate
  starttime : ∀ msr flush, (msrPack msr flush).msr.starttime =
    msr.starttime + (msrPack msr flush).psamples / msr.samprate

/-! ### Runs -/

/-- A sample with its own time and sampling rate. -/
structure Tagged where
  sample : Int32
  time : ℚ
  rate : ℚ

/-- The samples of a packet, with the times and the rate the packet gives them. -/
def tags (pd : NmxpDataProcess ℚ) : List Tagged :=
  pd.samples.mapIdx fun i x => ⟨x, pd.time + i / pd.sampRate.toInt, pd.sampRate.toInt⟩

/-- One call for the channel: a packet or the closing call, and what `msr_pack` does in it. -/
structure PackCall where
  pd : Option (NmxpDataProcess ℚ)
  qualityIndicator : Char
  msrPack : MsrPack

/-- The tags of what is passed in a call. -/
def PackCall.tags (call : PackCall) : List Tagged := (call.pd.map Pack.tags).getD []

/-- A run so far: the record, all samples passed, and all samples reported as packed. -/
structure PackRun where
  msr : MsRecord
  passed : List Tagged
  packed : List Int32

/-- The calls of `msr_pack` that a call makes. -/
def PackRun.calls (s : PackRun) (call : PackCall) : List Handed :=
  (nmxpDataMsrPack call.msrPack call.qualityIndicator call.pd s.msr).2

def packStep (s : PackRun) (call : PackCall) : PackRun where
  msr := (nmxpDataMsrPack call.msrPack call.qualityIndicator call.pd s.msr).1
  passed := s.passed ++ call.tags
  packed := s.packed ++ (s.calls call).flatMap Handed.packed

/-- A record with an empty buffer, at the start of a run. -/
def PackRun.start (msr : MsRecord) : PackRun := ⟨msr, [], []⟩

/-- A packet with samples, its array as long as it says. -/
structure HasSamples (pd : NmxpDataProcess ℚ) : Prop where
  nSamp_pos : 1 ≤ pd.nSamp.toInt
  samples : (pd.samples.length : ℤ) = pd.nSamp.toInt

/-! ### The buffer -/

theorem length_shiftLoop (ps : ℕ) (data : List Int32) (k : ℕ) :
    ((List.range k).foldl (fun ptr i => ptr.set i (ptr.getD (i + ps) 0)) data).length =
      data.length := by
  induction k with
  | zero => rfl
  | succ k ih =>
    rw [List.range_succ, List.foldl_append, List.foldl_cons, List.foldl_nil, List.length_set, ih]

/-- After `k` rounds the first `k` places hold what stood `ps` places further; the rest is as it
was, so the next round still reads the original. -/
theorem getElem?_shiftLoop {ps : ℕ} (hps : 0 < ps) (data : List Int32) {k : ℕ}
    (hk : k + ps ≤ data.length) (j : ℕ) :
    ((List.range k).foldl (fun ptr i => ptr.set i (ptr.getD (i + ps) 0)) data)[j]? =
      if j < k then data[j + ps]? else data[j]? := by
  induction k generalizing j with
  | zero => simp
  | succ k ih =>
    have ih := ih (by omega)
    have hread : ((List.range k).foldl (fun ptr i => ptr.set i (ptr.getD (i + ps) 0)) data).getD
        (k + ps) 0 = data.getD (k + ps) 0 := by
      rw [List.getD_eq_getElem?_getD, ih (k + ps), if_neg (by omega), ← List.getD_eq_getElem?_getD]
    rw [List.range_succ, List.foldl_append, List.foldl_cons, List.foldl_nil, hread,
      List.getElem?_set, length_shiftLoop, ih j]
    by_cases hj : k = j
    · subst hj
      rw [if_pos rfl, if_pos (by omega), if_pos (by omega), List.getD_eq_getElem?_getD,
        List.getElem?_eq_getElem (by omega : k + ps < data.length)]
      rfl
    · rw [if_neg hj]
      by_cases hlt : j < k
      · rw [if_pos hlt, if_pos (by omega)]
      · rw [if_neg hlt, if_neg (by omega)]

/-- **The shift** drops the packed samples from the buffer. -/
theorem take_shiftDown {ps n : ℕ} (hps : 0 < ps) (hn : ps ≤ n) {data : List Int32}
    (hd : n ≤ data.length) :
    (shiftDown ps n data).take (n - ps) = (data.take n).drop ps := by
  apply List.ext_getElem?
  intro j
  rw [List.getElem?_drop]
  by_cases hj : j < n - ps
  · rw [List.getElem?_take_of_lt hj, List.getElem?_take_of_lt (by omega), shiftDown,
      getElem?_shiftLoop hps data (by omega), if_pos hj, Nat.add_comm]
  · rw [List.getElem?_take_eq_none (by omega), List.getElem?_take_eq_none (by omega)]

/-- The buffer is NULL and empty, or an array with at least as many samples as counted, and some. -/
structure BufferOK (msr : MsRecord) : Prop where
  empty : msr.datasamples = none → msr.numsamples = 0
  filled : ∀ data, msr.datasamples = some data → 0 < msr.numsamples ∧ msr.numsamples ≤ data.length

theorem BufferOK.length_content {msr : MsRecord} (h : BufferOK msr) :
    msr.content.length = msr.numsamples := by
  unfold MsRecord.content
  cases hd : msr.datasamples with
  | none => simp [h.empty hd]
  | some data => simpa using (h.filled data hd).2

theorem content_of_none {msr : MsRecord} (h : msr.datasamples = none) : msr.content = [] := by
  simp [MsRecord.content, h]

theorem HasSamples.length {pd : NmxpDataProcess ℚ} (h : HasSamples pd) :
    pd.samples.length = pd.nSamp.toInt.toNat := by
  have := h.samples
  omega

section Buffer
variable {pd : NmxpDataProcess ℚ} (hpd : HasSamples pd)
include hpd

theorem bufferOK_newBuffer (msr : MsRecord) : BufferOK (newBuffer pd msr) := by
  refine ⟨fun h => absurd h (by simp [newBuffer]), fun data h => ?_⟩
  cases Option.some.inj h
  have := hpd.nSamp_pos
  exact ⟨by show 0 < pd.nSamp.toInt.toNat; omega, hpd.length.ge⟩

theorem content_newBuffer (msr : MsRecord) : (newBuffer pd msr).content = pd.samples :=
  List.take_of_length_le hpd.length.le

theorem bufferOK_addSamples {msr : MsRecord} (h : BufferOK msr) : BufferOK (addSamples pd msr) := by
  refine ⟨fun h => absurd h (by simp [addSamples]), fun data hd => ?_⟩
  cases Option.some.inj hd
  have := hpd.nSamp_pos
  refine ⟨by show 0 < msr.numsamples + pd.nSamp.toInt.toNat; omega, ?_⟩
  rw [List.length_append, h.length_content, hpd.length]
  exact le_rfl

theorem content_addSamples {msr : MsRecord} (h : BufferOK msr) :
    (addSamples pd msr).content = msr.content ++ pd.samples := by
  refine List.take_of_length_le ?_
  show (msr.content ++ pd.samples).length ≤ msr.numsamples + pd.nSamp.toInt.toNat
  rw [List.length_append, h.length_content, hpd.length]

end Buffer

section RemovePacked
variable {msrPack : MsrPack} (hok : MsrPackOK msrPack) {msr : MsRecord} (h : BufferOK msr)
include hok h

/-- **What was packed leaves the buffer**, and nothing else. -/
theorem removePacked_ok (hpos : 0 < msr.numsamples) :
    BufferOK (removePacked (msrPack msr false)) ∧
      (removePacked (msrPack msr false)).content =
        msr.content.drop (msrPack msr false).psamples := by
  have hd := hok.datasamples msr false
  have hn := hok.numsamples msr false
  have hle := hok.psamples_le msr
  have hcontent : (msrPack msr false).msr.content = msr.content := by
    unfold MsRecord.content
    rw [hd, hn]
  have hbuf : BufferOK (msrPack msr false).msr := ⟨by rw [hd, hn]; exact h.empty,
    by rw [hd, hn]; exact h.filled⟩
  unfold removePacked
  rw [if_neg (hok.returns msr false hpos), hn]
  by_cases hps : (msrPack msr false).psamples > 0
  swap
  · have h0 : (msrPack msr false).psamples = 0 := by omega
    rw [if_neg hps, h0, List.drop_zero]
    exact ⟨hbuf, hcontent⟩
  rw [if_pos hps]
  by_cases hall : (msrPack msr false).psamples = msr.numsamples
  · rw [if_pos hall, hall]
    refine ⟨⟨fun _ => rfl, fun data hdata => absurd hdata (by simp)⟩, ?_⟩
    rw [List.drop_of_length_le h.length_content.le]
    rfl
  rw [if_neg hall, if_pos (by omega)]
  cases hdata : msr.datasamples with
  | none => exact absurd (h.empty hdata) (by omega)
  | some data =>
    rw [hd, hdata]
    obtain ⟨-, hlen⟩ := h.filled data hdata
    refine ⟨⟨fun hnone => absurd hnone (by simp), fun data' hdata' => ?_⟩, ?_⟩
    · cases Option.some.inj hdata'
      have : (shiftDown (msrPack msr false).psamples msr.numsamples data).length = data.length :=
        length_shiftLoop _ _ _
      exact ⟨by show 0 < msr.numsamples - _; omega, by
        show msr.numsamples - _ ≤ _
        rw [this]
        omega⟩
    · unfold MsRecord.content
      rw [hdata]
      exact take_shiftDown hps hle hlen

end RemovePacked

theorem starttime_removePacked (r : PackResult) :
    (removePacked r).starttime = r.msr.starttime := by
  unfold removePacked
  split_ifs <;> rfl

theorem samprate_removePacked (r : PackResult) : (removePacked r).samprate = r.msr.samprate := by
  unfold removePacked
  split_ifs <;> rfl

/-! ### What a call does -/

/-- **All that a packet can do to the buffer**: start it, add to it, or have it flushed and start
another. -/
theorem fillBuffer_cases (msrPack : MsrPack) (pd : NmxpDataProcess ℚ) (msr : MsRecord) :
    (msr.datasamples = none ∧ fillBuffer msrPack pd msr = (newBuffer pd msr, [])) ∨
    (msr.datasamples ≠ none ∧ |pd.time - expectedNextTime msr| < |1 / (2 * msr.samprate)| ∧
      fillBuffer msrPack pd msr = (addSamples pd msr, [])) ∨
    (msr.datasamples ≠ none ∧ fillBuffer msrPack pd msr =
      (newBuffer pd (msrPack msr true).msr, [handOver msrPack msr true])) := by
  unfold fillBuffer
  by_cases hd : msr.datasamples = none
  · exact Or.inl ⟨hd, if_pos hd⟩
  · rw [if_neg hd]
    by_cases hnear : |pd.time - expectedNextTime msr| < |1 / (2 * msr.samprate)|
    · exact Or.inr (Or.inl ⟨hd, hnear, if_pos hnear⟩)
    · exact Or.inr (Or.inr ⟨hd, if_neg hnear⟩)

/-- The samples of a packet passed in a call. -/
def PackCall.samples (call : PackCall) : List Int32 :=
  (call.pd.map NmxpDataProcess.samples).getD []

/-- What a run passes: packets that have samples, and an `msr_pack` that does as documented. -/
structure CallOK (call : PackCall) : Prop where
  packet : ∀ pd, call.pd = some pd → HasSamples pd
  msrPack : MsrPackOK call.msrPack

section Conserve
variable {msr : MsRecord} (h : BufferOK msr)
include h

theorem bufferOK_setFields (q : Char) (pd : NmxpDataProcess ℚ) : BufferOK (setFields q pd msr) :=
  ⟨h.empty, h.filled⟩

omit h in
theorem packed_flush {msrPack : MsrPack} (hok : MsrPackOK msrPack) (msr : MsRecord) :
    (handOver msrPack msr true).packed = msr.content := by
  show msr.content.take (msrPack msr true).psamples = _
  rw [hok.flush_all]
  exact List.take_of_length_le (List.length_take_le _ _)

/-- Filling the buffer conserves the samples, and leaves some. -/
theorem fillBuffer_ok {msrPack : MsrPack} (hok : MsrPackOK msrPack) {pd : NmxpDataProcess ℚ}
    (hpd : HasSamples pd) :
    BufferOK (fillBuffer msrPack pd msr).1 ∧ 0 < (fillBuffer msrPack pd msr).1.numsamples ∧
      (fillBuffer msrPack pd msr).2.flatMap Handed.packed ++ (fillBuffer msrPack pd msr).1.content =
        msr.content ++ pd.samples := by
  have hpos : 0 < pd.nSamp.toInt.toNat := by have := hpd.nSamp_pos; omega
  rcases fillBuffer_cases msrPack pd msr with ⟨hd, heq⟩ | ⟨hd, -, heq⟩ | ⟨hd, heq⟩
  · rw [heq]
    refine ⟨bufferOK_newBuffer hpd msr, hpos, ?_⟩
    rw [content_newBuffer hpd, content_of_none hd]
    rfl
  · rw [heq]
    refine ⟨bufferOK_addSamples hpd h, Nat.add_pos_right _ hpos, ?_⟩
    rw [content_addSamples hpd h]
    rfl
  · rw [heq]
    refine ⟨bufferOK_newBuffer hpd _, hpos, ?_⟩
    rw [content_newBuffer hpd, List.flatMap_singleton, packed_flush hok]

/-- Packing without flushing packs a prefix of the buffer and keeps the rest. -/
theorem packFront_ok {msrPack : MsrPack} (hok : MsrPackOK msrPack) (hpos : 0 < msr.numsamples)
    (calls : List Handed) :
    BufferOK (packFront msrPack (msr, calls)).1 ∧
      (packFront msrPack (msr, calls)).2.flatMap Handed.packed ++
        (packFront msrPack (msr, calls)).1.content =
          calls.flatMap Handed.packed ++ msr.content := by
  obtain ⟨hbuf, hcontent⟩ := removePacked_ok hok h hpos
  refine ⟨hbuf, ?_⟩
  unfold packFront
  dsimp only
  rw [hcontent, List.flatMap_append, List.flatMap_singleton, List.append_assoc]
  congr 1
  exact List.take_append_drop _ _

/-- **A call conserves the samples**: what it packs and what it leaves in the buffer is what was in
the buffer and what is passed. -/
theorem pack_ok {call : PackCall} (hc : CallOK call) :
    BufferOK (nmxpDataMsrPack call.msrPack call.qualityIndicator call.pd msr).1 ∧
      (nmxpDataMsrPack call.msrPack call.qualityIndicator call.pd msr).2.flatMap Handed.packed ++
        (nmxpDataMsrPack call.msrPack call.qualityIndicator call.pd msr).1.content =
      msr.content ++ call.samples := by
  obtain ⟨opd, q, msrPack⟩ := call
  obtain ⟨hpacket, hok⟩ := hc
  dsimp only at hpacket hok ⊢
  cases opd with
  | none =>
    show _ ∧ _ = msr.content ++ []
    rw [List.append_nil]
    unfold nmxpDataMsrPack
    dsimp only
    by_cases hd : msr.datasamples = none
    · rw [if_pos hd]
      exact ⟨⟨h.empty, h.filled⟩, rfl⟩
    · rw [if_neg hd]
      refine ⟨⟨fun _ => rfl, fun data hdata => absurd hdata (by simp)⟩, ?_⟩
      rw [List.flatMap_singleton, packed_flush hok]
      exact List.append_nil _
  | some pd =>
    show _ ∧ _ = msr.content ++ pd.samples
    obtain ⟨hfill, hpos, hcons⟩ := fillBuffer_ok (bufferOK_setFields h q pd) hok (hpacket pd rfl)
    obtain ⟨hbuf, hfront⟩ := packFront_ok hfill hok hpos
      (fillBuffer msrPack pd (setFields q pd msr)).2
    exact ⟨hbuf, hfront.trans hcons⟩

end Conserve

/-! ### Conservation -/

theorem bufferOK_of_empty {msr : MsRecord} (h0 : msr.datasamples = none)
    (h1 : msr.numsamples = 0) : BufferOK msr :=
  ⟨fun _ => h1, fun data hd => absurd (h0.symm.trans hd) (by simp)⟩

/-- What was packed and what is in the buffer is what was passed, all along a run. -/
theorem run_conserves {msr : MsRecord} (h : BufferOK msr) (hempty : msr.content = [])
    {calls : List PackCall} (hc : ∀ call ∈ calls, CallOK call) :
    BufferOK (calls.foldl packStep (.start msr)).msr ∧
      (calls.foldl packStep (.start msr)).packed ++
        (calls.foldl packStep (.start msr)).msr.content =
        calls.flatMap PackCall.samples := by
  have hC : Along packStep (fun _ call => CallOK call) (.start msr) calls :=
    fun done call rest he => hc call (by rw [he]; simp)
  refine foldl_inv (fun (s : PackRun) (done : List PackCall) => BufferOK s.msr ∧
    s.packed ++ s.msr.content = done.flatMap PackCall.samples) (fun s done call hinv hcall => ?_) []
    ⟨h, hempty⟩ hC
  obtain ⟨hbuf, hcons⟩ := pack_ok hinv.1 hcall
  refine ⟨hbuf, ?_⟩
  rw [List.flatMap_append, ← hinv.2, List.flatMap_singleton, List.append_assoc, ← hcons,
    ← List.append_assoc]
  rfl

/-- **Each sample is packed once and in order**, and the buffer is empty after the closing call. -/
theorem pack_conserves (msr : MsRecord) (h0 : msr.datasamples = none) (h1 : msr.numsamples = 0)
    (packets : List PackCall) (closing : PackCall)
    (hp : ∀ call ∈ packets, ∃ pd, call.pd = some pd ∧ HasSamples pd) (hc : closing.pd = none)
    (hok : ∀ call ∈ packets ++ [closing], MsrPackOK call.msrPack) :
    ((packets ++ [closing]).foldl packStep (.start msr)).packed =
      packets.flatMap PackCall.samples ∧
    ((packets ++ [closing]).foldl packStep (.start msr)).msr.datasamples = none ∧
    ((packets ++ [closing]).foldl packStep (.start msr)).msr.numsamples = 0 := by
  have hcalls : ∀ call ∈ packets ++ [closing], CallOK call := by
    intro call hmem
    refine ⟨fun pd hpd => ?_, hok call hmem⟩
    rcases List.mem_append.mp hmem with h | h
    · obtain ⟨pd', hpd', hs⟩ := hp call h
      rw [hpd] at hpd'
      cases Option.some.inj hpd'
      exact hs
    · rw [List.mem_singleton.mp h, hc] at hpd
      exact absurd hpd (by simp)
  obtain ⟨hbuf, hcons⟩ := run_conserves (bufferOK_of_empty h0 h1) (content_of_none h0) hcalls
  -- the closing call leaves no buffer
  have hnone : ((packets ++ [closing]).foldl packStep (.start msr)).msr.datasamples = none := by
    rw [List.foldl_append, List.foldl_cons, List.foldl_nil]
    generalize packets.foldl packStep (.start msr) = s
    show (nmxpDataMsrPack closing.msrPack closing.qualityIndicator closing.pd
      s.msr).1.datasamples = _
    rw [hc, nmxpDataMsrPack]
    dsimp only
    split_ifs with hd
    · exact hd
    · rfl
  refine ⟨?_, hnone, hbuf.empty hnone⟩
  rw [content_of_none hnone, List.append_nil] at hcons
  rw [hcons, List.flatMap_append, List.flatMap_singleton, PackCall.samples, hc]
  exact List.append_nil _

/-- An `msr_pack` with three samples to a record. -/
def packThree : MsrPack := fun msr flush =>
  let psamples := if flush then msr.numsamples else msr.numsamples / 3 * 3
  { msr := { msr with starttime := msr.starttime + psamples / msr.samprate }
    psamples := psamples
    precords := (psamples + 2) / 3 }

theorem msrPackOK_packThree : MsrPackOK packThree where
  returns := fun msr flush _ => by
    show ((_ : ℕ) + 2 : ℤ) / 3 ≠ -1
    omega
  flush_all := fun _ => rfl
  psamples_le := fun msr => Nat.div_mul_le_self msr.numsamples 3
  datasamples := fun _ _ => rfl
  numsamples := fun _ _ => rfl

/-- A packet. -/
def packetAt (time : ℚ) (sampRate : Int32) (samples : List Int32) : NmxpDataProcess ℚ :=
  { nmxpDataInit time with
    pDataPtr := some samples
    nSamp := Int32.ofInt samples.length
    sampRate := sampRate }

/-- A packet is passed. -/
def passPacket (time : ℚ) (sampRate : Int32) (samples : List Int32) : PackCall :=
  ⟨some (packetAt time sampRate samples), 'D', packThree⟩

/-- A record at the start. -/
def emptyRecord : MsRecord := ⟨0, 0, none, 0, 0, 'i', 'D'⟩

/-- The closing call. -/
def passNull : PackCall := ⟨none, 'D', packThree⟩

/-- Four samples, three of which are packed at once, then a gap, then two more samples. -/
theorem pack_conserves_gap :
    (([passPacket 0 10 [1, 2, 3, 4], passPacket 9 10 [5, 6]] ++ [passNull]).foldl packStep
      (.start emptyRecord)).packed = [1, 2, 3, 4, 5, 6] := by
  refine (pack_conserves emptyRecord rfl rfl [passPacket 0 10 [1, 2, 3, 4], passPacket 9 10 [5, 6]]
    passNull ?_ rfl ?_).1
  · intro call hmem
    simp only [List.mem_cons, List.not_mem_nil, or_false] at hmem
    rcases hmem with rfl | rfl
    · exact ⟨packetAt 0 10 [1, 2, 3, 4], rfl, by decide, rfl⟩
    · exact ⟨packetAt 9 10 [5, 6], rfl, by decide, rfl⟩
  · intro call hmem
    simp only [List.mem_append, List.mem_cons, List.not_mem_nil, or_false] at hmem
    rcases hmem with (rfl | rfl) | rfl
    all_goals exact msrPackOK_packThree

/-! ### Labels -/

/-- Every sample has the rate `samprate`, and its time is within half an interval of its place
behind `starttime`. -/
def Fits (starttime samprate : ℚ) (ts : List Tagged) : Prop :=
  ∀ (i : ℕ) (tag : Tagged), ts[i]? = some tag → samprate = tag.rate ∧
    |starttime + i / samprate - tag.time| < 1 / (2 * tag.rate)

/-- A call of `msr_pack` hands over the first samples of `ts`, with labels that fit. -/
structure LabelsOK (ts : List Tagged) (c : Handed) : Prop where
  samples : c.samples = (ts.take c.samples.length).map (·.sample)
  fits : Fits c.starttime c.samprate (ts.take c.samples.length)

/-- The calls of `msr_pack`, one after the other, hand over the samples `ts` that are not packed
yet with labels that fit. -/
def Labelled : List Tagged → List Handed → Prop
  | _, [] => True
  | ts, c :: cs => LabelsOK ts c ∧ Labelled (ts.drop c.psamples) cs

/-- The samples passed and not packed. -/
def PackRun.pending (s : PackRun) : List Tagged := s.passed.drop s.packed.length

/-- **A call labels all samples** that it hands to `msr_pack`. -/
def LabelsAll (s : PackRun) (call : PackCall) : Prop :=
  Labelled (s.pending ++ call.tags) (s.calls call)

/-- A packet that finds samples in the buffer has their rate. -/
def SameRate (s : PackRun) (call : PackCall) : Prop :=
  ∀ pd, call.pd = some pd → s.msr.datasamples ≠ none → (pd.sampRate.toInt : ℚ) = s.msr.samprate

namespace Fits
variable {starttime samprate : ℚ} {ts : List Tagged}

theorem take (h : Fits starttime samprate ts) (n : ℕ) : Fits starttime samprate (ts.take n) := by
  intro i tag hi
  rw [List.getElem?_take] at hi
  split_ifs at hi
  exact h i tag hi

/-- Behind the first `k` samples the labels go on. -/
theorem drop (h : Fits starttime samprate ts) (k : ℕ) :
    Fits (starttime + k / samprate) samprate (ts.drop k) := by
  intro i tag hi
  rw [List.getElem?_drop] at hi
  obtain ⟨hrate, hlt⟩ := h (k + i) tag hi
  refine ⟨hrate, ?_⟩
  have : starttime + k / samprate + i / samprate = starttime + (k + i : ℕ) / samprate := by
    push_cast
    ring
  rw [this]
  exact hlt

/-- Samples that follow within half an interval fit as well. -/
theorem append (h : Fits starttime samprate ts) {pd : NmxpDataProcess ℚ}
    (hrate : samprate = pd.sampRate.toInt) (hpos : 0 < samprate)
    (hnear : |pd.time - (starttime + ts.length * (1 / samprate))| < |1 / (2 * samprate)|) :
    Fits starttime samprate (ts ++ tags pd) := by
  intro i tag hi
  by_cases hlt : i < ts.length
  · rw [List.getElem?_append_left hlt] at hi
    exact h i tag hi
  · rw [List.getElem?_append_right (not_lt.mp hlt)] at hi
    obtain ⟨j, rfl⟩ := Nat.exists_eq_add_of_le (not_lt.mp hlt)
    rw [Nat.add_sub_cancel_left, tags, List.getElem?_mapIdx, Option.map_eq_some_iff] at hi
    obtain ⟨x, -, rfl⟩ := hi
    refine ⟨hrate, ?_⟩
    dsimp only
    rw [← hrate]
    have hgap : starttime + (ts.length + j : ℕ) / samprate - (pd.time + j / samprate) =
        -(pd.time - (starttime + ts.length * (1 / samprate))) := by
      push_cast
      ring
    have hhalf : (0 : ℚ) < 1 / (2 * samprate) := by positivity
    rw [hgap, abs_neg]
    rwa [abs_of_pos hhalf] at hnear

theorem nil (starttime samprate : ℚ) : Fits starttime samprate [] :=
  fun i tag hi => absurd hi (by simp)

end Fits

/-- A packet fits its own labels. -/
theorem fits_tags {pd : NmxpDataProcess ℚ} (hpos : 0 < pd.sampRate.toInt) :
    Fits pd.time pd.sampRate.toInt (tags pd) := by
  have hrate : (0 : ℚ) < pd.sampRate.toInt := Int.cast_pos.mpr hpos
  intro i tag hi
  rw [tags, List.getElem?_mapIdx, Option.map_eq_some_iff] at hi
  obtain ⟨x, -, rfl⟩ := hi
  refine ⟨rfl, ?_⟩
  dsimp only
  rw [sub_self, abs_zero]
  positivity

theorem sample_tags (pd : NmxpDataProcess ℚ) : (tags pd).map (·.sample) = pd.samples := by
  apply List.ext_getElem?
  intro i
  rw [tags, List.getElem?_map, List.getElem?_mapIdx, Option.map_map]
  cases pd.samples[i]? <;> rfl

theorem tags_samples (call : PackCall) : call.tags.map (·.sample) = call.samples := by
  unfold PackCall.tags PackCall.samples
  cases call.pd with
  | none => rfl
  | some pd => exact sample_tags pd

/-! ### Labels along a run -/

/-- A call of the domain: a packet has samples and a rate, `msr_pack` does as documented. -/
structure LabelCallOK (call : PackCall) : Prop extends CallOK call where
  rate : ∀ pd, call.pd = some pd → 0 < pd.sampRate.toInt
  advances : AdvancesTime call.msrPack

/-- **The invariant**: the buffer holds the samples that are not packed yet, and its start time and
rate label them. -/
structure RunOK (s : PackRun) : Prop where
  buffer : BufferOK s.msr
  content : s.msr.content = s.pending.map (·.sample)
  packed_le : s.packed.length ≤ s.passed.length
  fits : Fits s.msr.starttime s.msr.samprate s.pending
  rate : s.pending ≠ [] → 0 < s.msr.samprate

/-- What a call leaves pending is what was pending and is passed, less what it packs. -/
theorem pending_packStep {s : PackRun} (h : s.packed.length ≤ s.passed.length) (call : PackCall) :
    (packStep s call).pending = (s.pending ++ call.tags).drop
      ((s.calls call).flatMap Handed.packed).length := by
  unfold PackRun.pending
  show (s.passed ++ call.tags).drop (s.packed ++ _).length = _
  rw [List.length_append, ← List.drop_drop, List.drop_append_of_le_length h]

/-- What a call promises about the samples `ts` that it may pack: the calls of `msr_pack` label
them, and the record labels those that are left. -/
structure LabelsStep (ts : List Tagged) (r : MsRecord × List Handed) : Prop where
  labelled : Labelled ts r.2
  fits : Fits r.1.starttime r.1.samprate (ts.drop (r.2.flatMap Handed.packed).length)
  rate : ts.drop (r.2.flatMap Handed.packed).length ≠ [] → 0 < r.1.samprate

/-- Packing without flushing keeps the labels of the buffer. -/
theorem labels_packFront {msrPack : MsrPack} (hok : MsrPackOK msrPack)
    (hadv : AdvancesTime msrPack) {msr : MsRecord} (h : BufferOK msr) {ts : List Tagged}
    (hts : msr.content = ts.map (·.sample)) (hfits : Fits msr.starttime msr.samprate ts)
    (hrate : 0 < msr.samprate) : LabelsStep ts (packFront msrPack (msr, [])) := by
  have hlen : msr.content.length = ts.length := by rw [hts, List.length_map]
  have hall : ts.take msr.content.length = ts := List.take_of_length_le (by rw [hlen])
  have hpacked : (handOver msrPack msr false).packed.length = (msrPack msr false).psamples := by
    show (msr.content.take (msrPack msr false).psamples).length = _
    rw [List.length_take, h.length_content]
    exact min_eq_left (hok.psamples_le msr)
  have hcalls : (packFront msrPack (msr, [])).2 = [handOver msrPack msr false] := rfl
  have hrec : (packFront msrPack (msr, [])).1 = removePacked (msrPack msr false) := rfl
  have hrate' : (removePacked (msrPack msr false)).samprate = msr.samprate := by
    rw [samprate_removePacked, hadv.samprate]
  refine ⟨?_, ?_, fun _ => by rw [hrec, hrate']; exact hrate⟩
  · rw [hcalls]
    refine ⟨⟨?_, ?_⟩, trivial⟩
    · show msr.content = (ts.take msr.content.length).map _
      rw [hall]
      exact hts
    · show Fits msr.starttime msr.samprate (ts.take msr.content.length)
      rw [hall]
      exact hfits
  · rw [hcalls, hrec, hrate', starttime_removePacked, hadv.starttime, List.flatMap_singleton,
      hpacked]
    exact hfits.drop _

/-- Behind a flush of the samples `old`, what holds of `ts` holds of both. -/
theorem LabelsStep.behind {msrPack : MsrPack} {msr : MsRecord} {old ts : List Tagged}
    {flushed : Handed} (h : LabelsStep ts (packFront msrPack (msr, [])))
    (hflush : LabelsOK (old ++ ts) flushed) (hlen : flushed.packed.length = old.length)
    (hps : flushed.psamples = old.length) :
    LabelsStep (old ++ ts) (packFront msrPack (msr, [flushed])) := by
  have hcalls : (packFront msrPack (msr, [flushed])).2 =
      flushed :: (packFront msrPack (msr, [])).2 := rfl
  have hdrop : (old ++ ts).drop
      ((packFront msrPack (msr, [flushed])).2.flatMap Handed.packed).length =
      ts.drop ((packFront msrPack (msr, [])).2.flatMap Handed.packed).length := by
    rw [hcalls, List.flatMap_cons, List.length_append, hlen, ← List.drop_drop, List.drop_left]
  refine ⟨?_, ?_, ?_⟩
  · rw [hcalls]
    refine ⟨hflush, ?_⟩
    rw [hps, List.drop_left]
    exact h.labelled
  · rw [hdrop]
    exact h.fits
  · rw [hdrop]
    exact h.rate

/-- The flush hands over what is in the buffer. -/
theorem labels_flush (msrPack : MsrPack) (msr : MsRecord) {ts : List Tagged}
    (hts : msr.content = ts.map (·.sample)) (hfits : Fits msr.starttime msr.samprate ts)
    (later : List Tagged) : LabelsOK (ts ++ later) (handOver msrPack msr true) := by
  have hlen : msr.content.length = ts.length := by rw [hts, List.length_map]
  have hall : (ts ++ later).take msr.content.length = ts := by
    rw [hlen, List.take_left]
  refine ⟨?_, ?_⟩
  · show msr.content = ((ts ++ later).take msr.content.length).map _
    rw [hall]
    exact hts
  · show Fits msr.starttime msr.samprate ((ts ++ later).take msr.content.length)
    rw [hall]
    exact hfits

/-- A new buffer has the labels of its packet. -/
theorem labels_newBuffer {msrPack : MsrPack} (hok : MsrPackOK msrPack)
    (hadv : AdvancesTime msrPack) {pd : NmxpDataProcess ℚ} (hpd : HasSamples pd)
    (hpos : 0 < pd.sampRate.toInt) {msr : MsRecord} (hrate : msr.samprate = pd.sampRate.toInt) :
    LabelsStep (tags pd) (packFront msrPack (newBuffer pd msr, [])) := by
  refine labels_packFront hok hadv (bufferOK_newBuffer hpd msr) ?_ ?_ ?_
  · rw [content_newBuffer hpd, sample_tags]
  · show Fits pd.time msr.samprate (tags pd)
    rw [hrate]
    exact fits_tags hpos
  · show 0 < msr.samprate
    rw [hrate]
    exact Int.cast_pos.mpr hpos

namespace RunOK
variable {s : PackRun} (h : RunOK s)
include h

theorem length_pending : s.pending.length = s.msr.numsamples := by
  rw [← h.buffer.length_content, h.content, List.length_map]

/-- The closing call hands over what is pending. -/
theorem labels_closing {msrPack : MsrPack} (hok : MsrPackOK msrPack) (q : Char) :
    LabelsStep s.pending (nmxpDataMsrPack msrPack q none s.msr) := by
  rw [nmxpDataMsrPack]
  dsimp only
  by_cases hd : s.msr.datasamples = none
  · rw [if_pos hd]
    exact ⟨trivial, h.fits, h.rate⟩
  · rw [if_neg hd]
    have hflush := labels_flush msrPack { s.msr with byteorder := 1, sampletype := 'i' }
      h.content h.fits []
    rw [List.append_nil] at hflush
    have hempty : s.pending.drop ([handOver msrPack { s.msr with
        byteorder := 1, sampletype := 'i' } true].flatMap Handed.packed).length = [] := by
      rw [List.flatMap_singleton, packed_flush hok]
      refine List.drop_of_length_le ?_
      show _ ≤ s.msr.content.length
      rw [h.buffer.length_content, h.length_pending]
    refine ⟨⟨hflush, trivial⟩, ?_, fun hne => absurd hempty hne⟩
    dsimp only
    rw [hempty]
    exact Fits.nil _ _

/-- A packet of the rate of what is pending. -/
theorem labels_packet {msrPack : MsrPack} (hok : MsrPackOK msrPack)
    (hadv : AdvancesTime msrPack) (q : Char) {pd : NmxpDataProcess ℚ} (hpd : HasSamples pd)
    (hpos : 0 < pd.sampRate.toInt)
    (hrate : s.msr.datasamples ≠ none → (pd.sampRate.toInt : ℚ) = s.msr.samprate) :
    LabelsStep (s.pending ++ tags pd) (nmxpDataMsrPack msrPack q (some pd) s.msr) := by
  have hset := bufferOK_setFields h.buffer q pd
  have hfits : s.msr.datasamples ≠ none →
      Fits s.msr.starttime pd.sampRate.toInt s.pending := fun hd => by
    rw [hrate hd]
    exact h.fits
  show LabelsStep _ (packFront msrPack (fillBuffer msrPack pd _))
  rcases fillBuffer_cases msrPack pd (setFields q pd s.msr) with
    ⟨hd, heq⟩ | ⟨hd, hnear, heq⟩ | ⟨hd, heq⟩
  · -- the buffer was empty
    have hpend : s.pending = [] := by
      have hnil : s.msr.content = [] := content_of_none hd
      rw [h.content] at hnil
      exact List.map_eq_nil_iff.mp hnil
    rw [heq, hpend, List.nil_append]
    exact labels_newBuffer hok hadv hpd hpos rfl
  · -- the packet follows what is in the buffer
    have hr : (0 : ℚ) < pd.sampRate.toInt := Int.cast_pos.mpr hpos
    rw [heq]
    refine labels_packFront hok hadv (bufferOK_addSamples hpd hset) ?_ ?_ hr
    · rw [content_addSamples hpd hset, List.map_append, sample_tags, ← h.content]
      rfl
    · refine (hfits hd).append rfl hr ?_
      rw [h.length_pending]
      exact hnear
  · -- the buffer is flushed first
    rw [heq]
    have hrate' : (msrPack (setFields q pd s.msr) true).msr.samprate = pd.sampRate.toInt := by
      rw [hadv.samprate]
      rfl
    refine (labels_newBuffer hok hadv hpd hpos hrate').behind
      (labels_flush msrPack (setFields q pd s.msr) h.content (hfits hd) (tags pd)) ?_ ?_
    · rw [packed_flush hok, h.length_pending]
      exact hset.length_content
    · rw [h.length_pending]
      exact hok.flush_all _

variable {call : PackCall} (hc : LabelCallOK call)
include hc

/-- The buffer after a call holds what is pending then. -/
theorem content_packStep : BufferOK (packStep s call).msr ∧
    (packStep s call).msr.content = (packStep s call).pending.map (·.sample) ∧
    (packStep s call).packed.length ≤ (packStep s call).passed.length := by
  obtain ⟨hbuf, hcons⟩ := pack_ok h.buffer hc.toCallOK
  have hall : (s.calls call).flatMap Handed.packed ++ (packStep s call).msr.content =
      (s.pending ++ call.tags).map (·.sample) := by
    rw [List.map_append, ← h.content, tags_samples]
    exact hcons
  refine ⟨hbuf, ?_, ?_⟩
  · rw [pending_packStep h.packed_le, List.map_drop, ← hall, List.drop_left]
  · have hlen := congrArg List.length hall
    rw [List.length_append, List.length_map, List.length_append] at hlen
    unfold PackRun.pending at hlen
    rw [List.length_drop] at hlen
    show (s.packed ++ _).length ≤ (s.passed ++ _).length
    rw [List.length_append, List.length_append]
    have := h.packed_le
    omega

/-- **A packet of the buffer's rate**: all samples handed over are labelled, and the labels of the
buffer stay right. -/
theorem labels_pack (hrate : SameRate s call) : LabelsStep (s.pending ++ call.tags)
    (nmxpDataMsrPack call.msrPack call.qualityIndicator call.pd s.msr) := by
  obtain ⟨opd, q, msrPack⟩ := call
  cases opd with
  | none =>
    show LabelsStep (s.pending ++ []) _
    rw [List.append_nil]
    exact h.labels_closing hc.msrPack q
  | some pd =>
    exact h.labels_packet hc.msrPack hc.advances q (hc.packet pd rfl) (hc.rate pd rfl)
      (hrate pd rfl)

/-- **The invariant is kept**, and the call labels all samples. -/
theorem step (hrate : SameRate s call) : LabelsAll s call ∧ RunOK (packStep s call) := by
  obtain ⟨hbuf, hcontent, hle⟩ := h.content_packStep hc
  obtain ⟨hlabels, hfits, hpos⟩ := h.labels_pack hc hrate
  refine ⟨hlabels, hbuf, hcontent, hle, ?_, ?_⟩
  · rw [pending_packStep h.packed_le]
    exact hfits
  · rw [pending_packStep h.packed_le]
    exact hpos

/-- **A packet of another rate** mislabels what is in the buffer: the rate of the record changes
before the buffer is handed over. -/
theorem sameRate_of_labelsAll (hl : LabelsAll s call) : SameRate s call := by
  intro pd hpd hd
  obtain ⟨opd, q, msrPack⟩ := call
  cases hpd
  have hcontent := h.content
  -- the first sample in the buffer
  cases hpend : s.pending with
  | nil =>
    rw [hpend, List.map_nil] at hcontent
    obtain ⟨data, hdata⟩ := Option.ne_none_iff_exists'.mp hd
    have := h.buffer.length_content
    rw [hcontent] at this
    exact absurd (h.buffer.filled data hdata).1 (by rw [← this]; exact lt_irrefl 0)
  | cons tag rest =>
    have hfirst : ∀ c cs, (s.calls ⟨some pd, q, msrPack⟩) = c :: cs →
        c.samprate = pd.sampRate.toInt → 0 < c.samples.length →
        (pd.sampRate.toInt : ℚ) = s.msr.samprate := by
      intro c cs heq hcr hlen
      unfold LabelsAll at hl
      rw [heq, hpend] at hl
      have h1 := hl.1.fits 0 tag (by
        rw [List.getElem?_take_of_lt hlen]
        rfl)
      have h2 := h.fits 0 tag (by rw [hpend]; rfl)
      rw [← hcr, h1.1, h2.1]
    have hpos : 0 < s.msr.content.length := by
      rw [hcontent, hpend, List.map_cons, List.length_cons]
      exact Nat.succ_pos _
    have hset := bufferOK_setFields h.buffer q pd
    rcases fillBuffer_cases msrPack pd (setFields q pd s.msr) with
      ⟨hnone, -⟩ | ⟨-, -, heq⟩ | ⟨-, heq⟩
    · exact absurd hnone hd
    · refine hfirst (handOver msrPack (addSamples pd (setFields q pd s.msr)) false) [] ?_ rfl ?_
      · show (packFront msrPack (fillBuffer msrPack pd _)).2 = _
        rw [heq]
        rfl
      · show 0 < (addSamples pd (setFields q pd s.msr)).content.length
        rw [content_addSamples (hc.packet pd rfl) hset, List.length_append]
        exact Nat.add_pos_left hpos _
    · refine hfirst (handOver msrPack (setFields q pd s.msr) true)
        [handOver msrPack (newBuffer pd (msrPack (setFields q pd s.msr) true).msr) false]
        ?_ rfl hpos
      show (packFront msrPack (fillBuffer msrPack pd _)).2 = _
      rw [heq]
      rfl

end RunOK

/-- At the start nothing is pending. -/
theorem runOK_start (msr : MsRecord) (h0 : msr.datasamples = none) (h1 : msr.numsamples = 0) :
    RunOK (.start msr) :=
  ⟨bufferOK_of_empty h0 h1, content_of_none h0, le_rfl, Fits.nil _ _, fun hne => absurd rfl hne⟩

/-- **All samples are labelled** with their own rate and within half an interval of their time, in
every call of a run, iff no packet of another rate meets samples in the buffer. -/
theorem labels_iff (msr : MsRecord) (h0 : msr.datasamples = none) (h1 : msr.numsamples = 0)
    (calls : List PackCall) (hc : ∀ call ∈ calls, LabelCallOK call) :
    Along packStep LabelsAll (.start msr) calls ↔ Along packStep SameRate (.start msr) calls :=
  along_iff RunOK LabelCallOK (fun _ _ h hcall hrate => (h.step hcall hrate).2)
    (fun _ _ h hcall => ⟨h.sameRate_of_labelsAll hcall, fun hrate => (h.step hcall hrate).1⟩)
    (runOK_start msr h0 h1) hc

theorem advancesTime_packThree : AdvancesTime packThree := ⟨fun _ _ => rfl, fun _ _ => rfl⟩

theorem labelCallOK_passPacket {time : ℚ} {sampRate : Int32} {samples : List Int32}
    (hrate : 0 < sampRate.toInt) (h : HasSamples (packetAt time sampRate samples)) :
    LabelCallOK (passPacket time sampRate samples) :=
  ⟨⟨fun _ hpd => Option.some.inj hpd ▸ h, msrPackOK_packThree⟩,
    fun _ hpd => Option.some.inj hpd ▸ hrate, advancesTime_packThree⟩

/-- Two packets of one rate, the second a hundredth of a second late. -/
theorem labels_iff_one_rate : Along packStep LabelsAll (.start emptyRecord)
    [passPacket 0 10 [1, 2], passPacket (21 / 100) 10 [3, 4]] := by
  refine (labels_iff emptyRecord rfl rfl _ fun call hmem => ?_).mpr ?_
  · simp only [List.mem_cons, List.not_mem_nil, or_false] at hmem
    rcases hmem with rfl | rfl
    · exact labelCallOK_passPacket (by decide) ⟨by decide, rfl⟩
    · exact labelCallOK_passPacket (by decide) ⟨by decide, rfl⟩
  · rw [along_cons, along_cons]
    refine ⟨fun pd _ hd => absurd rfl hd, fun pd hpd _ => ?_, along_nil _⟩
    cases Option.some.inj hpd
    decide +kernel

/-- A packet of 20 samples a second finds two samples of 10 a second in the buffer. -/
theorem labels_mixed : ¬ ∀ (msr : MsRecord), msr.datasamples = none → msr.numsamples = 0 →
    ∀ calls : List PackCall, (∀ call ∈ calls, LabelCallOK call) →
      Along packStep LabelsAll (.start msr) calls := by
  intro hclaim
  have hc1 : LabelCallOK (passPacket 0 10 [1, 2]) :=
    labelCallOK_passPacket (by decide) ⟨by decide, rfl⟩
  have hc2 : LabelCallOK (passPacket (1 / 5) 20 [3, 4]) :=
    labelCallOK_passPacket (by decide) ⟨by decide, rfl⟩
  have hall := hclaim emptyRecord rfl rfl [passPacket 0 10 [1, 2], passPacket (1 / 5) 20 [3, 4]]
    (fun call hmem => by
      simp only [List.mem_cons, List.not_mem_nil, or_false] at hmem
      rcases hmem with rfl | rfl
      · exact hc1
      · exact hc2)
  rw [along_cons, along_cons] at hall
  have hfirst : SameRate (.start emptyRecord) (passPacket 0 10 [1, 2]) :=
    fun pd _ hd => absurd rfl hd
  have hok := ((runOK_start emptyRecord rfl rfl).step hc1 hfirst).2
  have hsame := hok.sameRate_of_labelsAll hc2 hall.2.1 _ rfl (by decide +kernel)
  exact absurd hsame (by decide +kernel)

end Nmxptool.Seed.Pack
