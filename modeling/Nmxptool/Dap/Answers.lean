import Nmxptool.Dap.Windows
import Nmxptool.Pds.Charge
import Nmxptool.Wire.UntilReady

/-! # The answer to a data request

For each request the DAP loop receives messages until the server is ready, decodes each as
compressed data, trims it to the time window, and hands what is left to the outputs. The buffer
keeps what earlier messages have left in it.

* `stampedBody`, `wanted`: the samples of a body, each with the middle of its interval, and those
  inside a window, by the format.
* `dapStep_answer`: what one message of the answer gives.
* `retrieve_ready`: what the whole answer gives: of the channel that was requested the samples
  inside the window, each once and in order. -/

namespace Nmxptool.Dap.Answers

open Nmxptool.Data.Process Nmxptool.Chan.Channels Nmxptool.Lib.Run Nmxptool.Lib.Bytes
open Nmxptool.Lib.Recv Nmxptool.Lib.Rounding Nmxptool.Lib.Window
open Nmxptool.Wire.Model Nmxptool.Wire.Framing
open Nmxptool.Wire.Ready Nmxptool.Wire.UntilReady
open Nmxptool.Decode.Bundle Nmxptool.Decode.Compressed Nmxptool.Decode.Receive
open Nmxptool.RawStream.Model (Pd)
open Nmxptool.RawStream.Flush (NmxptoolChanSeq)
open Nmxptool.ChanSeq.States (nmxptoolChanseqGap compareLastTime)
open Nmxptool.Pds.Clip Nmxptool.Pds.Charge Nmxptool.Dap.Trim Nmxptool.Dap.Windows

/-! ### The samples of a body -/

/-- The time of the first sample, as the decoder computes it in doubles. -/
def headerTime (body : List UInt8) : ℚ :=
  toDouble (signed (field body 5 4) + toDouble (signed (field body 9 2) / 10000))

/-- The samples in a second. -/
def headerRate (body : List UInt8) : Int32 :=
  nmxRateCodeToSampleRate.getD (body.getD 17 0 >>> 3).toNat 0

/-- **The samples of a body**, each with the middle of its interval. -/
def stampedBody (body : List UInt8) : List (ℚ × Int32) :=
  (List.range (diffs body).length).map fun i : ℕ =>
    (headerTime body + (i + 1 / 2) / (headerRate body).toInt,
      Int32.ofInt (headerX0 body + ((diffs body).take i).sum))

/-- **The samples inside a window.** -/
def wanted (a b : ℚ) (body : List UInt8) : List Int32 :=
  (within Prod.fst a b (stampedBody body)).map Prod.snd

theorem readHdr_stamp {host : Host} {body : List UInt8} {hdr : NmxHdr} (hL : 21 ≤ body.length)
    (h : readHdr host body = .ok hdr) :
    hdr.time = headerTime body ∧ hdr.sampRate = headerRate body := by
  have hlen : ((body.drop 4).take 17).length = 17 := by
    rw [List.length_take, List.length_drop]
    omega
  have hbyte : ∀ {off : ℕ} {v : UInt8}, off < 17 →
      readByte ((body.drop 4).take 17) off = .ok v → v = body.getD (4 + off) 0 := by
    intro off v hoff hv
    rw [readByte_ok (b := body.getD (4 + off) 0) (by
      rw [List.getElem?_take_of_lt hoff, List.getElem?_drop, List.getD_eq_getElem?_getD,
        List.getElem?_eq_getElem (by omega), Option.getD_some])] at hv
    exact (Except.ok.inj hv).symm
  have hbytes : ∀ {off n : ℕ} {bs : List UInt8}, off + n ≤ 17 →
      readBytes ((body.drop 4).take 17) off n = .ok bs → bs = field body (4 + off) n := by
    intro off n bs hoff hbs
    rw [readBytes_ok (by omega), field_field body hoff] at hbs
    exact (Except.ok.inj hbs).symm
  unfold readHdr at h
  rw [readBytes_ok (show 0 + 4 ≤ body.length by omega), ok_bind,
    readBytes_ok (show 4 + 17 ≤ body.length by omega), ok_bind] at h
  obtain ⟨ptype, -, h⟩ := bind_eq_ok.mp h
  split_ifs at h
  obtain ⟨seconds, hseconds, h⟩ := bind_eq_ok.mp h
  obtain ⟨ticks, hticks, h⟩ := bind_eq_ok.mp h
  obtain ⟨instrId, -, h⟩ := bind_eq_ok.mp h
  obtain ⟨seqno, -, h⟩ := bind_eq_ok.mp h
  obtain ⟨rate, hrate, h⟩ := bind_eq_ok.mp h
  obtain ⟨x0, -, h⟩ := bind_eq_ok.mp h
  rw [← Except.ok.inj h]
  obtain rfl := hbytes (by norm_num) hseconds
  obtain rfl := hbytes (by norm_num) hticks
  obtain rfl := hbyte (by norm_num) hrate
  refine ⟨?_, rfl⟩
  rw [NmxHdr.time, headerTime]
  dsimp only
  rw [toInt_packetInt32 host (length_field (by omega)),
    toInt_packetInt16 host (length_field (by omega))]

section Decoding
variable {host : Host} {outdata : OutData} {body : List UInt8} {channelList : NmxpChanListNet}
  {nd ld : CStr} {pd : Pd}

/-- The time and the rate of a packet that the decoder returns. -/
theorem decoded_stamp (hL : 21 ≤ body.length) (hkey : Known channelList (headerKey body))
    (h : nmxpProcessCompressedData host outdata body channelList nd ld = .ok pd) :
    pd.time = headerTime body ∧ pd.sampRate = headerRate body := by
  unfold nmxpProcessCompressedData at h
  obtain ⟨hdr, hhdr, h⟩ := bind_eq_ok.mp h
  have hstamp := readHdr_stamp hL hhdr
  rcases readHdr_cases hL with ⟨-, hexit⟩ | ⟨-, hdr', hok, hdrOK⟩
  · rw [hexit host] at hhdr
    exact absurd hhdr (by simp)
  rw [hok host] at hhdr
  obtain rfl := Except.ok.inj hhdr
  obtain ⟨name, hname⟩ := nmxpChanLookupName_isSome hkey
  rw [← hdrOK.key] at hname
  rw [hname] at h
  obtain ⟨r, -, h⟩ := bind_eq_ok.mp h
  obtain ⟨xn, -, h⟩ := bind_eq_ok.mp h
  rw [← Except.ok.inj h]
  exact hstamp

/-- **The samples of a packet with their midpoints** are those of the body. -/
theorem stamped_decoded (hL : 21 ≤ body.length) (hkey : Known channelList (headerKey body))
    (h : nmxpProcessCompressedData host outdata body channelList nd ld = .ok pd) :
    stamped pd = stampedBody body := by
  obtain ⟨htime, hrate⟩ := decoded_stamp hL hkey h
  rw [stamped, stampedBody, (decoded_of_ok hL hkey h).samples]
  refine List.ext_getElem (by simp) fun i hi hi' => ?_
  simp only [List.getElem_mapIdx, List.getElem_map, List.getElem_range, Windows.midpoint, htime,
    hrate]

end Decoding

/-! ### Trimming -/

/-- What trimming leaves of a packet, as the loop goes on with it. -/
theorem trim_packet {a b : ℚ} {pd : Pd} (h : PacketOK pd) (h0 : 0 ≤ pd.nSamp.toInt)
    (hab : a < b) :
    ∃ ret pd', nmxpDataTrim a b 0 pd = some (ret, pd') ∧ pd'.samples = inWindow a b pd ∧
      pd'.nSamp.toInt = pd'.samples.length := by
  have hn : pd.nSamp.toInt = pd.samples.length := by rw [h.samples, Int.toNat_of_nonneg h0]
  obtain ⟨k, m, hwin, ⟨rfl, rfl, heq⟩ | ⟨-, hall, heq⟩ | ⟨-, hlt, pd', heq, hr⟩⟩ :=
    trim_cases h h0 hab
  · refine ⟨2, pd, heq, ?_, hn⟩
    rw [inWindow_eq hwin]
    exact (removed_refl pd).samples
  · refine ⟨1, _, heq, ?_, rfl⟩
    rw [inWindow_eq hwin, List.drop_of_length_le (by rw [List.length_take]; omega)]
    rfl
  · refine ⟨1, pd', heq, ?_, ?_⟩
    · rw [inWindow_eq hwin]
      exact hr.samples
    · rw [hr.nSamp, hr.samples, List.length_drop, List.length_take]
      omega

/-! ### One message -/

/-- The samples that are handed to an output. -/
def samplesTo (output : Output) (evs : List LoopEvent) : List Int32 :=
  evs.flatMap fun
    | .handed o pd => if o = output then pd.samples else []
    | .rawStream .. => []

@[simp] theorem samplesTo_nil (output : Output) : samplesTo output [] = [] := rfl

@[simp] theorem samplesTo_append (output : Output) (evs evs' : List LoopEvent) :
    samplesTo output (evs ++ evs') = samplesTo output evs ++ samplesTo output evs' :=
  List.flatMap_append

theorem outfile_notMem_outputs (p : LoopParams) : Output.outfile ∉ p.outputs := by
  unfold LoopParams.outputs
  split_ifs <;> decide

theorem nodup_outputs (p : LoopParams) : p.outputs.Nodup := by
  unfold LoopParams.outputs
  split_ifs <;> decide

/-- Each output is handed the packet once. -/
theorem samplesTo_outputs (p : LoopParams) (pd : Pd) {output : Output} (h : output ∈ p.outputs) :
    samplesTo output (p.outputs.map fun o => .handed o pd) = pd.samples := by
  have hnodup := nodup_outputs p
  generalize p.outputs = l at h hnodup
  induction l with
  | nil => exact absurd h (by simp)
  | cons o l ih =>
    obtain ⟨ho, hl⟩ := List.nodup_cons.mp hnodup
    have hhead : ∀ evs, samplesTo output (.handed o pd :: evs) =
        (if o = output then pd.samples else []) ++ samplesTo output evs := fun evs => rfl
    rw [List.map_cons, hhead]
    rcases List.mem_cons.mp h with rfl | h
    · have hrest : samplesTo output (l.map fun o => .handed o pd) = [] := by
        refine List.flatMap_eq_nil_iff.mpr fun ev hev => ?_
        obtain ⟨o, hmem, rfl⟩ := List.mem_map.mp hev
        exact if_neg (ne_of_mem_of_not_mem hmem ho)
      rw [if_pos rfl, hrest, List.append_nil]
    · rw [if_neg (ne_of_mem_of_not_mem h ho).symm, List.nil_append]
      exact ih h hl

section Messages
variable (s : LoopSetting)

/-- **A message of an answer**: compressed data that can be decoded, with a rate if its channel is
one of the subset. -/
structure AnswerOK (m : Message) : Prop where
  notReady : m.type ≠ NMXP_MSG_READY
  fits : m.Fits NMXP_MAX_LENGTH_DATA_BUFFER
  header : 21 ≤ m.body.length
  decodes : CompressedOK s.receive.channelList m.body
  rate : Known s.receive.channelList (headerKey m.body) → 0 < (headerRate m.body).toInt

/-- The index of the channel of a message is the one that was requested. -/
def OfRequest (d : DapRequest) (m : Message) : Prop :=
  nmxpChanLookupKeyIndex (headerKey m.body) s.receive.channelList = d.requestChan

instance (d : DapRequest) (m : Message) : Decidable (OfRequest s d m) :=
  inferInstanceAs (Decidable (_ = _))

variable {s} {m : Message} {seqs : Seqs}

/-- The packet that the loop decodes. -/
theorem AnswerOK.packet (hm : AnswerOK s m) (hkey : Known s.receive.channelList (headerKey m.body))
    (outdata : OutData) :
    ∃ pd, nmxpProcessCompressedData s.receive.host outdata m.body s.receive.channelList
        s.receive.networkCode s.receive.locationCode = .ok pd ∧
      PacketOK (forceTimingQuality s.params pd) ∧
      (forceTimingQuality s.params pd).nSamp.toInt = (diffs m.body).length ∧
      (forceTimingQuality s.params pd).key = headerKey m.body ∧
      stamped (forceTimingQuality s.params pd) = stampedBody m.body := by
  obtain ⟨pd, hpd, -⟩ := (compressed_iff s.receive.host outdata hm.header s.receive.channelList
    s.receive.networkCode s.receive.locationCode).mpr hm.decodes
  have hd := decoded_of_ok hm.header hkey hpd
  have hrate : 0 < pd.sampRate.toInt := by
    rw [(decoded_stamp hm.header hkey hpd).2]
    exact hm.rate hkey
  have hsamples : pd.samples.length = pd.nSamp.toInt.toNat := by
    rw [hd.samples, hd.nSamp, List.length_map, List.length_range, Int.toNat_natCast]
  have hforce : ∀ p : LoopParams, forceTimingQuality p pd = pd ∨
      forceTimingQuality p pd = { pd with timingQuality := p.timingQuality } := fun p => by
    unfold forceTimingQuality
    split_ifs
    · exact Or.inr rfl
    · exact Or.inl rfl
  refine ⟨pd, hpd, ?_⟩
  have hstamped : stamped pd = stampedBody m.body := stamped_decoded hm.header hkey hpd
  rcases hforce s.params with h | h
  all_goals
    rw [h]
    exact ⟨⟨hrate, hsamples⟩, hd.nSamp, hd.key, hstamped⟩

/-- The times to resume the channels at. -/
def resumeTimes (seqs : Seqs) : List ℚ := seqs.map (·.afterStartTime)

theorem length_of_resumeTimes {seqs' : Seqs} (h : resumeTimes seqs' = resumeTimes seqs) :
    seqs'.length = seqs.length := by
  simpa [resumeTimes] using congrArg List.length h

/-- A change of a channel of the array, without events, that keeps its time to resume at. -/
theorem updateSeq_ok {i : ℤ} (h0 : 0 ≤ i) (hi : i < seqs.length)
    {f : NmxptoolChanSeq → Except LoopFault (NmxptoolChanSeq × List LoopEvent)}
    (hf : ∀ q, ∃ q', f q = .ok (q', []) ∧ q'.afterStartTime = q.afterStartTime) :
    ∃ seqs', updateSeq seqs i f = .ok (seqs', []) ∧ resumeTimes seqs' = resumeTimes seqs := by
  have hlt : i.toNat < seqs.length := by omega
  have hat : seqAt seqs i = .ok (seqs.get ⟨i.toNat, hlt⟩) := dif_pos ⟨h0, hlt⟩
  obtain ⟨q', hq', htime⟩ := hf (seqs.get ⟨i.toNat, hlt⟩)
  refine ⟨seqs.set i.toNat q', by rw [updateSeq, hat, ok_bind, hq', ok_bind]; rfl, ?_⟩
  refine List.ext_getElem (by simp [resumeTimes]) fun j hj hj' => ?_
  simp only [resumeTimes, List.getElem_map, List.getElem_set]
  split_ifs with hij
  · subst hij
    exact htime
  · rfl

theorem afterStartTime_gap (q : NmxptoolChanSeq) (pd : Pd) :
    (nmxptoolChanseqGap q pd).1.afterStartTime = q.afterStartTime := by
  have hcompare : (compareLastTime q pd).1.afterStartTime = q.afterStartTime := by
    unfold compareLastTime
    dsimp only
    split_ifs <;> rfl
  unfold nmxptoolChanseqGap
  dsimp only
  split_ifs
  · exact hcompare
  · exact hcompare

/-- The gap, the outputs and the last sample of a packet of the channel that was requested. -/
theorem dapPacket_ok (d : DapRequest) (length : Int32) {i : ℤ} (h0 : 0 ≤ i)
    (hi : i < seqs.length) {pd : Pd} (hn : pd.nSamp.toInt = pd.samples.length)
    (hpos : pd.nSamp > 0) :
    ∃ seqs' evs, dapPacket s d length seqs i pd = .ok (seqs', evs) ∧
      resumeTimes seqs' = resumeTimes seqs ∧
      ∀ o ∈ s.params.outputs, samplesTo o evs = pd.samples := by
  have hpos' : 0 < pd.nSamp.toInt := Int32.lt_iff_toInt_lt.mp hpos
  obtain ⟨v, hv⟩ : ∃ v, readSample pd.pDataPtr (pd.nSamp - 1) = some v := by
    have hlast : (pd.nSamp - 1).toInt = pd.nSamp.toInt - 1 := toInt_sub_one (by omega)
    have hlen := hn
    rw [NmxpDataProcess.samples, List.length_take] at hlen
    unfold readSample
    rw [if_pos (by omega)]
    exact ⟨_, List.getElem?_eq_getElem (by omega)⟩
  obtain ⟨seqs₁, hgap, hseqs₁⟩ := updateSeq_ok h0 hi
    (f := fun q => return ((nmxptoolChanseqGap q pd).1, []))
    fun q => ⟨_, rfl, afterStartTime_gap q pd⟩
  have hi₁ : i < seqs₁.length := by
    have := length_of_resumeTimes hseqs₁
    omega
  obtain ⟨seqs₂, hstore, hseqs₂⟩ := updateSeq_ok h0 hi₁
    (f := fun q => do
      let v ← ofSamples (readSample pd.pDataPtr (pd.nSamp - 1))
      return ({ q with x1 := v }, []))
    fun q => ⟨{ q with x1 := v }, by rw [hv]; rfl, rfl⟩
  have hrun : dapPacket s d length seqs i pd = .ok (seqs₂,
      s.params.outputs.map (fun output => .handed output pd) ++
        (if d.outfile ∧ length > 0 then [.handed .outfile pd] else []) ++ []) := by
    have hmanage : manageGap s seqs (some (i, pd)) =
        .ok (seqs₁, s.params.outputs.map fun output => .handed output pd) := by
      rw [manageGap, hgap]
      rfl
    have hx1 : storeX1 seqs₁ i pd = .ok (seqs₂, []) := by
      rw [storeX1, if_pos hpos]
      exact hstore
    rw [dapPacket, hmanage, ok_bind]
    dsimp only
    rw [hx1, ok_bind]
    rfl
  refine ⟨seqs₂, _, hrun, hseqs₂.trans hseqs₁, fun o ho => ?_⟩
  have hfile : samplesTo o (if d.outfile ∧ length > 0 then [.handed .outfile pd] else []) = [] := by
    split_ifs
    · have hne := (ne_of_mem_of_not_mem ho (outfile_notMem_outputs s.params)).symm
      simp [samplesTo, hne]
    · rfl
  rw [samplesTo_append, samplesTo_append, samplesTo_outputs s.params pd ho, hfile, samplesTo_nil,
    List.append_nil, List.append_nil]

/-- **One message of an answer**: if it is of the channel that was requested, each output gets its
samples inside the window, and else nothing. -/
theorem dapStep_answer (hm : AnswerOK s m) (hseqs : seqs.length = s.number) (d : DapRequest)
    (hchan : 0 ≤ d.requestChan) (hab : d.startTime < d.endTime) (input : DapInput)
    (hview : compressedView input.buffer input.length = m.body) :
    ∃ seqs' evs, dapStep s d seqs input = .ok (seqs', evs) ∧
      resumeTimes seqs' = resumeTimes seqs ∧ ∀ o ∈ s.params.outputs, samplesTo o evs =
        if OfRequest s d m then wanted d.startTime d.endTime m.body else [] := by
  by_cases hkey : Known s.receive.channelList (headerKey m.body)
  · obtain ⟨pd, hpd, hok, hn, hpdKey, hstamped⟩ := hm.packet hkey input.outdata
    obtain ⟨ret, pd', htrim, hsamples, hn'⟩ := trim_packet hok (by omega) hab
    have hwanted : pd'.samples = wanted d.startTime d.endTime m.body := by
      rw [hsamples, inWindow, hstamped, wanted]
    have hkey' : pd'.key = headerKey m.body := by rw [trim_frame htrim]; exact hpdKey
    obtain ⟨h0, hi⟩ := lookup_inRange s hkey
    rw [← hseqs] at hi
    unfold dapStep
    rw [hview, hpd, decoded, ok_bind, htrim, ofSamples, ok_bind]
    dsimp only
    rw [hkey']
    by_cases hpos : pd'.nSamp > 0
    · rw [if_pos hpos]
      by_cases hother : OfRequest s d m
      · rw [if_neg (fun h => h.1 (Eq.symm hother))]
        simp only [if_pos hother]
        obtain ⟨seqs', evs, hrun, hkept, hevs⟩ :=
          dapPacket_ok (s := s) d input.length h0 hi hn' hpos
        exact ⟨seqs', evs, hrun, hkept, fun o ho => (hevs o ho).trans hwanted⟩
      · rw [if_pos ⟨fun h => hother (Eq.symm h), by omega⟩]
        simp only [if_neg hother]
        exact ⟨seqs, [], rfl, rfl, fun o _ => rfl⟩
    · rw [if_neg hpos]
      have hnil : wanted d.startTime d.endTime m.body = [] := by
        rw [← hwanted]
        refine List.eq_nil_of_length_eq_zero ?_
        have := mt Int32.lt_iff_toInt_lt.mpr hpos
        rw [show (0 : Int32).toInt = 0 from rfl] at this
        omega
      rw [hnil]
      exact ⟨seqs, [], rfl, rfl, fun o _ => by rw [ite_self]; rfl⟩
  · have hunknown : DapUnknownKey s input :=
      ⟨hview ▸ hm.decodes.filler, hview ▸ hkey⟩
    refine ⟨seqs, [], dapStep_unknown s d hunknown, rfl, fun o _ => ?_⟩
    have hnone : nmxpChanLookupKeyIndex (headerKey m.body) s.receive.channelList = -1 :=
      nmxpChanLookupKeyIndex_eq_neg_one.mpr fun h => hkey (List.mem_map.mp h)
    rw [if_neg (by unfold OfRequest; omega)]
    rfl

end Messages

/-! ### The whole answer -/

/-- The buffer of `main`. -/
structure Buffer where
  bytes : List UInt8
  size : bytes.length = NMXP_MAX_LENGTH_DATA_BUFFER

/-- A body is received over what lies in the buffer; no call receives more than its size. -/
def Buffer.receive (b : Buffer) (body : List UInt8) : Buffer where
  bytes := (body ++ b.bytes.drop body.length).take NMXP_MAX_LENGTH_DATA_BUFFER
  size := by
    have := b.size
    rw [List.length_take, List.length_append, List.length_drop]
    omega

/-- What an iteration finds: the array to decode into, `nmxptool_sigcondition_read()`,
`data_seed.err_general`, and, where a request is made, whether its output file could be opened and
whether Earthworm asks to terminate. -/
structure Turn where
  outdata : OutData
  sigcondition : Bool
  errGeneral : Bool
  outfile : Bool
  flagTerminate : Bool

/-- Nothing ends the loops. -/
structure Turn.Calm (t : Turn) : Prop where
  sigcondition : t.sigcondition = false
  errGeneral : t.errGeneral = false
  flagTerminate : t.flagTerminate = false

/-- What the loops work on. -/
structure Work where
  seqs : Seqs
  buffer : Buffer
  turns : Stream' Turn

/-- The conditions of a loop on other things than messages. -/
def Work.go (q : Work) : Bool := !q.turns.head.sigcondition && !q.turns.head.errGeneral

/-- An iteration, from the message that was received to the next call. -/
def receiveStep (s : LoopSetting) (d : DapRequest) (q : Work) (r : Received) :
    Except LoopFault (Work × List LoopEvent) := do
  let buffer := q.buffer.receive r.body
  let (seqs, evs) ← dapStep s d q.seqs ⟨q.turns.head.outdata, buffer.bytes, r.length, buffer.size⟩
  return (⟨seqs, buffer, q.turns.tail⟩, evs)

/-- **DAP step 6**, receive data until receiving a Ready message. The last message lies in the
buffer too. -/
def retrieve (s : LoopSetting) (d : DapRequest) (q : Work) (link : Link UInt8) :
    Except LoopFault (Work × Link UInt8 × List LoopEvent) := do
  let (r, evs) ←
    untilReady s.receive.host NMXP_MAX_LENGTH_DATA_BUFFER Work.go (receiveStep s d) q link
  return ({ r.state with buffer := r.state.buffer.receive r.last.body }, r.link, evs)

/-- What the loops start from, and keep. -/
structure WorkOK (s : LoopSetting) (q : Work) : Prop where
  seqs : q.seqs.length = s.number
  calm : q.turns.All Turn.Calm

theorem WorkOK.go {s : LoopSetting} {q : Work} (h : WorkOK s q) : q.go = true := by
  have := h.calm 0
  change q.turns.head.Calm at this
  rw [Work.go, this.sigcondition, this.errGeneral]
  rfl

section Retrieve
variable {s : LoopSetting} {d : DapRequest} {m : Message}

/-- With a whole header the decoder reads the message alone, whatever lies behind it. -/
theorem AnswerOK.view (hm : AnswerOK s m) (b : Buffer) :
    compressedView (b.receive m.received.body).bytes m.received.length = m.body := by
  have hfits : m.body.length ≤ NMXP_MAX_LENGTH_DATA_BUFFER := hm.fits
  have hlength : m.length.toInt.toNat = m.body.length := by
    rw [m.toInt_length, Int.toNat_natCast]
  change ((m.body ++ b.bytes.drop m.body.length).take NMXP_MAX_LENGTH_DATA_BUFFER).take
    (max 21 m.length.toInt.toNat) = m.body
  rw [hlength, max_eq_right hm.header, List.take_take, min_eq_left hfits, List.take_left]

/-- **One iteration.** -/
theorem receiveStep_answer (hm : AnswerOK s m) (hchan : 0 ≤ d.requestChan)
    (hab : d.startTime < d.endTime) {q : Work} (hq : WorkOK s q) :
    ∃ q' evs, receiveStep s d q m.received = .ok (q', evs) ∧ WorkOK s q' ∧
      resumeTimes q'.seqs = resumeTimes q.seqs ∧ ∀ o ∈ s.params.outputs, samplesTo o evs =
        if OfRequest s d m then wanted d.startTime d.endTime m.body else [] := by
  obtain ⟨seqs', evs, hstep, hkept, hevs⟩ := dapStep_answer hm hq.seqs d hchan hab
    ⟨q.turns.head.outdata, (q.buffer.receive m.received.body).bytes, m.received.length,
      (q.buffer.receive _).size⟩ (hm.view q.buffer)
  refine ⟨⟨seqs', q.buffer.receive m.received.body, q.turns.tail⟩, evs, ?_,
    ⟨(length_of_resumeTimes hkept).trans hq.seqs, fun n => hq.calm (n + 1)⟩, hkept, hevs⟩
  unfold receiveStep
  dsimp only
  rw [hstep]
  rfl

/-- What the outputs should get of an answer. -/
def answered (s : LoopSetting) (d : DapRequest) (ms : List Message) : List Int32 :=
  (ms.filter (OfRequest s d ·)).flatMap fun m => wanted d.startTime d.endTime m.body

/-- All iterations for an answer. -/
theorem run_answer (hchan : 0 ≤ d.requestChan) (hab : d.startTime < d.endTime) :
    ∀ {ms : List Message} {q : Work}, (∀ m ∈ ms, AnswerOK s m) → WorkOK s q →
      AllSteps (receiveStep s d) (fun q _ => q.go = true) q (ms.map Message.received) ∧
      ∃ q' evs, run (receiveStep s d) q (ms.map Message.received) = .ok (q', evs) ∧ WorkOK s q' ∧
        resumeTimes q'.seqs = resumeTimes q.seqs ∧
        ∀ o ∈ s.params.outputs, samplesTo o evs = answered s d ms
  | [], q, _, hq => ⟨trivial, q, [], rfl, hq, rfl, fun _ _ => rfl⟩
  | m :: ms, q, hms, hq => by
    obtain ⟨q₁, evs₁, hstep, hq₁, hkept₁, hevs₁⟩ :=
      receiveStep_answer (hms m (by simp)) hchan hab hq
    obtain ⟨hgo, q₂, evs₂, hrun, hq₂, hkept₂, hevs₂⟩ := run_answer hchan hab
      (fun m hm => hms m (List.mem_cons_of_mem _ hm)) hq₁
    refine ⟨⟨hq.go, fun q' o hq' => ?_⟩, q₂, evs₁ ++ evs₂,
      run_cons_eq_ok.mpr ⟨q₁, evs₁, evs₂, hstep, hrun, rfl⟩, hq₂, hkept₂.trans hkept₁,
      fun o ho => ?_⟩
    · obtain ⟨rfl, rfl⟩ := Prod.mk.inj (Except.ok.inj (hstep.symm.trans hq'))
      exact hgo
    · rw [samplesTo_append, hevs₁ o ho, hevs₂ o ho]
      unfold answered
      by_cases hof : OfRequest s d m
      · rw [if_pos hof, List.filter_cons_of_pos (by simpa using hof), List.flatMap_cons]
      · rw [if_neg hof, List.filter_cons_of_neg (by simpa using hof), List.nil_append]

/-- **The whole answer**: if the server sends messages that can be decoded and a Ready, each output
gets, of the channel that was requested, the samples inside the window, each once and in order; the
connection is left behind the Ready. -/
theorem retrieve_ready (hchan : 0 ≤ d.requestChan) (hab : d.startTime < d.endTime)
    {ms : List Message} (hms : ∀ m ∈ ms, AnswerOK s m) {ready : Message}
    (hready : ready.type = NMXP_MSG_READY) (hfit : ready.Fits NMXP_MAX_LENGTH_DATA_BUFFER)
    {q : Work} (hq : WorkOK s q) {sched : Stream' RecvEvent} (hs : Flowing sched)
    (rest : List UInt8) :
    ∃ q' sched' evs, retrieve s d q ⟨(ms ++ [ready]).flatMap Message.encode ++ rest, sched⟩ =
        .ok (q', ⟨rest, sched'⟩, evs) ∧ WorkOK s q' ∧ Flowing sched' ∧
      resumeTimes q'.seqs = resumeTimes q.seqs ∧
      ∀ o ∈ s.params.outputs, samplesTo o evs = answered s d ms := by
  obtain ⟨hgo, q', evs, hrun, hq', hkept, hevs⟩ := run_answer hchan hab hms hq
  have hfits : ∀ m ∈ ms ++ [ready], m.Fits NMXP_MAX_LENGTH_DATA_BUFFER := fun m hm => by
    rcases List.mem_append.mp hm with hm | hm
    · exact (hms m hm).fits
    · rw [List.mem_singleton.mp hm]
      exact hfit
  obtain ⟨sched', hs', huntil⟩ := untilReady_ready s.receive.host rest
    (fun m hm => (hms m hm).notReady) hready hfits hs hgo
  refine ⟨{ q' with buffer := q'.buffer.receive ready.body }, sched', evs, ?_,
    ⟨hq'.seqs, hq'.calm⟩, hs', hkept, hevs⟩
  unfold retrieve
  rw [huntil, hrun]
  rfl

end Retrieve

end Nmxptool.Dap.Answers
