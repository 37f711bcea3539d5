import Nmxptool.Decode.Receive
import Nmxptool.Lib.Block
import Nmxptool.RawStream.Origin
import Nmxptool.RawStream.Reorder

/-! # Earthworm trace messages

`nmxptool_ew_pd2ewring` is one of the functions that a Raw Stream hands its packets to. It builds a
message in a `TracePacket` on its stack: a header, and the samples behind it. The loop over the
samples has no bound but `nSamp`; a comment relies on 17 bundles of 59 samples, but the decoder
accepts as many samples as its own array has room for.

* `traceMessage_iff`: the message fits, with all samples, iff there are at most 1008 of them.
* `traceMessage_handedTo_iff`: of a packet decoded from a message body, handed on by any run of a
  Raw Stream, iff the body has at most 1008 differences or a key that is not in the list. -/

namespace Nmxptool.RawStream.Earthworm

open Nmxptool.Data.Process Nmxptool.Lib.Run Nmxptool.Lib.Sorting Nmxptool.Lib.Bytes
open Nmxptool.Lib.Block
open Nmxptool.Chan.Channels Nmxptool.Decode.Bundle Nmxptool.Decode.Compressed
open Nmxptool.Decode.Receive
open Nmxptool.RawStream.Model Nmxptool.RawStream.Slots Nmxptool.RawStream.Origin
open Nmxptool.RawStream.Reorder

/-! ### `nmxptool_ew_pd2ewring` -/

def MAX_TRACEBUF_SIZ : ℕ := 4096

/-- `sizeof(TRACE_HEADER)`, which is that of `TRACE2_HEADER` too. -/
def TRACE_HEADER_SIZE : ℕ := 64

/-- The bytes of a `TracePacket`, as they are on the stack. -/
structure TracePacket where
  msg : List UInt8
  size : msg.length = MAX_TRACEBUF_SIZ

/-- The bytes of a header. -/
structure TraceHeader where
  bytes : List UInt8
  size : bytes.length = TRACE_HEADER_SIZE

/-- What Earthworm has: whether it knows `TRACEBUF2` messages, the layout of the headers, the types
of the messages, and the transport ring. The configuration has `forcetracebuf`. -/
structure Setting where
  trace2 : Bool
  forcetracebuf : Bool
  header : Bool → Pd → TraceHeader
  typeWaveform : UInt8
  typeWaveform2 : UInt8
  tportPutmsg : UInt8 → List UInt8 → Bool

inductive EwResult
  | ewSuccess
  | ewFailure
  deriving DecidableEq

/-- `tracebuf2 == 2`: a `TRACEBUF2` header is populated. -/
def Setting.tracebuf2 (ew : Setting) : Bool := ew.trace2 && !ew.forcetracebuf

/-- The loop over the samples, at sample `i` with `left` of them to go. The message is `none` after
an access outside the packet's array or outside the `TracePacket`. -/
def copySamples (host : Host) (pDataPtr : Option (List Int32)) :
    ℕ → ℕ → List UInt8 → Option (List UInt8)
  | 0, _, msg => some msg
  | left + 1, i, msg => do
    let v ← (pDataPtr.getD [])[i]?
    let msg ← writeAt msg (TRACE_HEADER_SIZE + 4 * i) (store host 4 (nat32 v))
    copySamples host pDataPtr left (i + 1) msg

/-- The message: the bytes of `tbuf`, and `len`. -/
def traceMessage (ew : Setting) (host : Host) (tbuf : TracePacket) (pd : Pd) :
    Option (List UInt8 × Int32) := do
  let msg ← writeAt tbuf.msg 0 (ew.header ew.tracebuf2 pd).bytes
  let msg ← copySamples host pd.pDataPtr pd.nSamp.toInt.toNat 0 msg
  return (msg, Int32.ofInt (pd.nSamp.toInt * 4 + TRACE_HEADER_SIZE))

/-- `tport_putmsg` reads `len` bytes of `tbuf`. The result is what was put, with its type. -/
def putMessage (ew : Setting) (type : UInt8) (msg : List UInt8) (len : Int32) :
    Option (EwResult × Option (UInt8 × List UInt8)) := do
  let bytes ← readAt msg 0 len.toInt.toNat
  return (if ew.tportPutmsg type bytes then .ewSuccess else .ewFailure, some (type, bytes))

/-- **`nmxptool_ew_pd2ewring`.** -/
def nmxptoolEwPd2ewring (ew : Setting) (host : Host) (tbuf : TracePacket) (pd : Pd) :
    Option (EwResult × Option (UInt8 × List UInt8)) := do
  let (msg, len) ← traceMessage ew host tbuf pd
  if ew.tracebuf2 then
    if ew.typeWaveform2 = 0 then return (.ewFailure, none)
    else putMessage ew ew.typeWaveform2 msg len
  else putMessage ew ew.typeWaveform msg len

/-! ### What the message should be -/

/-- The samples, one behind the other. -/
def sampleBytes (host : Host) (samples : List Int32) : List UInt8 :=
  samples.flatMap fun v => store host 4 (nat32 v)

/-- The message of a packet: a header, and all samples. -/
def message (ew : Setting) (host : Host) (pd : Pd) : List UInt8 :=
  (ew.header ew.tracebuf2 pd).bytes ++ sampleBytes host pd.samples

/-- **The message is built inside the `TracePacket`**, has 4 bytes for each of the `nSamp` samples
behind its header, and holds them all. -/
def MessageFits (ew : Setting) (host : Host) (tbuf : TracePacket) (pd : Pd) : Prop :=
  ∃ msg len, traceMessage ew host tbuf pd = some (msg, len) ∧
    len.toInt = TRACE_HEADER_SIZE + 4 * pd.nSamp.toInt ∧ len.toInt ≤ MAX_TRACEBUF_SIZ ∧
    msg.take len.toInt.toNat = message ew host pd

def TRACE_SAMPLES : ℕ := 1008

/-- The body of a message has at most 1008 differences, or comes from a channel that is not in the
list: then the packet has no samples. -/
def FewDiffs (channelList : NmxpChanListNet) (body : List UInt8) : Prop :=
  Known channelList (headerKey body) → (diffs body).length ≤ TRACE_SAMPLES

/-! ### The samples -/

theorem length_sampleBytes (host : Host) (samples : List Int32) :
    (sampleBytes host samples).length = 4 * samples.length := by
  induction samples with
  | nil => rfl
  | cons v samples ih =>
    have hcons : sampleBytes host (v :: samples) =
        store host 4 (nat32 v) ++ sampleBytes host samples := List.flatMap_cons
    rw [hcons, List.length_append, ih, length_store, List.length_cons]
    omega

/-- **The loop over the samples** puts them behind what is there, as far as the block reaches. -/
theorem copySamples_eq (host : Host) {pDataPtr : Option (List Int32)} {rest : List Int32} :
    ∀ (todo : List Int32) (i : ℕ) (front tail : List UInt8),
    (pDataPtr.getD []).drop i = todo ++ rest → front.length = TRACE_HEADER_SIZE + 4 * i →
    copySamples host pDataPtr todo.length i (front ++ tail) =
      if 4 * todo.length ≤ tail.length then
        some (front ++ sampleBytes host todo ++ tail.drop (4 * todo.length))
      else none := by
  intro todo
  induction todo with
  | nil =>
    intro i front tail _ _
    simp [copySamples, sampleBytes]
  | cons v todo ih =>
    intro i front tail hdrop hfront
    have hget : (pDataPtr.getD [])[i]? = some v := by
      rw [← List.head?_drop, hdrop]
      rfl
    have hnext : (pDataPtr.getD []).drop (i + 1) = todo ++ rest := by
      rw [← List.tail_drop, hdrop]
      rfl
    rw [List.length_cons, copySamples, hget, Option.bind_eq_bind, Option.bind_some,
      writeAt_append hfront, length_store]
    by_cases h4 : 4 ≤ tail.length
    · have hfront' : (front ++ store host 4 (nat32 v)).length =
          TRACE_HEADER_SIZE + 4 * (i + 1) := by
        rw [List.length_append, length_store, hfront]
        omega
      have hroom : 4 * todo.length ≤ (tail.drop 4).length ↔
          4 * (todo.length + 1) ≤ tail.length := by
        rw [List.length_drop]
        omega
      rw [if_pos h4, Option.bind_eq_bind, Option.bind_some, ih (i + 1) _ _ hnext hfront']
      simp only [hroom, List.drop_drop, sampleBytes, List.flatMap_cons, List.append_assoc,
        Nat.mul_add, Nat.mul_one, Nat.add_comm]
    · rw [if_neg h4, if_neg (by omega)]
      rfl

/-- The `TracePacket` keeps its size. -/
theorem length_copySamples {host : Host} {pDataPtr : Option (List Int32)} : ∀ (left i : ℕ)
    {msg msg' : List UInt8}, copySamples host pDataPtr left i msg = some msg' →
    msg'.length = msg.length := by
  intro left
  induction left with
  | zero =>
    intro i msg msg' h
    rw [← Option.some.inj h]
  | succ left ih =>
    intro i msg msg' h
    rw [copySamples] at h
    obtain ⟨v, -, h⟩ := Option.bind_eq_some_iff.mp h
    obtain ⟨msg1, hw, h⟩ := Option.bind_eq_some_iff.mp h
    rw [ih (i + 1) h, length_of_writeAt hw]

section Message
variable (ew : Setting) (host : Host) (tbuf : TracePacket) {pd : Pd}

/-- **What is built** for a packet with `nSamp` samples, if that stays inside the `TracePacket`. -/
theorem traceMessage_eq (h : (pd.samples.length : ℤ) = pd.nSamp.toInt) :
    traceMessage ew host tbuf pd =
      if pd.samples.length ≤ TRACE_SAMPLES then
        some (message ew host pd ++ tbuf.msg.drop (TRACE_HEADER_SIZE + 4 * pd.samples.length),
          Int32.ofInt (pd.nSamp.toInt * 4 + TRACE_HEADER_SIZE))
      else none := by
  have hsize := tbuf.size
  have hheader := (ew.header ew.tracebuf2 pd).size
  unfold MAX_TRACEBUF_SIZ at hsize
  unfold TRACE_HEADER_SIZE at hheader
  have hcount : pd.nSamp.toInt.toNat = pd.samples.length := by omega
  have hdrop : (pd.pDataPtr.getD []).drop 0 =
      pd.samples ++ (pd.pDataPtr.getD []).drop pd.samples.length := by
    rw [← hcount]
    exact (List.take_append_drop _ _).symm
  have hw := @writeAt_append (ew.header ew.tracebuf2 pd).bytes 0 [] tbuf.msg rfl
  rw [List.nil_append, List.nil_append, if_pos (by omega)] at hw
  have hroom : 4 * pd.samples.length ≤
      (tbuf.msg.drop (ew.header ew.tracebuf2 pd).bytes.length).length ↔
      pd.samples.length ≤ TRACE_SAMPLES := by
    unfold TRACE_SAMPLES
    rw [List.length_drop]
    omega
  unfold traceMessage
  rw [hw, Option.bind_eq_bind, Option.bind_some, hcount,
    copySamples_eq host pd.samples 0 _ _ hdrop hheader, List.drop_drop, hheader]
  simp only [hheader ▸ hroom]
  by_cases hfew : pd.samples.length ≤ TRACE_SAMPLES
  · rw [if_pos hfew, if_pos hfew]
    rfl
  · rw [if_neg hfew, if_neg hfew]
    rfl

/-- **A message fits**, with all its samples, iff there are at most 1008 of them. -/
theorem traceMessage_iff (h : (pd.samples.length : ℤ) = pd.nSamp.toInt) :
    MessageFits ew host tbuf pd ↔ pd.samples.length ≤ TRACE_SAMPLES := by
  have heq := traceMessage_eq ew host tbuf h
  constructor
  · rintro ⟨msg, len, hmsg, -⟩
    by_contra hfew
    rw [heq, if_neg hfew] at hmsg
    exact absurd hmsg (by simp)
  · intro hfew
    rw [if_pos hfew] at heq
    unfold TRACE_SAMPLES at hfew
    have hlen : (Int32.ofInt (pd.nSamp.toInt * 4 + TRACE_HEADER_SIZE)).toInt =
        TRACE_HEADER_SIZE + 4 * pd.nSamp.toInt := by
      unfold TRACE_HEADER_SIZE
      rw [toInt_ofInt_of_range (by omega) (by omega)]
      push_cast
      ring
    have hmessage : (message ew host pd).length = TRACE_HEADER_SIZE + 4 * pd.samples.length := by
      rw [message, List.length_append, (ew.header ew.tracebuf2 pd).size, length_sampleBytes]
    refine ⟨_, _, heq, hlen, ?_, ?_⟩
    · rw [hlen]
      unfold TRACE_HEADER_SIZE MAX_TRACEBUF_SIZ
      omega
    · refine List.take_left' ?_
      rw [hmessage, hlen]
      omega

/-- A message that fits is what is put into the ring, if anything is. -/
theorem pd2ewring_of_fits (h : MessageFits ew host tbuf pd) : ∃ r put,
    nmxptoolEwPd2ewring ew host tbuf pd = some (r, put) ∧
      ∀ m ∈ put, m.2 = message ew host pd := by
  obtain ⟨msg, len, hmsg, -, hle, htake⟩ := h
  have hsize : msg.length = MAX_TRACEBUF_SIZ := by
    obtain ⟨msg1, hheader, hrest⟩ := Option.bind_eq_some_iff.mp hmsg
    obtain ⟨msg2, hcopy, hrest⟩ := Option.bind_eq_some_iff.mp hrest
    rw [← (Prod.mk.inj (Option.some.inj hrest)).1, length_copySamples _ 0 hcopy,
      length_of_writeAt hheader, tbuf.size]
  have hput : ∀ type, ∃ r put, putMessage ew type msg len = some (r, put) ∧
      ∀ m ∈ put, m.2 = message ew host pd := by
    intro type
    have hread : readAt msg 0 len.toInt.toNat = some (message ew host pd) := by
      rw [readAt_of_le (by omega), List.drop_zero, htake]
    unfold putMessage
    rw [hread]
    exact ⟨_, _, rfl, fun m hm => by rw [← Option.some.inj hm]⟩
  unfold nmxptoolEwPd2ewring
  rw [hmsg, Option.bind_eq_bind, Option.bind_some]
  dsimp only
  split_ifs
  · exact ⟨_, _, rfl, fun m hm => absurd hm (Option.not_mem_none m)⟩
  · exact hput ew.typeWaveform2
  · exact hput ew.typeWaveform

end Message

/-! ### Decoded packets -/

section Decoded
variable {s : ReceiveSetting} {outdata : OutData} {body : List UInt8} {pd : Pd}

/-- The decoder reads 21 bytes first. -/
theorem length_of_decoded (h : nmxpProcessCompressedData s.host outdata body s.channelList
    s.networkCode s.locationCode = .ok pd) : 21 ≤ body.length := by
  obtain ⟨hdr, hhdr, -⟩ := bind_eq_ok.mp h
  obtain ⟨oldest, -, hhdr⟩ := bind_eq_ok.mp hhdr
  obtain ⟨nmxHdr, hread, -⟩ := bind_eq_ok.mp hhdr
  unfold readBytes at hread
  split_ifs at hread with hle
  exact hle

/-- A decoded packet has as many samples as it says: the differences of the body, or none. -/
theorem samples_of_decoded (h : nmxpProcessCompressedData s.host outdata body s.channelList
    s.networkCode s.locationCode = .ok pd) :
    (pd.samples.length : ℤ) = pd.nSamp.toInt ∧
      (Known s.channelList (headerKey body) → pd.samples.length = (diffs body).length) ∧
      (¬ Known s.channelList (headerKey body) → pd.samples = []) := by
  have hL := length_of_decoded h
  by_cases hkey : Known s.channelList (headerKey body)
  · have hpd := decoded_of_ok hL hkey h
    have hlen : pd.samples.length = (diffs body).length := by
      rw [hpd.samples, List.length_map, List.length_range]
    exact ⟨by rw [hlen, hpd.nSamp], fun _ => hlen, fun hn => absurd hkey hn⟩
  · rw [compressed_unknown s.host outdata hL (not_filler_of_ok hL h) hkey] at h
    rw [← Except.ok.inj h]
    exact ⟨rfl, fun hk => absurd hk hkey, fun _ => rfl⟩

/-- The copy that a Raw Stream makes of a packet has the same samples. -/
theorem samples_copyPd (pd : Pd) : (copyPd pd).samples = pd.samples := by
  by_cases h0 : pd.nSamp = 0
  · simp [copyPd, NmxpDataProcess.samples, h0]
  · simp [copyPd, NmxpDataProcess.samples, h0, List.take_take]

/-- The copy of a decoded packet gives a message that fits iff its body has few differences. -/
theorem messageFits_decoded (ew : Setting) (tbuf : TracePacket)
    (h : nmxpProcessCompressedData s.host outdata body s.channelList s.networkCode
      s.locationCode = .ok pd) :
    MessageFits ew s.host tbuf (copyPd pd) ↔ FewDiffs s.channelList body := by
  obtain ⟨hcount, hknown, hunknown⟩ := samples_of_decoded h
  have hsamples := samples_copyPd pd
  have hfits : MessageFits ew s.host tbuf (copyPd pd) ↔ _ :=
    traceMessage_iff ew s.host tbuf (by rw [hsamples]; exact hcount)
  rw [hfits, hsamples]
  constructor
  · intro hle hkey
    rwa [← hknown hkey]
  · intro hfew
    by_cases hkey : Known s.channelList (headerKey body)
    · rw [hknown hkey]
      exact hfew hkey
    · rw [hunknown hkey]
      exact Nat.zero_le _

end Decoded

/-! ### Full bundles -/

theorem length_wordsDiffs_le : ∀ (cs : List ℕ) (data : List UInt8),
    (wordsDiffs cs data).length ≤ 4 * cs.length
  | [], _ => Nat.zero_le _
  | c :: cs, data => by
    have hword : (wordDiffs c (data.take 4)).length ≤ 4 := by
      match c with
      | 0 => simp [wordDiffs]
      | 1 => simp [wordDiffs]
      | 2 => simp [wordDiffs]
      | c + 3 => simp [wordDiffs]
    have hrest := length_wordsDiffs_le cs (data.drop 4)
    rw [wordsDiffs, List.length_append, List.length_cons]
    omega

/-- A bundle has at most 16 differences. -/
theorem length_bundleDiffs_le (b : List UInt8) : (bundleDiffs b).length ≤ 16 := by
  cases b with
  | nil => exact Nat.zero_le _
  | cons c data => exact length_wordsDiffs_le _ data

theorem diffsBefore_le (data : List UInt8) (r : ℕ) : diffsBefore data r ≤ 16 * r := by
  have hall : ∀ bs : List (List UInt8), (bs.flatMap bundleDiffs).length ≤ 16 * bs.length := by
    intro bs
    induction bs with
    | nil => exact Nat.zero_le _
    | cons b bs ih =>
      have hb := length_bundleDiffs_le b
      rw [List.flatMap_cons, List.length_append, List.length_cons]
      omega
  have htake := (hall ((bundlesFrom data 0).take r)).trans
    (Nat.mul_le_mul_left 16 (List.length_take_le r _))
  exact htake

/-- Up to 255 whole bundles fit, whatever they hold. -/
theorem bundlesFit_of_length {data : List UInt8} {n : ℕ} (hlen : data.length = 17 * n)
    (hn : n ≤ 255) : BundlesFit data := by
  intro r hr _
  have hle := diffsBefore_le data r
  refine ⟨by omega, ?_⟩
  unfold MAX_OUTDATA
  omega

/-- The first packet of a stream is handed on at once. -/
theorem first_handed {pd : Pd} (h : 0 ≤ seqNum pd) (Q : Qsort) : ∃ p evs,
    manageAll Q 1 (nmxpRawStreamInit 10 0) [⟨some pd, fun _ => 0⟩] = .ok (p, evs) ∧
      copyPd pd ∈ handedTo 0 evs := by
  have harr : Arrivals (seqNum pd).toNat 0 [⟨some pd, fun _ => 0⟩] := by
    have hb : ((seqNum pd).toNat : ℤ) = seqNum pd := Int.toNat_of_nonneg h
    refine ⟨by simp, ?_, ?_, fun v h1 h2 => by omega⟩
    · simp [arrived, hb]
    · simp [arrived, h]
  have hrel : AllSteps (callStep Q 1) Relaxed (nmxpRawStreamInit 10 0)
      [⟨some pd, fun _ => 0⟩] := by
    have hlatency : ¬ .finite (nmxpRawStreamInit 10 0).maxTolerableLatency ≤
        nmxpDataLatency 0 (pending (nmxpRawStreamInit 10 0)).head? := by decide
    exact ⟨⟨by decide, hlatency⟩, fun _ _ _ => trivial⟩
  obtain ⟨p, evs, hrun, hin⟩ := complete_in_order harr hrel
  have hne : handedTo 0 evs ≠ [] := by
    intro hnil
    have := hin.handed 0 Nat.one_pos
    rw [hnil] at this
    exact absurd this (by simp)
  obtain ⟨x, hx⟩ := List.exists_mem_of_ne_nil _ hne
  obtain ⟨c, hc, pd', hpd', rfl⟩ := handedTo_origin hrun hx
  rw [List.mem_singleton.mp hc] at hpd'
  obtain rfl := Option.some.inj hpd'
  exact ⟨p, evs, hrun, hx⟩

/-- **Trace messages of decoded packets.** What a run of a Raw Stream hands on is the copy of a
packet of one of its calls. If this packet was decoded from a message body, the trace message is
built inside the `TracePacket`, and holds all samples, iff the body has at most 1008 differences or
a key that is not in the list. -/
theorem traceMessage_handedTo_iff (ew : Setting) (s : ReceiveSetting) (tbuf : TracePacket)
    {Q : Qsort} {nFuncPd : ℕ} {maxTolerableLatency timeoutrecv : Int32} {calls : List Call}
    {p : NmxpRawStreamData} {evs : List Event}
    (hrun : manageAll Q nFuncPd (nmxpRawStreamInit maxTolerableLatency timeoutrecv) calls =
      .ok (p, evs)) {i : ℕ} {x : Pd} (hx : x ∈ handedTo i evs) :
    (∃ c ∈ calls, ∃ pd, c.pd = some pd ∧ x = copyPd pd) ∧
      ∀ outdata body pd, nmxpProcessCompressedData s.host outdata body s.channelList
          s.networkCode s.locationCode = .ok pd → x = copyPd pd →
        (MessageFits ew s.host tbuf x ∧ x.samples = pd.samples ↔ FewDiffs s.channelList body) := by
  refine ⟨handedTo_origin hrun hx, fun outdata body pd hpd hcopy => ?_⟩
  subst hcopy
  rw [messageFits_decoded ew tbuf hpd, and_iff_left (samples_copyPd pd)]

/-- Earthworm without `TRACEBUF2`, and headers of zeros. -/
def plainEarthworm : Setting :=
  ⟨false, false, fun _ _ => ⟨List.replicate TRACE_HEADER_SIZE 0, List.length_replicate⟩, 20, 0,
    fun _ _ => true⟩

def zeroedPacket : TracePacket := ⟨List.replicate MAX_TRACEBUF_SIZ 0, List.length_replicate⟩

/-- A little-endian host, and a channel list with the channel of `oneBundle`. -/
def oneSetting : ReceiveSetting := ⟨.little, fun _ => 0, oneChannel 67174658, [], []⟩

/-- 64 bundles of 16 differences each. -/
def fullBundles : List UInt8 :=
  oneBundle.take 21 ++ (List.replicate 64 (85 :: List.replicate 16 1)).flatten

theorem traceMessage_full : ∃ outdata pd p evs,
    nmxpProcessCompressedData oneSetting.host outdata fullBundles oneSetting.channelList
      oneSetting.networkCode oneSetting.locationCode = .ok pd ∧
    manageAll insertion 1 (nmxpRawStreamInit 10 0) [⟨some pd, fun _ => 0⟩] = .ok (p, evs) ∧
    copyPd pd ∈ handedTo 0 evs ∧
    ¬ MessageFits plainEarthworm oneSetting.host zeroedPacket (copyPd pd) := by
  have hkey : Known oneSetting.channelList (headerKey fullBundles) := by decide +kernel
  have hdiffs : TRACE_SAMPLES < (diffs fullBundles).length := by decide +kernel
  have hlen : (fullBundles.drop 21).length = 17 * 64 := by decide +kernel
  have hfiller : ¬ Filler fullBundles := by
    unfold Filler
    decide +kernel
  have hok : CompressedOK oneSetting.channelList fullBundles :=
    ⟨hfiller, fun _ => bundlesFit_of_length hlen (by omega)⟩
  have hL : 21 ≤ fullBundles.length := by
    rw [List.length_drop] at hlen
    omega
  obtain ⟨pd, hpd, -⟩ := (compressed_iff oneSetting.host zeroed hL oneSetting.channelList
    oneSetting.networkCode oneSetting.locationCode).mpr hok
  have hseq : 0 ≤ seqNum pd := by
    rw [seqNum, (decoded_of_ok (length_of_decoded hpd) hkey hpd).seqNo]
    decide +kernel
  obtain ⟨p, evs, hrun, hhanded⟩ := first_handed hseq insertion
  refine ⟨zeroed, pd, p, evs, hpd, hrun, hhanded, fun hfits => ?_⟩
  have hfew := (messageFits_decoded plainEarthworm zeroedPacket hpd).mp hfits hkey
  omega

/-- The packet of `oneBundle` makes a message that fits. -/
theorem traceMessage_handedTo_iff_one : ∃ outdata pd p evs,
    nmxpProcessCompressedData oneSetting.host outdata oneBundle oneSetting.channelList
      oneSetting.networkCode oneSetting.locationCode = .ok pd ∧
    manageAll insertion 1 (nmxpRawStreamInit 10 0) [⟨some pd, fun _ => 0⟩] = .ok (p, evs) ∧
    copyPd pd ∈ handedTo 0 evs ∧
    MessageFits plainEarthworm oneSetting.host zeroedPacket (copyPd pd) := by
  have hok : (nmxpProcessCompressedData oneSetting.host zeroed oneBundle oneSetting.channelList
      oneSetting.networkCode oneSetting.locationCode).map (fun _ => ()) = .ok () := by
    decide +kernel
  have hkey : Known oneSetting.channelList (headerKey oneBundle) := by decide +kernel
  obtain ⟨pd, hpd, -⟩ := map_eq_ok.mp hok
  have hseq : 0 ≤ seqNum pd := by
    rw [seqNum, (decoded_of_ok (length_of_decoded hpd) hkey hpd).seqNo]
    decide +kernel
  obtain ⟨p, evs, hrun, hhanded⟩ := first_handed hseq insertion
  have hfits := ((traceMessage_handedTo_iff plainEarthworm oneSetting zeroedPacket hrun
    hhanded).2 zeroed oneBundle pd hpd rfl).mpr fun _ => by decide +kernel
  exact ⟨zeroed, pd, p, evs, hpd, hrun, hhanded, hfits.1⟩

end Nmxptool.RawStream.Earthworm
