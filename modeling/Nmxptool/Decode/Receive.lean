import Nmxptool.Decode.Compressed
import Nmxptool.Decode.Decompressed
import Nmxptool.Wire.Model

/-! # Receiving data

`nmxp_receiveData` receives one message into a buffer of `NMXP_MAX_LENGTH_DATA_BUFFER` zeros, and
hands the buffer and the length of the header to one of the two decoders, whatever that length is.

* `compressed_iff`, `decompressed_survives_iff`: when each decoder returns, with no more samples
  than there are.
* `survives_iff`: `nmxp_receiveData` for any message. -/

namespace Nmxptool.Decode.Receive

open Nmxptool.Data.Process Nmxptool.Chan.Channels Nmxptool.Lib.Run Nmxptool.Lib.Bytes
open Nmxptool.Lib.Recv Nmxptool.Wire.Model
open Nmxptool.Decode.Bundle Nmxptool.Decode.Compressed Nmxptool.Decode.Decompressed

def NMXP_MAX_LENGTH_DATA_BUFFER : ℕ := 4092 * 4
def NMXP_MSG_COMPRESSED : Int32 := 1

/-! ### Decoding from the buffer -/

/-- What `nmxp_processCompressedData` may read of a buffer, given a length: the header in any case,
and `length_data - 21` bytes after it. -/
def compressedView (buffer : List UInt8) (lengthData : Int32) : List UInt8 :=
  buffer.take (max 21 lengthData.toInt.toNat)

/-- `nmxp_processDecompressedData`, given a length. With fewer than 20 bytes it reads the key from
the buffer all the same, and if the key is known the size of its `memcpy` is negative. -/
def decompressedData (host : Host) (outdata : OutData) (buffer : List UInt8) (lengthData : Int32)
    (channelList : NmxpChanListNet) (networkCodeDefault locationCodeDefault : CStr) :
    Except Stop (NmxpDataProcess UInt64) :=
  if lengthData.toInt < 20 then do
    let key ← readBytes buffer 0 4
    match nmxpChanLookupName (ntohl host (int32 (load host key))) channelList with
    | none => return nmxpDataInit minusOne
    | some _ => .error .writePastEnd
  else
    nmxpProcessDecompressedData host outdata (buffer.take lengthData.toInt.toNat) channelList
      networkCodeDefault locationCodeDefault

/-- The packet with its time as a number. -/
def withTime {τ τ' : Type} (toTime : τ → τ') (pd : NmxpDataProcess τ) : NmxpDataProcess τ' where
  key := pd.key
  network := pd.network
  station := pd.station
  channel := pd.channel
  location := pd.location
  packetType := pd.packetType
  x0 := pd.x0
  xn := pd.xn
  x0nSignificant := pd.x0nSignificant
  oldestSeqNo := pd.oldestSeqNo
  seqNo := pd.seqNo
  time := toTime pd.time
  pDataPtr := pd.pDataPtr
  nSamp := pd.nSamp
  sampRate := pd.sampRate
  timingQuality := pd.timingQuality

/-- The buffer after a message is received: what was received over zeros. -/
def bufferOf (body : List UInt8) : List UInt8 :=
  body ++ List.replicate (NMXP_MAX_LENGTH_DATA_BUFFER - body.length) 0

/-- What does not change between two calls of `nmxp_receiveData`; `toTime` is the number that a
double stands for. -/
structure ReceiveSetting where
  host : Host
  toTime : UInt64 → ℚ
  channelList : NmxpChanListNet
  networkCode : CStr
  locationCode : CStr

/-- `nmxp_receiveData`, once the message has been received. -/
def processMessage (s : ReceiveSetting) (outdata : OutData) (r : Received) :
    Except Stop (Option (NmxpDataProcess ℚ)) :=
  if r.ret = NMXP_SOCKET_OK then
    if r.type = NMXP_MSG_COMPRESSED then do
      let pd ← nmxpProcessCompressedData s.host outdata (compressedView (bufferOf r.body) r.length)
        s.channelList s.networkCode s.locationCode
      return some pd
    else if r.type = NMXP_MSG_DECOMPRESSED then do
      let pd ← decompressedData s.host outdata (bufferOf r.body) r.length s.channelList
        s.networkCode s.locationCode
      return some (withTime s.toTime pd)
    else return none
  else return none

/-- **`nmxp_receiveData`.** -/
def nmxpReceiveData (s : ReceiveSetting) (outdata : OutData) (link : Link UInt8) :
    Except Stop (Option (NmxpDataProcess ℚ)) × Link UInt8 :=
  let r := nmxpReceiveMessage s.host NMXP_MAX_LENGTH_DATA_BUFFER link
  (processMessage s outdata r.1, r.2)

/-! ### What is asked of a message -/

/-- The channel list has a channel with the key. -/
def Known (channelList : NmxpChanListNet) (key : Int32) : Prop :=
  ∃ ch ∈ channelList.channel, ch.key = key

instance (channelList : NmxpChanListNet) (key : Int32) : Decidable (Known channelList key) :=
  inferInstanceAs (Decidable (∃ ch ∈ channelList.channel, ch.key = key))

/-- The number of differences in the first `r` bundles. -/
def diffsBefore (data : List UInt8) (r : ℕ) : ℕ :=
  (((bundlesFrom data 0).take r).flatMap bundleDiffs).length

/-- A bundle can be unpacked: it is complete, and what is before it leaves room for 16 samples. -/
def BundleFits (data : List UInt8) (r : ℕ) : Prop :=
  17 * r + 17 ≤ data.length ∧ 1 + diffsBefore data r + 16 ≤ MAX_OUTDATA

/-- No bundle before another one is a null bundle. -/
def NoNullBefore (data : List UInt8) (r : ℕ) : Prop := ∀ j < r, data[17 * j]? ≠ some 9

/-- Every bundle up to the first null bundle can be unpacked. -/
def BundlesFit (data : List UInt8) : Prop :=
  ∀ r, 17 * r < data.length → NoNullBefore data r → BundleFits data r

/-- **A compressed message that can be decoded**: it is no filler packet, and if its key is known
the bundles fit. -/
structure CompressedOK (channelList : NmxpChanListNet) (view : List UInt8) : Prop where
  filler : ¬ Filler view
  bundles : Known channelList (headerKey view) → BundlesFit (view.drop 21)

/-- The integer at an offset, from network order. -/
def networkField (buffer : List UInt8) (off : ℕ) : Int32 := int32 (load .big (field buffer off 4))

/-- **A decompressed message that can be decoded**: if its key is known, it has a whole header and
as many samples as that says. -/
def DecompressedOK (channelList : NmxpChanListNet) (buffer : List UInt8) (lengthData : Int32) :
    Prop :=
  Known channelList (networkField buffer 0) →
    20 ≤ lengthData.toInt ∧ (networkField buffer 12).toInt ≤ (lengthData.toInt - 20) / 4

/-- The number of samples present in a message. -/
def samplesPresent (r : Received) : ℕ :=
  if r.type = NMXP_MSG_COMPRESSED then (diffs (compressedView (bufferOf r.body) r.length)).length
  else ((r.length.toInt - 20) / 4).toNat

/-- **`nmxp_receiveData` returns to its caller**, with no more samples than are present. -/
def Survives (s : ReceiveSetting) (outdata : OutData) (r : Received) : Prop :=
  ∃ pd, processMessage s outdata r = .ok pd ∧
    ∀ p ∈ pd, p.nSamp.toInt ≤ samplesPresent r

/-- What a message must be for that. -/
def MessageOK (s : ReceiveSetting) (r : Received) : Prop :=
  r.ret = NMXP_SOCKET_OK →
    (r.type = NMXP_MSG_COMPRESSED →
      CompressedOK s.channelList (compressedView (bufferOf r.body) r.length)) ∧
    (r.type = NMXP_MSG_DECOMPRESSED → DecompressedOK s.channelList (bufferOf r.body) r.length)

/-! ### Compressed messages -/

theorem diffsBefore_succ {data : List UInt8} {r : ℕ} (h : 17 * r + 17 ≤ data.length) :
    diffsBefore data (r + 1) =
      diffsBefore data r + (bundleDiffs (data.drop (17 * r))).length := by
  have hr : (bundlesFrom data 0)[r]? = some ((data.drop (17 * r)).take 17) := by
    unfold bundlesFrom
    rw [List.getElem?_map, List.getElem?_range' (by omega)]
    simp
  unfold diffsBefore
  rw [List.take_add_one, hr, List.flatMap_append, List.length_append, Option.toList_some,
    List.flatMap_singleton, bundleDiffs_take]

theorem noNullBefore_succ {data : List UInt8} {r : ℕ} :
    NoNullBefore data (r + 1) ↔ NoNullBefore data r ∧ data[17 * r]? ≠ some 9 := by
  unfold NoNullBefore
  rw [Nat.forall_lt_succ_right]

/-- **The loop over the bundles** comes to its end iff every bundle that it meets fits. -/
theorem unpackLoop_isOk_iff (host : Host) (data : List UInt8) (x0 : ℤ) : ∀ (left r : ℕ)
    (ds : List ℤ) (outdata : OutData) (nout : ℕ) (prev : Int32),
    left + r = (data.length + 16) / 17 → Holding x0 ds outdata nout prev →
    ds.length = diffsBefore data r → NoNullBefore data r →
    ((∃ res, unpackLoop host data left (17 * r) outdata nout prev = .ok res) ↔
      ∀ r' ≥ r, 17 * r' < data.length → NoNullBefore data r' → BundleFits data r') := by
  intro left
  induction left with
  | zero =>
    intro r ds outdata nout prev hr h _ _
    exact iff_of_true ⟨_, rfl⟩ fun r' hr' hlt => by omega
  | succ left ih =>
    intro r ds outdata nout prev hr h hds hnull
    have hlt : 17 * r < data.length := by omega
    have hcount := h.count
    unfold unpackLoop
    split_ifs with h1 h2
    · refine iff_of_false (by simp) fun hall => ?_
      have := (hall r le_rfl hlt hnull).1
      omega
    · refine iff_of_false (by simp) fun hall => ?_
      have := (hall r le_rfl hlt hnull).2
      omega
    · have hfit : BundleFits data r := ⟨by omega, by omega⟩
      obtain ⟨c, rest, hdrop, hrest, hc⟩ := bundle_cons hfit.1
      rw [hdrop]
      rcases unpackBundle_ok host h (by omega) (c := c) hrest with ⟨rfl, hb⟩ |
        ⟨h9, k, o', p', hb, h'⟩
      · rw [hb]
        refine iff_of_true ⟨_, rfl⟩ fun r' hr' _ hnull' => ?_
        rcases eq_or_lt_of_le hr' with rfl | hlt'
        · exact hfit
        · exact absurd hc (hnull' r hlt')
      · have hk : ¬ ((k : ℕ) : ℤ) < 0 := by omega
        rw [hb, ok_bind]
        simp only [if_neg hk, Int.toNat_natCast]
        have hds' : (ds ++ bundleDiffs (c :: rest)).length = diffsBefore data (r + 1) := by
          rw [List.length_append, hds, diffsBefore_succ hfit.1, hdrop]
        have hnull' : NoNullBefore data (r + 1) := noNullBefore_succ.mpr
          ⟨hnull, fun h => h9 (Option.some.inj (hc.symm.trans h))⟩
        refine (ih (r + 1) _ o' _ p' (by omega) h' hds' hnull').trans ⟨fun hall r' hr' => ?_,
          fun hall r' hr' => hall r' (by omega)⟩
        rcases eq_or_lt_of_le hr' with rfl | hlt'
        · exact fun _ _ => hfit
        · exact hall r' hlt'

theorem unpackSamples_isOk_iff (host : Host) (outdata : OutData) (x0 : Int32)
    (data : List UInt8) :
    (∃ res, unpackSamples host outdata x0 data = .ok res) ↔ BundlesFit data := by
  obtain ⟨o0, hw, h0⟩ := write_x0 outdata x0
  have hloop := unpackLoop_isOk_iff host data x0.toInt ((data.length + 16) / 17) 0 [] o0 1 x0 rfl
    h0 rfl fun j hj => absurd hj (Nat.not_lt_zero j)
  have hall : BundlesFit data ↔
      ∀ r' ≥ 0, 17 * r' < data.length → NoNullBefore data r' → BundleFits data r' :=
    forall_congr' fun r => ⟨fun h _ => h, fun h => h (Nat.zero_le r)⟩
  rw [Nat.mul_zero] at hloop
  rw [hall, ← hloop]
  unfold unpackSamples
  rw [hw, ok_bind]
  cases unpackLoop host data ((data.length + 16) / 17) 0 o0 1 x0 with
  | error e => exact iff_of_false (by simp [error_bind]) (by simp)
  | ok res => exact iff_of_true ⟨_, rfl⟩ ⟨_, rfl⟩

theorem lookupName_unknown {channelList : NmxpChanListNet} {key : Int32}
    (h : ¬ Known channelList key) : nmxpChanLookupName key channelList = none :=
  nmxpChanLookupName_eq_none.mpr fun hmem => h (List.mem_map.mp hmem)

/-- A packet with a key that is not in the list comes back with default fields. -/
theorem compressed_unknown (host : Host) (outdata : OutData) {body : List UInt8}
    (hL : 21 ≤ body.length) (hfiller : ¬ Filler body) {channelList : NmxpChanListNet}
    (hkey : ¬ Known channelList (headerKey body)) (networkCodeDefault locationCodeDefault : CStr) :
    nmxpProcessCompressedData host outdata body channelList networkCodeDefault
      locationCodeDefault = .ok (nmxpDataInit (-1)) := by
  rcases readHdr_cases hL with ⟨h9, -⟩ | ⟨-, hdr, h, hok⟩
  · exact absurd h9 hfiller
  · rw [← hok.key] at hkey
    simp only [nmxpProcessCompressedData, h host, ok_bind, lookupName_unknown hkey]
    rfl

/-- **Compressed messages**: the decoder returns, with just the differences of the body, iff the
message can be decoded. -/
theorem compressed_iff (host : Host) (outdata : OutData) {body : List UInt8}
    (hL : 21 ≤ body.length) (channelList : NmxpChanListNet)
    (networkCodeDefault locationCodeDefault : CStr) :
    (∃ pd, nmxpProcessCompressedData host outdata body channelList networkCodeDefault
        locationCodeDefault = .ok pd ∧ pd.nSamp.toInt ≤ (diffs body).length) ↔
      CompressedOK channelList body := by
  rcases readHdr_cases hL with ⟨hfiller, h⟩ | ⟨hfiller, hdr, h, hok⟩
  · refine iff_of_false ?_ fun hc => hc.filler hfiller
    simp [nmxpProcessCompressedData, h host, error_bind]
  by_cases hkey : Known channelList (headerKey body)
  · obtain ⟨name, hname⟩ := nmxpChanLookupName_isSome hkey
    rw [← hok.key] at hname
    have hfit : CompressedOK channelList body ↔ BundlesFit (body.drop 21) :=
      ⟨fun hc => hc.bundles hkey, fun hb => ⟨hfiller, fun _ => hb⟩⟩
    rw [hfit, ← unpackSamples_isOk_iff host outdata hdr.nmxX0]
    rcases decoded_or_exit host outdata networkCodeDefault locationCodeDefault hL hkey with
      ⟨status, hexit⟩ | ⟨pd, hpd, hdecoded⟩
    · refine iff_of_false ?_ ?_
      · rw [hexit]
        simp
      · rintro ⟨⟨o', n'⟩, hs⟩
        simp only [nmxpProcessCompressedData, h host, ok_bind, hname, hs] at hexit
        unfold OutData.read at hexit
        split at hexit <;> simp [error_bind, ok_bind] at hexit
    · refine iff_of_true ⟨pd, hpd, hdecoded.nSamp.le⟩ ?_
      cases hs : unpackSamples host outdata hdr.nmxX0 (body.drop 21) with
      | ok res => exact ⟨res, rfl⟩
      | error e =>
        simp only [nmxpProcessCompressedData, h host, ok_bind, hname, hs, error_bind] at hpd
        exact absurd hpd (by simp)
  · exact iff_of_true ⟨nmxpDataInit (-1), compressed_unknown host outdata hL hfiller hkey _ _,
      Int.natCast_nonneg _⟩ ⟨hfiller, fun hk => absurd hk hkey⟩

/-! ### Decompressed messages -/

/-- The loop that swaps the samples comes to its end iff it stays in the array. -/
theorem swapSamples_isOk_iff (host : Host) : ∀ (left idx : ℕ) (outdata : OutData),
    (∃ o, swapSamples host left idx outdata = .ok o) ↔ left = 0 ∨ idx + left ≤ MAX_OUTDATA
  | 0, _, outdata => iff_of_true ⟨outdata, rfl⟩ (Or.inl rfl)
  | left + 1, idx, outdata => by
    unfold swapSamples
    by_cases hidx : idx < MAX_OUTDATA
    · have hread : ∃ v, outdata.read idx = .ok v := by
        unfold OutData.read
        rw [List.getElem?_eq_getElem (by rw [outdata.size]; exact hidx)]
        exact ⟨_, rfl⟩
      obtain ⟨v, hread⟩ := hread
      rw [hread, ok_bind, OutData.write, if_pos hidx, ok_bind, swapSamples_isOk_iff host left]
      omega
    · have hread : outdata.read idx = .error .readPastEnd := by
        unfold OutData.read
        rw [List.getElem?_eq_none (by rw [outdata.size]; omega)]
      rw [hread, error_bind]
      exact iff_of_false (by simp) (by omega)

theorem ntohl_field (host : Host) (buffer : List UInt8) (off : ℕ) (h : off + 4 ≤ buffer.length) :
    ntohl host (int32 (load host ((buffer.drop off).take 4))) = networkField buffer off :=
  ntohl_load host (length_field h)

theorem field_take {buffer : List UInt8} {off n L : ℕ} (h : off + n ≤ L) :
    field (buffer.take L) off n = field buffer off n := by
  unfold field
  rw [List.drop_take, List.take_take, min_eq_left (by omega)]

theorem networkField_take {buffer : List UInt8} {off L : ℕ} (h : off + 4 ≤ L) :
    networkField (buffer.take L) off = networkField buffer off := by
  unfold networkField
  rw [field_take h]

/-- The key is read from the buffer, whatever the length. With an unknown key a packet with default
fields comes back. -/
theorem decompressed_cases (host : Host) (outdata : OutData) {buffer : List UInt8}
    (h4 : 4 ≤ buffer.length) (lengthData : Int32) (channelList : NmxpChanListNet)
    (networkCodeDefault locationCodeDefault : CStr) :
    (¬ Known channelList (networkField buffer 0) ∧
      decompressedData host outdata buffer lengthData channelList networkCodeDefault
        locationCodeDefault = .ok (nmxpDataInit minusOne)) ∨
    (Known channelList (networkField buffer 0) ∧ ∀ pd,
      decompressedData host outdata buffer lengthData channelList networkCodeDefault
        locationCodeDefault = .ok pd → pd.key = networkField buffer 0) := by
  have hread : ∀ L, 4 ≤ L → ∃ m, readBytes (buffer.take L) 0 4 = .ok m ∧
      ntohl host (int32 (load host m)) = networkField buffer 0 := fun L hL => by
    refine ⟨_, readBytes_ok (by rw [List.length_take]; omega), ?_⟩
    rw [ntohl_field host _ 0 (by rw [List.length_take]; omega), networkField_take (by omega)]
  unfold decompressedData
  by_cases hkey : Known channelList (networkField buffer 0)
  · obtain ⟨name, hname⟩ := nmxpChanLookupName_isSome hkey
    refine Or.inr ⟨hkey, fun pd h => ?_⟩
    split_ifs at h with hshort
    · rw [readBytes_ok (by omega), ok_bind, ntohl_field host _ 0 (by omega), hname] at h
      exact absurd h (by simp)
    · obtain ⟨m, hm, hn⟩ := hread lengthData.toInt.toNat (by omega)
      unfold nmxpProcessDecompressedData at h
      rw [hm, ok_bind] at h
      dsimp only at h
      rw [hn, hname] at h
      obtain ⟨time, -, h⟩ := bind_eq_ok.mp h
      obtain ⟨nSamp, -, h⟩ := bind_eq_ok.mp h
      obtain ⟨sampRate, -, h⟩ := bind_eq_ok.mp h
      obtain ⟨o1, -, h⟩ := bind_eq_ok.mp h
      obtain ⟨o2, -, h⟩ := bind_eq_ok.mp h
      rw [← Except.ok.inj h]
      rfl
  · refine Or.inl ⟨hkey, ?_⟩
    split_ifs with hshort
    · rw [readBytes_ok (by omega), ok_bind, ntohl_field host _ 0 (by omega),
        lookupName_unknown hkey]
      rfl
    · obtain ⟨m, hm, hn⟩ := hread lengthData.toInt.toNat (by omega)
      unfold nmxpProcessDecompressedData
      rw [hm, ok_bind]
      dsimp only
      rw [hn, lookupName_unknown hkey]
      rfl

/-- The decoder, given a whole header with a known key. -/
theorem fullHeader_iff (host : Host) (outdata : OutData) (body : List UInt8)
    (h20 : 20 ≤ body.length) (hmax : body.length ≤ NMXP_MAX_LENGTH_DATA_BUFFER)
    (channelList : NmxpChanListNet) (networkCodeDefault locationCodeDefault : CStr)
    (hkey : Known channelList (networkField body 0)) :
    (∃ pd, nmxpProcessDecompressedData host outdata body channelList networkCodeDefault
        locationCodeDefault = .ok pd ∧ pd.nSamp.toInt ≤ ((body.length - 20) / 4 : ℕ)) ↔
      (networkField body 12).toInt ≤ ((body.length - 20) / 4 : ℕ) := by
  unfold NMXP_MAX_LENGTH_DATA_BUFFER at hmax
  have h0 := ntohl_field host body 0 (by omega)
  have h12 := ntohl_field host body 12 (by omega)
  obtain ⟨name, hname⟩ := nmxpChanLookupName_isSome hkey
  have hcopy : memcpy host outdata (body.drop 20) = .ok ⟨overwrite host (body.drop 20)
      outdata.cells, by rw [length_overwrite, outdata.size]⟩ := by
    refine if_pos ?_
    rw [List.length_drop]
    unfold MAX_OUTDATA
    omega
  unfold nmxpProcessDecompressedData
  rw [readBytes_ok (by omega), ok_bind]
  dsimp only
  rw [h0, hname]
  dsimp only
  rw [readBytes_ok (by omega), ok_bind, readBytes_ok (by omega), ok_bind,
    readBytes_ok (by omega), ok_bind, h12, hcopy, ok_bind]
  have hswap := swapSamples_isOk_iff host (networkField body 12).toInt.toNat 0 ⟨overwrite host
    (body.drop 20) outdata.cells, by rw [length_overwrite, outdata.size]⟩
  cases hrun : swapSamples host (networkField body 12).toInt.toNat 0 ⟨overwrite host
    (body.drop 20) outdata.cells, by rw [length_overwrite, outdata.size]⟩ with
  | error e =>
    rw [hrun] at hswap
    refine iff_of_false (by simp [error_bind]) fun hle => ?_
    have := hswap.mpr (by unfold MAX_OUTDATA; omega)
    exact absurd this (by simp)
  | ok o =>
    rw [ok_bind]
    constructor
    · rintro ⟨pd, hpd, hle⟩
      rw [← Except.ok.inj hpd] at hle
      exact hle
    · exact fun hle => ⟨_, rfl, hle⟩

/-- **Decompressed messages**: the decoder returns, with no more samples than are present, iff the
message can be decoded. -/
theorem decompressed_survives_iff (host : Host) (outdata : OutData) {buffer : List UInt8}
    (hbuffer : buffer.length = NMXP_MAX_LENGTH_DATA_BUFFER) {lengthData : Int32}
    (hlength : lengthData.toInt ≤ NMXP_MAX_LENGTH_DATA_BUFFER) (channelList : NmxpChanListNet)
    (networkCodeDefault locationCodeDefault : CStr) :
    (∃ pd, decompressedData host outdata buffer lengthData channelList networkCodeDefault
        locationCodeDefault = .ok pd ∧
        pd.nSamp.toInt ≤ ((lengthData.toInt - 20) / 4).toNat) ↔
      DecompressedOK channelList buffer lengthData := by
  unfold NMXP_MAX_LENGTH_DATA_BUFFER at hbuffer hlength
  rcases decompressed_cases host outdata (by omega : 4 ≤ buffer.length) lengthData channelList
    networkCodeDefault locationCodeDefault with ⟨hkey, hdefault⟩ | ⟨hkey, -⟩
  · rw [hdefault]
    exact iff_of_true ⟨_, rfl, Int.natCast_nonneg _⟩ fun h => absurd h hkey
  unfold decompressedData DecompressedOK
  rw [forall_prop_of_true hkey]
  by_cases hshort : lengthData.toInt < 20
  · obtain ⟨name, hname⟩ := nmxpChanLookupName_isSome hkey
    rw [if_pos hshort, readBytes_ok (by omega), ok_bind, ntohl_field host _ 0 (by omega), hname]
    exact iff_of_false (by simp) fun h => not_le.mpr hshort h.1
  · have hlen : (buffer.take lengthData.toInt.toNat).length = lengthData.toInt.toNat :=
      List.length_take_of_le (by omega)
    have hpresent :
        (((lengthData.toInt.toNat - 20) / 4 : ℕ) : ℤ) = (lengthData.toInt - 20) / 4 := by
      omega
    have hiff := fullHeader_iff host outdata (buffer.take lengthData.toInt.toNat)
      (by omega) (by unfold NMXP_MAX_LENGTH_DATA_BUFFER; omega) channelList networkCodeDefault
      locationCodeDefault
    rw [networkField_take (by omega), networkField_take (by omega), hlen, hpresent] at hiff
    rw [if_neg hshort, Int.toNat_of_nonneg (by omega), hiff hkey]
    exact ⟨fun h => ⟨by omega, h⟩, And.right⟩

/-! ### The key of a packet -/

/-- A message that is decoded, with data of a channel that is not in the list. -/
def UnknownKey (s : ReceiveSetting) (r : Received) : Prop :=
  r.ret = NMXP_SOCKET_OK ∧
    ((r.type = NMXP_MSG_COMPRESSED ∧ ¬ Filler (compressedView (bufferOf r.body) r.length) ∧
        ¬ Known s.channelList (headerKey (compressedView (bufferOf r.body) r.length))) ∨
      (r.type = NMXP_MSG_DECOMPRESSED ∧ ¬ Known s.channelList (networkField (bufferOf r.body) 0)))

theorem length_bufferOf (body : List UInt8) :
    NMXP_MAX_LENGTH_DATA_BUFFER ≤ (bufferOf body).length := by
  unfold bufferOf
  rw [List.length_append, List.length_replicate]
  omega

/-- The header is read in any case. -/
theorem length_compressedView {buffer : List UInt8}
    (h : NMXP_MAX_LENGTH_DATA_BUFFER ≤ buffer.length)
    (lengthData : Int32) : 21 ≤ (compressedView buffer lengthData).length := by
  unfold NMXP_MAX_LENGTH_DATA_BUFFER at h
  unfold compressedView
  rw [List.length_take]
  omega

/-- The program does not survive a filler packet. -/
theorem not_filler_of_ok {host : Host} {outdata : OutData} {body : List UInt8}
    (hL : 21 ≤ body.length) {channelList : NmxpChanListNet}
    {networkCodeDefault locationCodeDefault : CStr} {pd : NmxpDataProcess ℚ}
    (h : nmxpProcessCompressedData host outdata body channelList networkCodeDefault
      locationCodeDefault = .ok pd) : ¬ Filler body := by
  intro hf
  rcases readHdr_cases hL with ⟨-, he⟩ | ⟨hn, -⟩
  · rw [nmxpProcessCompressedData, he host, error_bind] at h
    exact absurd h (by simp)
  · exact hn hf

/-- A packet decoded with a known key has this key. -/
theorem compressed_key (host : Host) (outdata : OutData) {body : List UInt8}
    (hL : 21 ≤ body.length) {channelList : NmxpChanListNet}
    (hkey : Known channelList (headerKey body)) {networkCodeDefault locationCodeDefault : CStr}
    {pd : NmxpDataProcess ℚ} (h : nmxpProcessCompressedData host outdata body channelList
      networkCodeDefault locationCodeDefault = .ok pd) : pd.key = headerKey body :=
  (decoded_of_ok hL hkey h).key

/-- **A packet with an unknown key** comes back with default fields. -/
theorem processMessage_unknown {s : ReceiveSetting} (htime : s.toTime minusOne = -1)
    (outdata : OutData) {r : Received} (h : UnknownKey s r) :
    processMessage s outdata r = .ok (some (nmxpDataInit (-1))) := by
  have hbuffer := length_bufferOf r.body
  obtain ⟨hret, ⟨hc, hfiller, hkey⟩ | ⟨hd, hkey⟩⟩ := h
  · unfold processMessage
    rw [if_pos hret, if_pos hc, compressed_unknown s.host outdata
      (length_compressedView hbuffer r.length) hfiller hkey, ok_bind]
    rfl
  · have hc : r.type ≠ NMXP_MSG_COMPRESSED := by rw [hd]; decide
    unfold processMessage
    rw [if_pos hret, if_neg hc, if_pos hd]
    unfold NMXP_MAX_LENGTH_DATA_BUFFER at hbuffer
    rcases decompressed_cases s.host outdata (by omega : 4 ≤ (bufferOf r.body).length) r.length
      s.channelList s.networkCode s.locationCode with ⟨-, hpd⟩ | ⟨hk, -⟩
    · rw [hpd, ok_bind, ← htime]
      rfl
    · exact absurd hk hkey

/-- Every other packet has a key of the list. -/
theorem processMessage_known {s : ReceiveSetting} {outdata : OutData} {r : Received}
    {pd : NmxpDataProcess ℚ} (h : processMessage s outdata r = .ok (some pd))
    (hknown : ¬ UnknownKey s r) : Known s.channelList pd.key := by
  have hbuffer := length_bufferOf r.body
  unfold processMessage at h
  split_ifs at h with hret hc hd
  · obtain ⟨pd', hpd, h⟩ := bind_eq_ok.mp h
    obtain rfl := Option.some.inj (Except.ok.inj h)
    have hL := length_compressedView hbuffer r.length
    have hfiller := not_filler_of_ok hL hpd
    have hkey : Known s.channelList (headerKey (compressedView (bufferOf r.body) r.length)) :=
      not_not.mp fun hn => hknown ⟨hret, Or.inl ⟨hc, hfiller, hn⟩⟩
    rw [compressed_key s.host outdata hL hkey hpd]
    exact hkey
  · obtain ⟨pd', hpd, h⟩ := bind_eq_ok.mp h
    obtain rfl := Option.some.inj (Except.ok.inj h)
    unfold NMXP_MAX_LENGTH_DATA_BUFFER at hbuffer
    rcases decompressed_cases s.host outdata (by omega : 4 ≤ (bufferOf r.body).length) r.length
      s.channelList s.networkCode s.locationCode with ⟨hn, -⟩ | ⟨hk, hall⟩
    · exact absurd ⟨hret, Or.inr ⟨hd, hn⟩⟩ hknown
    · show Known s.channelList pd'.key
      rw [hall pd' hpd]
      exact hk
  · exact absurd h (by simp)
  · exact absurd h (by simp)

/-! ### Any message -/

theorem nmxpRecvCtrl_ok {length : ℕ} {link : Link UInt8}
    (h : (nmxpRecvCtrl length link).ret = NMXP_SOCKET_OK) :
    (nmxpRecvCtrl length link).buffer.length = length := by
  revert h
  unfold nmxpRecvCtrl
  dsimp only
  split_ifs with h1 h2 h3 h3
  all_goals first
    | exact fun h => absurd h error_ne_ok
    | skip
  · exact fun _ => not_not.mp fun hne => h3 (Or.inl hne)
  · exact fun _ => not_not.mp fun hne => h3 (Or.inl hne)
  · exact fun _ => not_not.mp fun hne => h1 (Or.inl hne)

theorem nmxpReceiveHeader_body (host : Host) (link : Link UInt8) :
    (nmxpReceiveHeader host link).1.body = [] := by
  unfold nmxpReceiveHeader
  dsimp only
  split_ifs <;> rfl

/-- What is received fits the buffer, and all of it has come. -/
theorem received_ok (host : Host) (bufferLength : ℕ) (link : Link UInt8)
    (h : (nmxpReceiveMessage host bufferLength link).1.ret = NMXP_SOCKET_OK) :
    (nmxpReceiveMessage host bufferLength link).1.length.toInt ≤ bufferLength ∧
      (nmxpReceiveMessage host bufferLength link).1.body.length =
        (nmxpReceiveMessage host bufferLength link).1.length.toInt.toNat := by
  revert h
  have hbody := nmxpReceiveHeader_body host link
  unfold nmxpReceiveMessage
  generalize nmxpReceiveHeader host link = r at hbody
  obtain ⟨r, link'⟩ := r
  dsimp only at hbody ⊢
  split_ifs with h1 h2 h3
  · exact fun h => absurd h error_ne_ok
  · exact fun h => ⟨not_lt.mp h2, nmxpRecvCtrl_ok h⟩
  · refine fun _ => ⟨not_lt.mp h2, ?_⟩
    have hle : ¬ r.length.toInt > 0 := h3
    show r.body.length = r.length.toInt.toNat
    rw [hbody, List.length_nil]
    omega
  · exact fun h => absurd h h1

/-- A decoder's packet, handed on. -/
theorem handedOn_iff {α β : Type} (e : Except Stop α) (f : α → β) (P : β → Prop) :
    (∃ p, (do let pd ← e; return some (f pd)) = Except.ok p ∧ ∀ q ∈ p, P q) ↔
      ∃ pd, e = .ok pd ∧ P (f pd) := by
  cases e with
  | error e => exact iff_of_false (by simp [error_bind]) (by simp)
  | ok pd =>
    rw [ok_bind]
    constructor
    · rintro ⟨p, hp, hall⟩
      obtain rfl := Except.ok.inj hp
      exact ⟨pd, rfl, hall _ rfl⟩
    · rintro ⟨pd', hpd, h⟩
      obtain rfl := Except.ok.inj hpd
      refine ⟨_, rfl, fun q hq => ?_⟩
      obtain rfl := Option.some.inj hq
      exact h

/-- **Receiving data.** Whatever comes, `nmxp_receiveData` returns to its caller, with no more
samples than the message has, iff the message can be decoded. -/
theorem survives_iff (s : ReceiveSetting) (outdata : OutData) (link : Link UInt8) :
    Survives s outdata (nmxpReceiveMessage s.host NMXP_MAX_LENGTH_DATA_BUFFER link).1 ↔
      MessageOK s (nmxpReceiveMessage s.host NMXP_MAX_LENGTH_DATA_BUFFER link).1 := by
  have hreceived := received_ok s.host NMXP_MAX_LENGTH_DATA_BUFFER link
  generalize (nmxpReceiveMessage s.host NMXP_MAX_LENGTH_DATA_BUFFER link).1 = r at hreceived
  unfold Survives MessageOK processMessage
  by_cases hret : r.ret = NMXP_SOCKET_OK
  · obtain ⟨hlength, hbody⟩ := hreceived hret
    have hbuffer : (bufferOf r.body).length = NMXP_MAX_LENGTH_DATA_BUFFER := by
      unfold bufferOf
      rw [List.length_append, List.length_replicate]
      omega
    rw [if_pos hret, forall_prop_of_true hret]
    by_cases hc : r.type = NMXP_MSG_COMPRESSED
    · have hd : r.type ≠ NMXP_MSG_DECOMPRESSED := by rw [hc]; decide
      have hview := length_compressedView (length_bufferOf r.body) r.length
      have hpresent : samplesPresent r =
          (diffs (compressedView (bufferOf r.body) r.length)).length := if_pos hc
      rw [if_pos hc, forall_prop_of_true hc, forall_prop_of_false hd, and_true, hpresent,
        ← compressed_iff s.host outdata hview s.channelList s.networkCode s.locationCode]
      exact handedOn_iff _ (fun pd : NmxpDataProcess ℚ => pd) fun pd => pd.nSamp.toInt ≤
        ((diffs (compressedView (bufferOf r.body) r.length)).length : ℤ)
    · have hpresent : samplesPresent r = ((r.length.toInt - 20) / 4).toNat := if_neg hc
      rw [if_neg hc, forall_prop_of_false hc, true_and, hpresent]
      by_cases hd : r.type = NMXP_MSG_DECOMPRESSED
      · rw [if_pos hd, forall_prop_of_true hd, ← decompressed_survives_iff s.host outdata hbuffer
          hlength s.channelList s.networkCode s.locationCode]
        exact handedOn_iff _ (withTime s.toTime) fun pd : NmxpDataProcess ℚ => pd.nSamp.toInt ≤
          (((r.length.toInt - 20) / 4).toNat : ℤ)
      · rw [if_neg hd, forall_prop_of_false hd]
        exact iff_of_true ⟨none, rfl, by simp⟩ trivial
  · rw [if_neg hret, forall_prop_of_false hret]
    exact iff_of_true ⟨none, rfl, by simp⟩ trivial

def someSetting : ReceiveSetting := ⟨.little, fun _ => 0, oneChannel 1, [], []⟩

/-- The body of a filler packet. -/
def fillerPacket : List UInt8 := [0, 0, 0, 0, 9] ++ List.replicate 16 0

/-- It arrives as a compressed message. -/
def fillerLink : Link UInt8 :=
  ⟨network32 NMX_SIGNATURE ++ network32 NMXP_MSG_COMPRESSED ++ network32 21 ++ fillerPacket,
    Stream'.const (.chunk 100)⟩

/-- A filler packet ends the process. -/
theorem survives_filler :
    (nmxpReceiveMessage someSetting.host NMXP_MAX_LENGTH_DATA_BUFFER fillerLink).1 =
      ⟨NMXP_SOCKET_OK, NMXP_MSG_COMPRESSED, 21, fillerPacket, 0⟩ ∧
    (nmxpReceiveData someSetting zeroed fillerLink).1 = .error (.exit 0) ∧
    ¬ Survives someSetting zeroed
      (nmxpReceiveMessage someSetting.host NMXP_MAX_LENGTH_DATA_BUFFER fillerLink).1 := by
  have hmessage : (nmxpReceiveMessage someSetting.host NMXP_MAX_LENGTH_DATA_BUFFER fillerLink).1 =
      ⟨NMXP_SOCKET_OK, NMXP_MSG_COMPRESSED, 21, fillerPacket, 0⟩ := by decide +kernel
  have hexit : (nmxpReceiveData someSetting zeroed fillerLink).1 = .error (.exit 0) := by
    decide +kernel
  refine ⟨hmessage, hexit, ?_⟩
  rintro ⟨pd, hpd, -⟩
  exact absurd (hexit.symm.trans hpd) (by simp)

end Nmxptool.Decode.Receive
