import Nmxptool.Chan.Channels
import Nmxptool.Decode.Bundle
import Nmxptool.Lib.Rounding
import Mathlib.Data.Nat.Bitwise

/-! # Compressed packets

`nmxp_processCompressedData` decodes the body of a compressed packet: the oldest sequence number,
a header bundle of 17 bytes, and data bundles up to the end or to the first null bundle.

* `diffs`, `headerX0`, `headerKey`: the contents of a body, by the format.
* `compressed_running_sums`: whenever the decoder returns, the packet holds the running sums of
  these differences; it never writes or reads outside its arrays; and the host does not matter. -/

namespace Nmxptool.Decode.Compressed

open Nmxptool.Data.Process Nmxptool.Chan.Channels Nmxptool.Lib.Run Nmxptool.Lib.Bytes
open Nmxptool.Lib.Rounding Nmxptool.Decode.Bundle

/-! ### `nmxp_processCompressedData` -/

/-- `nmx_rate_code_to_sample_rate`. -/
def nmxRateCodeToSampleRate : List Int32 :=
  [0, 1, 2, 5, 10, 20, 40, 50,
    80, 100, 125, 200, 250, 500, 1000, 25,
    120, 0, 0, 0, 0, 0, 0, 0,
    0, 0, 0, 0, 0, 0, 0, 0]

/-- `nmx_x0`: three bytes copied over a variable that holds 0, swapped on a big-endian host, and
corrected for the sign of a 3-byte integer. The subtraction is one of `uint32_t`. -/
def packetX0 (host : Host) (m : List UInt8) : Int32 :=
  let nmxX0 := packetInt32 host (m ++ [0])
  if nmxX0 &&& 8388608 = 8388608 then nmxX0 - 16777216 else nmxX0

/-- The fields of a packet that are read before the samples. -/
structure NmxHdr where
  nmxOldestSequenceNumber : Int32
  nmxPtype : UInt8
  nmxSeconds : Int32
  nmxTicks : Int16
  nmxInstrId : Int16
  nmxSeqno : Int32
  nmxSampleRate : UInt8
  nmxX0 : Int32
  deriving DecidableEq

/-- The part that reads them. A filler packet ends the program. -/
def readHdr (host : Host) (bufferData : List UInt8) : Except Stop NmxHdr := do
  let oldest ← readBytes bufferData 0 4
  let nmxHdr ← readBytes bufferData 4 17
  let nmxPtype ← readByte nmxHdr 0
  if nmxPtype &&& 0xf = 9 then .error (.exit 0)
  else do
    let seconds ← readBytes nmxHdr 1 4
    let ticks ← readBytes nmxHdr 5 2
    let instrId ← readBytes nmxHdr 7 2
    let seqno ← readBytes nmxHdr 9 4
    let nmxSampleRate ← readByte nmxHdr 13
    let x0 ← readBytes nmxHdr 14 3
    return {
      nmxOldestSequenceNumber := packetInt32 host oldest
      nmxPtype := nmxPtype
      nmxSeconds := packetInt32 host seconds
      nmxTicks := packetInt16 host ticks
      nmxInstrId := packetInt16 host instrId
      nmxSeqno := packetInt32 host seqno
      nmxSampleRate := nmxSampleRate
      nmxX0 := packetX0 host x0 }

/-- `pKey`. -/
def NmxHdr.key (hdr : NmxHdr) : Int32 :=
  (hdr.nmxInstrId.toInt32 <<< 16) ||| ((1 : Int32) <<< 8) |||
    int32 (hdr.nmxSampleRate &&& 7).toNat

/-- `pTime`, computed in doubles. -/
def NmxHdr.time (hdr : NmxHdr) : ℚ :=
  toDouble (hdr.nmxSeconds.toInt + toDouble (hdr.nmxTicks.toInt / 10000))

/-- `pSampRate`. -/
def NmxHdr.sampRate (hdr : NmxHdr) : Int32 :=
  nmxRateCodeToSampleRate.getD (hdr.nmxSampleRate >>> 3).toNat 0

/-- The loop over the data bundles, at byte `i` with at most `left` rounds to go. -/
def unpackLoop (host : Host) (indata : List UInt8) : ℕ → ℕ → OutData → ℕ → Int32 →
    Except Stop (OutData × ℕ)
  | 0, _, outdata, nout, _ => return (outdata, nout)
  | left + 1, i, outdata, nout, prevXn =>
    if i + 17 > indata.length then .error (.exit 1)
    else if nout + 16 > MAX_OUTDATA then .error (.exit 1)
    else do
      let (k, outdata, prevXn) ← nmxpDataUnpackBundle host outdata nout (indata.drop i) prevXn
      if k < 0 then return (outdata, nout)
      else unpackLoop host indata left (i + 17) outdata (nout + k.toNat) prevXn

/-- The samples: the array, and `nout` after the final `nout--`. -/
def unpackSamples (host : Host) (outdata : OutData) (nmxX0 : Int32) (indata : List UInt8) :
    Except Stop (OutData × ℕ) := do
  let outdata ← outdata.write 0 nmxX0
  let (outdata, nout) ← unpackLoop host indata ((indata.length + 16) / 17) 0 outdata 1 nmxX0
  return (outdata, nout - 1)

/-- The packet as the function fills it in. -/
def NmxHdr.toPacket (hdr : NmxHdr) (codes : StaChanCodes)
    (networkCodeDefault locationCodeDefault : CStr) (outdata : OutData) (nout : ℕ) (xn : Int32) :
    NmxpDataProcess ℚ :=
  copyCodes codes networkCodeDefault locationCodeDefault
    { nmxpDataInit (-1) with
      key := hdr.key
      packetType := int32 hdr.nmxPtype.toNat
      x0 := hdr.nmxX0
      xn := xn
      x0nSignificant := 1
      oldestSeqNo := hdr.nmxOldestSequenceNumber
      seqNo := hdr.nmxSeqno
      time := hdr.time
      nSamp := int32 nout
      pDataPtr := some outdata.cells
      sampRate := hdr.sampRate }

/-- **`nmxp_processCompressedData`.** `outdata` is the array as it was allocated. -/
def nmxpProcessCompressedData (host : Host) (outdata : OutData) (bufferData : List UInt8)
    (channelList : NmxpChanListNet) (networkCodeDefault locationCodeDefault : CStr) :
    Except Stop (NmxpDataProcess ℚ) := do
  let hdr ← readHdr host bufferData
  match nmxpChanLookupName hdr.key channelList with
  | none => return nmxpDataInit (-1)
  | some name => do
    let (outdata, nout) ← unpackSamples host outdata hdr.nmxX0 (bufferData.drop 21)
    let xn ← outdata.read nout
    return hdr.toPacket (nmxpChanCpyStaChan name).2 networkCodeDefault locationCodeDefault
      outdata nout xn

/-! ### The format -/

/-- The bytes of a field. -/
def field (body : List UInt8) (off n : ℕ) : List UInt8 := (body.drop off).take n

/-- The key: instrument number, data type 1, channel number. -/
def headerKey (body : List UInt8) : Int32 :=
  Int32.ofInt (signed (field body 11 2) * 65536 + 256 + ((body.getD 17 0).toNat % 8 : ℕ))

/-- The first sample. -/
def headerX0 (body : List UInt8) : ℤ := signed (field body 18 3)

/-- The complete bundles from bundle `r` on. -/
def bundlesFrom (data : List UInt8) (r : ℕ) : List (List UInt8) :=
  (List.range' r (data.length / 17 - r)).map fun k => (data.drop (17 * k)).take 17

/-- The differences from bundle `r` on, up to the first null bundle. -/
def diffsFrom (data : List UInt8) (r : ℕ) : List ℤ :=
  ((bundlesFrom data r).takeWhile fun b => b.head? ≠ some 9).flatMap bundleDiffs

/-- **The differences of a body.** -/
def diffs (body : List UInt8) : List ℤ := diffsFrom (body.drop 21) 0

/-- What a packet decoded from a body holds. -/
structure Decoded (body : List UInt8) (pd : NmxpDataProcess ℚ) : Prop where
  key : pd.key = headerKey body
  x0 : pd.x0 = Int32.ofInt (headerX0 body)
  seqNo : pd.seqNo.toInt = signed (field body 13 4)
  oldestSeqNo : pd.oldestSeqNo.toInt = signed (field body 0 4)
  nSamp : pd.nSamp.toInt = (diffs body).length
  samples : pd.samples = (List.range (diffs body).length).map fun i =>
    Int32.ofInt (headerX0 body + ((diffs body).take i).sum)
  xn : pd.xn = Int32.ofInt (headerX0 body + (diffs body).sum)

/-! ### The header -/

theorem toInt_packetX0 (host : Host) {m : List UInt8} (hm : m.length = 3) :
    (packetX0 host m).toInt = signed m := by
  have hv := ofLE_lt m
  rw [hm] at hv
  have hload : ofLE (m ++ [0]) = ofLE m := by
    match m, hm with
    | [a, b, c], _ => rfl
  have hx : packetInt32 host (m ++ [0]) = int32 (ofLE m) := by
    rw [packetInt32, load_packet4 host (by simp [hm]), hload]
  have hnat : nat32 (int32 (ofLE m)) = ofLE m := nat32_int32 (by omega)
  have hint : (int32 (ofLE m)).toInt = ofLE m := by
    rw [toInt_eq_bmod_nat32, hnat]
    exact Int.bmod_eq_of_le (by omega) (by omega)
  have hbit : int32 (ofLE m) &&& 8388608 = 8388608 ↔ 2 ^ 23 ≤ ofLE m := by
    have h1 : nat32 8388608 = 2 ^ 23 := rfl
    have h2 : int32 (ofLE m) &&& 8388608 = 8388608 ↔
        nat32 (int32 (ofLE m) &&& 8388608) = nat32 8388608 := ⟨congrArg nat32, nat32_inj⟩
    rw [h2, nat32_and, hnat, h1, Nat.and_two_pow, Nat.testBit_eq_decide_div_mod_eq]
    by_cases h : ofLE m / 2 ^ 23 % 2 = 1
    · simp only [h, decide_true, Bool.toNat_true, one_mul, true_iff]
      omega
    · simp only [h, decide_false, Bool.toNat_false, zero_mul]
      omega
  have h3 : (16777216 : Int32).toInt = 2 ^ 24 := rfl
  simp only [packetX0, hx, hbit]
  rw [signed, hm, Int.bmod_def]
  split_ifs with h1 h2 h2
  · omega
  · rw [toInt_sub_of_range (by omega) (by omega), hint, h3]
    omega
  · rw [hint]
    omega
  · omega

theorem key_eq (hdr : NmxHdr) : hdr.key =
    Int32.ofInt (hdr.nmxInstrId.toInt * 65536 + 256 + (hdr.nmxSampleRate.toNat % 8 : ℕ)) := by
  have hc : (hdr.nmxSampleRate &&& 7).toNat = hdr.nmxSampleRate.toNat % 8 := by
    rw [UInt8.toNat_and]
    exact Nat.and_two_pow_sub_one_eq_mod _ 3
  have hlt : hdr.nmxSampleRate.toNat % 8 < 8 := Nat.mod_lt _ (by norm_num)
  unfold NmxHdr.key
  rw [hc]
  generalize hdr.nmxSampleRate.toNat % 8 = c at hlt
  have hi : hdr.nmxInstrId.toInt = (nat32 hdr.nmxInstrId.toInt32 : ℤ).bmod (2 ^ 32) := by
    rw [← toInt_eq_bmod_nat32, Int16.toInt_toInt32]
  generalize hdr.nmxInstrId = i at hi ⊢
  set A := nat32 i.toInt32 with hA
  -- the three parts do not overlap
  have hN : nat32 ((i.toInt32 <<< 16) ||| ((1 : Int32) <<< 8) ||| int32 c) =
      A * 65536 % 2 ^ 32 + (256 + c) := by
    have h1 : nat32 ((1 : Int32) <<< 8) = 1 <<< 8 := rfl
    have h2 : ((1 : ℕ) <<< 8 ||| c) = 256 + c := (Nat.shiftLeft_add_eq_or_of_lt (by omega) 1).symm
    have h3 : A * 65536 % 2 ^ 32 = (A % 65536) <<< 16 := by rw [Nat.shiftLeft_eq]; omega
    rw [nat32_or, nat32_or, nat32_shiftLeft_sixteen, nat32_int32 (by omega), Nat.or_assoc, h1, h2,
      h3, ← Nat.shiftLeft_add_eq_or_of_lt (by omega)]
  have hcast : ((A * 65536 % 2 ^ 32 + (256 + c) : ℕ) : ℤ) =
      (A * 65536 : ℤ) % ((2 ^ 32 : ℕ) : ℤ) + (256 + c) := by push_cast; rfl
  have hsize : Int32.size = 2 ^ 32 := rfl
  refine Int32.toInt_inj.mp ?_
  rw [toInt_eq_bmod_nat32, hN, Int32.toInt_ofInt, hi, hcast, Int.emod_add_bmod, hsize,
    add_assoc (_ * _), ← Int.bmod_add_bmod (x := Int.bmod _ _ * _), Int.bmod_mul_bmod,
    Int.bmod_add_bmod]

/-- The header as the format has it. -/
structure HdrOK (body : List UInt8) (hdr : NmxHdr) : Prop where
  oldest : hdr.nmxOldestSequenceNumber.toInt = signed (field body 0 4)
  key : hdr.key = headerKey body
  seqno : hdr.nmxSeqno.toInt = signed (field body 13 4)
  x0 : hdr.nmxX0.toInt = headerX0 body

theorem field_field (body : List UInt8) {off n : ℕ} (h : off + n ≤ 17) :
    ((((body.drop 4).take 17).drop off).take n) = field body (4 + off) n := by
  rw [field, List.drop_take, List.take_take, List.drop_drop, min_eq_left (by omega)]

theorem length_field {body : List UInt8} {off n : ℕ} (h : off + n ≤ body.length) :
    (field body off n).length = n := by
  simp [field]; omega

/-- A filler packet. -/
def Filler (body : List UInt8) : Prop := body.getD 4 0 &&& 0xf = 9

/-- Every host reads the same header from a body that has one. -/
theorem readHdr_cases {body : List UInt8} (hL : 21 ≤ body.length) :
    (Filler body ∧ ∀ host, readHdr host body = .error (.exit 0)) ∨
      (¬ Filler body ∧ ∃ hdr, (∀ host, readHdr host body = .ok hdr) ∧ HdrOK body hdr) := by
  have hlen : ((body.drop 4).take 17).length = 17 := by simp; omega
  have hbyte : ∀ off, off < 17 → readByte ((body.drop 4).take 17) off =
      .ok (body.getD (4 + off) 0) := by
    intro off hoff
    refine readByte_ok ?_
    rw [List.getElem?_take_of_lt hoff, List.getElem?_drop, List.getD_eq_getElem?_getD,
      List.getElem?_eq_getElem (by omega), Option.getD_some]
  have hbytes : ∀ off n, off + n ≤ 17 → readBytes ((body.drop 4).take 17) off n =
      .ok (field body (4 + off) n) := by
    intro off n h
    rw [readBytes_ok (by omega), field_field body h]
  have h3 : ∀ host m, m.length = 3 → packetX0 host m = packetX0 .little m := fun host m hm =>
    Int32.toInt_inj.mp (by rw [toInt_packetX0 host hm, toInt_packetX0 .little hm])
  have hall : ∀ host, readHdr host body =
      if body.getD 4 0 &&& 0xf = 9 then .error (.exit 0)
      else .ok {
        nmxOldestSequenceNumber := packetInt32 .little (field body 0 4)
        nmxPtype := body.getD 4 0
        nmxSeconds := packetInt32 .little (field body 5 4)
        nmxTicks := packetInt16 .little (field body 9 2)
        nmxInstrId := packetInt16 .little (field body 11 2)
        nmxSeqno := packetInt32 .little (field body 13 4)
        nmxSampleRate := body.getD 17 0
        nmxX0 := packetX0 .little (field body 18 3) } := by
    intro host
    unfold readHdr
    rw [readBytes_ok (show 0 + 4 ≤ body.length by omega), ok_bind,
      readBytes_ok (show 4 + 17 ≤ body.length by omega), ok_bind, hbyte 0 (by norm_num), ok_bind]
    split_ifs with h9
    · rfl
    · simp only [hbytes 1 4 (by norm_num), hbytes 5 2 (by norm_num), hbytes 7 2 (by norm_num),
        hbytes 9 4 (by norm_num), hbytes 14 3 (by norm_num), hbyte 13 (by norm_num), ok_bind,
        pure_eq_ok]
      rw [packetInt32_host host (length_field (by omega)),
        packetInt32_host host (length_field (by omega)),
        packetInt16_host host (length_field (by omega)),
        packetInt16_host host (length_field (by omega)), h3 host _ (length_field (by omega)),
        packetInt32_host host (m := (body.drop 0).take 4) (length_field (by omega))]
      rfl
  by_cases h9 : body.getD 4 0 &&& 0xf = 9
  · exact Or.inl ⟨h9, fun host => by rw [hall host, if_pos h9]⟩
  · refine Or.inr ⟨h9, _, fun host => by rw [hall host, if_neg h9], ?_, ?_, ?_, ?_⟩
    · exact toInt_packetInt32 .little (length_field (by omega))
    · rw [key_eq, headerKey]
      dsimp only
      rw [toInt_packetInt16 .little (length_field (by omega))]
    · exact toInt_packetInt32 .little (length_field (by omega))
    · exact toInt_packetX0 .little (length_field (by omega))

/-! ### The samples -/

theorem unpackLoop_host (host : Host) (indata : List UInt8) : ∀ (left i : ℕ) (outdata : OutData)
    (nout : ℕ) (prevXn : Int32), unpackLoop host indata left i outdata nout prevXn =
      unpackLoop .little indata left i outdata nout prevXn
  | 0, _, _, _, _ => rfl
  | left + 1, i, outdata, nout, prevXn => by
    simp only [unpackLoop, unpackBundle_host host, unpackLoop_host host indata left]

theorem unpackSamples_host (host : Host) (outdata : OutData) (nmxX0 : Int32)
    (indata : List UInt8) : unpackSamples host outdata nmxX0 indata =
      unpackSamples .little outdata nmxX0 indata := by
  simp only [unpackSamples, unpackLoop_host host]

theorem bundlesFrom_cons {data : List UInt8} {r : ℕ} (h : 17 * r + 17 ≤ data.length) :
    bundlesFrom data r = (data.drop (17 * r)).take 17 :: bundlesFrom data (r + 1) := by
  have hn : data.length / 17 - r = (data.length / 17 - (r + 1)) + 1 := by omega
  unfold bundlesFrom
  rw [hn, List.range'_succ, List.map_cons]

theorem bundlesFrom_nil {data : List UInt8} {r : ℕ} (h : data.length / 17 ≤ r) :
    bundlesFrom data r = [] := by
  unfold bundlesFrom
  rw [Nat.sub_eq_zero_of_le h]
  rfl

/-- A complete bundle: its control byte, and 16 bytes behind it. -/
theorem bundle_cons {data : List UInt8} {r : ℕ} (h : 17 * r + 17 ≤ data.length) :
    ∃ c rest, data.drop (17 * r) = c :: rest ∧ 16 ≤ rest.length ∧ data[17 * r]? = some c := by
  have hlt : 17 * r < data.length := by omega
  refine ⟨data[17 * r], data.drop (17 * r + 1), List.drop_eq_getElem_cons hlt, ?_,
    List.getElem?_eq_getElem hlt⟩
  rw [List.length_drop]
  omega

/-- **The loop over the bundles** ends the program, or continues the running sums by all the
differences up to the first null bundle. -/
theorem unpackLoop_cases (host : Host) (data : List UInt8) (x0 : ℤ) : ∀ (left r : ℕ) (ds : List ℤ)
    (outdata : OutData) (nout : ℕ) (prev : Int32), left + r = (data.length + 16) / 17 →
    Holding x0 ds outdata nout prev →
    unpackLoop host data left (17 * r) outdata nout prev = .error (.exit 1) ∨
      ∃ outdata' nout' prev', unpackLoop host data left (17 * r) outdata nout prev =
        .ok (outdata', nout') ∧ Holding x0 (ds ++ diffsFrom data r) outdata' nout' prev' := by
  intro left
  induction left with
  | zero =>
    intro r ds outdata nout prev hr h
    refine Or.inr ⟨outdata, nout, prev, rfl, ?_⟩
    rw [diffsFrom, bundlesFrom_nil (by omega)]
    simpa using h
  | succ left ih =>
    intro r ds outdata nout prev hr h
    unfold unpackLoop
    split_ifs with h1 h2
    · exact Or.inl rfl
    · exact Or.inl rfl
    · obtain ⟨c, rest, hdrop, hrest, -⟩ := bundle_cons (by omega : 17 * r + 17 ≤ data.length)
      have hcons : bundlesFrom data r = (data.drop (17 * r)).take 17 :: bundlesFrom data (r + 1) :=
        bundlesFrom_cons (by omega)
      rw [hdrop]
      rcases unpackBundle_ok host h (by omega) (c := c) hrest with ⟨rfl, hb⟩ |
        ⟨h9, k, o', p', hb, h'⟩
      · refine Or.inr ⟨outdata, nout, prev, by rw [hb]; rfl, ?_⟩
        rw [diffsFrom, hcons, hdrop]
        simpa using h
      · have hds : ds ++ bundleDiffs (c :: rest) ++ diffsFrom data (r + 1) =
            ds ++ diffsFrom data r := by
          rw [diffsFrom, diffsFrom, hcons, hdrop, List.takeWhile_cons_of_pos (by simpa using h9),
            List.flatMap_cons, bundleDiffs_take, List.append_assoc]
        have hk : ¬ ((k : ℕ) : ℤ) < 0 := by omega
        rw [hb, ok_bind]
        simp only [if_neg hk, Int.toNat_natCast, ← hds]
        exact ih (r + 1) _ o' _ p' (by omega) h'

/-- `outdata[0] = nmx_x0`. -/
theorem write_x0 (outdata : OutData) (x0 : Int32) : ∃ outdata',
    outdata.write 0 x0 = .ok outdata' ∧ Holding x0.toInt [] outdata' 1 x0 := by
  have hsum : runningSum x0.toInt [] 0 = x0 := by simp [runningSum]
  refine ⟨⟨outdata.cells.set 0 x0, by rw [List.length_set, outdata.size]⟩, if_pos (by decide), rfl,
    ?_, hsum.symm⟩
  have hset : ∀ cells : List Int32, cells.length = MAX_OUTDATA → (cells.set 0 x0).take 1 = [x0]
    | _ :: _, _ => rfl
  rw [hset _ outdata.size, List.range_one, List.map_singleton, hsum]

theorem unpackSamples_cases (host : Host) (outdata : OutData) (x0 : Int32) (data : List UInt8) :
    unpackSamples host outdata x0 data = .error (.exit 1) ∨
      ∃ outdata' prev, unpackSamples host outdata x0 data =
          .ok (outdata', (diffsFrom data 0).length) ∧
        Holding x0.toInt (diffsFrom data 0) outdata' ((diffsFrom data 0).length + 1) prev := by
  obtain ⟨o0, hw, h0⟩ := write_x0 outdata x0
  unfold unpackSamples
  rw [hw, ok_bind]
  rcases unpackLoop_cases host data x0.toInt ((data.length + 16) / 17) 0 [] _ 1 x0 rfl h0 with h |
    ⟨o', n', p', h, h'⟩
  · left
    rw [Nat.mul_zero] at h
    rw [h]
    rfl
  · right
    rw [Nat.mul_zero] at h
    rw [List.nil_append] at h'
    have hn := h'.count
    subst hn
    refine ⟨o', p', ?_, h'⟩
    rw [h]
    rfl

/-! ### The decoder -/

theorem nmxpProcessCompressedData_host (host : Host) (outdata : OutData) {body : List UInt8}
    (hL : 21 ≤ body.length) (channelList : NmxpChanListNet)
    (networkCodeDefault locationCodeDefault : CStr) :
    nmxpProcessCompressedData host outdata body channelList networkCodeDefault
        locationCodeDefault =
      nmxpProcessCompressedData .little outdata body channelList networkCodeDefault
        locationCodeDefault := by
  have hhdr : readHdr host body = readHdr .little body := by
    rcases readHdr_cases hL with ⟨-, h⟩ | ⟨-, hdr, h, -⟩
    · rw [h, h]
    · rw [h, h]
  simp only [nmxpProcessCompressedData, hhdr, unpackSamples_host host]

theorem samples_of_holding {x0 : ℤ} {ds : List ℤ} {outdata : OutData} {prev : Int32}
    (h : Holding x0 ds outdata (ds.length + 1) prev) :
    ds.length < MAX_OUTDATA ∧
      outdata.cells.take ds.length = (List.range ds.length).map (runningSum x0 ds) ∧
      outdata.read ds.length = .ok (runningSum x0 ds ds.length) := by
  have hlen := congrArg List.length h.cells
  simp only [List.length_take, outdata.size, List.length_map, List.length_range] at hlen
  have hlt : ds.length < MAX_OUTDATA := by omega
  refine ⟨hlt, ?_, ?_⟩
  · have htake := congrArg (List.take ds.length) h.cells
    have hall : ((List.range ds.length).map (runningSum x0 ds)).take ds.length =
        (List.range ds.length).map (runningSum x0 ds) := List.take_of_length_le (by simp)
    rw [List.take_take, min_eq_left (by omega), List.range_succ, List.map_append,
      List.take_append_of_le_length (by simp), hall] at htake
    exact htake
  · have hget : outdata.cells[ds.length]? = some (runningSum x0 ds ds.length) := by
      have := congrArg (fun l => l[ds.length]?) h.cells
      simpa [List.getElem?_take_of_lt] using this
    unfold OutData.read
    rw [hget]

/-- The decoder returns what the body holds, or ends the program. -/
theorem decoded_or_exit (host : Host) (outdata : OutData) {body : List UInt8}
    {channelList : NmxpChanListNet} (networkCodeDefault locationCodeDefault : CStr)
    (hL : 21 ≤ body.length) (hkey : ∃ ch ∈ channelList.channel, ch.key = headerKey body) :
    (∃ status, nmxpProcessCompressedData host outdata body channelList networkCodeDefault
      locationCodeDefault = .error (.exit status)) ∨
    ∃ pd, nmxpProcessCompressedData host outdata body channelList networkCodeDefault
      locationCodeDefault = .ok pd ∧ Decoded body pd := by
  rcases readHdr_cases hL with ⟨-, h⟩ | ⟨-, hdr, h, hok⟩
  · left
    exact ⟨0, by rw [nmxpProcessCompressedData, h host]; rfl⟩
  obtain ⟨name, hname⟩ := nmxpChanLookupName_isSome hkey
  rw [← hok.key] at hname
  rcases unpackSamples_cases host outdata hdr.nmxX0 (body.drop 21) with hs | ⟨o', prev, hs, hh⟩
  · left
    refine ⟨1, ?_⟩
    simp only [nmxpProcessCompressedData, h host, ok_bind, hname, hs, error_bind]
  right
  obtain ⟨hlt, htake, hread⟩ := samples_of_holding hh
  rw [hok.x0] at htake hread
  have hnSamp : (int32 (diffs body).length).toInt = (diffs body).length := by
    unfold MAX_OUTDATA at hlt
    exact toInt_int32_of_lt (by unfold diffs; omega)
  refine ⟨hdr.toPacket (nmxpChanCpyStaChan name).2 networkCodeDefault locationCodeDefault o'
    (diffs body).length (runningSum (headerX0 body) (diffs body) (diffs body).length), ?_, ?_⟩
  · have hread' : o'.read (diffsFrom (body.drop 21) 0).length = _ := hread
    simp only [nmxpProcessCompressedData, h host, ok_bind, hname, hs, hread', pure_eq_ok]
    rfl
  · refine ⟨hok.key, ?_, hok.seqno, hok.oldest, hnSamp, ?_, ?_⟩
    · rw [← hok.x0, Int32.ofInt_toInt]
      rfl
    · have hcount : (int32 (diffs body).length).toInt.toNat = (diffs body).length := by
        rw [hnSamp, Int.toNat_natCast]
      change o'.cells.take (int32 (diffs body).length).toInt.toNat = _
      rw [hcount]
      exact htake
    · change runningSum (headerX0 body) (diffs body) (diffs body).length = _
      rw [runningSum, List.take_length]

/-- A packet that the decoder returns holds what the body does. -/
theorem decoded_of_ok {host : Host} {outdata : OutData} {body : List UInt8}
    {channelList : NmxpChanListNet} {networkCodeDefault locationCodeDefault : CStr}
    {pd : NmxpDataProcess ℚ} (hL : 21 ≤ body.length)
    (hkey : ∃ ch ∈ channelList.channel, ch.key = headerKey body)
    (h : nmxpProcessCompressedData host outdata body channelList networkCodeDefault
      locationCodeDefault = .ok pd) : Decoded body pd := by
  rcases decoded_or_exit host outdata networkCodeDefault locationCodeDefault hL hkey with
    ⟨status, hexit⟩ | ⟨pd', hpd, hdecoded⟩
  · rw [hexit] at h
    exact absurd h (by simp)
  · rw [hpd] at h
    rw [← Except.ok.inj h]
    exact hdecoded

/-- **Compressed packets.** For every body with a header whose key is in the list: the decoder
returns a packet with the running sums of the format, or ends the program by `exit`; so it reads
and writes only inside its arrays. It does the same on either host. -/
theorem compressed_running_sums (host : Host) (outdata : OutData) (body : List UInt8)
    (channelList : NmxpChanListNet) (networkCodeDefault locationCodeDefault : CStr)
    (hL : 21 ≤ body.length) (hkey : ∃ ch ∈ channelList.channel, ch.key = headerKey body) :
    (∀ pd, nmxpProcessCompressedData host outdata body channelList networkCodeDefault
      locationCodeDefault = .ok pd → Decoded body pd) ∧
    (∀ e, nmxpProcessCompressedData host outdata body channelList networkCodeDefault
      locationCodeDefault = .error e → ∃ status, e = .exit status) ∧
    ∀ host', nmxpProcessCompressedData host' outdata body channelList networkCodeDefault
        locationCodeDefault =
      nmxpProcessCompressedData host outdata body channelList networkCodeDefault
        locationCodeDefault := by
  refine ⟨fun pd hpd => decoded_of_ok hL hkey hpd, fun e he => ?_, fun host' => ?_⟩
  · rcases decoded_or_exit host outdata networkCodeDefault locationCodeDefault hL hkey with
      ⟨status, h⟩ | ⟨pd', h, -⟩
    · rw [h] at he
      cases he
      exact ⟨status, rfl⟩
    · rw [h] at he
      exact absurd he (by simp)
  · rw [nmxpProcessCompressedData_host host' outdata hL,
      nmxpProcessCompressedData_host host outdata hL]

/-- A body with one bundle, of the codes 1, 2, 3 and 0; its first sample is −2. -/
def oneBundle : List UInt8 :=
  [5, 0, 0, 0, 0, 0, 0, 0, 1, 16, 39, 1, 4, 9, 0, 0, 0, 82, 254, 255, 255,
    108, 1, 255, 2, 0, 44, 1, 0, 128, 255, 255, 255, 127, 0, 0, 0, 0]

theorem compressed_running_sums_one :
    diffs oneBundle = [1, -1, 2, 0, 300, -32768, 2147483647] ∧
      ∃ pd, nmxpProcessCompressedData .big zeroed oneBundle (oneChannel 67174658) [] [] = .ok pd ∧
        Decoded oneBundle pd := by
  refine ⟨by decide +kernel, ?_⟩
  have hok : (nmxpProcessCompressedData .big zeroed oneBundle (oneChannel 67174658) [] []).isOk =
      true := by decide +kernel
  rcases hr : nmxpProcessCompressedData .big zeroed oneBundle (oneChannel 67174658) [] [] with
    e | pd
  · rw [hr] at hok
    exact absurd hok Bool.false_ne_true
  · exact ⟨pd, rfl, (compressed_running_sums .big zeroed oneBundle (oneChannel 67174658) [] []
      (by decide) (by decide +kernel)).1 pd hr⟩

end Nmxptool.Decode.Compressed
