import Nmxptool.Chan.Channels
import Nmxptool.Decode.Bundle

/-! # Decompressed packets

`nmxp_processDecompressedData` decodes the body of a decompressed packet: key, time, number of
samples, rate and samples, all in network order. The integers go through `ntohl`. The time is a
double, swapped by a flag that is set if `ntohl` changed the key.

* `decode_encode`: the packet decoded from an encoded body, on either host.
* `decompressed_iff`: the decoder undoes the encoding, unless on a little-endian host the key reads
  the same from both ends and the time does not. -/

namespace Nmxptool.Decode.Decompressed

open Nmxptool.Data.Process Nmxptool.Chan.Channels Nmxptool.Lib.Run Nmxptool.Lib.Bytes
open Nmxptool.Decode.Bundle

/-! ### `nmxp_processDecompressedData` -/

def NMXP_MSG_DECOMPRESSED : Int32 := 4

/-- The bits of the double `-1.0`. -/
def minusOne : UInt64 := 0xBFF0000000000000

/-- `nmxp_data_swap_8b`, on the bytes of the variable. -/
def nmxpDataSwap8b : List UInt8 → List UInt8
  | [a, b, c, d, e, f, g, h] => [h, g, f, e, d, c, b, a]
  | m => m

/-- Bytes copied over the front of an array of `int32_t`. -/
def overwrite (host : Host) : List UInt8 → List Int32 → List Int32
  | _, [] => []
  | bytes, c :: cs =>
    if bytes = [] then c :: cs
    else
      int32 (load host (bytes.take 4 ++ (store host 4 (nat32 c)).drop bytes.length)) ::
        overwrite host (bytes.drop 4) cs

theorem length_overwrite (host : Host) : ∀ (bytes : List UInt8) (cells : List Int32),
    (overwrite host bytes cells).length = cells.length
  | _, [] => rfl
  | bytes, c :: cs => by
    unfold overwrite
    split_ifs
    · rfl
    · rw [List.length_cons, length_overwrite host, List.length_cons]

/-- `memcpy` to the array. -/
def memcpy (host : Host) (o : OutData) (bytes : List UInt8) : Except Stop OutData :=
  if bytes.length ≤ 4 * MAX_OUTDATA then
    .ok ⟨overwrite host bytes o.cells, by rw [length_overwrite, o.size]⟩
  else .error .writePastEnd

/-- The loop that swaps the samples to host order, at `idx` with `left` rounds to go. -/
def swapSamples (host : Host) : ℕ → ℕ → OutData → Except Stop OutData
  | 0, _, outdata => return outdata
  | left + 1, idx, outdata => do
    let netInt ← outdata.read idx
    let outdata ← outdata.write idx (ntohl host netInt)
    swapSamples host left (idx + 1) outdata

/-- `pTime`: the bits of the double whose bytes are `m`, swapped by the flag. -/
def readTime (host : Host) (swap : Bool) (m : List UInt8) : UInt64 :=
  UInt64.ofNat (load host (if swap then nmxpDataSwap8b m else m))

/-- The packet as the function fills it in. -/
def toPacket (codes : StaChanCodes) (networkCodeDefault locationCodeDefault : CStr) (pKey : Int32)
    (pTime : UInt64) (pNSamp pSampRate : Int32) (outdata : OutData) : NmxpDataProcess UInt64 :=
  copyCodes codes networkCodeDefault locationCodeDefault
    { nmxpDataInit minusOne with
      key := pKey
      packetType := NMXP_MSG_DECOMPRESSED
      x0 := -1
      xn := -1
      x0nSignificant := 0
      time := pTime
      nSamp := pNSamp
      pDataPtr := some outdata.cells
      sampRate := pSampRate }

/-- **`nmxp_processDecompressedData`.** `outdata` is the array as it was allocated. -/
def nmxpProcessDecompressedData (host : Host) (outdata : OutData) (bufferData : List UInt8)
    (channelList : NmxpChanListNet) (networkCodeDefault locationCodeDefault : CStr) :
    Except Stop (NmxpDataProcess UInt64) := do
  let key ← readBytes bufferData 0 4
  let netInt := int32 (load host key)
  let pKey := ntohl host netInt
  let swap := decide (pKey ≠ netInt)
  match nmxpChanLookupName pKey channelList with
  | none => return nmxpDataInit minusOne
  | some name => do
    let time ← readBytes bufferData 4 8
    let nSamp ← readBytes bufferData 12 4
    let sampRate ← readBytes bufferData 16 4
    let pNSamp := ntohl host (int32 (load host nSamp))
    let outdata ← memcpy host outdata (bufferData.drop 20)
    let outdata ← swapSamples host pNSamp.toInt.toNat 0 outdata
    return toPacket (nmxpChanCpyStaChan name).2 networkCodeDefault locationCodeDefault pKey
      (readTime host swap time) pNSamp (ntohl host (int32 (load host sampRate))) outdata

/-! ### The format -/

/-- The time in network order. -/
def networkTime (t : UInt64) : List UInt8 := store .big 8 t.toNat

/-- **The body of a decompressed packet.** -/
def encode (key : Int32) (t : UInt64) (rate : Int32) (samples : List Int32) : List UInt8 :=
  network32 key ++ (networkTime t ++ (network32 (int32 samples.length) ++ (network32 rate ++
    samples.flatMap network32)))

/-- The packet holds what was encoded. -/
structure Undone (key : Int32) (t : UInt64) (rate : Int32) (samples : List Int32)
    (pd : NmxpDataProcess UInt64) : Prop where
  key : pd.key = key
  time : pd.time = t
  nSamp : pd.nSamp.toInt = samples.length
  sampRate : pd.sampRate = rate
  samples : pd.samples = samples

/-- The bytes read the same from both ends. -/
def Symmetric (bs : List UInt8) : Prop := bs.reverse = bs

instance (bs : List UInt8) : Decidable (Symmetric bs) := inferInstanceAs (Decidable (_ = _))

/-! ### Reading the body -/

theorem readBytes_append (pre m post : List UInt8) {off n : ℕ} (hoff : off = pre.length)
    (hn : n = m.length) : readBytes (pre ++ (m ++ post)) off n = .ok m := by
  subst hoff hn
  rw [readBytes_ok (by simp), List.drop_left, List.take_left]

theorem overwrite_nil (host : Host) (cells : List Int32) : overwrite host [] cells = cells := by
  cases cells with
  | nil => rfl
  | cons c cs => exact if_pos rfl

/-- Whole integers copied over the front of the array. -/
theorem overwrite_network32 (host : Host) : ∀ (samples cells : List Int32),
    samples.length ≤ cells.length → overwrite host (samples.flatMap network32) cells =
      (samples.map fun v => int32 (load host (network32 v))) ++ cells.drop samples.length
  | [], cells, _ => overwrite_nil host cells
  | v :: vs, [], h => absurd h (by simp)
  | v :: vs, c :: cs, h => by
    have hne : network32 v ++ vs.flatMap network32 ≠ [] := fun hnil => by
      have := congrArg List.length hnil
      simp at this
    have hold : (store host 4 (nat32 c)).drop (network32 v ++ vs.flatMap network32).length = [] :=
      List.drop_eq_nil_of_le (by simp)
    have h4 := length_network32 v
    simp only [List.length_cons, Nat.add_le_add_iff_right] at h
    rw [List.flatMap_cons, overwrite, if_neg hne, hold, List.append_nil, List.take_left' h4,
      List.drop_left' h4, overwrite_network32 host vs cs h]
    rfl

/-- The loop converts the samples that it meets. -/
theorem swapSamples_ok (host : Host) : ∀ (todo before rest : List Int32) (outdata : OutData),
    outdata.cells = before ++ (todo ++ rest) → ∃ outdata',
    swapSamples host todo.length before.length outdata = .ok outdata' ∧
      outdata'.cells = before ++ (todo.map (ntohl host) ++ rest)
  | [], _, _, outdata, h => ⟨outdata, rfl, h⟩
  | v :: todo, before, rest, outdata, h => by
    have hsize := outdata.size
    have hlt : before.length < MAX_OUTDATA := by
      rw [← hsize, h]
      simp
    have hread : outdata.read before.length = .ok v := by
      unfold OutData.read
      rw [h]
      simp
    have hset : outdata.cells.set before.length (ntohl host v) =
        (before ++ [ntohl host v]) ++ (todo ++ rest) := by
      rw [h, List.set_append_right _ _ le_rfl]
      simp
    obtain ⟨o', hrun, hcells⟩ := swapSamples_ok host todo (before ++ [ntohl host v]) rest
      ⟨outdata.cells.set before.length (ntohl host v), by rw [List.length_set, hsize]⟩ hset
    refine ⟨o', ?_, ?_⟩
    · rw [List.length_append, List.length_singleton] at hrun
      simp only [List.length_cons, swapSamples, hread, ok_bind, OutData.write, if_pos hlt, hrun]
    · rw [hcells]
      simp

/-- The array after the copy and the loop. -/
theorem samples_ok (host : Host) (outdata : OutData) (samples : List Int32)
    (hlen : samples.length ≤ MAX_OUTDATA) : ∃ o1 o2,
    memcpy host outdata (samples.flatMap network32) = .ok o1 ∧
      swapSamples host samples.length 0 o1 = .ok o2 ∧ o2.cells.take samples.length = samples := by
  have hbytes : (samples.flatMap network32).length = 4 * samples.length := by
    rw [List.length_flatMap]
    simp [mul_comm]
  have hover := overwrite_network32 host samples outdata.cells (by rw [outdata.size]; exact hlen)
  obtain ⟨o2, hrun, hcells⟩ := swapSamples_ok host
    (samples.map fun v => int32 (load host (network32 v))) [] (outdata.cells.drop samples.length)
    ⟨_, by rw [length_overwrite, outdata.size]⟩ hover
  have hback : (samples.map fun v => int32 (load host (network32 v))).map (ntohl host) =
      samples := by
    rw [List.map_map]
    exact (List.map_congr_left fun v _ => ntohl_network32 host v).trans (List.map_id samples)
  rw [List.length_map, List.length_nil] at hrun
  refine ⟨_, o2, if_pos (by rw [hbytes]; omega), hrun, ?_⟩
  rw [hcells, hback, List.nil_append, List.take_left]

/-! ### The swap flag -/

/-- `ntohl` changes the key on a little-endian host, unless its bytes are symmetric. -/
theorem key_changes_iff (host : Host) (key : Int32) :
    key ≠ int32 (load host (network32 key)) ↔ host = .little ∧ ¬ Symmetric (network32 key) := by
  cases host with
  | big => simp [load_network32]
  | little =>
    have h4 := length_network32 key
    have hkey : nat32 key = ofLE (network32 key).reverse := by
      have := nat32_load .big h4
      rwa [load_network32] at this
    have hload : nat32 (int32 (load .little (network32 key))) = ofLE (network32 key) :=
      nat32_load .little h4
    have hiff : key = int32 (load .little (network32 key)) ↔ Symmetric (network32 key) := by
      constructor
      · intro h
        refine ofLE_inj (by simp) ?_
        rw [← hkey, ← hload, ← h]
      · intro h
        refine nat32_inj ?_
        rw [hload, hkey, h]
    rw [ne_eq, hiff]
    simp

theorem nmxpDataSwap8b_eq {m : List UInt8} (hm : m.length = 8) : nmxpDataSwap8b m = m.reverse := by
  match m, hm with
  | [a, b, c, d, e, f, g, h], _ => rfl

/-- The time comes out right where the swap is made exactly on the little-endian host, and where
it makes no difference. -/
theorem readTime_eq_iff (host : Host) (swap : Bool) (t : UInt64) :
    readTime host swap (networkTime t) = t ↔
      swap = decide (host = .little) ∨ Symmetric (networkTime t) := by
  have h8 : (networkTime t).length = 8 := length_store .big 8 _
  have hpow : (256 : ℕ) ^ 8 = 2 ^ 64 := by norm_num
  have hlt : t.toNat < 256 ^ 8 := hpow ▸ t.toNat_lt
  have hbig : ofLE (networkTime t).reverse = t.toNat := by
    have := load_store .big 8 t.toNat
    rwa [Nat.mod_eq_of_lt hlt] at this
  -- the value read, by whether it is read from the last byte on or from the first
  have hright : UInt64.ofNat (ofLE (networkTime t).reverse) = t := by
    rw [hbig, UInt64.ofNat_toNat]
  have hwrong : UInt64.ofNat (ofLE (networkTime t)) = t ↔ Symmetric (networkTime t) := by
    constructor
    · intro h
      have hlt' := ofLE_lt (networkTime t)
      rw [h8, hpow] at hlt'
      have hval := congrArg UInt64.toNat h
      rw [UInt64.toNat_ofNat', Nat.mod_eq_of_lt hlt'] at hval
      exact ofLE_inj (by simp) (by rw [hbig, hval])
    · intro h
      have h' : (networkTime t).reverse = networkTime t := h
      rw [h'] at hright
      exact hright
  unfold readTime
  rw [nmxpDataSwap8b_eq h8]
  cases host <;> cases swap <;> simp [load, hright, hwrong]

/-! ### The decoder -/

/-- **Decoding an encoded body** gives everything back, but for the time, which is swapped by the
flag. -/
theorem decode_encode (host : Host) (outdata : OutData) {channelList : NmxpChanListNet}
    (networkCodeDefault locationCodeDefault : CStr) {key : Int32} (t : UInt64) (rate : Int32)
    (samples : List Int32) (hkey : ∃ ch ∈ channelList.channel, ch.key = key)
    (hlen : samples.length ≤ 4087) :
    ∃ pd, nmxpProcessDecompressedData host outdata (encode key t rate samples) channelList
        networkCodeDefault locationCodeDefault = .ok pd ∧
      Undone key (readTime host (decide (key ≠ int32 (load host (network32 key))))
        (networkTime t)) rate samples pd := by
  have h8 : (networkTime t).length = 8 := length_store .big 8 _
  obtain ⟨name, hname⟩ := nmxpChanLookupName_isSome hkey
  obtain ⟨o1, o2, hcpy, hswap, htake⟩ := samples_ok host outdata samples
    (by unfold MAX_OUTDATA; omega)
  have hn : (int32 samples.length).toInt = samples.length := toInt_int32_of_lt (by omega)
  have hn' : (int32 samples.length).toInt.toNat = samples.length := by
    rw [hn, Int.toNat_natCast]
  -- the five parts of the body
  have h0 : readBytes (encode key t rate samples) 0 4 = .ok (network32 key) :=
    readBytes_append [] _ _ rfl (length_network32 key).symm
  have h4 : readBytes (encode key t rate samples) 4 8 = .ok (networkTime t) :=
    readBytes_append (network32 key) _ _ (by simp) h8.symm
  have h12 : readBytes (encode key t rate samples) 12 4 =
      .ok (network32 (int32 samples.length)) := by
    rw [encode, ← List.append_assoc]
    exact readBytes_append _ _ _ (by simp [h8]) (by simp)
  have h16 : readBytes (encode key t rate samples) 16 4 = .ok (network32 rate) := by
    rw [encode, ← List.append_assoc, ← List.append_assoc]
    exact readBytes_append _ _ _ (by simp [h8]) (by simp)
  have h20 : (encode key t rate samples).drop 20 = samples.flatMap network32 := by
    rw [encode, ← List.append_assoc, ← List.append_assoc, ← List.append_assoc]
    exact List.drop_left' (by simp [h8])
  refine ⟨toPacket (nmxpChanCpyStaChan name).2 networkCodeDefault locationCodeDefault key
    (readTime host (decide (key ≠ int32 (load host (network32 key)))) (networkTime t))
    (int32 samples.length) rate o2, ?_, rfl, rfl, hn, rfl, ?_⟩
  · simp only [nmxpProcessDecompressedData, h0, h4, h12, h16, h20, ok_bind, ntohl_network32, hname,
      hn', hcpy, hswap, pure_eq_ok]
  · change o2.cells.take (int32 samples.length).toInt.toNat = samples
    rw [hn', htake]

/-- **Decompressed packets.** For every key of the list, time, rate and at most 4087 samples, the
decoder gives back what was encoded if and only if the host is big-endian, or the key does not read
the same from both ends (so that `ntohl` changes it), or the time does (so that the swap does not
matter). -/
theorem decompressed_iff (host : Host) (outdata : OutData) (channelList : NmxpChanListNet)
    (networkCodeDefault locationCodeDefault : CStr) (key : Int32) (t : UInt64) (rate : Int32)
    (samples : List Int32) (hkey : ∃ ch ∈ channelList.channel, ch.key = key)
    (hlen : samples.length ≤ 4087) :
    (∃ pd, nmxpProcessDecompressedData host outdata (encode key t rate samples) channelList
        networkCodeDefault locationCodeDefault = .ok pd ∧ Undone key t rate samples pd) ↔
      host = .big ∨ ¬ Symmetric (network32 key) ∨ Symmetric (networkTime t) := by
  obtain ⟨pd, hpd, hu⟩ := decode_encode host outdata networkCodeDefault locationCodeDefault t rate
    samples hkey hlen
  have htime := readTime_eq_iff host (decide (key ≠ int32 (load host (network32 key)))) t
  have hswap : decide (key ≠ int32 (load host (network32 key))) = decide (host = .little) ↔
      host = .big ∨ ¬ Symmetric (network32 key) := by
    rw [decide_eq_decide, key_changes_iff]
    cases host <;> simp
  rw [hswap, or_assoc] at htime
  rw [← htime]
  constructor
  · rintro ⟨pd', hpd', hu'⟩
    rw [hpd] at hpd'
    cases hpd'
    rw [← hu.time, hu'.time]
  · intro h
    rw [h] at hu
    exact ⟨pd, hpd, hu⟩

theorem decompressed_iff_three :
    ∃ pd, nmxpProcessDecompressedData .little zeroed
        (encode 67174658 0x41CDCD6500000000 100 [1, -2, 3]) (oneChannel 67174658) [] [] = .ok pd ∧
      Undone 67174658 0x41CDCD6500000000 100 [1, -2, 3] pd :=
  (decompressed_iff .little zeroed (oneChannel 67174658) [] [] 67174658 0x41CDCD6500000000 100
    [1, -2, 3] (by decide) (by decide)).mpr (by decide)

/-- The bytes of the key of instrument 1, type 1 and channel 0 are 0, 1, 1, 0: on a little-endian
host the time is not swapped. -/
theorem decompressed_wrong_time : (∃ ch ∈ (oneChannel 65792).channel, ch.key = 65792) ∧
    ¬ ∃ pd, nmxpProcessDecompressedData .little zeroed
        (encode 65792 0x41CDCD6500000000 100 [1, -2, 3]) (oneChannel 65792) [] [] = .ok pd ∧
      Undone 65792 0x41CDCD6500000000 100 [1, -2, 3] pd := by
  have hkey : ∃ ch ∈ (oneChannel 65792).channel, ch.key = 65792 := by decide
  refine ⟨hkey, ?_⟩
  rintro ⟨pd', hpd', hu'⟩
  obtain ⟨pd, hpd, hu⟩ := decode_encode .little zeroed [] [] 0x41CDCD6500000000 100
    [1, -2, 3] hkey (by decide)
  rw [hpd] at hpd'
  cases hpd'
  have hne : readTime .little (decide ((65792 : Int32) ≠ int32 (load .little (network32 65792))))
      (networkTime 0x41CDCD6500000000) ≠ 0x41CDCD6500000000 := by decide +kernel
  exact hne (hu.time.symm.trans hu'.time)

end Nmxptool.Decode.Decompressed
