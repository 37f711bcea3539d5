import Nmxptool.Data.Process
import Nmxptool.Lib.Run
import Nmxptool.Lib.Bytes

/-! # Data bundles

A compressed packet carries its samples as differences, in bundles of 17 bytes: a control byte with
four 2-bit codes, and four words of 4 bytes. `nmxp_data_unpack_bundle` adds the differences up into
an array of `MAX_OUTDATA` integers.

* `bundleDiffs`: the differences of a bundle, by the format.
* `unpackBundle_ok`: the function continues the running sums in the array by these differences. -/

namespace Nmxptool.Decode.Bundle

open Nmxptool.Data.Process Nmxptool.Lib.Run Nmxptool.Lib.Bytes

/-- What ends a decoder before it returns: `exit`, or what would be undefined behaviour. -/
inductive Stop
  | exit (status : ℤ)
  | readPastEnd
  | writePastEnd
  deriving DecidableEq

/-! ### Memory -/

def MAX_OUTDATA : ℕ := 4096

/-- The array that the decoders allocate. Its initial contents are arbitrary. -/
structure OutData where
  cells : List Int32
  size : cells.length = MAX_OUTDATA
  deriving DecidableEq

/-- An array of zeros. -/
def zeroed : OutData := ⟨List.replicate MAX_OUTDATA 0, by rw [List.length_replicate]⟩

/-- Write cell `i`. -/
def OutData.write (o : OutData) (i : ℕ) (v : Int32) : Except Stop OutData :=
  if i < MAX_OUTDATA then .ok ⟨o.cells.set i v, by rw [List.length_set, o.size]⟩
  else .error .writePastEnd

/-- Read cell `i`. -/
def OutData.read (o : OutData) (i : ℕ) : Except Stop Int32 :=
  match o.cells[i]? with
  | some v => .ok v
  | none => .error .readPastEnd

/-- Read `n` bytes at an offset. -/
def readBytes (buf : List UInt8) (off n : ℕ) : Except Stop (List UInt8) :=
  if off + n ≤ buf.length then .ok ((buf.drop off).take n) else .error .readPastEnd

/-- Read one byte. -/
def readByte (buf : List UInt8) (off : ℕ) : Except Stop UInt8 :=
  match buf[off]? with
  | some b => .ok b
  | none => .error .readPastEnd

/-- `nmxp_data_swap_2b`, on the bytes of the variable. -/
def nmxpDataSwap2b : List UInt8 → List UInt8
  | [a, b] => [b, a]
  | m => m

/-- `nmxp_data_swap_4b`, on the bytes of the variable. -/
def nmxpDataSwap4b : List UInt8 → List UInt8
  | [a, b, c, d] => [d, c, b, a]
  | m => m

/-- An `int16_t` whose bytes were copied from a packet, swapped on a big-endian host. -/
def packetInt16 (host : Host) (m : List UInt8) : Int16 :=
  (UInt16.ofNat (load host (if host = .big then nmxpDataSwap2b m else m))).toInt16

/-- An `int32_t` whose bytes were copied from a packet, swapped on a big-endian host. -/
def packetInt32 (host : Host) (m : List UInt8) : Int32 :=
  int32 (load host (if host = .big then nmxpDataSwap4b m else m))

/-! ### `nmxp_data_unpack_bundle` -/

/-- The differences `d4[0..k-1]` of the word at `off`, for the 2-bit code `cb`. -/
def wordToD4 (host : Host) (cb : UInt8) (indata : List UInt8) (off : ℕ) :
    Except Stop (List Int32) :=
  if cb = 0 then return []
  else do
    let w ← readBytes indata off 4
    if cb = 1 then return w.map fun b => b.toInt8.toInt32
    else if cb = 2 then
      return [(packetInt16 host (w.take 2)).toInt32, (packetInt16 host (w.drop 2)).toInt32]
    else return [packetInt32 host w]

/-- The loop over `d4`: each cell is the one before plus a difference. -/
def addD4 : List Int32 → OutData → ℕ → Int32 → Except Stop (OutData × ℕ × Int32)
  | [], outdata, pos, prev => return (outdata, pos, prev)
  | d :: ds, outdata, pos, prev => do
    let outdata ← outdata.write pos (prev + d)
    addD4 ds outdata (pos + 1) (prev + d)

/-- The loop over the four words. -/
def unpackWords (host : Host) : List UInt8 → List UInt8 → ℕ → OutData → ℕ → Int32 →
    Except Stop (OutData × ℕ × Int32)
  | [], _, _, outdata, pos, prev => return (outdata, pos, prev)
  | cb :: cbs, indata, off, outdata, pos, prev => do
    let d4 ← wordToD4 host cb indata off
    let (outdata, pos, prev) ← addD4 d4 outdata pos prev
    unpackWords host cbs indata (off + 4) outdata pos prev

/-- The four codes of a control byte. -/
def codes (cbits : UInt8) : List UInt8 :=
  ([6, 4, 2, 0] : List UInt8).map fun j => (cbits >>> j) &&& 3

/-- **`nmxp_data_unpack_bundle`**, writing from cell `pos` on: the number of samples or −1, the
array, and the new previous value. -/
def nmxpDataUnpackBundle (host : Host) (outdata : OutData) (pos : ℕ) (indata : List UInt8)
    (prev : Int32) : Except Stop (ℤ × OutData × Int32) := do
  let cbits ← readByte indata 0
  if cbits = 9 then return (-1, outdata, prev)
  else do
    let (outdata, pos', prev) ← unpackWords host (codes cbits) indata 1 outdata pos prev
    return ((pos' : ℤ) - pos, outdata, prev)

/-! ### The format -/

/-- The differences of a word, by its code. -/
def wordDiffs : ℕ → List UInt8 → List ℤ
  | 0, _ => []
  | 1, w => w.map fun b => signed [b]
  | 2, w => [signed (w.take 2), signed (w.drop 2)]
  | _, w => [signed w]

/-- The differences of the words of a bundle, for the codes from word `j` on. -/
def wordsDiffs : List ℕ → List UInt8 → List ℤ
  | [], _ => []
  | c :: cs, data => wordDiffs c (data.take 4) ++ wordsDiffs cs (data.drop 4)

/-- **The differences of a bundle**: the codes are the base-4 digits of the control byte. -/
def bundleDiffs : List UInt8 → List ℤ
  | [] => []
  | c :: data =>
    wordsDiffs [c.toNat / 64, c.toNat / 16 % 4, c.toNat / 4 % 4, c.toNat % 4] data

/-! ### Reading -/

theorem readBytes_ok {buf : List UInt8} {off n : ℕ} (h : off + n ≤ buf.length) :
    readBytes buf off n = .ok ((buf.drop off).take n) := if_pos h

theorem readByte_ok {buf : List UInt8} {off : ℕ} {b : UInt8} (h : buf[off]? = some b) :
    readByte buf off = .ok b := by
  unfold readByte
  rw [h]

theorem load_packet2 (host : Host) {m : List UInt8} (hm : m.length = 2) :
    load host (if host = .big then nmxpDataSwap2b m else m) = ofLE m := by
  match m, hm with
  | [a, b], _ => cases host <;> rfl

theorem load_packet4 (host : Host) {m : List UInt8} (hm : m.length = 4) :
    load host (if host = .big then nmxpDataSwap4b m else m) = ofLE m := by
  match m, hm with
  | [a, b, c, d], _ => cases host <;> rfl

/-- On either host a copied `int16_t` is the little-endian one. -/
theorem toInt_packetInt16 (host : Host) {m : List UInt8} (hm : m.length = 2) :
    (packetInt16 host m).toInt = signed m := by
  rw [packetInt16, load_packet2 host hm, signed, hm, UInt16.toInt16_ofNat', Int16.toInt_ofNat']
  rfl

theorem toInt_packetInt32 (host : Host) {m : List UInt8} (hm : m.length = 4) :
    (packetInt32 host m).toInt = signed m := by
  rw [packetInt32, load_packet4 host hm, signed, hm, toInt_int32]
  rfl

theorem toInt_signedChar (b : UInt8) : b.toInt8.toInt32.toInt = signed [b] := by
  rw [Int8.toInt_toInt32, signed, ofLE_cons]
  have hb : b.toInt8.toInt = (b.toNat : ℤ).bmod (2 ^ 8) := by
    rw [← UInt8.ofNat_toNat (x := b), UInt8.toInt8_ofNat', Int8.toInt_ofNat', UInt8.ofNat_toNat]
    rfl
  rw [hb]
  rfl

/-! ### Either host -/

theorem packetInt16_host (host : Host) {m : List UInt8} (hm : m.length = 2) :
    packetInt16 host m = packetInt16 .little m := by
  rw [packetInt16, load_packet2 host hm, packetInt16, load_packet2 .little hm]

theorem packetInt32_host (host : Host) {m : List UInt8} (hm : m.length = 4) :
    packetInt32 host m = packetInt32 .little m := by
  rw [packetInt32, load_packet4 host hm, packetInt32, load_packet4 .little hm]

theorem wordToD4_host (host : Host) (cb : UInt8) (indata : List UInt8) (off : ℕ) :
    wordToD4 host cb indata off = wordToD4 .little cb indata off := by
  unfold wordToD4 readBytes
  by_cases hoff : off + 4 ≤ indata.length
  · have hlen : ((indata.drop off).take 4).length = 4 := by simp; omega
    simp only [if_pos hoff, ok_bind]
    rw [packetInt32_host host hlen, packetInt16_host host (by simp [hlen]),
      packetInt16_host host (by simp [hlen])]
  · rw [if_neg hoff]
    rfl

theorem unpackWords_host (host : Host) (indata : List UInt8) : ∀ (cbs : List UInt8) (off : ℕ)
    (outdata : OutData) (pos : ℕ) (prev : Int32),
    unpackWords host cbs indata off outdata pos prev =
      unpackWords .little cbs indata off outdata pos prev
  | [], _, _, _, _ => rfl
  | cb :: cbs, off, outdata, pos, prev => by
    simp only [unpackWords, wordToD4_host host, unpackWords_host host indata cbs]

theorem unpackBundle_host (host : Host) (outdata : OutData) (pos : ℕ) (indata : List UInt8)
    (prev : Int32) : nmxpDataUnpackBundle host outdata pos indata prev =
      nmxpDataUnpackBundle .little outdata pos indata prev := by
  simp only [nmxpDataUnpackBundle, unpackWords_host host]

/-! ### Running sums -/

/-- The value after the first `i` differences. -/
def runningSum (x0 : ℤ) (ds : List ℤ) (i : ℕ) : Int32 := Int32.ofInt (x0 + (ds.take i).sum)

/-- The array holds `x0` and the running sums of `ds`, and the cursors stand behind them. -/
structure Holding (x0 : ℤ) (ds : List ℤ) (outdata : OutData) (nout : ℕ) (prev : Int32) :
    Prop where
  count : nout = ds.length + 1
  cells : outdata.cells.take nout = (List.range nout).map (runningSum x0 ds)
  prev : prev = runningSum x0 ds ds.length

variable {x0 : ℤ} {ds : List ℤ} {outdata : OutData} {nout : ℕ} {prev : Int32}

theorem runningSum_append (x0 : ℤ) (ds es : List ℤ) {i : ℕ} (hi : i ≤ ds.length) :
    runningSum x0 (ds ++ es) i = runningSum x0 ds i := by
  unfold runningSum
  rw [List.take_append_of_le_length hi]

theorem runningSum_concat (x0 : ℤ) (ds : List ℤ) (z : ℤ) :
    runningSum x0 (ds ++ [z]) (ds.length + 1) =
      runningSum x0 ds ds.length + Int32.ofInt z := by
  unfold runningSum
  rw [List.take_of_length_le (by simp), List.take_length, List.sum_append, List.sum_singleton,
    ← add_assoc, Int32.ofInt_add]

theorem write_ok (h : Holding x0 ds outdata nout prev) (hn : nout < MAX_OUTDATA) {d : Int32}
    {z : ℤ} (hd : d.toInt = z) : ∃ outdata', outdata.write nout (prev + d) = .ok outdata' ∧
      Holding x0 (ds ++ [z]) outdata' (nout + 1) (prev + d) := by
  have hsum : prev + d = runningSum x0 (ds ++ [z]) nout := by
    rw [h.count, runningSum_concat, h.prev, ← hd, Int32.ofInt_toInt]
  refine ⟨_, if_pos hn, by rw [h.count]; simp, ?_, ?_⟩
  · have hlen : nout < outdata.cells.length := by rw [outdata.size]; exact hn
    rw [List.take_succ_eq_append_getElem (by rw [List.length_set]; exact hlen),
      List.take_set_of_le le_rfl, h.cells, List.range_succ, List.map_append, List.map_singleton,
      List.getElem_set_self, hsum]
    congr 1
    refine List.map_congr_left fun i hi => (runningSum_append x0 ds [z] ?_).symm
    have := List.mem_range.mp hi
    have := h.count
    omega
  · rw [hsum, h.count]
    simp

theorem addD4_ok : ∀ {d4 : List Int32} {zs : List ℤ} {ds : List ℤ} {outdata : OutData} {nout : ℕ}
    {prev : Int32}, d4.map Int32.toInt = zs → Holding x0 ds outdata nout prev →
    nout + zs.length ≤ MAX_OUTDATA → ∃ outdata' prev',
    addD4 d4 outdata nout prev = .ok (outdata', nout + zs.length, prev') ∧
      Holding x0 (ds ++ zs) outdata' (nout + zs.length) prev' := by
  intro d4
  induction d4 with
  | nil =>
    rintro _ ds outdata nout prev rfl h -
    exact ⟨outdata, prev, rfl, by simpa using h⟩
  | cons d d4 ih =>
    rintro _ ds outdata nout prev rfl h hn
    simp only [List.map_cons, List.length_cons] at hn ⊢
    obtain ⟨o1, hw, h1⟩ := write_ok h (by omega) (d := d) rfl
    obtain ⟨o2, prev', h2, h3⟩ := ih rfl h1 (by omega)
    refine ⟨o2, prev', ?_, ?_⟩
    · rw [addD4, hw, ok_bind, h2]
      congr 3
      omega
    · rw [List.append_cons]
      convert h3 using 1
      omega

/-! ### Words and bundles -/

theorem length_wordDiffs_le (c : ℕ) {w : List UInt8} (hw : w.length ≤ 4) :
    (wordDiffs c w).length ≤ 4 := by
  unfold wordDiffs
  split <;> simp
  omega

theorem wordToD4_ok (host : Host) {cb : UInt8} (hcb : cb.toNat < 4) {indata : List UInt8}
    {off : ℕ} (hoff : off + 4 ≤ indata.length) : ∃ d4, wordToD4 host cb indata off = .ok d4 ∧
      d4.map Int32.toInt = wordDiffs cb.toNat ((indata.drop off).take 4) := by
  have hlen : ((indata.drop off).take 4).length = 4 := by simp; omega
  unfold wordToD4
  rw [readBytes_ok hoff]
  generalize (indata.drop off).take 4 = w at hlen
  obtain h | h | h | h : cb = 0 ∨ cb = 1 ∨ cb = 2 ∨ cb = 3 := by
    simp only [← UInt8.toNat_inj, UInt8.toNat_ofNat]
    omega
  all_goals subst h
  · exact ⟨[], rfl, rfl⟩
  · refine ⟨w.map fun b => b.toInt8.toInt32, rfl, ?_⟩
    rw [List.map_map]
    exact List.map_congr_left fun b _ => toInt_signedChar b
  · refine ⟨_, rfl, ?_⟩
    simp only [List.map_cons, List.map_nil, Int16.toInt_toInt32]
    rw [toInt_packetInt16 host (by simp [hlen]), toInt_packetInt16 host (by simp [hlen])]
    rfl
  · refine ⟨_, rfl, ?_⟩
    simp only [List.map_cons, List.map_nil]
    rw [toInt_packetInt32 host hlen]
    rfl

theorem unpackWords_ok (host : Host) (indata : List UInt8) : ∀ {cbs : List UInt8} (off : ℕ)
    {ds : List ℤ} {outdata : OutData} {nout : ℕ} {prev : Int32}, (∀ cb ∈ cbs, cb.toNat < 4) →
    Holding x0 ds outdata nout prev → off + 4 * cbs.length ≤ indata.length →
    nout + 4 * cbs.length ≤ MAX_OUTDATA → ∃ outdata' nout' prev',
    unpackWords host cbs indata off outdata nout prev = .ok (outdata', nout', prev') ∧
      nout' ≤ nout + 4 * cbs.length ∧
      Holding x0 (ds ++ wordsDiffs (cbs.map UInt8.toNat) (indata.drop off)) outdata' nout'
        prev' := by
  intro cbs
  induction cbs with
  | nil =>
    intro off ds outdata nout prev _ h _ _
    exact ⟨outdata, nout, prev, rfl, by simp, by simpa [wordsDiffs] using h⟩
  | cons cb cbs ih =>
    intro off ds outdata nout prev hcbs h hoff hn
    simp only [List.length_cons] at hoff hn ⊢
    have hoff4 : off + 4 ≤ indata.length := by omega
    obtain ⟨d4, hd4, hmap⟩ := wordToD4_ok host (hcbs cb (List.mem_cons_self ..)) hoff4
    have hle := length_wordDiffs_le cb.toNat (w := (indata.drop off).take 4) (by simp)
    obtain ⟨o1, p1, h1, hh1⟩ := addD4_ok hmap h (by omega)
    obtain ⟨o2, n2, p2, h2, hle2, hh2⟩ := ih (off + 4)
      (fun c hc => hcbs c (List.mem_cons_of_mem _ hc)) hh1 (by omega) (by omega)
    refine ⟨o2, n2, p2, ?_, by omega, ?_⟩
    · simp only [unpackWords, hd4, ok_bind, h1, h2]
    · rw [List.map_cons, wordsDiffs, ← List.append_assoc, List.drop_drop]
      exact hh2

theorem codes_toNat (c : UInt8) : (codes c).map UInt8.toNat =
    [c.toNat / 64, c.toNat / 16 % 4, c.toNat / 4 % 4, c.toNat % 4] := by
  have hc := c.toNat_lt
  have h3 : (3 : UInt8).toNat = 2 ^ 2 - 1 := rfl
  have hj : ∀ j : ℕ, j < 8 → (UInt8.ofNat j).toNat % 8 = j := by decide
  have hcode : ∀ j : ℕ, j < 8 → ((c >>> UInt8.ofNat j) &&& 3).toNat = c.toNat / 2 ^ j % 4 := by
    intro j h
    rw [UInt8.toNat_and, UInt8.toNat_shiftRight, h3, Nat.and_two_pow_sub_one_eq_mod, hj j h,
      Nat.shiftRight_eq_div_pow]
  have h6 := hcode 6 (by norm_num)
  have h4 := hcode 4 (by norm_num)
  have h2 := hcode 2 (by norm_num)
  have h0 := hcode 0 (by norm_num)
  simp only [codes, List.map_cons, List.map_nil, List.cons.injEq, and_true]
  refine ⟨h6.trans ?_, h4, h2, h0.trans ?_⟩
  · omega
  · omega

/-- A bundle's differences lie in its 17 bytes. -/
theorem wordsDiffs_take : ∀ (cs : List ℕ) (data : List UInt8),
    wordsDiffs cs (data.take (4 * cs.length)) = wordsDiffs cs data
  | [], _ => rfl
  | c :: cs, data => by
    have h1 : (data.take (4 * (cs.length + 1))).take 4 = data.take 4 := by
      rw [List.take_take, min_eq_left (by omega)]
    have h2 : (data.take (4 * (cs.length + 1))).drop 4 = (data.drop 4).take (4 * cs.length) := by
      rw [List.drop_take, show 4 * (cs.length + 1) - 4 = 4 * cs.length by omega]
    rw [List.length_cons, wordsDiffs, wordsDiffs, h1, h2, wordsDiffs_take cs]

theorem bundleDiffs_take (data : List UInt8) : bundleDiffs (data.take 17) = bundleDiffs data := by
  rcases data with _ | ⟨c, data⟩
  · rfl
  · exact wordsDiffs_take [c.toNat / 64, c.toNat / 16 % 4, c.toNat / 4 % 4, c.toNat % 4] data

/-- **A bundle** either is the null bundle, or continues the running sums by its differences. -/
theorem unpackBundle_ok (host : Host) (h : Holding x0 ds outdata nout prev)
    (hn : nout + 16 ≤ MAX_OUTDATA) {c : UInt8} {data : List UInt8} (hdata : 16 ≤ data.length) :
    (c = 9 ∧ nmxpDataUnpackBundle host outdata nout (c :: data) prev =
      .ok (-1, outdata, prev)) ∨
    (c ≠ 9 ∧ ∃ k outdata' prev', nmxpDataUnpackBundle host outdata nout (c :: data) prev =
      .ok ((k : ℕ), outdata', prev') ∧
      Holding x0 (ds ++ bundleDiffs (c :: data)) outdata' (nout + k) prev') := by
  have hc : readByte (c :: data) 0 = .ok c := readByte_ok rfl
  unfold nmxpDataUnpackBundle
  rw [hc, ok_bind]
  by_cases h9 : c = 9
  · rw [if_pos h9]
    exact Or.inl ⟨h9, rfl⟩
  · rw [if_neg h9]
    refine Or.inr ⟨h9, ?_⟩
    have hlt : ∀ cb ∈ codes c, cb.toNat < 4 := by
      intro cb hcb
      have := List.mem_map_of_mem (f := UInt8.toNat) hcb
      have hc' := c.toNat_lt
      simp only [codes_toNat, List.mem_cons, List.not_mem_nil, or_false] at this
      omega
    obtain ⟨o', n', p', h1, -, h2⟩ := unpackWords_ok host (c :: data) 1 hlt h
      (by simp [codes]; omega) (by simp [codes]; omega)
    rw [codes_toNat] at h2
    have hle : nout ≤ n' := by
      have h3 := h.count
      have h4 := h2.count
      simp only [List.length_append] at h4
      omega
    refine ⟨n' - nout, o', p', ?_, ?_⟩
    · rw [h1]
      simp only [ok_bind, pure_eq_ok]
      rw [Nat.cast_sub hle]
    · rw [Nat.add_sub_cancel' hle]
      exact h2

end Nmxptool.Decode.Bundle
