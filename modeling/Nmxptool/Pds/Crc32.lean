import Nmxptool.Lib.ShiftRegister
import Mathlib.Algebra.Ring.Parity
import Mathlib.Tactic.Ring

/-! # The checksum of the login

`crc32` goes through a table that it builds on each call, with one table entry for each value of a
byte. The table is filled from the top bit down: the entries between two that are there already
follow by linearity.

* `crc32_init_table_eq`: the table, whatever the array held before.
* `crc32_eq_serial`: a checksum is the bit-serial one.
* `crc32_refines`: and the checksum of a text can be taken in pieces.
* `crc32_burst`: texts that differ within four bytes are told apart. -/

namespace Nmxptool.Pds.Crc32

open Nmxptool.Lib.ShiftRegister

def POLYNOMIAL : BitVec 32 := 0xedb88320#32

/-- `uint32_t crc32_tab[256]`. -/
abbrev Table := Vector (BitVec 32) 256

/-- The inner loop of `crc32_init_table`, from `j` on. -/
def fill (i : ℕ) (h : BitVec 32) (j : ℕ) (tab : Table) : Table :=
  if hj : 0 < i ∧ j < 256 then fill i h (j + 2 * i) (tab.setIfInBounds (i + j) (tab[j] ^^^ h))
  else tab
termination_by 256 - j

/-- The outer loop of `crc32_init_table`, from `i` on. -/
def initLoop (i : ℕ) (h : BitVec 32) (tab : Table) : Table :=
  if i = 0 then tab
  else
    let h := (h >>> 1) ^^^ (if h &&& 1 ≠ 0 then POLYNOMIAL else 0)
    initLoop (i >>> 1) h (fill i h 0 tab)
termination_by i
decreasing_by rw [Nat.shiftRight_one]; omega

/-- `crc32_init_table`, into an array that holds anything. -/
def crc32InitTable (tab : Table) : Table := initLoop 128 1 (tab.set 0 0)

/-- `s[i]`, read through a signed `char` and promoted. -/
def charAt (byte : UInt8) : BitVec 32 := byte.toBitVec.signExtend 32

theorem index_lt (x : BitVec 32) : (x &&& 0xff).toNat < 256 := by
  rw [BitVec.toNat_and]
  exact lt_of_le_of_lt Nat.and_le_right (by decide)

/-- The body of the loop over the text. -/
def crcStep (tab : Table) (crc32val : BitVec 32) (byte : UInt8) : BitVec 32 :=
  tab.get ⟨((crc32val ^^^ charAt byte) &&& 0xff).toNat, index_lt _⟩ ^^^ (crc32val >>> 8)

/-- **`crc32`.** -/
def crc32 (tab : Table) (crc32val : BitVec 32) (s : List UInt8) (len : BitVec 32) : BitVec 32 :=
  (s.take len.toNat).foldl (crcStep (crc32InitTable tab)) (crc32val ^^^ 0xffffffff) ^^^ 0xffffffff

/-! ### The specification -/

/-- The bits of a text, each byte from its least significant bit on. -/
def bitsOf (s : List UInt8) : List Bool := s.flatMap fun byte => lsbFirst byte.toBitVec

/-- **CRC-32**, with a bit-serial register: the complement goes in, and what comes out is
complemented. -/
def serialCrc (c : BitVec 32) (s : List UInt8) : BitVec 32 :=
  ~~~serial POLYNOMIAL (~~~c) (bitsOf s)

/-! ### The table -/

/-- What the table should hold. -/
def tableEntry (k : ℕ) : BitVec 32 := shifts POLYNOMIAL 8 (BitVec.ofNat 32 k)

/-- The entries are there at the multiples of `d`. -/
def FilledAt (d : ℕ) (tab : Table) : Prop := ∀ k (hk : k < 256), d ∣ k → tab[k] = tableEntry k

theorem shift_eq (h : BitVec 32) :
    (h >>> 1) ^^^ (if h &&& 1 ≠ 0 then POLYNOMIAL else 0) = shift POLYNOMIAL h := by
  have hodd : h &&& 1 ≠ 0 ↔ h.getLsbD 0 = true := by
    rw [show (1 : BitVec 32) = 1#32 from rfl, BitVec.and_one_eq_setWidth_ofBool_getLsbD]
    cases h.getLsbD 0 <;> decide
  unfold shift
  simp only [hodd]

/-- The entry of a sum, where the smaller summand stays below the bits of the other. -/
theorem tableEntry_add {k j : ℕ} (hk : k < 8) (hj : j < 256) (hdvd : 2 ^ (k + 1) ∣ j) :
    tableEntry (2 ^ k + j) = tableEntry j ^^^ tableEntry (2 ^ k) := by
  have hor : BitVec.ofNat 32 (2 ^ k + j) = BitVec.ofNat 32 j ^^^ BitVec.ofNat 32 (2 ^ k) := by
    obtain ⟨m, rfl⟩ := hdvd
    apply BitVec.eq_of_getLsbD_eq
    intro i hi
    rw [BitVec.getLsbD_xor, BitVec.getLsbD_ofNat, BitVec.getLsbD_ofNat, BitVec.getLsbD_ofNat,
      Nat.add_comm, Nat.two_pow_add_eq_or_of_lt (Nat.pow_lt_pow_right (by omega) (by omega)),
      Nat.testBit_or, Nat.testBit_two_pow, Nat.testBit_two_pow_mul]
    grind
  unfold tableEntry
  rw [hor, shifts_xor]

theorem tableEntry_pow {k : ℕ} (hk : k < 8) :
    tableEntry (2 ^ k) = shifts POLYNOMIAL (8 - k) 1#32 := by
  have htwo : BitVec.ofNat 32 (2 ^ k) = BitVec.twoPow 32 k := by
    apply BitVec.eq_of_toNat_eq
    simp [BitVec.toNat_twoPow]
  unfold tableEntry
  rw [htwo, show 8 = 8 - k + k by omega, shifts_add, shifts_twoPow POLYNOMIAL (by omega)]
  simp

/-- A multiple of `2 ^ k` is one of `2 ^ (k + 1)`, or `2 ^ k` more than one. -/
theorem dvd_pow_cases {k m : ℕ} (h : 2 ^ k ∣ m) :
    2 ^ (k + 1) ∣ m ∨ ∃ j, 2 ^ (k + 1) ∣ j ∧ m = 2 ^ k + j := by
  obtain ⟨a, rfl⟩ := h
  rcases Nat.even_or_odd' a with ⟨b, rfl | rfl⟩
  · exact Or.inl ⟨b, by ring⟩
  · exact Or.inr ⟨2 ^ (k + 1) * b, ⟨b, rfl⟩, by ring⟩

theorem not_dvd_pow_add {k j : ℕ} (h : 2 ^ (k + 1) ∣ j) : ¬2 ^ (k + 1) ∣ 2 ^ k + j := by
  intro hdvd
  have hpow := (Nat.dvd_add_left h).mp hdvd
  exact absurd (Nat.le_of_dvd (Nat.two_pow_pos k) hpow) (by rw [pow_succ]; omega)

/-- **The inner loop** fills in between: it goes through the multiples of `2 ^ (k + 1)`, and the
entries `2 ^ k` above those behind it are there. -/
theorem filledAt_fill {k : ℕ} (hk : k < 8) (j : ℕ) (tab : Table) (hdvd : 2 ^ (k + 1) ∣ j)
    (hfilled : FilledAt (2 ^ (k + 1)) tab)
    (hdone : ∀ l < j, 2 ^ (k + 1) ∣ l →
      ∀ hl : 2 ^ k + l < 256, tab[2 ^ k + l] = tableEntry (2 ^ k + l)) :
    FilledAt (2 ^ k) (fill (2 ^ k) (tableEntry (2 ^ k)) j tab) := by
  induction j, tab using fill.induct (2 ^ k) (tableEntry (2 ^ k)) with
  | case1 j tab hj ih =>
    rw [fill, dif_pos hj]
    have hentry : tab[j] ^^^ tableEntry (2 ^ k) = tableEntry (2 ^ k + j) := by
      rw [hfilled j hj.2 hdvd, tableEntry_add hk hj.2 hdvd]
    refine ih ?_ ?_ ?_
    · exact Nat.dvd_add hdvd ⟨1, by ring⟩
    · intro m hm hmd
      have hne : 2 ^ k + j ≠ m := by
        rintro rfl
        exact not_dvd_pow_add hdvd hmd
      rw [Vector.getElem_setIfInBounds_ne hm hne]
      exact hfilled m hm hmd
    · intro l hlt hl hbound
      rw [Vector.getElem_setIfInBounds hbound]
      split_ifs with heq
      · rw [hentry, heq]
      · refine hdone l ?_ hl hbound
        -- the next multiple is `2 * 2 ^ k` away
        obtain ⟨a, rfl⟩ := hl
        obtain ⟨b, rfl⟩ := hdvd
        have hab : a ≠ b := fun h => heq (by rw [h])
        have hle : a < b + 1 := by
          refine Nat.lt_of_mul_lt_mul_left (?_ : 2 ^ (k + 1) * a < 2 ^ (k + 1) * (b + 1))
          calc 2 ^ (k + 1) * a < 2 ^ (k + 1) * b + 2 * 2 ^ k := hlt
            _ = 2 ^ (k + 1) * (b + 1) := by ring
        exact Nat.mul_lt_mul_of_pos_left (by omega) (Nat.two_pow_pos (k + 1))
  | case2 j tab hj =>
    rw [fill, dif_neg hj]
    have hend : 256 ≤ j := by
      by_contra hlt
      exact hj ⟨Nat.two_pow_pos k, by omega⟩
    intro m hm hmd
    rcases dvd_pow_cases hmd with hodd | ⟨l, hl, rfl⟩
    · exact hfilled m hm hodd
    · exact hdone l (by omega) hl hm

/-- One iteration of the outer loop, at `2 ^ k`: its `h` is the entry there. -/
theorem initLoop_pow {k : ℕ} (hk : k < 8) (tab : Table) :
    initLoop (2 ^ k) (shifts POLYNOMIAL (7 - k) 1#32) tab =
      initLoop (2 ^ k / 2) (shifts POLYNOMIAL (8 - k) 1#32)
        (fill (2 ^ k) (tableEntry (2 ^ k)) 0 tab) := by
  have hentry : shift POLYNOMIAL (shifts POLYNOMIAL (7 - k) 1#32) = tableEntry (2 ^ k) := by
    rw [← shifts_succ', tableEntry_pow hk, show 7 - k + 1 = 8 - k by omega]
  rw [initLoop, if_neg (Nat.two_pow_pos k).ne']
  simp only [shift_eq, hentry, Nat.shiftRight_one]
  rw [tableEntry_pow hk]

/-- **The outer loop**, from `2 ^ k` on. -/
theorem filledAt_initLoop {k : ℕ} (hk : k < 8) {tab : Table}
    (hfilled : FilledAt (2 ^ (k + 1)) tab) :
    FilledAt 1 (initLoop (2 ^ k) (shifts POLYNOMIAL (7 - k) 1#32) tab) := by
  induction k generalizing tab with
  | zero =>
    rw [initLoop_pow hk, show 2 ^ 0 / 2 = 0 from rfl, initLoop, if_pos rfl]
    exact filledAt_fill hk 0 tab (Nat.dvd_zero _) hfilled fun l hl => absurd hl l.not_lt_zero
  | succ k ih =>
    rw [initLoop_pow hk, show 2 ^ (k + 1) / 2 = 2 ^ k by rw [pow_succ]; omega,
      show 8 - (k + 1) = 7 - k by omega]
    refine ih (by omega) ?_
    exact filledAt_fill hk 0 tab (Nat.dvd_zero _) hfilled fun l hl => absurd hl l.not_lt_zero

/-- **The table**, whatever the array held before. -/
theorem crc32_init_table_eq (tab : Table) (k : ℕ) (hk : k < 256) :
    (crc32InitTable tab)[k] = tableEntry k := by
  have hfilled : FilledAt (2 ^ 8) (tab.set 0 0) := by
    intro m hm hdvd
    have h0 : m = 0 := Nat.eq_zero_of_dvd_of_lt hdvd hm
    subst h0
    rw [Vector.getElem_set_self, tableEntry, shifts_high POLYNOMIAL (by simp)]
    rfl
  have h := filledAt_initLoop (k := 7) (by decide) hfilled
  exact h k hk (one_dvd k)

/-! ### The checksum -/

/-- A step through the table is eight shifts of the bit-serial register. -/
theorem crcStep_eq (tab : Table) (r : BitVec 32) (byte : UInt8) :
    crcStep (crc32InitTable tab) r byte = serial POLYNOMIAL r (lsbFirst byte.toBitVec) := by
  have hmask : ∀ i < 32, (0xff#32).getLsbD i = decide (i < 8) := by decide
  have hbyte : (r ^^^ charAt byte) &&& 0xff#32 = (r ^^^ byte.toBitVec.setWidth 32) &&& 0xff#32 := by
    apply BitVec.eq_of_getLsbD_eq
    intro i hi
    simp only [BitVec.getLsbD_and, BitVec.getLsbD_xor, hmask i hi, charAt,
      BitVec.getLsbD_signExtend, BitVec.getLsbD_setWidth]
    grind
  have hshift : (r ^^^ byte.toBitVec.setWidth 32) >>> 8 = r >>> 8 := by
    apply BitVec.eq_of_getLsbD_eq
    intro i hi
    simp
  rw [serial_lsbFirst POLYNOMIAL (by decide), shifts_split POLYNOMIAL hmask, hshift]
  rw [← hbyte]
  have hentry := crc32_init_table_eq tab _ (index_lt (r ^^^ charAt byte))
  rw [tableEntry, BitVec.ofNat_toNat, BitVec.setWidth_eq] at hentry
  exact congrArg (· ^^^ (r >>> 8)) hentry

theorem foldl_crcStep (tab : Table) (s : List UInt8) (r : BitVec 32) :
    s.foldl (crcStep (crc32InitTable tab)) r = serial POLYNOMIAL r (bitsOf s) := by
  induction s generalizing r with
  | nil => rfl
  | cons byte s ih =>
    rw [List.foldl_cons, crcStep_eq, ih]
    unfold bitsOf serial
    rw [List.flatMap_cons, List.foldl_append]

theorem xor_ones (r : BitVec 32) : r ^^^ 0xffffffff = ~~~r := BitVec.xor_allOnes

/-- **A checksum is the bit-serial one.** -/
theorem crc32_eq_serial (tab : Table) (c : BitVec 32) {s : List UInt8} (h : s.length < 2 ^ 32) :
    crc32 tab c s (BitVec.ofNat 32 s.length) = serialCrc c s := by
  unfold crc32 serialCrc
  rw [BitVec.toNat_ofNat, Nat.mod_eq_of_lt h, List.take_length, foldl_crcStep, xor_ones, xor_ones]

theorem serialCrc_append (c : BitVec 32) (a b : List UInt8) :
    serialCrc (serialCrc c a) b = serialCrc c (a ++ b) := by
  unfold serialCrc serial bitsOf
  rw [BitVec.not_not, List.flatMap_append, List.foldl_append]

/-- **`crc32` is CRC-32**, and a text can be taken in two pieces. -/
theorem crc32_refines (tab tab' tab'' : Table) (c : BitVec 32) {a b : List UInt8}
    (h : (a ++ b).length < 2 ^ 32) :
    crc32 tab c a (BitVec.ofNat 32 a.length) = serialCrc c a ∧
      crc32 tab' (crc32 tab c a (BitVec.ofNat 32 a.length)) b (BitVec.ofNat 32 b.length) =
        crc32 tab'' c (a ++ b) (BitVec.ofNat 32 a.length + BitVec.ofNat 32 b.length) := by
  have hlen := List.length_append ▸ h
  have ha := crc32_eq_serial tab c (s := a) (by omega)
  refine ⟨ha, ?_⟩
  rw [ha, crc32_eq_serial tab' _ (by omega), serialCrc_append, ← BitVec.ofNat_add,
    ← List.length_append, crc32_eq_serial tab'' c h]

/-- The digits `1` to `9`, in two pieces. -/
theorem crc32_refines_digits :
    ([0x31, 0x32, 0x33, 0x34, 0x35] ++ [0x36, 0x37, 0x38, 0x39] : List UInt8).length < 2 ^ 32 ∧
      crc32 (Vector.replicate 256 0) 0 [0x31, 0x32, 0x33, 0x34, 0x35] 5#32 =
        serialCrc 0 [0x31, 0x32, 0x33, 0x34, 0x35] ∧
      crc32 (Vector.replicate 256 0)
          (crc32 (Vector.replicate 256 0) 0 [0x31, 0x32, 0x33, 0x34, 0x35] 5#32)
          [0x36, 0x37, 0x38, 0x39] 4#32 =
        crc32 (Vector.replicate 256 0) 0
          [0x31, 0x32, 0x33, 0x34, 0x35, 0x36, 0x37, 0x38, 0x39] (5#32 + 4#32) :=
  ⟨by decide, crc32_refines _ _ _ 0 (a := [0x31, 0x32, 0x33, 0x34, 0x35])
    (b := [0x36, 0x37, 0x38, 0x39]) (by decide)⟩

/-- The check value of CRC-32. -/
example : serialCrc 0 [0x31, 0x32, 0x33, 0x34, 0x35, 0x36, 0x37, 0x38, 0x39] = 0xcbf43926#32 := by
  decide +kernel

/-! ### Bursts -/

theorem bitsOf_append (a b : List UInt8) : bitsOf (a ++ b) = bitsOf a ++ bitsOf b :=
  List.flatMap_append

theorem length_bitsOf (s : List UInt8) : (bitsOf s).length = 8 * s.length := by
  induction s with
  | nil => rfl
  | cons byte s ih =>
    have hbyte : (lsbFirst byte.toBitVec).length = 8 := by simp [lsbFirst]
    unfold bitsOf at ih ⊢
    rw [List.flatMap_cons, List.length_append, ih, hbyte, List.length_cons]
    omega

theorem lsbFirst_injective {n : ℕ} {x y : BitVec n} (h : lsbFirst x = lsbFirst y) : x = y := by
  apply BitVec.eq_of_getLsbD_eq
  intro i hi
  have hget := congrArg (fun l => l[i]?) h
  simpa [lsbFirst, List.getElem?_range hi] using hget

theorem bitsOf_injective {x y : List UInt8} (h : bitsOf x = bitsOf y) : x = y := by
  induction x generalizing y with
  | nil =>
    have hlen := congrArg List.length h
    rw [length_bitsOf, length_bitsOf, List.length_nil] at hlen
    exact (List.eq_nil_of_length_eq_zero (by omega)).symm
  | cons a x ih =>
    cases y with
    | nil =>
      have hlen := congrArg List.length h
      rw [length_bitsOf, length_bitsOf, List.length_cons, List.length_nil] at hlen
      omega
    | cons b y =>
      unfold bitsOf at h
      rw [List.flatMap_cons, List.flatMap_cons] at h
      obtain ⟨hbyte, hrest⟩ := List.append_inj h (by simp [lsbFirst])
      rw [UInt8.toBitVec_inj.mp (lsbFirst_injective hbyte), ih hrest]

/-- Texts that differ within four bytes have different checksums. -/
theorem serialCrc_burst (c : BitVec 32) (a b : List UInt8) {x y : List UInt8}
    (hlen : x.length = y.length) (h4 : x.length ≤ 4)
    (h : serialCrc c (a ++ x ++ b) = serialCrc c (a ++ y ++ b)) : x = y := by
  have htop : POLYNOMIAL.getLsbD (32 - 1) = true := by decide
  unfold serialCrc at h
  simp only [bitsOf_append] at h
  exact bitsOf_injective (serial_burst htop (~~~c) (bitsOf a) (bitsOf b) (length_bitsOf x)
    ((length_bitsOf y).trans (by rw [hlen])) (by omega) (BitVec.not_inj.mp h))

/-- **The checksum detects every burst** of at most four bytes, wherever it is in a text. -/
theorem crc32_burst (tab tab' : Table) (c : BitVec 32) (a b : List UInt8) {x y : List UInt8}
    (hlen : x.length = y.length) (h4 : x.length ≤ 4) (hlt : (a ++ x ++ b).length < 2 ^ 32) :
    crc32 tab c (a ++ x ++ b) (BitVec.ofNat 32 (a ++ x ++ b).length) =
      crc32 tab' c (a ++ y ++ b) (BitVec.ofNat 32 (a ++ y ++ b).length) ↔ x = y := by
  have hlt' : (a ++ y ++ b).length < 2 ^ 32 := by
    simp only [List.length_append] at hlt ⊢
    omega
  rw [crc32_eq_serial tab c hlt, crc32_eq_serial tab' c hlt']
  refine ⟨serialCrc_burst c a b hlen h4, fun h => by rw [h]⟩

/-- A text with two letters exchanged. -/
theorem crc32_burst_exchanged :
    crc32 (Vector.replicate 256 0) 0 [112, 97, 115, 115] 4#32 ≠
      crc32 (Vector.replicate 256 0) 0 [97, 112, 115, 115] 4#32 := fun h =>
  absurd ((crc32_burst _ _ 0 [] [115, 115] (x := [112, 97]) (y := [97, 112]) (by decide)
    (by decide) (by decide)).mp h) (by decide)

end Nmxptool.Pds.Crc32
