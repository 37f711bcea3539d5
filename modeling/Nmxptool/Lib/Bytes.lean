import Mathlib.Data.Nat.Digits.Defs
import Mathlib.Data.Nat.Digits.Lemmas
import Mathlib.Tactic.NormNum

/-! # Integers in memory

A number of `n` bytes lies in memory with its least significant byte first on a little-endian host,
last on a big-endian one. `load` and `store` are the reading and the writing of a variable,
`hton` is the conversion between host order and network order (big-endian), in either direction.

* `load_store`: a variable is read as it was written, modulo its width.
* `hton_load`, `store_hton`: after or before the conversion, the bytes are in network order.
* `signed`: two's complement, and its agreement with `Int32`.
* `ntohl_network32`, `store_ntohl`: an `int32_t` from and to the network. -/

namespace Nmxptool.Lib.Bytes

/-- The number with the given bytes, the least significant first. -/
def ofLE (bs : List UInt8) : ℕ := Nat.ofDigits 256 (bs.map UInt8.toNat)

/-- The `n` low bytes of a number, the least significant first. -/
def toLE : ℕ → ℕ → List UInt8
  | 0, _ => []
  | n + 1, v => UInt8.ofNat v :: toLE n (v / 256)

theorem ofLE_cons (b : UInt8) (bs : List UInt8) : ofLE (b :: bs) = b.toNat + 256 * ofLE bs := by
  simp only [ofLE, List.map_cons, Nat.ofDigits_cons]

theorem ofLE_lt (bs : List UInt8) : ofLE bs < 256 ^ bs.length := by
  have h := Nat.ofDigits_lt_base_pow_length (b := 256) (l := bs.map UInt8.toNat) (by norm_num)
    fun x hx => by
      obtain ⟨b, -, rfl⟩ := List.mem_map.mp hx
      exact b.toNat_lt
  rwa [List.length_map] at h

@[simp] theorem length_toLE (n v : ℕ) : (toLE n v).length = n := by
  induction n generalizing v with
  | zero => rfl
  | succ n ih => rw [toLE, List.length_cons, ih]

theorem ofLE_toLE (n v : ℕ) : ofLE (toLE n v) = v % 256 ^ n := by
  induction n generalizing v with
  | zero => rw [pow_zero, Nat.mod_one]; rfl
  | succ n ih =>
    rw [toLE, ofLE_cons, ih, pow_succ', Nat.mod_mul, UInt8.toNat_ofNat']

theorem toLE_ofLE (bs : List UInt8) : toLE bs.length (ofLE bs) = bs := by
  induction bs with
  | nil => rfl
  | cons b bs ih =>
    have hb := b.toNat_lt
    have hq : ofLE (b :: bs) / 256 = ofLE bs := by rw [ofLE_cons]; omega
    have hr : ofLE (b :: bs) % 2 ^ 8 = b.toNat := by rw [ofLE_cons]; omega
    rw [List.length_cons, toLE, hq, ih]
    congr 1
    exact UInt8.toNat_inj.mp (by rw [UInt8.toNat_ofNat', hr])

/-! ### Hosts -/

/-- The byte order of a host. -/
inductive Host
  | little
  | big
  deriving DecidableEq

/-- The bytes of a variable, as the host reads them. -/
def load : Host → List UInt8 → ℕ
  | .little, bs => ofLE bs
  | .big, bs => ofLE bs.reverse

/-- The bytes of a variable of `n` bytes, as the host writes them. -/
def store : Host → ℕ → ℕ → List UInt8
  | .little, n, v => toLE n v
  | .big, n, v => (toLE n v).reverse

/-- `ntohl` and `htonl` for a variable of `n` bytes: the same exchange of bytes. -/
def hton : Host → ℕ → ℕ → ℕ
  | .little, n, v => ofLE (toLE n v).reverse
  | .big, _, v => v

variable {h : Host}

theorem load_lt (h : Host) (bs : List UInt8) : load h bs < 256 ^ bs.length := by
  cases h with
  | little => exact ofLE_lt bs
  | big =>
    have := ofLE_lt bs.reverse
    rwa [List.length_reverse] at this

@[simp] theorem length_store (h : Host) (n v : ℕ) : (store h n v).length = n := by
  cases h <;> simp [store]

theorem load_store (h : Host) (n v : ℕ) : load h (store h n v) = v % 256 ^ n := by
  cases h with
  | little => exact ofLE_toLE n v
  | big => rw [load, store, List.reverse_reverse, ofLE_toLE]

/-- Bytes from the network, loaded and converted. -/
theorem hton_load (h : Host) (bs : List UInt8) : hton h bs.length (load h bs) = load .big bs := by
  cases h with
  | little => rw [hton, load, toLE_ofLE]; rfl
  | big => rfl

/-- A variable, converted and stored, lies in network order. -/
theorem store_hton (h : Host) (n v : ℕ) : store h n (hton h n v) = store .big n v := by
  cases h with
  | little =>
    have := toLE_ofLE (toLE n v).reverse
    rw [List.length_reverse, length_toLE] at this
    rw [hton, store, this]; rfl
  | big => rfl

theorem ofLE_inj {as bs : List UInt8} (hl : as.length = bs.length) (h : ofLE as = ofLE bs) :
    as = bs := by
  rw [← toLE_ofLE as, ← toLE_ofLE bs, hl, h]

/-! ### Two's complement -/

/-- The signed number with the given bytes, the least significant first. -/
def signed (bs : List UInt8) : ℤ := (ofLE bs : ℤ).bmod (256 ^ bs.length)

/-- A number of four bytes as an `int32_t`. -/
def int32 (v : ℕ) : Int32 := (UInt32.ofNat v).toInt32

/-- An `int32_t` as a number of four bytes. -/
def nat32 (v : Int32) : ℕ := v.toUInt32.toNat

@[simp] theorem int32_nat32 (v : Int32) : int32 (nat32 v) = v := by
  rw [int32, nat32, UInt32.ofNat_toNat, Int32.toInt32_toUInt32]

theorem nat32_lt (v : Int32) : nat32 v < 256 ^ 4 := v.toUInt32.toNat_lt

theorem nat32_int32 {v : ℕ} (hv : v < 256 ^ 4) : nat32 (int32 v) = v := by
  rw [nat32, int32, UInt32.toUInt32_toInt32, UInt32.toNat_ofNat']
  exact Nat.mod_eq_of_lt hv

theorem nat32_inj {v w : Int32} (h : nat32 v = nat32 w) : v = w := by
  rw [← int32_nat32 v, h, int32_nat32]

theorem toInt_int32 (v : ℕ) : (int32 v).toInt = (v : ℤ).bmod (2 ^ 32) := Int32.toInt_ofNat'

theorem toInt_int32_of_lt {n : ℕ} (h : n < 2 ^ 31) : (int32 n).toInt = n := by
  rw [toInt_int32]
  exact Int.bmod_eq_of_le (by omega) (by omega)

/-- A number that is not negative is its value. -/
theorem int32_of_toInt {v : Int32} {n : ℕ} (h : v.toInt = n) : int32 n = v := by
  have := v.toInt_lt
  rw [← Int32.toInt_inj, h]
  exact toInt_int32_of_lt (by omega)

theorem toInt_eq_bmod_nat32 (v : Int32) : v.toInt = (nat32 v : ℤ).bmod (2 ^ 32) := by
  rw [← toInt_int32, int32_nat32]

/-- `ntohl` and `htonl`. -/
def ntohl (h : Host) (v : Int32) : Int32 := int32 (hton h 4 (nat32 v))

/-- An `int32_t` in network order. -/
def network32 (v : Int32) : List UInt8 := store .big 4 (nat32 v)

@[simp] theorem length_network32 (v : Int32) : (network32 v).length = 4 := length_store .big 4 _

theorem nat32_load (h : Host) {m : List UInt8} (hm : m.length = 4) :
    nat32 (int32 (load h m)) = load h m :=
  nat32_int32 (by have := load_lt h m; rwa [hm] at this)

/-- Four bytes from the network, loaded and converted. -/
theorem ntohl_load (h : Host) {m : List UInt8} (hm : m.length = 4) :
    ntohl h (int32 (load h m)) = int32 (load .big m) := by
  have := hton_load h m
  rw [hm] at this
  rw [ntohl, nat32_load h hm, this]

theorem load_network32 (v : Int32) : int32 (load .big (network32 v)) = v := by
  rw [network32, load_store, Nat.mod_eq_of_lt (nat32_lt v), int32_nat32]

/-- An `int32_t`, loaded from network order and converted. -/
theorem ntohl_network32 (h : Host) (v : Int32) : ntohl h (int32 (load h (network32 v))) = v := by
  rw [ntohl_load h (length_network32 v), load_network32]

/-- An `int32_t`, converted and stored. -/
theorem store_ntohl (h : Host) (v : Int32) : store h 4 (nat32 (ntohl h v)) = network32 v := by
  have hlt : hton h 4 (nat32 v) < 256 ^ 4 := by
    cases h with
    | little =>
      have := ofLE_lt (toLE 4 (nat32 v)).reverse
      rwa [List.length_reverse, length_toLE] at this
    | big => exact nat32_lt v
  rw [ntohl, nat32_int32 hlt, store_hton, network32]

/-! ### Bits -/

theorem nat32_or (a b : Int32) : nat32 (a ||| b) = nat32 a ||| nat32 b := rfl

theorem nat32_and (a b : Int32) : nat32 (a &&& b) = nat32 a &&& nat32 b := rfl

theorem nat32_shiftLeft_sixteen (a : Int32) : nat32 (a <<< 16) = nat32 a * 65536 % 2 ^ 32 := by
  have h : (a <<< 16).toUInt32 = a.toUInt32 <<< 16 := rfl
  rw [nat32, h, UInt32.toNat_shiftLeft, Nat.shiftLeft_eq]
  rfl

end Nmxptool.Lib.Bytes
