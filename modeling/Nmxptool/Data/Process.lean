import Mathlib.Data.SProd
import Mathlib.Tactic.NormNum
import Nmxptool.Lib.Floating

/-! # Data packets

`NMXP_DATA_PROCESS` is the packet that the decoders produce and that everything downstream reads.
Times are C doubles; the type `τ` of times is a parameter, so that a packet may carry the exact bit
pattern of a double or the exact rational it stands for. The end of a packet and its latency are
rounded as the code rounds them. A C string is the list of its characters before the terminator.
Machine integers are Lean's `Int32`, which wraps as the code does. -/

namespace Nmxptool.Data.Process

open Nmxptool.Lib.Floating Nmxptool.Lib.Rounding

/-- The contents of a NUL-terminated string. -/
abbrev CStr := List Char

/-- `strncpy` into an array of `n` characters, read back as a string. -/
def strncpy (s : CStr) (n : ℕ) : CStr := s.take n

/-! ### The packet -/

def NMXP_DATA_NETWORK_LENGTH : ℕ := 10
def NMXP_DATA_STATION_LENGTH : ℕ := 10
def NMXP_DATA_CHANNEL_LENGTH : ℕ := 10
def NMXP_DATA_LOCATION_LENGTH : ℕ := 3

/-- `NMXP_DATA_PROCESS`. `pDataPtr` is `none` for a NULL pointer, else the array pointed to, which
may be longer than the `nSamp` samples of the packet. -/
structure NmxpDataProcess (τ : Type) where
  key : Int32
  network : CStr
  station : CStr
  channel : CStr
  location : CStr
  packetType : Int32
  x0 : Int32
  xn : Int32
  x0nSignificant : Int32
  oldestSeqNo : Int32
  seqNo : Int32
  time : τ
  pDataPtr : Option (List Int32)
  nSamp : Int32
  sampRate : Int32
  timingQuality : Int32
  deriving DecidableEq

/-- `nmxp_data_init`; `time` is the double `-1.0`. -/
def nmxpDataInit {τ : Type} (time : τ) : NmxpDataProcess τ where
  key := -1
  network := []
  station := []
  channel := []
  location := []
  packetType := -1
  x0 := -1
  xn := -1
  x0nSignificant := 0
  oldestSeqNo := -1
  seqNo := -1
  time := time
  pDataPtr := none
  nSamp := 0
  sampRate := -1
  timingQuality := -1

namespace NmxpDataProcess

/-- The samples of a packet: the first `nSamp` of its array. -/
def samples {τ : Type} (pd : NmxpDataProcess τ) : List Int32 :=
  (pd.pDataPtr.getD []).take pd.nSamp.toInt.toNat

/-- `pd->time + ((double) pd->nSamp / (double) pd->sampRate)`, in doubles. -/
def endTime (pd : NmxpDataProcess ℚ) : Double :=
  (.finite pd.time + (Double.quotient pd.nSamp.toInt pd.sampRate.toInt).round).round

/-- The same, where times are taken as exact. -/
def exactEndTime (pd : NmxpDataProcess ℚ) : Double :=
  .finite pd.time + .quotient pd.nSamp.toInt pd.sampRate.toInt

/-- Without a sampling rate of zero the end is a number. -/
theorem exactEndTime_of_ne {pd : NmxpDataProcess ℚ} (h : pd.sampRate.toInt ≠ 0) :
    pd.exactEndTime = .finite (pd.time + pd.nSamp.toInt / pd.sampRate.toInt) := by
  unfold exactEndTime
  rw [Double.quotient_of_ne _ h, Double.finite_add]

end NmxpDataProcess

/-- `nmxp_data_latency` at a clock reading `now`. -/
def nmxpDataLatency (now : ℤ) : Option (NmxpDataProcess ℚ) → Double
  | some pd => (.finite now - pd.endTime).round
  | none => .finite 0

/-- Nine tenths of a second are no double, but with another tenth the second is whole again. -/
example : nmxpDataLatency 1700000601 (some { nmxpDataInit (toDouble (17000000009 / 10)) with
    nSamp := 1, sampRate := 10 }) = .finite 600 := by decide +kernel

/-! ### Arithmetic of `int32_t` without overflow -/

theorem toInt_ofInt_of_range {n : ℤ} (h1 : -2 ^ 31 ≤ n) (h2 : n < 2 ^ 31) :
    (Int32.ofInt n).toInt = n := by
  rw [Int32.toInt_ofInt]
  exact Int.bmod_eq_of_le (by norm_num [Int32.size]; omega) (by norm_num [Int32.size]; omega)

theorem toInt_sub_of_range {a b : Int32} (h1 : -2 ^ 31 ≤ a.toInt - b.toInt)
    (h2 : a.toInt - b.toInt < 2 ^ 31) : (a - b).toInt = a.toInt - b.toInt := by
  rw [Int32.toInt_sub]; exact Int.bmod_eq_of_le (by norm_num; omega) (by norm_num; omega)

theorem toInt_add_of_range {a b : Int32} (h1 : -2 ^ 31 ≤ a.toInt + b.toInt)
    (h2 : a.toInt + b.toInt < 2 ^ 31) : (a + b).toInt = a.toInt + b.toInt := by
  rw [Int32.toInt_add]; exact Int.bmod_eq_of_le (by norm_num; omega) (by norm_num; omega)

/-- The predecessor of a number above the smallest one. -/
theorem toInt_sub_one {a : Int32} (h : -2 ^ 31 < a.toInt) : (a - 1).toInt = a.toInt - 1 := by
  have h1 : (1 : Int32).toInt = 1 := by decide
  have := a.toInt_lt
  rw [toInt_sub_of_range (by rw [h1]; omega) (by rw [h1]; omega), h1]

end Nmxptool.Data.Process
