import Nmxptool.Data.Grammar

/-! # Times on the command line

The values of the options for an interval, a delay or a span are times: a number of seconds, or a
number with the unit `m`, `h` or `d`. `nmxptool_read_time` reads one.

* `IsTime`: the times that can be typed.
* `readTime_iff`: which texts are read exactly or refused. -/

namespace Nmxptool.Params.ReadTime

open Nmxptool.Data.Process Nmxptool.Data.Date Nmxptool.Data.Grammar
open Nmxptool.Lib.Decimal Nmxptool.Lib.Fields

/-! ### The function -/

/-- The size of `str_value`. -/
def SIZEOF_STR_VALUE : ℕ := 100

/-- `atoi`. -/
def atoi (s : CStr) : Int32 := Int32.ofInt (strtol s).value

/-- The factor of a unit. -/
def factor : Char → Option Int32
  | 'm' => some 60
  | 'h' => some (60 * 60)
  | 'd' => some (60 * 60 * 24)
  | _ => none

/-- `nmxptool_read_time`: the number of errors, and `*pvalue`. There is no result for a text that
leaves `str_value` without a terminator, since `strlen` reads on behind it. -/
def nmxptoolReadTime (strInput : CStr) : Option (ℕ × Int32) :=
  let strValue := strncpy strInput SIZEOF_STR_VALUE
  if strValue.length < SIZEOF_STR_VALUE then
    if strValue = [] then some (1, 0)
    else
      let j := (strValue.takeWhile Char.isDigit).length
      match strValue.drop j with
      | [] => some (0, atoi strValue)
      | [unit] =>
        match factor unit with
        | some k => some (0, atoi (strValue.take j) * k)
        | none => some (1, 0)
      | _ => some (1, 0)
  else none

/-! ### Times -/

/-- **A time**: decimal digits, which may have a unit behind them. -/
inductive IsTime : CStr → ℕ → Prop
  | seconds (digits : CStr) (h : IsDecimal digits) : IsTime digits (decimal digits)
  | minutes (digits : CStr) (h : IsDecimal digits) : IsTime (digits ++ ['m']) (decimal digits * 60)
  | hours (digits : CStr) (h : IsDecimal digits) : IsTime (digits ++ ['h']) (decimal digits * 3600)
  | days (digits : CStr) (h : IsDecimal digits) : IsTime (digits ++ ['d']) (decimal digits * 86400)

/-- The largest `int32_t`. -/
def INT32_MAX : ℕ := 2 ^ 31 - 1

/-- **Exact or refused**: there is no error if and only if the text is a time that fits, and then
the value is that time. -/
structure Exact (strInput : CStr) (retErrors : ℕ) (value : Int32) : Prop where
  accepts : retErrors = 0 ↔ ∃ time, IsTime strInput time ∧ time ≤ INT32_MAX
  value : retErrors = 0 → ∀ time, IsTime strInput time → value.toInt = time

/-! ### The text -/

/-- The factor of what is behind the digits. -/
def suffixFactor : CStr → Option ℕ
  | [] => some 1
  | ['m'] => some 60
  | ['h'] => some 3600
  | ['d'] => some 86400
  | _ => none

theorem suffixFactor_eq_some {rest : CStr} {k : ℕ} : suffixFactor rest = some k ↔
    rest = [] ∧ k = 1 ∨ rest = ['m'] ∧ k = 60 ∨ rest = ['h'] ∧ k = 3600 ∨
      rest = ['d'] ∧ k = 86400 := by
  constructor
  · intro h
    unfold suffixFactor at h
    split at h <;> simp_all
  · rintro (⟨rfl, rfl⟩ | ⟨rfl, rfl⟩ | ⟨rfl, rfl⟩ | ⟨rfl, rfl⟩) <;> rfl

/-- **The times**, by the digits of a text and what is behind them. -/
theorem isTime_iff (s : CStr) (time : ℕ) : IsTime s time ↔
    IsDecimal (s.takeWhile Char.isDigit) ∧ ∃ k,
      suffixFactor (s.dropWhile Char.isDigit) = some k ∧
      time = decimal (s.takeWhile Char.isDigit) * k := by
  have hsplit {digits : CStr} (h : IsDecimal digits) (unit : Char) (hunit : unit.isDigit = false) :=
    @takeWhile_digits _ [unit] h.digit (by simp [hunit])
  constructor
  · rintro (⟨_, h⟩ | ⟨_, h⟩ | ⟨_, h⟩ | ⟨_, h⟩)
    · rw [List.takeWhile_eq_self_iff.mpr h.digit, List.dropWhile_eq_nil_iff.mpr h.digit]
      exact ⟨h, 1, rfl, (mul_one _).symm⟩
    · obtain ⟨htake, hdrop⟩ := hsplit h 'm' rfl
      rw [htake, hdrop]
      exact ⟨h, 60, rfl, rfl⟩
    · obtain ⟨htake, hdrop⟩ := hsplit h 'h' rfl
      rw [htake, hdrop]
      exact ⟨h, 3600, rfl, rfl⟩
    · obtain ⟨htake, hdrop⟩ := hsplit h 'd' rfl
      rw [htake, hdrop]
      exact ⟨h, 86400, rfl, rfl⟩
  · rintro ⟨h, k, hk, rfl⟩
    have hs := List.takeWhile_append_dropWhile (p := Char.isDigit) (l := s)
    generalize s.takeWhile Char.isDigit = digits at h hs ⊢
    generalize s.dropWhile Char.isDigit = rest at hk hs
    subst hs
    rcases suffixFactor_eq_some.mp hk with ⟨rfl, rfl⟩ | ⟨rfl, rfl⟩ | ⟨rfl, rfl⟩ | ⟨rfl, rfl⟩
    · rw [List.append_nil, mul_one]
      exact .seconds digits h
    · exact .minutes digits h
    · exact .hours digits h
    · exact .days digits h

/-! ### What is read -/

theorem factor_eq (unit : Char) : factor unit = (suffixFactor [unit]).map Int32.ofNat := by
  unfold factor
  split
  · rfl
  · rfl
  · rfl
  · next h1 h2 h3 =>
    have hnone : suffixFactor [unit] = none := by
      unfold suffixFactor
      split <;> simp_all
    rw [hnone]
    rfl

/-- What the function makes of a text that fits its array. -/
theorem readTime_eq {s : CStr} (hlen : s.length < SIZEOF_STR_VALUE) :
    nmxptoolReadTime s = if s = [] then some (1, 0)
      else some ((suffixFactor (s.dropWhile Char.isDigit)).elim (1, 0) fun k =>
        (0, atoi (s.takeWhile Char.isDigit) * Int32.ofNat k)) := by
  have hcopy : strncpy s SIZEOF_STR_VALUE = s := List.take_of_length_le hlen.le
  unfold nmxptoolReadTime
  dsimp only
  rw [hcopy, if_pos hlen, drop_takeWhile_length, take_takeWhile_length]
  split_ifs with hs
  · rfl
  have hsplit := List.takeWhile_append_dropWhile (p := Char.isDigit) (l := s)
  generalize s.takeWhile Char.isDigit = digits at hsplit ⊢
  generalize s.dropWhile Char.isDigit = rest at hsplit ⊢
  obtain _ | ⟨unit, _ | ⟨c, rest⟩⟩ := rest
  · rw [List.append_nil] at hsplit
    rw [hsplit]
    simp [suffixFactor]
  · dsimp only
    rw [factor_eq]
    cases suffixFactor [unit] <;> rfl
  · simp [suffixFactor]

/-- A number that fits is read. -/
theorem toInt_atoi {t : CStr} (h : IsDecimal t) (hlt : decimal t < 2 ^ 31) :
    (atoi t).toInt = decimal t := by
  have hnumber := number_eq h hlt
  unfold number toInt32 at hnumber
  rw [atoi, Int32.toInt_ofInt]
  exact hnumber

/-- So is a time that fits. -/
theorem toInt_mul {t : CStr} (h : IsDecimal t) {k : ℕ} (hpos : 0 < k) (hk : k < 2 ^ 31)
    (hfits : decimal t * k ≤ INT32_MAX) :
    (atoi t * Int32.ofNat k).toInt = (decimal t * k : ℕ) := by
  have hmax : INT32_MAX < 2 ^ 31 := by decide
  have hle : decimal t ≤ decimal t * k := Nat.le_mul_of_pos_right _ hpos
  have hproduct := toInt32_natCast (hfits.trans_lt hmax)
  unfold toInt32 at hproduct
  rw [Int32.toInt_mul, toInt_atoi h (by omega), Int32.toInt_ofNat_of_lt hk, ← Int.natCast_mul]
  exact hproduct

/-- The factors. -/
theorem suffixFactor_bounds {rest : CStr} {k : ℕ} (h : suffixFactor rest = some k) :
    0 < k ∧ k < 2 ^ 31 := by
  rcases suffixFactor_eq_some.mp h with ⟨-, rfl⟩ | ⟨-, rfl⟩ | ⟨-, rfl⟩ | ⟨-, rfl⟩ <;> decide

/-! ### Exactness -/

/-- **The texts for which it is so**: they fit the array, are not a unit alone, and a time fits an
`int32_t`. -/
structure Readable (strInput : CStr) : Prop where
  length : strInput.length < SIZEOF_STR_VALUE
  notUnit : strInput ≠ ['m'] ∧ strInput ≠ ['h'] ∧ strInput ≠ ['d']
  fits : ∀ time, IsTime strInput time → time ≤ INT32_MAX

/-- A unit alone is what has a factor behind no digits. -/
theorem notUnit_iff {s : CStr} (hne : s ≠ []) {k : ℕ}
    (hk : suffixFactor (s.dropWhile Char.isDigit) = some k) :
    (s ≠ ['m'] ∧ s ≠ ['h'] ∧ s ≠ ['d']) ↔ IsDecimal (s.takeWhile Char.isDigit) := by
  have hsplit := List.takeWhile_append_dropWhile (p := Char.isDigit) (l := s)
  constructor
  · intro hunit
    refine ⟨fun hnil => ?_, fun c hc => List.mem_takeWhile_imp hc⟩
    rw [hnil, List.nil_append] at hsplit
    rw [hsplit] at hk
    rcases suffixFactor_eq_some.mp hk with ⟨rfl, -⟩ | ⟨rfl, -⟩ | ⟨rfl, -⟩ | ⟨rfl, -⟩
    · exact hne rfl
    · exact hunit.1 rfl
    · exact hunit.2.1 rfl
    · exact hunit.2.2 rfl
  · intro hdecimal
    refine ⟨?_, ?_, ?_⟩ <;>
    · rintro rfl
      exact hdecimal.ne_nil rfl

/-- **Times.** Every text is read exactly or refused if and only if it is one of those. -/
theorem readTime_iff (strInput : CStr) :
    (∃ retErrors value, nmxptoolReadTime strInput = some (retErrors, value) ∧
      Exact strInput retErrors value) ↔ Readable strInput := by
  by_cases hlen : strInput.length < SIZEOF_STR_VALUE
  swap
  · have hcopy : ¬ (strncpy strInput SIZEOF_STR_VALUE).length < SIZEOF_STR_VALUE := by
      rw [strncpy, List.length_take]
      omega
    have hnone : nmxptoolReadTime strInput = none := by
      unfold nmxptoolReadTime
      dsimp only
      rw [if_neg hcopy]
    rw [hnone]
    exact iff_of_false (by simp) fun h => hlen h.length
  rw [readTime_eq hlen]
  by_cases hnil : strInput = []
  · -- an empty text is refused
    rw [if_pos hnil, hnil]
    have hnone (time : ℕ) : ¬ IsTime [] time := fun h => ((isTime_iff [] time).mp h).1.ne_nil rfl
    refine iff_of_true ⟨1, 0, rfl, ?_, ?_⟩
      ⟨by decide, by decide, fun time h => absurd h (hnone time)⟩
    · exact iff_of_false (by decide) fun ⟨time, h, _⟩ => hnone time h
    · exact fun h => absurd h (by decide)
  rw [if_neg hnil]
  cases hk : suffixFactor (strInput.dropWhile Char.isDigit) with
  | none =>
    have hnone (time : ℕ) : ¬ IsTime strInput time := fun h => by
      obtain ⟨-, k, hsome, -⟩ := (isTime_iff strInput time).mp h
      exact absurd (hk.symm.trans hsome) (by simp)
    refine iff_of_true ⟨1, 0, rfl, ?_, ?_⟩ ⟨hlen, ?_, fun time h => absurd h (hnone time)⟩
    · exact iff_of_false (by decide) fun ⟨time, h, _⟩ => hnone time h
    · exact fun h => absurd h (by decide)
    · refine ⟨?_, ?_, ?_⟩ <;>
      · rintro rfl
        exact absurd hk (by decide)
  | some k =>
    rw [Option.elim_some]
    obtain ⟨hpos, hbound⟩ := suffixFactor_bounds hk
    have hunit := notUnit_iff hnil hk
    have htime (time : ℕ) : IsTime strInput time ↔ IsDecimal (strInput.takeWhile Char.isDigit) ∧
        time = decimal (strInput.takeWhile Char.isDigit) * k := by
      rw [isTime_iff, hk]
      simp
    constructor
    · rintro ⟨retErrors, value, hresult, haccepts, -⟩
      obtain ⟨rfl, rfl⟩ := Prod.mk.inj (Option.some.inj hresult)
      obtain ⟨time, h, hfits⟩ := haccepts.mp rfl
      obtain ⟨hdecimal, rfl⟩ := (htime time).mp h
      refine ⟨hlen, hunit.mpr hdecimal, fun time h => ?_⟩
      rwa [((htime time).mp h).2]
    · intro hreadable
      have hdecimal := hunit.mp hreadable.notUnit
      have htyped := (htime _).mpr ⟨hdecimal, rfl⟩
      have hfits := hreadable.fits _ htyped
      refine ⟨0, _, rfl, iff_of_true rfl ⟨_, htyped, hfits⟩, fun _ time h => ?_⟩
      rw [((htime time).mp h).2]
      exact toInt_mul hdecimal hpos hbound hfits

/-- A unit without a number is read as 0. -/
theorem readTime_unit : ¬∀ strInput : CStr, ∃ retErrors value,
    nmxptoolReadTime strInput = some (retErrors, value) ∧ Exact strInput retErrors value := by
  intro hclaim
  obtain ⟨retErrors, value, hresult, haccepts, -⟩ := hclaim ['h']
  have hread : nmxptoolReadTime ['h'] = some (0, 0) := by decide +kernel
  rw [hread] at hresult
  obtain ⟨rfl, -⟩ := Prod.mk.inj (Option.some.inj hresult)
  obtain ⟨time, h, -⟩ := haccepts.mp rfl
  exact ((isTime_iff ['h'] time).mp h).1.ne_nil rfl

end Nmxptool.Params.ReadTime
