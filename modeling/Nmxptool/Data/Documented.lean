import Nmxptool.Data.Grammar

/-! # The documented dates

The help text and the head of `nmxp_data_parse_date` say which texts are dates. The parser takes
others as well: signs and blanks in front of a number, numbers out of their range, a text without a
year. A day of the year beyond the table leads it out of the table.

* `Documented`: the dates as they are documented, and `DateText.instant`, what they mean.
* `tmToTime_iff`: where the fields mean it.
* `documented_iff`: for which texts the parser does what is documented. -/

namespace Nmxptool.Data.Documented

open Nmxptool.Data.Process Nmxptool.Data.Date Nmxptool.Data.Grammar
open Nmxptool.Lib.Calendar Nmxptool.Lib.Decimal Nmxptool.Lib.Fields

/-! ### Dates -/

/-- A number without a sign, in a range. -/
structure InRange (lo hi : ℕ) (t : CStr) : Prop where
  isDecimal : IsDecimal t
  lo_le : lo ≤ decimal t
  le_hi : decimal t ≤ hi

/-- A month and a day that it has, or a day that the year has. -/
def DayDocumented (year : ℕ) : Day → Prop
  | .civil month mday => InRange 1 12 month ∧
      InRange 1 ((monthLengths (IsLeap year)).getD (decimal month - 1) 0).toNat mday
  | .julian jday => InRange 1 (yearLength year).toNat jday

structure TimeDocumented (t : TimeOfDay) : Prop where
  hour : InRange 0 23 t.hour
  min : InRange 0 59 t.min
  sec : ∀ s ∈ t.sec, InRange 0 59 s.1
  frac : ∀ s ∈ t.sec, ∀ f ∈ s.2, IsDecimal f ∧ f.length ≤ 4

/-- **A documented date.** -/
structure IsDocumented (d : DateText) : Prop where
  year : IsDecimal d.year
  day : DayDocumented (decimal d.year) d.day
  time : ∀ t ∈ d.time, TimeDocumented t

/-- The number of a day. -/
def dayNumber (year : ℤ) : Day → ℤ
  | .civil month mday => daysFromCivil year (decimal month - 1) (decimal mday)
  | .julian jday => daysBeforeYear year + (decimal jday - 1)

def seconds (time : Option TimeOfDay) : ℕ :=
  time.elim 0 fun t =>
    decimal t.hour * 3600 + decimal t.min * 60 + t.sec.elim 0 fun s => decimal s.1

/-- The digits behind the seconds. -/
def fraction (time : Option TimeOfDay) : Option CStr := time.bind fun t => t.sec.bind (·.2)

/-- **The time that a date means.** -/
def instant (d : DateText) : ℚ :=
  (dayNumber (decimal d.year) d.day * 86400 + seconds d.time : ℤ) +
    (fraction d.time).elim 0 fun f => (decimal f : ℚ) / 10 ^ f.length

/-! ### Numbers -/

theorem InRange.reads {lo hi : ℕ} {t : CStr} (h : InRange lo hi t) (hhi : hi < 2 ^ 31) : Reads t :=
  (reads_iff h.isDecimal).mpr (by have := h.le_hi; omega)

theorem InRange.number {lo hi : ℕ} {t : CStr} (h : InRange lo hi t) (hhi : hi < 2 ^ 31) :
    number t = decimal t :=
  number_eq h.isDecimal (by have := h.le_hi; omega)

/-! ### The fraction -/

/-- What lies in `str_tt` behind the digits, where they are fewer than four, and is not overwritten
with a NUL. -/
def leftover (strTt frac : CStr) : CStr := (strTt.drop (frac.length + 2)).take (3 - frac.length)

/-- The digits `0` behind a fraction. -/
def fill (strTt frac : CStr) : CStr :=
  ((Char.ofNat 0 :: strTt.drop (frac.length + 2)).take (4 - frac.length)).map fun c =>
    if c = Char.ofNat 0 then '0' else c

theorem padTenThousandth_map (strTt : CStr) {frac : CStr} (hlen : frac.length ≤ 4) :
    padTenThousandth strTt frac =
      '1' :: (frac.map (fun c => if c = Char.ofNat 0 then '0' else c) ++ fill strTt frac) := by
  unfold padTenThousandth fill
  rw [List.cons_append, List.take_succ_cons, List.take_append, List.take_of_length_le hlen,
    List.map_cons, List.map_append]
  rfl

theorem padTenThousandth_eq {strTt frac : CStr} (hdigit : ∀ c ∈ frac, c.isDigit)
    (hlen : frac.length ≤ 4) : padTenThousandth strTt frac = '1' :: (frac ++ fill strTt frac) := by
  have hmap : frac.map (fun c => if c = Char.ofNat 0 then '0' else c) = frac := by
    calc frac.map _ = frac.map id := by
          refine List.map_congr_left fun c hc => if_neg fun h => ?_
          exact absurd (hdigit c hc) (by rw [h]; decide)
      _ = frac := List.map_id _
  rw [padTenThousandth_map strTt hlen, hmap]

/-- The digits behind a fraction are zeros if nothing else was left there. -/
theorem fill_eq_zeros (strTt frac : CStr) : (∀ c ∈ fill strTt frac, c = '0') ↔
    ∀ c ∈ leftover strTt frac, c = Char.ofNat 0 ∨ c = '0' := by
  unfold fill leftover
  have hchar (c : Char) : (if c = Char.ofNat 0 then '0' else c) = '0' ↔
      c = Char.ofNat 0 ∨ c = '0' := by
    split_ifs with h
    · simp [h]
    · simp [h]
  by_cases hlen : frac.length ≤ 3
  · rw [show 4 - frac.length = 3 - frac.length + 1 by omega, List.take_succ_cons, List.map_cons,
      List.forall_mem_cons, List.forall_mem_map]
    rw [and_iff_right (if_pos rfl)]
    simp only [hchar]
  · rw [show 4 - frac.length = 0 by omega, show 3 - frac.length = 0 by omega]
    simp

theorem length_fill {strTt frac : CStr} (hstr : strTt.length = SIZEOF_STR_TT)
    (hlen : frac.length ≤ 4) : (fill strTt frac).length = 4 - frac.length := by
  unfold SIZEOF_STR_TT at hstr
  simp only [fill, List.length_map, List.length_take, List.length_cons, List.length_drop, hstr]
  omega

/-- Digits are taken where nothing but digits was left behind them. -/
theorem padded_iff {strTt frac : CStr} (h : IsDecimal frac) (hlen : frac.length ≤ 4) :
    Padded strTt frac ↔ ∀ c ∈ fill strTt frac, c.isDigit := by
  have hpad := @padTenThousandth_eq strTt _ h.digit hlen
  constructor
  · intro hpadded c hc
    refine hpadded.digit c ?_
    rw [hpad]
    simp [hc]
  · intro hfill
    refine ⟨h.ne_nil, hlen, fun c hc => ?_⟩
    rw [hpad, List.mem_cons, List.mem_append] at hc
    rcases hc with rfl | hc | hc
    · rfl
    · exact h.digit c hc
    · exact hfill c hc

/-- **The fraction** is right where the digits behind it are zeros. -/
theorem tenThousandths_iff {strTt frac : CStr} (hstr : strTt.length = SIZEOF_STR_TT)
    (h : IsDecimal frac) (hlen : frac.length ≤ 4) (hpadded : Padded strTt frac) :
    (tenThousandths strTt frac : ℚ) / 10000 = decimal frac / 10 ^ frac.length ↔
      ∀ c ∈ leftover strTt frac, c = Char.ofNat 0 ∨ c = '0' := by
  have hfill := (padded_iff h hlen).mp hpadded
  have hlenfill := length_fill hstr hlen
  have hvalue : tenThousandths strTt frac =
      (10 ^ (4 - frac.length) * decimal frac + decimal (fill strTt frac) : ℕ) := by
    have hcons : Nat.ofDigitChars 10 (padTenThousandth strTt frac) 0 =
        10000 + (10 ^ (4 - frac.length) * decimal frac + decimal (fill strTt frac)) := by
      rw [padTenThousandth_eq h.digit hlen, ofDigitChars_cons_zero, List.length_append, hlenfill,
        Nat.add_sub_cancel' hlen, ← hlenfill, ← decimal_append]
      rfl
    unfold tenThousandths
    rw [hcons]
    push_cast
    ring
  have hpow : (10000 : ℚ) = 10 ^ (4 - frac.length) * 10 ^ frac.length := by
    rw [← pow_add, Nat.sub_add_cancel hlen]
    norm_num
  rw [hvalue, ← fill_eq_zeros, ← decimal_eq_zero hfill, hpow]
  have h1 : (10 : ℚ) ^ (4 - frac.length) ≠ 0 := pow_ne_zero _ (by norm_num)
  have h2 : (10 : ℚ) ^ frac.length ≠ 0 := pow_ne_zero _ (by norm_num)
  rw [div_eq_div_iff (mul_ne_zero h1 h2) h2]
  push_cast
  constructor
  · intro heq
    have hmul : (decimal (fill strTt frac) : ℚ) * 10 ^ frac.length = 0 := by linarith
    exact_mod_cast (mul_eq_zero.mp hmul).resolve_right h2
  · intro hzero
    rw [hzero]
    push_cast
    ring

/-! ### The day -/

/-- A day of the year is placed by the wrong test for leap years; it must come before the first day
that the test misplaces. -/
def InPlace (year : ℕ) : Day → Prop
  | .civil _ _ => True
  | .julian jday => (year % 400 = 0 → decimal jday ≤ 59) ∧ (year % 400 = 300 → decimal jday ≤ 60)

theorem toInt32_far {n : ℕ} (h : 2 ^ 31 ≤ n) : toInt32 n + 4 ≤ n := by
  unfold toInt32
  rw [Int.bmod_def]
  split_ifs <;> omega

theorem daysBeforeYear_far {y z : ℤ} (h : y + 4 ≤ z) :
    daysBeforeYear y + 1000 ≤ daysBeforeYear z := by
  unfold daysBeforeYear
  omega

theorem daysBeforeMonth_bounds (leap : Prop) [Decidable leap] {mon : ℕ} (h : mon < 12) :
    0 ≤ daysBeforeMonth leap mon ∧ daysBeforeMonth leap mon ≤ 335 := by
  by_cases hleap : leap <;>
    simp only [daysBeforeMonth, monthLengths, hleap, if_true, if_false] <;> decide +revert

/-- Days of years that are far apart are not the same. -/
theorem daysFromCivil_ne {y z mday v : ℤ} {mon : ℕ} (h : y + 4 ≤ z) (hmon : mon < 12)
    (hmday : mday ≤ 366) (hv : daysBeforeYear z ≤ v) : daysFromCivil y mon mday ≠ v := by
  have hfar := daysBeforeYear_far h
  obtain ⟨-, hmonth⟩ := daysBeforeMonth_bounds (IsLeap y) hmon
  rw [daysFromCivil_of_lt _ _ hmon]
  omega

theorem toNat_yearLength_le (year : ℤ) : (yearLength year).toNat ≤ 366 := by
  have := yearLength_le year
  omega

/-- A month of a documented date. -/
theorem month_eq {month : CStr} (h : InRange 1 12 month) :
    ∃ mon : ℕ, mon < 12 ∧ (decimal month : ℤ) - 1 = mon :=
  ⟨decimal month - 1, by have := h.le_hi; omega, by have := h.lo_le; omega⟩

theorem le_monthLengths (leap : Prop) [Decidable leap] (mon : ℕ) :
    ((monthLengths leap).getD mon 0).toNat ≤ 31 := by
  by_cases hmon : mon < 12
  · by_cases hleap : leap <;>
      simp only [monthLengths, hleap, if_true, if_false] <;> decide +revert
  · rw [List.getD_eq_getElem?_getD, List.getElem?_eq_none (by simpa [monthLengths] using hmon)]
    decide

/-- **The day** is right where the year is an `int32_t` and the day in its place. -/
theorem day_iff {year : CStr} {day : Day} {t t' : Tm} (hyear : IsDecimal year)
    (hreads : Reads year) (hday : DayDocumented (decimal year) day)
    (hset : setDay { t with year := number year - 1900 } day = some t') :
    daysFromCivil (t'.year + 1900) t'.mon t'.mday = dayNumber (decimal year) day ↔
      decimal year < 2 ^ 31 ∧ InPlace (decimal year) day := by
  have hlt := (reads_iff hyear).mp hreads
  have hnumber := number_of_lt hyear hlt
  cases day with
  | civil month mday =>
    obtain ⟨hmonth, hmday⟩ := hday
    have hmdays := le_monthLengths (IsLeap (decimal year)) (decimal month - 1)
    have hle := hmday.le_hi
    obtain ⟨mon, hmon, heq⟩ := month_eq hmonth
    obtain rfl := Option.some.inj hset
    dsimp only [dayNumber]
    rw [hmonth.number (by decide), hmday.number (by omega), Int.sub_add_cancel, hnumber, heq]
    by_cases hsmall : decimal year < 2 ^ 31
    · rw [toInt32_natCast hsmall]
      exact iff_of_true rfl ⟨hsmall, trivial⟩
    · refine iff_of_false (daysFromCivil_ne (toInt32_far (not_lt.mp hsmall)) hmon (by omega) ?_)
        fun h => hsmall h.1
      have hpos := hmday.lo_le
      obtain ⟨hbounds, -⟩ := daysBeforeMonth_bounds (IsLeap (decimal year)) hmon
      rw [daysFromCivil_of_lt _ _ hmon]
      omega
  | julian jday =>
    have hdays := toNat_yearLength_le (decimal year)
    have hle : decimal jday ≤ (yearLength (decimal year)).toNat := hday.le_hi
    have hpos : 1 ≤ decimal jday := hday.lo_le
    obtain ⟨r, hloop, rfl⟩ := Option.map_eq_some_iff.mp hset
    dsimp only [dayNumber] at hloop ⊢
    rw [hday.number (by omega)] at hloop
    rw [Int.sub_add_cancel, hnumber]
    rw [hnumber] at hloop
    by_cases hsmall : decimal year < 2 ^ 31
    · rw [toInt32_natCast hsmall] at hloop ⊢
      have hiff := @monthLoop_iff ((decimal year : ℤ) - 1900) ((decimal jday : ℤ) - 1) (by omega)
        (by rw [Int.sub_add_cancel]; omega)
      rw [Int.sub_add_cancel, Int.sub_add_cancel, hloop] at hiff
      simp only [Option.some.injEq, exists_eq_left'] at hiff
      rw [hiff, InPlace]
      omega
    · have hspec := monthLoop_spec (monthDays (toInt32 (decimal year) - 1900)) 0 0 (decimal jday)
        (by omega)
      rw [hloop] at hspec
      obtain ⟨k, hk, rfl, -, -⟩ := hspec
      have hsum := sum_take_monthDays_nonneg (toInt32 (decimal year) - 1900) k
      rw [zero_add, zero_add]
      exact iff_of_false (daysFromCivil_ne (toInt32_far (not_lt.mp hsmall)) hk (by omega)
        (by omega)) fun h => hsmall h.1

/-! ### The time of the day -/

/-- **The time of the day.** -/
theorem tmToTime_setTime {time : Option TimeOfDay} (htime : ∀ t ∈ time, TimeDocumented t)
    (strTt : CStr) {t : Tm} (hhour : t.hour = 0) (hmin : t.min = 0) (hsec : t.sec = 0) :
    nmxpDataTmToTime (setTime strTt ⟨t, 0⟩ time) =
      (daysFromCivil (t.year + 1900) t.mon t.mday * 86400 + seconds time : ℤ) +
        (fraction time).elim 0 fun f => (tenThousandths strTt f : ℚ) / 10000 := by
  unfold nmxpDataTmToTime timegm
  cases time with
  | none => simp [setTime, seconds, fraction, hhour, hmin, hsec]
  | some time =>
    obtain ⟨hh, hm, hs, -⟩ := htime time rfl
    obtain ⟨hour, min, sec⟩ := time
    cases sec with
    | none =>
      simp [setTime, setSecond, seconds, fraction, hsec, hh.number (by decide),
        hm.number (by decide)]
      ring
    | some sec =>
      obtain ⟨sec, frac⟩ := sec
      have hsec := (hs _ rfl).number (by decide)
      cases frac <;>
      · simp [setTime, setSecond, seconds, fraction, hsec, hh.number (by decide),
          hm.number (by decide)]
        ring

/-- What was left in `str_tt` behind the digits does not change the fraction. -/
def FractionClear (strTt : CStr) (time : Option TimeOfDay) : Prop :=
  ∀ f ∈ fraction time, ∀ c ∈ leftover strTt f, c = Char.ofNat 0 ∨ c = '0'

theorem mem_fraction {time : Option TimeOfDay} {f : CStr} (h : f ∈ fraction time) :
    ∃ t ∈ time, ∃ s ∈ t.sec, f ∈ s.2 := by
  obtain ⟨t, ht, hsec⟩ := Option.bind_eq_some_iff.mp h
  obtain ⟨s, hs, hf⟩ := Option.bind_eq_some_iff.mp hsec
  exact ⟨t, ht, s, hs, hf⟩

/-- A number of seconds and a fraction of a second are what they are. -/
theorem add_fraction_iff {a b : ℤ} {x y : ℚ} (hx : 0 ≤ x ∧ x < 1) (hy : 0 ≤ y ∧ y < 1) :
    (a : ℚ) + x = b + y ↔ a = b ∧ x = y := by
  constructor
  · intro h
    have hfloor : ⌊(a : ℚ) + x⌋ = ⌊(b : ℚ) + y⌋ := by rw [h]
    rw [Int.floor_intCast_add, Int.floor_intCast_add, Int.floor_eq_zero_iff.mpr hx,
      Int.floor_eq_zero_iff.mpr hy, add_zero, add_zero] at hfloor
    refine ⟨hfloor, ?_⟩
    rw [hfloor] at h
    exact add_left_cancel h
  · rintro ⟨rfl, rfl⟩
    rfl

/-- **Where the fields mean the date.** -/
theorem tmToTime_iff {strTt : CStr} (hstr : strTt.length = SIZEOF_STR_TT) {d : DateText}
    (hdoc : IsDocumented d) (htaken : d.Taken strTt) {tmNow : Tm} {tmt : NmxpTmT}
    (htmt : d.tmt strTt tmNow = some tmt) :
    nmxpDataTmToTime tmt = instant d ↔
      (decimal d.year < 2 ^ 31 ∧ InPlace (decimal d.year) d.day) ∧ FractionClear strTt d.time := by
  obtain ⟨t, hset, rfl⟩ := Option.map_eq_some_iff.mp htmt
  have hreads : Reads d.year := htaken.year.resolve_left hdoc.year.ne_nil
  -- the day sets neither the hour nor the minute nor the second
  have hclock : t.hour = 0 ∧ t.min = 0 ∧ t.sec = 0 := by
    cases hd : d.day with
    | civil month mday =>
      rw [hd] at hset
      obtain rfl := Option.some.inj hset
      exact ⟨rfl, rfl, rfl⟩
    | julian jday =>
      rw [hd] at hset
      obtain ⟨r, -, rfl⟩ := Option.map_eq_some_iff.mp hset
      exact ⟨rfl, rfl, rfl⟩
  have hday := day_iff (t := { tmNow with sec := 0, min := 0, hour := 0 }) hdoc.year hreads hdoc.day
    hset
  rw [tmToTime_setTime hdoc.time strTt hclock.1 hclock.2.1 hclock.2.2, ← hday]
  unfold instant
  cases hfraction : fraction d.time with
  | none =>
    have hclear : FractionClear strTt d.time := by
      unfold FractionClear
      rw [hfraction]
      simp
    have hzero : (0 : ℚ) ≤ 0 ∧ (0 : ℚ) < 1 := by norm_num
    rw [Option.elim_none, Option.elim_none, add_fraction_iff hzero hzero, and_iff_left rfl,
      and_iff_left hclear]
    omega
  | some f =>
    obtain ⟨time, ht, s, hs, hf⟩ := mem_fraction hfraction
    obtain ⟨hdecimal, hlen⟩ := (hdoc.time time ht).frac s hs f hf
    have hpadded := ((htaken.time time ht).2.2 s hs).2 f hf
    obtain ⟨n, hn, hvalue⟩ := tenThousandths_lt hstr hpadded
    have hd : tenThousandths strTt f = n := by
      unfold tenThousandths
      rw [hvalue]
      push_cast
      ring
    have hx : (0 : ℚ) ≤ (tenThousandths strTt f : ℚ) / 10000 ∧
        (tenThousandths strTt f : ℚ) / 10000 < 1 := by
      rw [hd, div_lt_one (by norm_num)]
      exact ⟨by positivity, by exact_mod_cast hn⟩
    have hy : (0 : ℚ) ≤ (decimal f : ℚ) / 10 ^ f.length ∧ (decimal f : ℚ) / 10 ^ f.length < 1 := by
      rw [div_lt_one (by positivity)]
      exact ⟨by positivity, by exact_mod_cast decimal_lt hdecimal.digit⟩
    have hclear : FractionClear strTt d.time ↔
        ∀ c ∈ leftover strTt f, c = Char.ofNat 0 ∨ c = '0' := by
      unfold FractionClear
      rw [hfraction]
      simp
    rw [Option.elim_some, Option.elim_some, add_fraction_iff hx hy,
      tenThousandths_iff hstr hdecimal hlen hpadded, hclear]
    refine and_congr_left fun _ => ?_
    omega

/-! ### The parser -/

/-- **What is documented**, for a text: the parser stays in its table, takes the text if and only if
it is a documented date, and then returns what that means. -/
structure AsDocumented (strTt : CStr) (tmNow : Tm) (text : CStr) : Prop where
  inTable : nmxpDataParseDate 0 strTt tmNow text ≠ .error .beyondTable
  accepts : (∃ tmt, nmxpDataParseDate 0 strTt tmNow text = .ok tmt) ↔
    ∃ d : DateText, d.text = text ∧ IsDocumented d
  instant : ∀ tmt, nmxpDataParseDate 0 strTt tmNow text = .ok tmt →
    ∀ d : DateText, d.text = text → IsDocumented d → nmxpDataTmToTime tmt = instant d

/-- **The texts for which it is so.** No day of the year is behind the table; a text that has the
form of a date, with blanks and signs, has none of them and its numbers are in their ranges; and a
documented date has a year that fits, a day that is not misplaced, and nothing that disturbs its
fraction. -/
structure Regular (strTt text : CStr) : Prop where
  inTable : ¬ BeyondTable text
  taken : ∀ d : DateText, d.text = text → d.Taken strTt → IsDocumented d
  documented : ∀ d : DateText, d.text = text → IsDocumented d →
    (decimal d.year < 2 ^ 31 ∧ InPlace (decimal d.year) d.day) ∧ FractionClear strTt d.time

theorem not_refused_ok (tmt : NmxpTmT) : ¬ Refused (.ok tmt : Except Stop NmxpTmT) := by
  rintro ⟨_, _, h⟩
  exact absurd h (by simp)

theorem not_refused_beyondTable : ¬ Refused (.error .beyondTable : Except Stop NmxpTmT) := by
  rintro ⟨_, _, h⟩
  exact absurd h (by simp)

section

variable {strTt : CStr} (hstr : strTt.length = SIZEOF_STR_TT) (tmNow : Tm) {text : CStr}
  (hlen : text.length < MAX_LENGTH_STR_MESSAGE)
include hstr hlen

/-- The texts that are taken. -/
theorem parseDate_ok (tmt : NmxpTmT) : nmxpDataParseDate 0 strTt tmNow text = .ok tmt ↔
    ∃ d : DateText, d.text = text ∧ d.Taken strTt ∧ d.tmt strTt tmNow = some tmt := by
  rw [parseDate_iff hstr (not_refused_ok tmt) tmNow hlen]
  simp

/-- The texts that lead out of the table. -/
theorem parseDate_beyondTable :
    nmxpDataParseDate 0 strTt tmNow text = .error .beyondTable ↔ BeyondTable text := by
  rw [parseDate_iff hstr not_refused_beyondTable tmNow hlen]
  simp

end

/-- A day that cannot be set is behind the table. -/
theorem beyondTable_of_tmt {strTt : CStr} {d : DateText} (htaken : d.Taken strTt) {tmNow : Tm}
    (htmt : d.tmt strTt tmNow = none) : BeyondTable d.text := by
  have hset := Option.map_eq_none_iff.mp htmt
  obtain ⟨year, day, time⟩ := d
  cases day with
  | civil month mday => exact absurd hset (by simp [setDay])
  | julian jday =>
    refine ⟨year, jday, _, ?_, htaken.year, htaken.day, noDigit_timeFields time,
      (monthLoop_eq_none ..).mp (Option.map_eq_none_iff.mp hset)⟩
    simp [DateText.text, Day.fields, join]

/-- A documented date has plain numbers. -/
theorem IsDocumented.plain {d : DateText} (h : IsDocumented d) : d.Plain := by
  have hplain {t : CStr} (ht : IsDecimal t) : Grammar.Plain t := plain_of_isNumeral ht.isNumeral
  refine ⟨hplain h.year, forall_fields (P := fun f => Grammar.Plain f.2) ?_ fun t ht => ?_⟩
  · have hday := h.day
    cases hd : d.day with
    | civil month mday =>
      rw [hd] at hday
      simp only [Day.fields, List.forall_mem_cons, List.not_mem_nil, false_imp_iff, implies_true,
        and_true]
      exact ⟨hplain hday.1.isDecimal, hplain hday.2.isDecimal⟩
    | julian jday =>
      rw [hd] at hday
      simp only [Day.fields, List.forall_mem_cons, List.not_mem_nil, false_imp_iff, implies_true,
        and_true]
      exact hplain hday.isDecimal
  · have htime := h.time t ht
    exact ⟨hplain htime.hour.isDecimal, hplain htime.min.isDecimal, fun s hs =>
      ⟨hplain (htime.sec s hs).isDecimal, fun f hf => hplain (htime.frac s hs f hf).1⟩⟩

/-- A documented date whose year is read and whose fraction is clear is taken. -/
theorem IsDocumented.taken {strTt : CStr} {d : DateText} (h : IsDocumented d)
    (hyear : decimal d.year < 2 ^ 31) (hclear : FractionClear strTt d.time) : d.Taken strTt := by
  refine ⟨Or.inr ((reads_iff h.year).mpr (by omega)), ?_, fun t ht => ?_⟩
  · have hday := h.day
    cases hd : d.day with
    | civil month mday =>
      rw [hd] at hday
      have hmdays := le_monthLengths (IsLeap (decimal d.year)) (decimal month - 1)
      exact ⟨hday.1.reads (by decide), hday.2.reads (by omega)⟩
    | julian jday =>
      rw [hd] at hday
      have hdays := toNat_yearLength_le (decimal d.year)
      exact InRange.reads hday (by omega)
  · have htime := h.time t ht
    refine ⟨htime.hour.reads (by decide), htime.min.reads (by decide), fun s hs =>
      ⟨(htime.sec s hs).reads (by decide), fun f hf => ?_⟩⟩
    obtain ⟨hdecimal, hlen⟩ := htime.frac s hs f hf
    have hfraction : f ∈ fraction d.time :=
      Option.bind_eq_some_iff.mpr ⟨t, ht, Option.bind_eq_some_iff.mpr ⟨s, hs, hf⟩⟩
    have hzeros := (fill_eq_zeros strTt f).mpr (hclear f hfraction)
    exact (padded_iff hdecimal hlen).mpr fun c hc => by rw [hzeros c hc]; rfl

/-- **Dates.** For every text that fits, with `errno` 0 at entry and whatever lies in `str_tt`: the
parser does what is documented if and only if the text is one of those. -/
theorem documented_iff {strTt : CStr} (hstr : strTt.length = SIZEOF_STR_TT) (tmNow : Tm)
    {text : CStr} (hlen : text.length < MAX_LENGTH_STR_MESSAGE) :
    AsDocumented strTt tmNow text ↔ Regular strTt text := by
  have hok := parseDate_ok hstr tmNow hlen
  have hbeyond := parseDate_beyondTable hstr tmNow hlen
  constructor
  · intro h
    have htable : ¬ BeyondTable text := fun hb => h.inTable (hbeyond.mpr hb)
    refine ⟨htable, fun d htext htaken => ?_, fun d htext hdoc => ?_⟩
    · cases htmt : d.tmt strTt tmNow with
      | none => exact absurd (htext ▸ beyondTable_of_tmt htaken htmt) htable
      | some tmt =>
        obtain ⟨d', htext', hdoc⟩ := h.accepts.mp ⟨tmt, (hok tmt).mpr ⟨d, htext, htaken, htmt⟩⟩
        rwa [text_inj htaken.plain hdoc.plain (htext.trans htext'.symm)]
    · obtain ⟨tmt, hparse⟩ := h.accepts.mpr ⟨d, htext, hdoc⟩
      obtain ⟨d', htext', htaken, htmt⟩ := (hok tmt).mp hparse
      obtain rfl := text_inj htaken.plain hdoc.plain (htext'.trans htext.symm)
      exact (tmToTime_iff hstr hdoc htaken htmt).mp (h.instant tmt hparse d' htext hdoc)
  · intro h
    refine ⟨fun hparse => h.inTable (hbeyond.mp hparse), ⟨?_, ?_⟩,
      fun tmt hparse d htext hdoc => ?_⟩
    · rintro ⟨tmt, hparse⟩
      obtain ⟨d, htext, htaken, -⟩ := (hok tmt).mp hparse
      exact ⟨d, htext, h.taken d htext htaken⟩
    · rintro ⟨d, htext, hdoc⟩
      obtain ⟨⟨hyear, -⟩, hclear⟩ := h.documented d htext hdoc
      have htaken := hdoc.taken hyear hclear
      cases htmt : d.tmt strTt tmNow with
      | none => exact absurd (htext ▸ beyondTable_of_tmt htaken htmt) h.inTable
      | some tmt => exact ⟨tmt, (hok tmt).mpr ⟨d, htext, htaken, htmt⟩⟩
    · obtain ⟨d', htext', htaken, htmt⟩ := (hok tmt).mp hparse
      obtain rfl := text_inj htaken.plain hdoc.plain (htext'.trans htext.symm)
      exact (tmToTime_iff hstr hdoc htaken htmt).mpr (h.documented d' htext hdoc)

/-- An array of NULs. -/
def blankStrTt : CStr := List.replicate SIZEOF_STR_TT (Char.ofNat 0)

/-- Where no day of the year is given, none is behind the table. -/
theorem not_beyondTable {text : CStr} (h : '.' ∉ text) : ¬ BeyondTable text := by
  rintro ⟨year, jday, rest, rfl, -⟩
  exact h (by simp)

/-- The text of a documented date has no other reading. -/
theorem IsDocumented.regular {strTt : CStr} {d : DateText} (h : IsDocumented d)
    (htable : ¬ BeyondTable d.text)
    (hplace : decimal d.year < 2 ^ 31 ∧ InPlace (decimal d.year) d.day)
    (hclear : FractionClear strTt d.time) : Regular strTt d.text where
  inTable := htable
  taken d' htext htaken := text_inj h.plain htaken.plain htext.symm ▸ h
  documented d' htext hdoc := by
    obtain rfl := text_inj h.plain hdoc.plain htext.symm
    exact ⟨hplace, hclear⟩

/-- The last minute of a leap day. -/
def lastMinute : DateText where
  year := "2024".toList
  day := .civil "02".toList "29".toList
  time := some ⟨"23".toList, "59".toList, none⟩

theorem isDocumented_lastMinute : IsDocumented lastMinute where
  year := ⟨by decide, by simp [lastMinute]⟩
  day := ⟨⟨⟨by decide, by simp⟩, by decide, by decide⟩, ⟨by decide, by simp⟩, by decide, by decide⟩
  time t ht := by
    obtain rfl := Option.some.inj ht
    exact ⟨⟨⟨by decide, by simp⟩, by decide, by decide⟩,
      ⟨⟨by decide, by simp⟩, by decide, by decide⟩, by simp, by simp⟩

theorem documented_iff_minute :
    (blankStrTt.length = SIZEOF_STR_TT ∧ lastMinute.text.length < MAX_LENGTH_STR_MESSAGE) ∧
    lastMinute.text = "2024/02/29,23:59".toList ∧
    AsDocumented blankStrTt someTm lastMinute.text := by
  have hclear : FractionClear blankStrTt lastMinute.time := by
    simp [FractionClear, fraction, lastMinute]
  have hregular := isDocumented_lastMinute.regular (not_beyondTable (by decide))
    ⟨by decide, trivial⟩ hclear
  exact ⟨⟨by decide, by decide⟩, by decide,
    (documented_iff (by decide) someTm (by decide)).mpr hregular⟩

/-- The day 400 of a year leads out of the table. -/
theorem day400_beyondTable : ¬∀ (strTt : CStr), strTt.length = SIZEOF_STR_TT →
    ∀ (tmNow : Tm) (text : CStr), text.length < MAX_LENGTH_STR_MESSAGE →
      AsDocumented strTt tmNow text := by
  intro hclaim
  exact (hclaim blankStrTt (by decide) someTm "2024.400".toList (by decide)).inTable
    (by decide +kernel)

end Nmxptool.Data.Documented
