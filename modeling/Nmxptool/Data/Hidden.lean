import Nmxptool.Data.Documented

/-! # What a date depends on besides its text

Two calls of `nmxp_data_parse_date` with one text may find different values in `errno`, on the
clock and in the array `str_tt`.

* `Alike`: the two results are the same.
* `refused_iff`: the texts that one call refuses.
* `alike_iff`: the calls whose results are the same. -/

namespace Nmxptool.Data.Hidden

open Nmxptool.Data.Process Nmxptool.Data.Date Nmxptool.Data.Grammar Nmxptool.Data.Documented
open Nmxptool.Lib.Decimal

/-! ### Results -/

/-- The fields that a date has. -/
structure SameTime (tmt tmt' : NmxpTmT) : Prop where
  year : tmt.t.year = tmt'.t.year
  mon : tmt.t.mon = tmt'.t.mon
  mday : tmt.t.mday = tmt'.t.mday
  hour : tmt.t.hour = tmt'.t.hour
  min : tmt.t.min = tmt'.t.min
  sec : tmt.t.sec = tmt'.t.sec
  d : tmt.d = tmt'.d

/-- The fields that the parser sets before it comes to the day. -/
structure SameClock (t t' : Tm) : Prop where
  year : t.year = t'.year
  hour : t.hour = t'.hour
  min : t.min = t'.min
  sec : t.sec = t'.sec

/-- **The results are the same**: both are `-1`, or both are 0 with the same fields. What comes from
beyond the table is nothing to rely on. -/
inductive Alike (r r' : Except Stop NmxpTmT) : Prop
  | refused (h : Refused r) (h' : Refused r')
  | taken (tmt tmt' : NmxpTmT) (h : r = .ok tmt) (h' : r' = .ok tmt') (same : SameTime tmt tmt')

theorem Alike.refused_iff {r r' : Except Stop NmxpTmT} (h : Alike r r') :
    Refused r ↔ Refused r' := by
  obtain ⟨h, h'⟩ | ⟨tmt, tmt', rfl, rfl, -⟩ := h
  · exact iff_of_true h h'
  · exact iff_of_false (not_refused_ok tmt) (not_refused_ok tmt')

/-! ### One call -/

/-- What an earlier call left in `errno` is taken for an error of this one. -/
def Stale (errno : ℤ) : Prop := errno = EINVAL ∨ errno = ERANGE

/-- Every number of the text is read. -/
def ReadAsDate (strTt text : CStr) : Prop :=
  BeyondTable text ∨ ∃ d : DateText, d.text = text ∧ d.Taken strTt

/-- The text gets through. -/
def Passes (errno : ℤ) (strTt text : CStr) : Prop := ¬ Stale errno ∧ ReadAsDate strTt text

theorem parseDate_stale {errno : ℤ} (h : Stale errno) (strTt : CStr) (tmNow : Tm) {text : CStr}
    (hlen : text.length < MAX_LENGTH_STR_MESSAGE) :
    Refused (nmxpDataParseDate errno strTt tmNow text) := by
  unfold nmxpDataParseDate
  rw [if_neg (not_le.mpr hlen)]
  dsimp only
  rw [if_pos (by unfold Stale at h; tauto)]
  exact ⟨_, _, rfl⟩

theorem parseDate_of_not_stale {errno : ℤ} (h : ¬ Stale errno) (strTt : CStr) (tmNow : Tm)
    (text : CStr) :
    nmxpDataParseDate errno strTt tmNow text = nmxpDataParseDate 0 strTt tmNow text := by
  obtain ⟨hinval, hrange⟩ := not_or.mp h
  have h0 : ¬ (0 : ℤ) = EINVAL ∧ ¬ (0 : ℤ) = ERANGE := by decide
  unfold nmxpDataParseDate
  simp only [hinval, hrange, h0.1, h0.2, false_or]

section

variable {strTt : CStr} (hstr : strTt.length = SIZEOF_STR_TT) (tmNow : Tm) {text : CStr}
  (hlen : text.length < MAX_LENGTH_STR_MESSAGE)
include hstr hlen

/-- **A text is refused** unless it gets through. -/
theorem refused_iff (errno : ℤ) :
    Refused (nmxpDataParseDate errno strTt tmNow text) ↔ ¬ Passes errno strTt text := by
  by_cases hstale : Stale errno
  · exact iff_of_true (parseDate_stale hstale strTt tmNow hlen) fun h => h.1 hstale
  rw [parseDate_of_not_stale hstale, Passes, and_iff_right hstale]
  constructor
  · intro hrefused
    rintro (hbeyond | ⟨d, htext, htaken⟩)
    · rw [(parseDate_beyondTable hstr tmNow hlen).mpr hbeyond] at hrefused
      exact not_refused_beyondTable hrefused
    · cases htmt : d.tmt strTt tmNow with
      | none =>
        rw [(parseDate_beyondTable hstr tmNow hlen).mpr
          (htext ▸ beyondTable_of_tmt htaken htmt)] at hrefused
        exact not_refused_beyondTable hrefused
      | some tmt =>
        rw [(parseDate_ok hstr tmNow hlen tmt).mpr ⟨d, htext, htaken, htmt⟩] at hrefused
        exact not_refused_ok tmt hrefused
  · intro hread
    by_contra hrefused
    rcases (parseDate_iff hstr hrefused tmNow hlen).mp rfl with
      ⟨d, -, htext, htaken, -, -⟩ | ⟨hbeyond, -⟩
    · exact hread (Or.inr ⟨d, htext, htaken⟩)
    · exact hread (Or.inl hbeyond)

/-- What becomes of a text that gets through. -/
theorem parseDate_passes {errno : ℤ} (h : Passes errno strTt text) (hbeyond : ¬ BeyondTable text) :
    ∃ (d : DateText) (tmt : NmxpTmT), d.text = text ∧ d.Taken strTt ∧ d.tmt strTt tmNow = some tmt ∧
      nmxpDataParseDate errno strTt tmNow text = .ok tmt := by
  obtain ⟨hstale, hread⟩ := h
  obtain ⟨d, htext, htaken⟩ := hread.resolve_left hbeyond
  rw [parseDate_of_not_stale hstale]
  cases htmt : d.tmt strTt tmNow with
  | none => exact absurd (htext ▸ beyondTable_of_tmt htaken htmt) hbeyond
  | some tmt =>
    exact ⟨d, tmt, htext, htaken, htmt,
      (parseDate_ok hstr tmNow hlen tmt).mpr ⟨d, htext, htaken, htmt⟩⟩

theorem parseDate_passes_beyond {errno : ℤ} (h : Passes errno strTt text)
    (hbeyond : BeyondTable text) :
    nmxpDataParseDate errno strTt tmNow text = .error .beyondTable := by
  rw [parseDate_of_not_stale h.1]
  exact (parseDate_beyondTable hstr tmNow hlen).mpr hbeyond

end

/-! ### Two calls -/

/-- **The fraction** is the same where the same digits are put behind it. -/
theorem tenThousandths_eq_iff {strTt strTt' : CStr} (hstr : strTt.length = SIZEOF_STR_TT)
    (hstr' : strTt'.length = SIZEOF_STR_TT) {frac : CStr} (h : Padded strTt frac)
    (h' : Padded strTt' frac) :
    tenThousandths strTt frac = tenThousandths strTt' frac ↔
      fill strTt frac = fill strTt' frac := by
  have hpad := padTenThousandth_map strTt h.length
  have hpad' := padTenThousandth_map strTt' h.length
  constructor
  · intro heq
    have hvalue : decimal (padTenThousandth strTt frac) =
        decimal (padTenThousandth strTt' frac) := by
      unfold tenThousandths at heq
      unfold decimal
      omega
    have hsame := decimal_inj h.digit h'.digit
      ((length_padTenThousandth hstr h.length).trans
        (length_padTenThousandth hstr' h.length).symm) hvalue
    rw [hpad, hpad'] at hsame
    exact List.append_cancel_left (List.cons_injective hsame)
  · intro hfill
    unfold tenThousandths
    rw [hpad, hpad', hfill]

/-- The day does not depend on the clock. -/
theorem setDay_same {t t' u u' : Tm} {day : Day} (h : SameClock t t') (hu : setDay t day = some u)
    (hu' : setDay t' day = some u') : SameTime ⟨u, 0⟩ ⟨u', 0⟩ := by
  obtain ⟨hyear, hhour, hmin, hsec⟩ := h
  cases day with
  | civil month mday =>
    obtain rfl := Option.some.inj hu
    obtain rfl := Option.some.inj hu'
    exact ⟨hyear, rfl, rfl, hhour, hmin, hsec, rfl⟩
  | julian jday =>
    obtain ⟨r, hloop, rfl⟩ := Option.map_eq_some_iff.mp hu
    obtain ⟨r', hloop', rfl⟩ := Option.map_eq_some_iff.mp hu'
    rw [hyear, hloop'] at hloop
    obtain rfl := Option.some.inj hloop
    exact ⟨hyear, rfl, rfl, hhour, hmin, hsec, rfl⟩

/-- The digits put behind the fraction are the same. -/
def SameFill (strTt strTt' : CStr) (time : Option TimeOfDay) : Prop :=
  ∀ f ∈ fraction time, fill strTt f = fill strTt' f

theorem setTime_same {strTt strTt' : CStr} (hstr : strTt.length = SIZEOF_STR_TT)
    (hstr' : strTt'.length = SIZEOF_STR_TT) {time : Option TimeOfDay} (htime : TimeTaken strTt time)
    (htime' : TimeTaken strTt' time) {tmt tmt' : NmxpTmT} (h : SameTime tmt tmt') :
    SameTime (setTime strTt tmt time) (setTime strTt' tmt' time) ↔ SameFill strTt strTt' time := by
  obtain ⟨hyear, hmon, hmday, hhour, hmin, hsec, hd⟩ := h
  have hnone {time : Option TimeOfDay} (h : fraction time = none) : SameFill strTt strTt' time := by
    unfold SameFill
    rw [h]
    simp
  obtain _ | ⟨hour, min, _ | ⟨sec, _ | f⟩⟩ := time
  · exact iff_of_true ⟨hyear, hmon, hmday, hhour, hmin, hsec, hd⟩ (hnone rfl)
  · exact iff_of_true ⟨hyear, hmon, hmday, rfl, rfl, hsec, hd⟩ (hnone rfl)
  · exact iff_of_true ⟨hyear, hmon, hmday, rfl, rfl, rfl, hd⟩ (hnone rfl)
  · have hpadded := ((htime _ rfl).2.2 _ rfl).2 f rfl
    have hpadded' := ((htime' _ rfl).2.2 _ rfl).2 f rfl
    have hvalue := tenThousandths_eq_iff hstr hstr' hpadded hpadded'
    constructor
    · intro hsame g hg
      obtain rfl := Option.some.inj hg
      exact hvalue.mp hsame.d
    · intro hfill
      exact ⟨hyear, hmon, hmday, rfl, rfl, rfl, hvalue.mpr (hfill f rfl)⟩

/-- **A date that two calls read.** -/
theorem sameTime_iff {strTt strTt' : CStr} (hstr : strTt.length = SIZEOF_STR_TT)
    (hstr' : strTt'.length = SIZEOF_STR_TT) {d : DateText} (h : d.Taken strTt)
    (h' : d.Taken strTt') {tmNow tmNow' : Tm} {tmt tmt' : NmxpTmT}
    (htmt : d.tmt strTt tmNow = some tmt) (htmt' : d.tmt strTt' tmNow' = some tmt') :
    SameTime tmt tmt' ↔ SameFill strTt strTt' d.time := by
  obtain ⟨t, hset, rfl⟩ := Option.map_eq_some_iff.mp htmt
  obtain ⟨t', hset', rfl⟩ := Option.map_eq_some_iff.mp htmt'
  refine setTime_same hstr hstr' h.time h'.time (setDay_same ?_ hset hset')
  exact ⟨rfl, rfl, rfl, rfl⟩

/-- **Two calls that agree about a text**: it gets through both or neither; where it gets through,
its day of the year is not behind the table, and the same digits are put behind its fraction. -/
structure Agree (errno errno' : ℤ) (strTt strTt' text : CStr) : Prop where
  passes : Passes errno strTt text ↔ Passes errno' strTt' text
  inTable : Passes errno strTt text → ¬ BeyondTable text
  fraction : Passes errno strTt text → ∀ d : DateText, d.text = text → d.Taken strTt →
    SameFill strTt strTt' d.time

/-- **What the result depends on.** Two calls with a text that fits give the same result if and only
if they agree about the text. -/
theorem alike_iff (errno errno' : ℤ) {strTt strTt' : CStr} (hstr : strTt.length = SIZEOF_STR_TT)
    (hstr' : strTt'.length = SIZEOF_STR_TT) (tmNow tmNow' : Tm) {text : CStr}
    (hlen : text.length < MAX_LENGTH_STR_MESSAGE) :
    Alike (nmxpDataParseDate errno strTt tmNow text)
        (nmxpDataParseDate errno' strTt' tmNow' text) ↔
      Agree errno errno' strTt strTt' text := by
  have hrefused := refused_iff hstr tmNow hlen errno
  have hrefused' := refused_iff hstr' tmNow' hlen errno'
  have hiff (halike : Alike (nmxpDataParseDate errno strTt tmNow text)
      (nmxpDataParseDate errno' strTt' tmNow' text)) :
      Passes errno strTt text ↔ Passes errno' strTt' text :=
    not_iff_not.mp (hrefused.symm.trans (halike.refused_iff.trans hrefused'))
  by_cases hpass : Passes errno strTt text
  swap
  · refine ⟨fun halike => ⟨hiff halike, fun h => absurd h hpass, fun h => absurd h hpass⟩,
      fun hagree => ?_⟩
    exact .refused (hrefused.mpr hpass) (hrefused'.mpr fun h => hpass (hagree.passes.mpr h))
  by_cases hpass' : Passes errno' strTt' text
  swap
  · exact iff_of_false (fun halike => hpass' ((hiff halike).mp hpass))
      fun hagree => hpass' (hagree.passes.mp hpass)
  by_cases hbeyond : BeyondTable text
  · refine iff_of_false (fun halike => ?_) fun hagree => hagree.inTable hpass hbeyond
    rw [parseDate_passes_beyond hstr tmNow hlen hpass hbeyond] at halike
    obtain ⟨h, -⟩ | ⟨tmt, tmt', h, -, -⟩ := halike
    · exact not_refused_beyondTable h
    · exact absurd h (by simp)
  obtain ⟨d, tmt, htext, htaken, htmt, hparse⟩ := parseDate_passes hstr tmNow hlen hpass hbeyond
  obtain ⟨d', tmt', htext', htaken', htmt', hparse'⟩ :=
    parseDate_passes hstr' tmNow' hlen hpass' hbeyond
  obtain rfl := text_inj htaken.plain htaken'.plain (htext.trans htext'.symm)
  have hsame := sameTime_iff hstr hstr' htaken htaken' htmt htmt'
  rw [hparse, hparse']
  constructor
  · rintro (⟨h, -⟩ | ⟨u, u', h, h', hsame'⟩)
    · exact absurd h (not_refused_ok tmt)
    · obtain rfl := Except.ok.inj h
      obtain rfl := Except.ok.inj h'
      refine ⟨iff_of_true hpass hpass', fun _ => hbeyond, fun _ e htexte htakene => ?_⟩
      obtain rfl := text_inj htaken.plain htakene.plain (htext.trans htexte.symm)
      exact hsame.mp hsame'
  · intro hagree
    exact .taken tmt tmt' rfl rfl (hsame.mpr (hagree.fraction hpass d htext htaken))

/-- An array of digits. -/
def filledStrTt : CStr := List.replicate SIZEOF_STR_TT '7'

/-- Without a fraction nothing is read of the array, and an error of another kind does not count. -/
theorem alike_iff_second :
    (blankStrTt.length = SIZEOF_STR_TT ∧ filledStrTt.length = SIZEOF_STR_TT ∧
      lastMinute.text.length < MAX_LENGTH_STR_MESSAGE) ∧
    Alike (nmxpDataParseDate 0 blankStrTt someTm lastMinute.text)
      (nmxpDataParseDate 4 filledStrTt someTm lastMinute.text) := by
  have hnone : fraction lastMinute.time = none := rfl
  have hread (strTt : CStr) : ReadAsDate strTt lastMinute.text :=
    .inr ⟨lastMinute, rfl,
      isDocumented_lastMinute.taken (by decide) (by simp [FractionClear, hnone])⟩
  have hpass (strTt : CStr) : Passes 0 strTt lastMinute.text ∧ Passes 4 strTt lastMinute.text :=
    ⟨⟨by unfold Stale; decide, hread strTt⟩, by unfold Stale; decide, hread strTt⟩
  refine ⟨⟨by decide, by decide, by decide⟩,
    (alike_iff 0 4 (by decide) (by decide) someTm someTm (by decide)).mpr
      ⟨iff_of_true (hpass _).1 (hpass _).2, fun _ => not_beyondTable (by decide),
        fun _ d htext htaken => ?_⟩⟩
  obtain rfl := text_inj isDocumented_lastMinute.plain htaken.plain htext.symm
  simp [SameFill, hnone]

/-- A call that failed with `ERANGE` makes the next one refuse a date. -/
theorem alike_errno : ¬∀ (errno errno' : ℤ) (strTt strTt' : CStr),
    strTt.length = SIZEOF_STR_TT → strTt'.length = SIZEOF_STR_TT →
    ∀ (tmNow tmNow' : Tm) (text : CStr), text.length < MAX_LENGTH_STR_MESSAGE →
      Alike (nmxpDataParseDate errno strTt tmNow text)
        (nmxpDataParseDate errno' strTt' tmNow' text) := by
  intro hclaim
  have halike := hclaim 0 ERANGE blankStrTt blankStrTt (by decide) (by decide) someTm someTm
    "2024/01/01".toList (by decide)
  have hok : nmxpDataParseDate 0 blankStrTt someTm "2024/01/01".toList =
      .ok ⟨{ someTm with year := 124, mon := 0, mday := 1 }, 0⟩ := by decide +kernel
  have hrefused := halike.refused_iff.mpr (parseDate_stale (Or.inr rfl) _ _ (by decide))
  rw [hok] at hrefused
  exact not_refused_ok _ hrefused

end Nmxptool.Data.Hidden
