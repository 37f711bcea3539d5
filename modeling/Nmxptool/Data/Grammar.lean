import Mathlib.Algebra.Order.BigOperators.Group.List
import Nmxptool.Data.Date
import Nmxptool.Lib.Fields

/-! # What the date parser takes

A text of a date is a year and further numbers, each behind a separator. This module says which
texts `nmxp_data_parse_date` takes, what it makes of them, and which ones lead it out of its table.

* `DateText`: the numbers of a text.
* `DateText.Taken`: what the numbers may be like.
* `parseDate_ok`, `parseDate_beyondTable`: the texts that are taken, and the ones that lead out. -/

namespace Nmxptool.Data.Grammar

open Nmxptool.Data.Process Nmxptool.Data.Date
open Nmxptool.Lib.Calendar Nmxptool.Lib.Decimal Nmxptool.Lib.Fields

/-! ### Texts -/

/-- A month and a day of it, or a day of the year. -/
inductive Day
  | civil (month mday : CStr)
  | julian (jday : CStr)

/-- A time of the day: there may be seconds, and then a fraction. -/
structure TimeOfDay where
  hour : CStr
  min : CStr
  sec : Option (CStr × Option CStr)

/-- **The numbers of a text.** -/
structure DateText where
  year : CStr
  day : Day
  time : Option TimeOfDay

def Day.fields : Day → List (Char × CStr)
  | .civil month mday => [('/', month), ('/', mday)]
  | .julian jday => [('.', jday)]

def fractionFields (frac : Option CStr) : List (Char × CStr) := frac.elim [] fun f => [('.', f)]

def secondFields (sec : Option (CStr × Option CStr)) : List (Char × CStr) :=
  sec.elim [] fun s => (':', s.1) :: fractionFields s.2

def timeFields (time : Option TimeOfDay) : List (Char × CStr) :=
  time.elim [] fun t => (',', t.hour) :: (':', t.min) :: secondFields t.sec

/-- The text with some numbers. -/
def DateText.text (d : DateText) : CStr := join d.year (d.day.fields ++ timeFields d.time)

/-! ### Numbers -/

/-- A number that fits a `long`. -/
def Reads (t : CStr) : Prop := IsNumeral t ∧ (strtol t).range = false

/-- Its value, as an `int32_t`. -/
def number (t : CStr) : ℤ := toInt32 (strtol t).value

/-- It is read unless it is too large for a `long`. -/
theorem reads_iff {t : CStr} (h : IsDecimal t) : Reads t ↔ decimal t < 2 ^ 63 := by
  unfold Reads
  rw [strtol_isDecimal h]
  have hclamp : clampLong (decimal t) = (decimal t : ℤ) ↔ decimal t < 2 ^ 63 := by
    unfold clampLong
    omega
  simp [h.isNumeral, hclamp]

theorem number_of_lt {t : CStr} (h : IsDecimal t) (hlt : decimal t < 2 ^ 63) :
    number t = toInt32 (decimal t) := by
  unfold number
  rw [strtol_isDecimal h]
  dsimp only
  congr 1
  unfold clampLong
  omega

theorem number_eq {t : CStr} (h : IsDecimal t) (hlt : decimal t < 2 ^ 31) :
    number t = decimal t := by
  rw [number_of_lt h (by omega), toInt32_natCast hlt]

/-- A fraction that becomes digits in `str_tt`. -/
structure Padded (strTt frac : CStr) : Prop where
  ne_nil : frac ≠ []
  length : frac.length ≤ 4
  digit : ∀ c ∈ padTenThousandth strTt frac, c.isDigit

/-- The value of a fraction. -/
def tenThousandths (strTt frac : CStr) : ℤ :=
  Nat.ofDigitChars 10 (padTenThousandth strTt frac) 0 - 10000

def SecondTaken (strTt : CStr) (sec : Option (CStr × Option CStr)) : Prop :=
  ∀ s ∈ sec, Reads s.1 ∧ ∀ f ∈ s.2, Padded strTt f

def TimeTaken (strTt : CStr) (time : Option TimeOfDay) : Prop :=
  ∀ t ∈ time, Reads t.hour ∧ Reads t.min ∧ SecondTaken strTt t.sec

def Day.Taken : Day → Prop
  | .civil month mday => Reads month ∧ Reads mday
  | .julian jday => Reads jday

/-- The year may be left out. -/
def YearTaken (year : CStr) : Prop := year = [] ∨ Reads year

/-- **What the numbers may be like.** -/
structure DateText.Taken (strTt : CStr) (d : DateText) : Prop where
  year : YearTaken d.year
  day : d.day.Taken
  time : TimeTaken strTt d.time

/-! ### What becomes of them -/

def setDay (t : Tm) : Day → Option Tm
  | .civil month mday => some { t with mon := number month - 1, mday := number mday }
  | .julian jday => (monthLoop (monthDays t.year) 0 0 (number jday)).map fun r =>
      { t with yday := number jday - 1, mon := r.1, mday := r.2 }

def setSecond (strTt : CStr) (tmt : NmxpTmT) (sec : Option (CStr × Option CStr)) : NmxpTmT :=
  sec.elim tmt fun s =>
    ⟨{ tmt.t with sec := number s.1 }, s.2.elim tmt.d (tenThousandths strTt)⟩

def setTime (strTt : CStr) (tmt : NmxpTmT) (time : Option TimeOfDay) : NmxpTmT :=
  time.elim tmt fun t =>
    setSecond strTt
      { tmt with t := { tmt.t with hour := number t.hour, min := number t.min } } t.sec

/-- The fields, unless the day is beyond the table. -/
def DateText.tmt (strTt : CStr) (tmNow : Tm) (d : DateText) : Option NmxpTmT :=
  (setDay { tmNow with sec := 0, min := 0, hour := 0, year := number d.year - 1900 } d.day).map
    fun t => setTime strTt ⟨t, 0⟩ d.time

/-! ### One number -/

/-- The text does not go on with a digit. -/
def NoDigit (rest : CStr) : Prop := ∀ c ∈ rest.head?, ¬ c.isDigit

/-- The result is the error that the parser reports. -/
def Refused {α : Type} (o : Except Stop α) : Prop :=
  ∃ errMessage tmt, o = .error (.refused errMessage tmt)

theorem noDigit_nil : NoDigit [] := by simp [NoDigit]

theorem noDigit_cons {c : Char} (h : ¬ c.isDigit) (rest : CStr) : NoDigit (c :: rest) :=
  not_isDigit_cons h rest

theorem strtol_space {t : CStr} (h : IsNumeral t) : strtol (' ' :: t) = strtol t := by
  have hspace : IsNumeral (' ' :: t) := (isNumeral_cons rfl).mpr h
  have h1 := rest_strtol hspace
  have h2 := rest_strtol h
  have hdrop : (' ' :: t).dropWhile isSpace = t.dropWhile isSpace :=
    List.dropWhile_cons_of_pos rfl
  unfold strtol at h1 h2 ⊢
  rw [hdrop] at h1 ⊢
  dsimp only at h1 h2 ⊢
  split_ifs at h1 h2 ⊢
  rfl

variable {strTt : CStr} {o : Except Stop NmxpTmT}

theorem parseLoop_refused {s : Parse} {k : ℕ} (h : Refused (switchState s)) :
    Refused (parseLoop strTt (k + 1) s) := by
  obtain ⟨errMessage, tmt, h⟩ := h
  exact ⟨errMessage, tmt, parseLoop_error k h⟩

/-- No state goes on at a blank. -/
theorem switchState_space (state : State) (rest : CStr) (tmt : NmxpTmT) :
    Refused (switchState ⟨state, 0, ' ' :: rest, tmt⟩) := by
  cases state
  case julianDay =>
    have hloop : monthLoop (monthDays tmt.t.year) 0 0 0 = some (0, 0) := by
      unfold monthDays monthLoop
      rfl
    unfold switchState
    dsimp only
    rw [hloop]
    exact ⟨_, _, rfl⟩
  all_goals exact ⟨_, _, rfl⟩

/-- A round that goes on to a state other than the last reads a number, or the text is refused. -/
theorem parseLoop_goTo_iff {s : Parse} {t : Tm} {state : State} {sep : Char} {text : CStr} (k : ℕ)
    (hswitch : switchState s = s.goTo t state) (hstate : state ≠ .tenThousandth)
    (hpEnd : s.pEnd = sep :: text) (ho : ¬ Refused o) :
    parseLoop strTt (k + 2) s = o ↔ ∃ tok rest, text = tok ++ rest ∧ Reads tok ∧ NoDigit rest ∧
      parseLoop strTt (k + 1) ⟨state, number tok, rest, { s.tmt with t := t }⟩ = o := by
  -- what the number makes of the round
  have hread : ∀ {r : Strtol}, strtol (' ' :: text) = r → parseLoop strTt (k + 2) s =
      if r.range then .error (.refused "NO MESSAGE" { s.tmt with t := t })
      else parseLoop strTt (k + 1) ⟨state, toInt32 r.value, r.rest, { s.tmt with t := t }⟩ := by
    intro r hr
    rw [parseLoop, hswitch]
    show (readNumber strTt { s with tmt := { s.tmt with t := t }, state := state } >>=
      parseLoop strTt (k + 1)) = _
    unfold readNumber
    rw [hpEnd]
    dsimp only
    rw [if_neg hstate, hr]
    split_ifs <;> rfl
  constructor
  · intro h
    rcases strtol_cases (' ' :: text) with hnone | ⟨num, rest, heq, hnum, hrest, hr⟩
    · -- nothing is read, and the next round refuses the blank
      rw [hread hnone, if_neg Bool.false_ne_true] at h
      exact absurd (h ▸ parseLoop_refused (switchState_space state text _)) ho
    · cases num with
      | nil => exact absurd rfl hnum.ne_nil
      | cons c tok =>
        obtain ⟨rfl, rfl⟩ := List.cons.inj heq
        rw [isNumeral_cons rfl] at hnum
        rw [strtol_space hnum] at hr
        rw [hread hr] at h
        cases hrange : (strtol tok).range with
        | true =>
          rw [if_pos hrange] at h
          exact absurd ⟨_, _, h.symm⟩ ho
        | false =>
          rw [if_neg (by rw [hrange]; exact Bool.false_ne_true)] at h
          exact ⟨tok, rest, rfl, ⟨hnum, hrange⟩, hrest, h⟩
  · rintro ⟨tok, rest, rfl, ⟨hnum, hrange⟩, hrest, h⟩
    have hr : strtol (' ' :: (tok ++ rest)) = { strtol tok with rest := rest } := by
      rw [← List.cons_append, strtol_append ((isNumeral_cons rfl).mpr hnum) hrest,
        strtol_space hnum]
    rw [hread hr, if_neg (by rw [hrange]; exact Bool.false_ne_true)]
    exact h

/-! ### The fraction -/

/-- `sizeof(str_tt)`. -/
def SIZEOF_STR_TT : ℕ := 20

theorem length_padTenThousandth (hstr : strTt.length = SIZEOF_STR_TT) {frac : CStr}
    (hfrac : frac.length ≤ 4) : (padTenThousandth strTt frac).length = 5 := by
  unfold SIZEOF_STR_TT at hstr
  simp only [padTenThousandth, List.length_map, List.length_take, List.length_append,
    List.length_cons, List.length_drop, hstr]
  omega

theorem padTenThousandth_cons (strTt frac : CStr) :
    ∃ rest, padTenThousandth strTt frac = '1' :: rest :=
  ⟨_, rfl⟩

/-- The value of a fraction is below ten thousand. -/
theorem tenThousandths_lt (hstr : strTt.length = SIZEOF_STR_TT) {frac : CStr}
    (h : Padded strTt frac) : ∃ n < 10000,
      Nat.ofDigitChars 10 (padTenThousandth strTt frac) 0 = 10000 + n := by
  have hlen := length_padTenThousandth hstr h.length
  have hdigit := h.digit
  obtain ⟨rest, hcons⟩ := padTenThousandth_cons strTt frac
  rw [hcons] at hlen hdigit ⊢
  have hrest : rest.length = 4 := Nat.succ_inj.mp hlen
  have hlt := ofDigitChars_lt fun c hc => hdigit c (List.mem_cons_of_mem _ hc)
  rw [hrest] at hlt
  refine ⟨_, hlt, ?_⟩
  rw [ofDigitChars_cons_zero, hrest]
  rfl

/-- The round that goes on to the last state reads the fraction from `str_tt`. -/
theorem parseLoop_fraction_iff (hstr : strTt.length = SIZEOF_STR_TT) {s : Parse} {t : Tm}
    {sep : Char} {frac : CStr} (k : ℕ) (hswitch : switchState s = s.goTo t .tenThousandth)
    (hpEnd : s.pEnd = sep :: frac) (ho : ¬ Refused o) :
    parseLoop strTt (k + 2) s = o ↔
      Padded strTt frac ∧ .ok ⟨t, tenThousandths strTt frac⟩ = o := by
  have hread : parseLoop strTt (k + 2) s =
      if frac = [] ∨ frac.length > 4 then
        .error (.refused "Error parsing ten thousandth of second!" { s.tmt with t := t })
      else if (strtol (padTenThousandth strTt frac)).range then
        .error (.refused "NO MESSAGE" { s.tmt with t := t })
      else parseLoop strTt (k + 1) ⟨.tenThousandth,
        toInt32 (toInt32 (strtol (padTenThousandth strTt frac)).value - 10000),
        (strtol (padTenThousandth strTt frac)).rest, { s.tmt with t := t }⟩ := by
    rw [parseLoop, hswitch]
    show (readNumber strTt { s with tmt := { s.tmt with t := t }, state := .tenThousandth } >>=
      parseLoop strTt (k + 1)) = _
    unfold readNumber
    rw [hpEnd]
    dsimp only
    rw [if_pos rfl]
    split_ifs <;> rfl
  rw [hread]
  by_cases hfrac : frac = [] ∨ frac.length > 4
  · rw [if_pos hfrac]
    refine iff_of_false (fun h => ho ⟨_, _, h.symm⟩) fun h => ?_
    rcases hfrac with hnil | hlong
    · exact h.1.ne_nil hnil
    · exact absurd h.1.length (not_le.mpr hlong)
  rw [if_neg hfrac]
  push Not at hfrac
  obtain ⟨rest, hcons⟩ := padTenThousandth_cons strTt frac
  have hlen := length_padTenThousandth hstr hfrac.2
  obtain ⟨hds, hrest⟩ : (∀ c ∈ (padTenThousandth strTt frac).takeWhile Char.isDigit, c.isDigit) ∧
      ∀ c ∈ ((padTenThousandth strTt frac).dropWhile Char.isDigit).head?, ¬ c.isDigit := by
    refine ⟨fun c hc => List.mem_takeWhile_imp hc, fun c hc => ?_⟩
    have hnot := List.head?_dropWhile_not Char.isDigit (padTenThousandth strTt frac)
    rw [Option.mem_def.mp hc] at hnot
    simpa using hnot
  have hne : (padTenThousandth strTt frac).takeWhile Char.isDigit ≠ [] := by
    rw [hcons, List.takeWhile_cons_of_pos rfl]
    exact List.cons_ne_nil _ _
  have hsmall := ofDigitChars_lt hds
  have hle : 10 ^ ((padTenThousandth strTt frac).takeWhile Char.isDigit).length ≤ 10 ^ 5 :=
    Nat.pow_le_pow_right (by decide) (((List.takeWhile_prefix _).length_le).trans hlen.le)
  have hstrtol := strtol_digits [] _ (by simp) hne hds hrest (by omega)
  rw [List.nil_append, List.takeWhile_append_dropWhile] at hstrtol
  rw [hstrtol]
  dsimp only
  rw [if_neg Bool.false_ne_true]
  cases hdrop : (padTenThousandth strTt frac).dropWhile Char.isDigit with
  | nil =>
    have hall : ∀ c ∈ padTenThousandth strTt frac, c.isDigit := List.dropWhile_eq_nil_iff.mp hdrop
    have hpadded : Padded strTt frac := ⟨hfrac.1, hfrac.2, hall⟩
    obtain ⟨n, hn, hvalue⟩ := tenThousandths_lt hstr hpadded
    rw [List.takeWhile_eq_self_iff.mpr hall, hvalue, toInt32_natCast (by omega)]
    have hsub : ((10000 + n : ℕ) : ℤ) - 10000 = (n : ℕ) := by push_cast; omega
    rw [hsub, toInt32_natCast (by omega), parseLoop_finish ⟨.tenThousandth, n, [],
      ⟨t, (n : ℤ) % 2 ^ 32⟩⟩ k rfl, Int.emod_eq_of_lt (by omega) (by omega), ← hsub, ← hvalue]
    exact (and_iff_right hpadded).symm
  | cons c rest' =>
    refine iff_of_false (fun h => ho (h ▸ parseLoop_refused ⟨_, _, rfl⟩)) fun h => ?_
    rw [List.dropWhile_eq_nil_iff.mpr h.1.digit] at hdrop
    exact absurd hdrop (List.cons_ne_nil _ _).symm

/-! ### Separators -/

theorem noDigit_fractionFields (frac : Option CStr) : NoDigit (join [] (fractionFields frac)) := by
  cases frac with
  | none => exact noDigit_nil
  | some f => exact noDigit_cons (c := '.') (by decide) _

theorem noDigit_secondFields (sec : Option (CStr × Option CStr)) :
    NoDigit (join [] (secondFields sec)) := by
  cases sec with
  | none => exact noDigit_nil
  | some s => exact noDigit_cons (c := ':') (by decide) _

theorem noDigit_timeFields (time : Option TimeOfDay) : NoDigit (join [] (timeFields time)) := by
  cases time with
  | none => exact noDigit_nil
  | some t => exact noDigit_cons (c := ',') (by decide) _

/-- The separators that a state goes on behind, and whether the text may also end there. -/
structure Continues (s : Parse) (t : Tm) (sep : Char) (state : State) : Prop where
  finish : s.pEnd = [] → switchState s = s.finish { s.tmt with t := t }
  goTo : ∀ text, s.pEnd = sep :: text → switchState s = s.goTo t state
  refuse : ∀ c text, s.pEnd = c :: text → c ≠ sep → Refused (switchState s)

/-- A round in a state where the text may end. -/
theorem parseLoop_continues {s : Parse} {t : Tm} {sep : Char} {state : State} (k : ℕ)
    (h : Continues s t sep state) (ho : ¬ Refused o) : parseLoop strTt (k + 1) s = o ↔
      (s.pEnd = [] ∧ .ok { s.tmt with t := t } = o) ∨
        ∃ text, s.pEnd = sep :: text ∧ parseLoop strTt (k + 1) s = o := by
  cases hpEnd : s.pEnd with
  | nil =>
    rw [parseLoop_finish _ k (h.finish hpEnd)]
    simp
  | cons c text =>
    by_cases hc : c = sep
    · subst hc
      simp
    · have hrefused : Refused (parseLoop strTt (k + 1) s) :=
        parseLoop_refused (h.refuse c text hpEnd hc)
      refine iff_of_false (fun h => ho (h ▸ hrefused)) ?_
      rintro (⟨hnil, -⟩ | ⟨text', htext, -⟩)
      · exact absurd hnil (List.cons_ne_nil _ _)
      · exact hc (List.cons.inj htext).1

/-- The separator that a state has to have behind its number. -/
structure Requires (s : Parse) (t : Tm) (sep : Char) (state : State) : Prop where
  goTo : ∀ text, s.pEnd = sep :: text → switchState s = s.goTo t state
  refuse : (∀ text, s.pEnd ≠ sep :: text) → Refused (switchState s)

/-- A round that may go on to another number. -/
theorem parseLoop_continues_iff {s : Parse} {t : Tm} {sep : Char} {state : State} (k : ℕ)
    (h : Continues s t sep state) (hstate : state ≠ .tenThousandth) (ho : ¬ Refused o) :
    parseLoop strTt (k + 2) s = o ↔ (s.pEnd = [] ∧ .ok { s.tmt with t := t } = o) ∨
      ∃ tok rest, s.pEnd = sep :: (tok ++ rest) ∧ Reads tok ∧ NoDigit rest ∧
        parseLoop strTt (k + 1) ⟨state, number tok, rest, { s.tmt with t := t }⟩ = o := by
  rw [parseLoop_continues (k + 1) h ho]
  refine or_congr_right ?_
  constructor
  · rintro ⟨text, htext, hloop⟩
    rw [parseLoop_goTo_iff k (h.goTo text htext) hstate htext ho] at hloop
    obtain ⟨tok, rest, rfl, hrest⟩ := hloop
    exact ⟨tok, rest, htext, hrest⟩
  · rintro ⟨tok, rest, htext, hrest⟩
    refine ⟨tok ++ rest, htext, ?_⟩
    rw [parseLoop_goTo_iff k (h.goTo _ htext) hstate htext ho]
    exact ⟨tok, rest, rfl, hrest⟩

/-- A round that goes on to another number. -/
theorem parseLoop_requires_iff {s : Parse} {t : Tm} {sep : Char} {state : State} (k : ℕ)
    (h : Requires s t sep state) (hstate : state ≠ .tenThousandth) (ho : ¬ Refused o) :
    parseLoop strTt (k + 2) s = o ↔
      ∃ tok rest, s.pEnd = sep :: (tok ++ rest) ∧ Reads tok ∧ NoDigit rest ∧
        parseLoop strTt (k + 1) ⟨state, number tok, rest, { s.tmt with t := t }⟩ = o := by
  constructor
  · intro hloop
    by_cases htext : ∃ text, s.pEnd = sep :: text
    · obtain ⟨text, htext⟩ := htext
      rw [parseLoop_goTo_iff k (h.goTo text htext) hstate htext ho] at hloop
      obtain ⟨tok, rest, rfl, hrest⟩ := hloop
      exact ⟨tok, rest, htext, hrest⟩
    · exact absurd (hloop ▸ parseLoop_refused (h.refuse (not_exists.mp htext))) ho
  · rintro ⟨tok, rest, htext, hrest⟩
    rw [parseLoop_goTo_iff k (h.goTo _ htext) hstate htext ho]
    exact ⟨tok, rest, rfl, hrest⟩

theorem continues_second (app : ℤ) (pEnd : CStr) (tmt : NmxpTmT) :
    Continues ⟨.second, app, pEnd, tmt⟩ { tmt.t with sec := app } '.' .tenThousandth := by
  refine ⟨?_, ?_, ?_⟩
  · rintro rfl
    rfl
  · rintro text rfl
    rfl
  · rintro c text rfl hc
    unfold switchState
    dsimp only [List.head?_cons]
    split
    · next h => cases h
    · next h => exact absurd (Option.some.inj h) hc
    · exact ⟨_, _, rfl⟩

theorem continues_minute (app : ℤ) (pEnd : CStr) (tmt : NmxpTmT) :
    Continues ⟨.minute, app, pEnd, tmt⟩ { tmt.t with min := app } ':' .second := by
  refine ⟨?_, ?_, ?_⟩
  · rintro rfl
    rfl
  · rintro text rfl
    rfl
  · rintro c text rfl hc
    unfold switchState
    dsimp only [List.head?_cons]
    split
    · next h => cases h
    · next h => exact absurd (Option.some.inj h) hc
    · exact ⟨_, _, rfl⟩

theorem continues_mday (app : ℤ) (pEnd : CStr) (tmt : NmxpTmT) :
    Continues ⟨.mday, app, pEnd, tmt⟩ { tmt.t with mday := app } ',' .hour := by
  refine ⟨?_, ?_, ?_⟩
  · rintro rfl
    rfl
  · rintro text rfl
    rfl
  · rintro c text rfl hc
    unfold switchState
    dsimp only [List.head?_cons]
    split
    · next h => cases h
    · next h => exact absurd (Option.some.inj h) hc
    · exact ⟨_, _, rfl⟩

/-- A day of the year that is in the table. -/
theorem continues_julianDay {app : ℤ} (pEnd : CStr) {tmt : NmxpTmT} {r : ℤ × ℤ}
    (hloop : monthLoop (monthDays tmt.t.year) 0 0 app = some r) :
    Continues ⟨.julianDay, app, pEnd, tmt⟩ { tmt.t with yday := app - 1, mon := r.1, mday := r.2 }
      ',' .hour := by
  refine ⟨?_, ?_, ?_⟩
  · rintro rfl
    unfold switchState
    dsimp only
    rw [hloop]
    rfl
  · rintro text rfl
    exact switchState_julianDay rfl hloop rfl
  · rintro c text rfl hc
    unfold switchState
    dsimp only
    rw [hloop]
    dsimp only [List.head?_cons]
    split
    · next h => cases h
    · next h => exact absurd (Option.some.inj h) hc
    · exact ⟨_, _, rfl⟩

theorem requires_hour (app : ℤ) (pEnd : CStr) (tmt : NmxpTmT) :
    Requires ⟨.hour, app, pEnd, tmt⟩ { tmt.t with hour := app } ':' .minute := by
  refine ⟨?_, fun h => ?_⟩
  · rintro text rfl
    rfl
  · cases pEnd with
    | nil => exact ⟨_, _, rfl⟩
    | cons c text =>
      have hc : c ≠ ':' := fun hc => h text (by rw [hc])
      unfold switchState
      dsimp only [List.head?_cons]
      split
      · next h => exact absurd (Option.some.inj h) hc
      · exact ⟨_, _, rfl⟩

theorem requires_month (app : ℤ) (pEnd : CStr) (tmt : NmxpTmT) :
    Requires ⟨.month, app, pEnd, tmt⟩ { tmt.t with mon := app - 1 } '/' .mday := by
  refine ⟨?_, fun h => ?_⟩
  · rintro text rfl
    rfl
  · cases pEnd with
    | nil => exact ⟨_, _, rfl⟩
    | cons c text =>
      have hc : c ≠ '/' := fun hc => h text (by rw [hc])
      unfold switchState
      dsimp only [List.head?_cons]
      split
      · next h => exact absurd (Option.some.inj h) hc
      · exact ⟨_, _, rfl⟩

/-! ### The time of the day -/

/-- A field in front of others, as a text. -/
theorem join_nil_cons (f : Char × CStr) (fields : List (Char × CStr)) :
    join [] (f :: fields) = f.1 :: (f.2 ++ join [] fields) :=
  join_cons [] f fields

section

variable (hstr : strTt.length = SIZEOF_STR_TT) (ho : ¬ Refused o)
include hstr ho

theorem parseLoop_second_iff (k : ℕ) (app : ℤ) (pEnd : CStr) (tmt : NmxpTmT) :
    parseLoop strTt (k + 2) ⟨.second, app, pEnd, tmt⟩ = o ↔
      ∃ frac, pEnd = join [] (fractionFields frac) ∧ (∀ f ∈ frac, Padded strTt f) ∧
        .ok ⟨{ tmt.t with sec := app }, frac.elim tmt.d (tenThousandths strTt)⟩ = o := by
  have hcont := continues_second app pEnd tmt
  rw [parseLoop_continues (k + 1) hcont ho, Option.exists]
  refine or_congr (by simp [fractionFields, join_nil]) (exists_congr fun text => ?_)
  have hfields : join [] (fractionFields (some text)) = '.' :: text := by
    simp [fractionFields, join_nil_cons, join_nil]
  rw [hfields]
  refine and_congr_right fun htext => ?_
  rw [parseLoop_fraction_iff hstr k (hcont.goTo text htext) htext ho]
  simp

theorem parseLoop_minute_iff (k : ℕ) (app : ℤ) (pEnd : CStr) (tmt : NmxpTmT) :
    parseLoop strTt (k + 3) ⟨.minute, app, pEnd, tmt⟩ = o ↔
      ∃ sec, pEnd = join [] (secondFields sec) ∧ SecondTaken strTt sec ∧
        .ok (setSecond strTt { tmt with t := { tmt.t with min := app } } sec) = o := by
  rw [parseLoop_continues_iff (k + 1) (continues_minute app pEnd tmt) (by decide) ho,
    Option.exists, Prod.exists]
  refine or_congr ?_ (exists_congr fun tok => ?_)
  · simp [secondFields, join_nil, SecondTaken, setSecond]
  have hfields (frac : Option CStr) : join [] (secondFields (some (tok, frac))) =
      ':' :: (tok ++ join [] (fractionFields frac)) := join_nil_cons _ _
  constructor
  · rintro ⟨rest, htext, htok, -, hloop⟩
    rw [parseLoop_second_iff hstr ho] at hloop
    obtain ⟨frac, rfl, hfrac, hok⟩ := hloop
    exact ⟨frac, htext, by simpa [SecondTaken] using ⟨htok, hfrac⟩, hok⟩
  · rintro ⟨frac, htext, htaken, hok⟩
    obtain ⟨htok, hfrac⟩ := htaken _ rfl
    refine ⟨_, htext, htok, noDigit_fractionFields frac, ?_⟩
    rw [parseLoop_second_iff hstr ho]
    exact ⟨frac, rfl, hfrac, hok⟩

/-- **The time of the day**, behind a day. -/
theorem parseLoop_time_iff (k : ℕ) {s : Parse} {t : Tm} (hcont : Continues s t ',' .hour) :
    parseLoop strTt (k + 5) s = o ↔
      ∃ time, s.pEnd = join [] (timeFields time) ∧ TimeTaken strTt time ∧
        .ok (setTime strTt { s.tmt with t := t } time) = o := by
  rw [parseLoop_continues_iff (k + 3) hcont (by decide) ho, Option.exists]
  refine or_congr (by simp [timeFields, join_nil, TimeTaken, setTime]) ?_
  have hfields (time : TimeOfDay) : join [] (timeFields (some time)) =
      ',' :: (time.hour ++ ':' :: (time.min ++ join [] (secondFields time.sec))) := by
    rw [timeFields, Option.elim_some, join_nil_cons, join_nil_cons]
  constructor
  · rintro ⟨hour, rest, htext, hhour, -, hloop⟩
    rw [parseLoop_requires_iff (k + 2) (requires_hour ..) (by decide) ho] at hloop
    obtain ⟨min, rest, rfl, hmin, -, hloop⟩ := hloop
    rw [parseLoop_minute_iff hstr ho] at hloop
    obtain ⟨sec, rfl, hsec, hok⟩ := hloop
    refine ⟨⟨hour, min, sec⟩, by rw [htext, hfields], ?_, hok⟩
    simpa [TimeTaken] using ⟨hhour, hmin, hsec⟩
  · rintro ⟨⟨hour, min, sec⟩, htext, htaken, hok⟩
    obtain ⟨hhour, hmin, hsec⟩ := htaken _ rfl
    rw [hfields] at htext
    refine ⟨hour, _, htext, hhour, noDigit_cons (by decide) _, ?_⟩
    rw [parseLoop_requires_iff (k + 2) (requires_hour ..) (by decide) ho]
    refine ⟨min, _, rfl, hmin, noDigit_secondFields sec, ?_⟩
    rw [parseLoop_minute_iff hstr ho]
    exact ⟨sec, rfl, hsec, hok⟩

/-! ### The day -/

theorem parseLoop_month_iff (k : ℕ) (app : ℤ) (pEnd : CStr) (tmt : NmxpTmT) :
    parseLoop strTt (k + 6) ⟨.month, app, pEnd, tmt⟩ = o ↔
      ∃ mday time, pEnd = join [] (('/', mday) :: timeFields time) ∧ Reads mday ∧
        TimeTaken strTt time ∧ .ok (setTime strTt
          { tmt with t := { tmt.t with mon := app - 1, mday := number mday } } time) = o := by
  rw [parseLoop_requires_iff (k + 4) (requires_month app pEnd tmt) (by decide) ho]
  refine exists_congr fun mday => ?_
  simp only [join_nil_cons]
  constructor
  · rintro ⟨rest, htext, hmday, -, hloop⟩
    rw [parseLoop_time_iff hstr ho k (continues_mday ..)] at hloop
    obtain ⟨time, rfl, htime, hok⟩ := hloop
    exact ⟨time, htext, hmday, htime, hok⟩
  · rintro ⟨time, htext, hmday, htime, hok⟩
    refine ⟨_, htext, hmday, noDigit_timeFields time, ?_⟩
    rw [parseLoop_time_iff hstr ho k (continues_mday ..)]
    exact ⟨time, rfl, htime, hok⟩

theorem parseLoop_julianDay_iff (k : ℕ) (app : ℤ) (pEnd : CStr) (tmt : NmxpTmT) :
    parseLoop strTt (k + 5) ⟨.julianDay, app, pEnd, tmt⟩ = o ↔
      (monthLoop (monthDays tmt.t.year) 0 0 app = none ∧ .error .beyondTable = o) ∨
      ∃ r time, monthLoop (monthDays tmt.t.year) 0 0 app = some r ∧
        pEnd = join [] (timeFields time) ∧ TimeTaken strTt time ∧ .ok (setTime strTt
          { tmt with t := { tmt.t with yday := app - 1, mon := r.1, mday := r.2 } } time) = o := by
  cases hloop : monthLoop (monthDays tmt.t.year) 0 0 app with
  | none =>
    rw [parseLoop_error (k + 4) (switchState_beyondTable rfl hloop)]
    simp
  | some r =>
    rw [parseLoop_time_iff hstr ho k (continues_julianDay pEnd hloop)]
    simp

/-- **The day.** -/
theorem parseLoop_year_iff (k : ℕ) (app : ℤ) (pEnd : CStr) (tmt : NmxpTmT) :
    parseLoop strTt (k + 7) ⟨.year, app, pEnd, tmt⟩ = o ↔
      (∃ day time t, pEnd = join [] (day.fields ++ timeFields time) ∧ day.Taken ∧
        TimeTaken strTt time ∧ setDay { tmt.t with year := app - 1900 } day = some t ∧
        .ok (setTime strTt { tmt with t := t } time) = o) ∨
      ∃ jday rest, pEnd = '.' :: (jday ++ rest) ∧ Reads jday ∧ NoDigit rest ∧
        monthLoop (monthDays (app - 1900)) 0 0 (number jday) = none ∧
        .error .beyondTable = o := by
  have hcivil (month mday : CStr) (time : Option TimeOfDay) :
      join [] ((Day.civil month mday).fields ++ timeFields time) =
        '/' :: (month ++ join [] (('/', mday) :: timeFields time)) := join_nil_cons _ _
  have hjulian (jday : CStr) (time : Option TimeOfDay) :
      join [] ((Day.julian jday).fields ++ timeFields time) =
        '.' :: (jday ++ join [] (timeFields time)) := join_nil_cons _ _
  constructor
  · intro hloop
    by_cases hslash : ∃ text, pEnd = '/' :: text
    · obtain ⟨text, rfl⟩ := hslash
      rw [parseLoop_goTo_iff (k + 5) (t := { tmt.t with year := app - 1900 }) rfl (by decide) rfl
        ho] at hloop
      obtain ⟨month, rest, rfl, hmonth, -, hloop⟩ := hloop
      rw [parseLoop_month_iff hstr ho] at hloop
      obtain ⟨mday, time, rfl, hmday, htime, hok⟩ := hloop
      exact Or.inl ⟨.civil month mday, time, _, (hcivil ..).symm, ⟨hmonth, hmday⟩, htime, rfl, hok⟩
    by_cases hdot : ∃ text, pEnd = '.' :: text
    · obtain ⟨text, rfl⟩ := hdot
      rw [parseLoop_goTo_iff (k + 5) (t := { tmt.t with year := app - 1900 }) rfl (by decide) rfl
        ho] at hloop
      obtain ⟨jday, rest, rfl, hjday, hrest, hloop⟩ := hloop
      rw [parseLoop_julianDay_iff hstr ho (k + 1)] at hloop
      rcases hloop with ⟨hnone, hbeyond⟩ | ⟨r, time, hsome, rfl, htime, hok⟩
      · exact Or.inr ⟨jday, rest, rfl, hjday, hrest, hnone, hbeyond⟩
      · refine Or.inl ⟨.julian jday, time, _, (hjulian ..).symm, hjday, htime, ?_, hok⟩
        rw [setDay, hsome]
        rfl
    · refine absurd (hloop ▸ parseLoop_refused ?_) ho
      unfold switchState
      dsimp only
      split
      · next heq => exact absurd ⟨_, (List.head?_eq_some_iff.mp heq).choose_spec⟩ hslash
      · next heq => exact absurd ⟨_, (List.head?_eq_some_iff.mp heq).choose_spec⟩ hdot
      · exact ⟨_, _, rfl⟩
  · rintro (⟨day, time, t, rfl, hday, htime, hset, hok⟩ |
      ⟨jday, rest, rfl, hjday, hrest, hnone, hbeyond⟩)
    · cases day with
      | civil month mday =>
        obtain rfl := Option.some.inj hset
        rw [hcivil, parseLoop_goTo_iff (k + 5) (t := { tmt.t with year := app - 1900 }) rfl
          (by decide) rfl ho]
        refine ⟨month, _, rfl, hday.1, ?_, ?_⟩
        · rw [join_nil_cons]
          exact noDigit_cons (c := '/') (by decide) _
        · rw [parseLoop_month_iff hstr ho]
          exact ⟨mday, time, rfl, hday.2, htime, hok⟩
      | julian jday =>
        obtain ⟨r, hsome, rfl⟩ := Option.map_eq_some_iff.mp hset
        rw [hjulian, parseLoop_goTo_iff (k + 5) (t := { tmt.t with year := app - 1900 }) rfl
          (by decide) rfl ho]
        refine ⟨jday, _, rfl, hday, noDigit_timeFields time, ?_⟩
        rw [parseLoop_julianDay_iff hstr ho (k + 1)]
        exact Or.inr ⟨r, time, hsome, rfl, htime, hok⟩
    · rw [parseLoop_goTo_iff (k + 5) (t := { tmt.t with year := app - 1900 }) rfl (by decide)
        rfl ho]
      refine ⟨jday, rest, rfl, hjday, hrest, ?_⟩
      rw [parseLoop_julianDay_iff hstr ho (k + 1)]
      exact Or.inl ⟨hnone, hbeyond⟩

/-! ### The text -/

/-- A text whose day of the year lies behind the table. -/
def BeyondTable (text : CStr) : Prop :=
  ∃ year jday rest, text = year ++ '.' :: (jday ++ rest) ∧ YearTaken year ∧ Reads jday ∧
    NoDigit rest ∧ (monthDays (number year - 1900)).sum < number jday

end

theorem monthDays_nonneg (yr : ℤ) : ∀ days ∈ monthDays yr, 0 ≤ days := by
  intro days hdays
  unfold monthDays at hdays
  simp only [List.mem_cons, List.not_mem_nil, or_false] at hdays
  split_ifs at hdays <;> omega

theorem sum_take_monthDays_nonneg (yr : ℤ) (k : ℕ) : 0 ≤ ((monthDays yr).take k).sum :=
  List.sum_nonneg fun days hdays => monthDays_nonneg yr days (List.mem_of_mem_take hdays)

theorem sum_take_monthDays_le (yr : ℤ) (k : ℕ) :
    ((monthDays yr).take k).sum ≤ (monthDays yr).sum := by
  have hsum := List.sum_take_add_sum_drop (monthDays yr) k
  have hdrop : 0 ≤ ((monthDays yr).drop k).sum :=
    List.sum_nonneg fun days hdays => monthDays_nonneg yr days (List.mem_of_mem_drop hdays)
  omega

/-- The days behind the table are those that the loop does not find. -/
theorem monthLoop_eq_none (yr jday : ℤ) :
    monthLoop (monthDays yr) 0 0 jday = none ↔ (monthDays yr).sum < jday := by
  have hpos : 0 ≤ (monthDays yr).sum := sum_take_monthDays_le yr 0
  by_cases hjday : 0 < jday
  · have hspec := monthLoop_spec (monthDays yr) 0 0 jday hjday
    cases hloop : monthLoop (monthDays yr) 0 0 jday with
    | none =>
      rw [hloop, Option.elim_none, zero_add] at hspec
      exact iff_of_true rfl hspec
    | some r =>
      rw [hloop] at hspec
      obtain ⟨k, hk, -, -, hle⟩ := hspec
      have htake := sum_take_monthDays_le yr (k + 1)
      exact iff_of_false (by simp) (by omega)
  · have hfirst : monthLoop (monthDays yr) 0 0 jday = some (0, jday) := by
      unfold monthDays monthLoop
      rw [if_neg (by omega), Int.sub_zero]
    rw [hfirst]
    exact iff_of_false (by simp) (by omega)

/-- Where no year stands before the separator, nothing is read. -/
theorem strtol_separator {c : Char} (hc : c = '/' ∨ c = '.') (text : CStr) :
    strtol (c :: text) = ⟨0, c :: text, false⟩ := by
  rcases hc with rfl | rfl <;> rfl

/-- **What the parser makes of a text**, other than an error. -/
theorem parseDate_iff (hstr : strTt.length = SIZEOF_STR_TT) (ho : ¬ Refused o) (tmNow : Tm)
    {text : CStr} (hlen : text.length < MAX_LENGTH_STR_MESSAGE) :
    nmxpDataParseDate 0 strTt tmNow text = o ↔
      (∃ (d : DateText) (tmt : NmxpTmT), d.text = text ∧ d.Taken strTt ∧
        d.tmt strTt tmNow = some tmt ∧ .ok tmt = o) ∨
      (BeyondTable text ∧ .error .beyondTable = o) := by
  have hunfold : ∀ {r : Strtol}, strtol text = r → nmxpDataParseDate 0 strTt tmNow text =
      if r.range ∨ r.rest = [] then .error (.refused "Error parsing year!"
        ⟨{ tmNow with sec := 0, min := 0, hour := 0 }, 0⟩)
      else parseLoop strTt (1 + 7) ⟨.year, toInt32 r.value, r.rest,
        ⟨{ tmNow with sec := 0, min := 0, hour := 0 }, 0⟩⟩ := by
    intro r hr
    unfold nmxpDataParseDate
    rw [if_neg (not_le.mpr hlen), hr]
    have herrno : ¬ (0 = EINVAL) ∧ ¬ (0 = ERANGE) := by decide
    simp only [herrno.1, herrno.2, false_or]
    rfl
  -- a year that is read, or left out
  have hyear : ∀ {year rest : CStr}, text = year ++ rest → rest ≠ [] → YearTaken year →
      strtol text = { strtol year with rest := rest } →
      nmxpDataParseDate 0 strTt tmNow text = parseLoop strTt (1 + 7) ⟨.year, number year, rest,
        ⟨{ tmNow with sec := 0, min := 0, hour := 0 }, 0⟩⟩ := by
    intro year rest _ hrest hyear hr
    have hrange : (strtol year).range = false := by
      rcases hyear with rfl | hyear
      · rfl
      · exact hyear.2
    rw [hunfold hr, if_neg (by simp [hrange, hrest])]
    rfl
  constructor
  · intro hparse
    obtain ⟨year, rest, htext, hne, htaken, hr⟩ : ∃ year rest, text = year ++ rest ∧ rest ≠ [] ∧
        YearTaken year ∧ strtol text = { strtol year with rest := rest } := by
      rcases strtol_cases text with hnone | ⟨year, rest, htext, hnum, -, hr⟩
      · refine ⟨[], text, rfl, ?_, Or.inl rfl, hnone⟩
        rintro rfl
        rw [hunfold hnone, if_pos (Or.inr rfl)] at hparse
        exact ho ⟨_, _, hparse.symm⟩
      · rw [hunfold hr] at hparse
        split_ifs at hparse with hbad
        · exact absurd ⟨_, _, hparse.symm⟩ ho
        · rw [not_or, Bool.not_eq_true] at hbad
          exact ⟨year, rest, htext, hbad.2, Or.inr ⟨hnum, hbad.1⟩, hr⟩
    rw [hyear htext hne htaken hr, parseLoop_year_iff hstr ho] at hparse
    rcases hparse with ⟨day, time, t, rfl, hday, htime, hset, hok⟩ |
      ⟨jday, rest, rfl, hjday, hrest, hnone, hbeyond⟩
    · refine Or.inl ⟨⟨year, day, time⟩, _, htext.symm, ⟨htaken, hday, htime⟩, ?_, hok⟩
      exact Option.map_eq_some_iff.mpr ⟨t, hset, rfl⟩
    · exact Or.inr ⟨⟨year, jday, rest, htext, htaken, hjday, hrest,
        (monthLoop_eq_none ..).mp hnone⟩, hbeyond⟩
  · -- the year is read as it stands, since a separator follows it
    have hstrtol : ∀ {year text' : CStr} {c : Char}, (c = '/' ∨ c = '.') → YearTaken year →
        strtol (year ++ c :: text') = { strtol year with rest := c :: text' } := by
      rintro year text' c hc (rfl | ⟨hnum, -⟩)
      · exact strtol_separator hc text'
      · refine strtol_append hnum (noDigit_cons ?_ text')
        rcases hc with rfl | rfl <;> decide
    rintro (⟨d, tmt, htext, htaken, htmt, hok⟩ |
      ⟨⟨year, jday, rest, htext, hyeart, hjday, hrest, hsum⟩, hbeyond⟩)
    · obtain ⟨t, hset, rfl⟩ := Option.map_eq_some_iff.mp htmt
      obtain ⟨c, hc, text', hfields⟩ : ∃ c, (c = '/' ∨ c = '.') ∧ ∃ text',
          join [] (d.day.fields ++ timeFields d.time) = c :: text' := by
        cases d.day with
        | civil month mday => exact ⟨'/', Or.inl rfl, _, join_nil_cons _ _⟩
        | julian jday => exact ⟨'.', Or.inr rfl, _, join_nil_cons _ _⟩
      have hsplit : text = d.year ++ c :: text' := by
        rw [← htext, ← hfields]
        rfl
      rw [hyear hsplit (List.cons_ne_nil _ _) htaken.year
        (by rw [hsplit]; exact hstrtol hc htaken.year), ← hfields, parseLoop_year_iff hstr ho]
      exact Or.inl ⟨d.day, d.time, t, rfl, htaken.day, htaken.time, hset, hok⟩
    · rw [hyear htext (List.cons_ne_nil _ _) hyeart
        (by rw [htext]; exact hstrtol (Or.inr rfl) hyeart), parseLoop_year_iff hstr ho]
      exact Or.inr ⟨jday, rest, rfl, hjday, hrest, (monthLoop_eq_none ..).mpr hsum, hbeyond⟩

/-! ### Reading the numbers off a text -/

def isSep (c : Char) : Bool := c = '/' || c = '.' || c = ',' || c = ':'

/-- A number without separators in it. -/
def Plain (t : CStr) : Prop := ∀ c ∈ t, isSep c = false

/-- No number has a separator in it. -/
structure DateText.Plain (d : DateText) : Prop where
  year : Grammar.Plain d.year
  field : ∀ f ∈ d.day.fields ++ timeFields d.time, Grammar.Plain f.2

theorem isSep_of_isDigit {c : Char} (h : c.isDigit) : isSep c = false := by
  unfold isSep
  simp only [Bool.or_eq_false_iff, decide_eq_false_iff_not]
  refine ⟨⟨⟨?_, ?_⟩, ?_⟩, ?_⟩ <;> (rintro rfl; exact absurd h (by decide))

theorem isSep_of_isSpace {c : Char} (h : isSpace c) : isSep c = false := by
  unfold isSep
  simp only [Bool.or_eq_false_iff, decide_eq_false_iff_not]
  refine ⟨⟨⟨?_, ?_⟩, ?_⟩, ?_⟩ <;> (rintro rfl; exact absurd h (by decide))

theorem plain_of_isNumeral {t : CStr} (h : IsNumeral t) : Plain t := by
  obtain ⟨blanks, sign, digits, rfl, hblanks, hsign, hdigits⟩ := h
  intro c hc
  rcases List.mem_append.mp hc with hc | hc
  · exact isSep_of_isSpace (hblanks c hc)
  rcases List.mem_append.mp hc with hc | hc
  · rcases hsign with rfl | rfl | rfl
    · exact absurd hc (by simp)
    · rw [List.mem_singleton.mp hc]
      rfl
    · rw [List.mem_singleton.mp hc]
      rfl
  · exact isSep_of_isDigit (hdigits.digit c hc)

theorem plain_of_padded {frac : CStr} (h : Padded strTt frac) : Plain frac := by
  intro c hc
  have hmem : (if c = Char.ofNat 0 then '0' else c) ∈ padTenThousandth strTt frac := by
    unfold padTenThousandth
    refine List.mem_map.mpr ⟨c, ?_, rfl⟩
    have hlen := h.length
    rw [List.cons_append, List.take_succ_cons, List.take_append, List.take_of_length_le hlen]
    simp [hc]
  have hdigit := h.digit _ hmem
  split_ifs at hdigit with hnul
  · rw [hnul]
    rfl
  · exact isSep_of_isDigit hdigit

/-- What the fields are like, if those of the day and of the time are. -/
theorem forall_fields {P : Char × CStr → Prop} {d : DateText} (hday : ∀ f ∈ d.day.fields, P f)
    (htime : ∀ t ∈ d.time, P (',', t.hour) ∧ P (':', t.min) ∧
      ∀ s ∈ t.sec, P (':', s.1) ∧ ∀ f ∈ s.2, P ('.', f)) :
    ∀ f ∈ d.day.fields ++ timeFields d.time, P f := by
  have hfraction {frac : Option CStr} (h : ∀ f ∈ frac, P ('.', f)) :
      ∀ f ∈ fractionFields frac, P f := by
    cases frac with
    | none => simp [fractionFields]
    | some f => simpa [fractionFields] using h
  have hsecond {sec : Option (CStr × Option CStr)}
      (h : ∀ s ∈ sec, P (':', s.1) ∧ ∀ f ∈ s.2, P ('.', f)) : ∀ f ∈ secondFields sec, P f := by
    cases sec with
    | none => simp [secondFields]
    | some s => exact List.forall_mem_cons.mpr ⟨(h s rfl).1, hfraction (h s rfl).2⟩
  refine List.forall_mem_append.mpr ⟨hday, ?_⟩
  cases ht : d.time with
  | none => simp [timeFields]
  | some t =>
    obtain ⟨hhour, hmin, hsec⟩ := htime t ht
    exact List.forall_mem_cons.mpr ⟨hhour, List.forall_mem_cons.mpr ⟨hmin, hsecond hsec⟩⟩

theorem DateText.Taken.plain {d : DateText} (h : d.Taken strTt) : d.Plain := by
  refine ⟨?_, forall_fields (P := fun f => Grammar.Plain f.2) ?_ fun t ht => ?_⟩
  · rcases h.year with hnil | hyear
    · rw [hnil]
      simp [Grammar.Plain]
    · exact plain_of_isNumeral hyear.1
  · have hday := h.day
    cases hd : d.day with
    | civil month mday =>
      rw [hd] at hday
      simp only [Day.fields, List.forall_mem_cons, List.not_mem_nil, false_imp_iff, implies_true,
        and_true]
      exact ⟨plain_of_isNumeral hday.1.1, plain_of_isNumeral hday.2.1⟩
    | julian jday =>
      rw [hd] at hday
      simp only [Day.fields, List.forall_mem_cons, List.not_mem_nil, false_imp_iff, implies_true,
        and_true]
      exact plain_of_isNumeral hday.1
  · obtain ⟨hhour, hmin, hsec⟩ := h.time t ht
    exact ⟨plain_of_isNumeral hhour.1, plain_of_isNumeral hmin.1, fun s hs =>
      ⟨plain_of_isNumeral (hsec s hs).1.1, fun f hf => plain_of_padded ((hsec s hs).2 f hf)⟩⟩

theorem separated {d : DateText} (h : d.Plain) :
    Separated isSep d.year (d.day.fields ++ timeFields d.time) := by
  refine ⟨h.year, forall_fields (P := fun f => isSep f.1 = true) ?_ fun t _ => ?_, h.field⟩
  · cases d.day with
    | civil month mday => exact List.forall_mem_cons.mpr ⟨rfl, by simp [isSep]⟩
    | julian jday => simp [Day.fields, isSep]
  · exact ⟨rfl, rfl, fun s _ => ⟨rfl, fun f _ => rfl⟩⟩

theorem fractionFields_inj {frac frac' : Option CStr}
    (h : fractionFields frac = fractionFields frac') : frac = frac' := by
  cases frac <;> cases frac' <;> simp_all [fractionFields]

theorem secondFields_inj {sec sec' : Option (CStr × Option CStr)}
    (h : secondFields sec = secondFields sec') : sec = sec' := by
  cases sec with
  | none => cases sec' <;> simp_all [secondFields]
  | some s =>
    cases sec' with
    | none => simp [secondFields] at h
    | some s' =>
      obtain ⟨hsec, hfrac⟩ := List.cons.inj h
      rw [Prod.ext (Prod.ext_iff.mp hsec).2 (fractionFields_inj hfrac)]

theorem timeFields_inj {time time' : Option TimeOfDay} (h : timeFields time = timeFields time') :
    time = time' := by
  cases time with
  | none => cases time' <;> simp_all [timeFields]
  | some t =>
    cases time' with
    | none => simp [timeFields] at h
    | some t' =>
      obtain ⟨hhour, hrest⟩ := List.cons.inj h
      obtain ⟨hmin, hsec⟩ := List.cons.inj hrest
      obtain ⟨hour, min, sec⟩ := t
      obtain ⟨hour', min', sec'⟩ := t'
      obtain rfl : hour = hour' := (Prod.ext_iff.mp hhour).2
      obtain rfl : min = min' := (Prod.ext_iff.mp hmin).2
      obtain rfl : sec = sec' := secondFields_inj hsec
      rfl

theorem fields_inj {day day' : Day} {time time' : Option TimeOfDay}
    (h : day.fields ++ timeFields time = day'.fields ++ timeFields time') :
    day = day' ∧ time = time' := by
  cases day with
  | civil month mday =>
    cases day' with
    | civil month' mday' =>
      obtain ⟨hmonth, hrest⟩ := List.cons.inj h
      obtain ⟨hmday, htime⟩ := List.cons.inj hrest
      obtain rfl : month = month' := (Prod.ext_iff.mp hmonth).2
      obtain rfl : mday = mday' := (Prod.ext_iff.mp hmday).2
      exact ⟨rfl, timeFields_inj htime⟩
    | julian jday' =>
      have hsep : '/' = '.' := (Prod.ext_iff.mp (List.cons.inj h).1).1
      exact absurd hsep (by decide)
  | julian jday =>
    cases day' with
    | civil month' mday' =>
      have hsep : '.' = '/' := (Prod.ext_iff.mp (List.cons.inj h).1).1
      exact absurd hsep (by decide)
    | julian jday' =>
      obtain ⟨hjday, htime⟩ := List.cons.inj h
      obtain rfl : jday = jday' := (Prod.ext_iff.mp hjday).2
      exact ⟨rfl, timeFields_inj htime⟩

/-- **A text has its numbers in one way only.** -/
theorem text_inj {d d' : DateText} (h : d.Plain) (h' : d'.Plain) (htext : d.text = d'.text) :
    d = d' := by
  obtain ⟨hyear, hfields⟩ := join_inj (separated h) (separated h') htext
  obtain ⟨hday, htime⟩ := fields_inj hfields
  obtain ⟨year, day, time⟩ := d
  obtain ⟨year', day', time'⟩ := d'
  obtain rfl : year = year' := hyear
  obtain rfl : day = day' := hday
  obtain rfl : time = time' := htime
  rfl

end Nmxptool.Data.Grammar
