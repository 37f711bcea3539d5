import Mathlib.Data.Rat.Floor
import Nmxptool.Data.Process
import Nmxptool.Lib.Calendar
import Nmxptool.Lib.Decimal

/-! # Dates as text

`nmxp_data_to_str` writes the year and the day of the year, and `nmxp_data_parse_date` makes a month
and a day of the month of them, by its own test for leap years.

* `parseDate_dateText`: what the text of a date is parsed to.
* `date_iff`: a time is read back exactly in the years, and in the others up to the day, for which
  that test is right. -/

namespace Nmxptool.Data.Date

open Nmxptool.Data.Process Nmxptool.Lib.Calendar Nmxptool.Lib.Decimal

/-- The fields of `struct tm` in use. -/
structure Tm where
  sec : ℤ
  min : ℤ
  hour : ℤ
  mday : ℤ
  mon : ℤ
  year : ℤ
  yday : ℤ
  deriving DecidableEq

/-- `NMXP_TM_T`: `d` counts ten-thousandths of a second. -/
structure NmxpTmT where
  t : Tm
  d : ℤ
  deriving DecidableEq

/-! ### The C library -/

/-- What `gmtime_r` gives of a time that is not negative, as far as it is written. -/
structure UtcTime where
  year : ℤ
  yday : ℤ
  hour : ℤ
  min : ℤ
  sec : ℤ

/-- `gmtime_r`. Years are counted from 1900. -/
def gmtimeR (time : ℤ) : UtcTime where
  year := (splitYear (time / 86400).toNat 1970 (time / 86400)).1 - 1900
  yday := (splitYear (time / 86400).toNat 1970 (time / 86400)).2
  hour := time % 86400 / 3600
  min := time % 3600 / 60
  sec := time % 60

/-- `timegm`. -/
def timegm (t : Tm) : ℤ :=
  daysFromCivil (t.year + 1900) t.mon t.mday * 86400 + t.hour * 3600 + t.min * 60 + t.sec

/-! ### Writing -/

def NMXP_DATA_MAX_SIZE_DATE : ℕ := 200

/-- `"%04d.%03d,%02d:%02d:%02d.%04d"`. -/
def dateText (year yday hour min sec d : ℕ) : CStr :=
  zeroPadded 4 year ++ '.' :: (zeroPadded 3 yday ++ ',' :: (zeroPadded 2 hour ++ ':' ::
    (zeroPadded 2 min ++ ':' :: (zeroPadded 2 sec ++ '.' :: zeroPadded 4 d))))

/-- `nmxp_data_to_str`. -/
def nmxpDataToStr (timeD : ℚ) : CStr :=
  let time : ℤ := if timeD > 0 then ⌊timeD⌋ else 0
  let tm := gmtimeR time
  let d : ℤ := if time = 0 then 0 else ⌊(timeD - time) * 10000⌋
  (dateText (tm.year + 1900).toNat (tm.yday + 1).toNat tm.hour.toNat tm.min.toNat tm.sec.toNat
    d.toNat).take (NMXP_DATA_MAX_SIZE_DATE - 1)

/-! ### Parsing -/

def MAX_LENGTH_STR_MESSAGE : ℕ := 30

/-- The numbers of the states. -/
inductive State
  | year
  | month
  | mday
  | julianDay
  | hour
  | minute
  | second
  | tenThousandth
  deriving DecidableEq

/-- The variables of the loop: the state, `app`, the text from `pEnd` on, and `ret_tmt`. -/
structure Parse where
  state : State
  app : ℤ
  pEnd : CStr
  tmt : NmxpTmT

/-- Why the parser stops: `-1` with `err_message` and what is in `ret_tmt`; or what would be
undefined behaviour, a read beyond `month_days` and a text that fills `str_date` without its
terminator. -/
inductive Stop
  | refused (errMessage : String) (tmt : NmxpTmT)
  | beyondTable
  | unterminated
  deriving DecidableEq

/-- A value stored in an `int32_t`. -/
def toInt32 (v : ℤ) : ℤ := v.bmod (2 ^ 32)

/-- `NMXP_DATA_IS_LEAP`, of the years since 1900. -/
def NMXP_DATA_IS_LEAP (yr : ℤ) : Prop := yr % 400 = 0 ∨ (yr % 4 = 0 ∧ yr % 100 ≠ 0)

instance (yr : ℤ) : Decidable (NMXP_DATA_IS_LEAP yr) := by unfold NMXP_DATA_IS_LEAP; infer_instance

/-- `month_days`, after the test for a leap year. -/
def monthDays (yr : ℤ) : List ℤ :=
  [31, if NMXP_DATA_IS_LEAP yr then 29 else 28, 31, 30, 31, 30, 31, 31, 30, 31, 30, 31]

/-- `while(month_days[m] < (jday - day_sum)) day_sum += month_days[m++]`, over the rest of the
table; the result is the month and the day of the month. -/
def monthLoop : List ℤ → ℤ → ℤ → ℤ → Option (ℤ × ℤ)
  | [], _, _, _ => none
  | days :: rest, m, daySum, jday =>
    if days < jday - daySum then monthLoop rest (m + 1) (daySum + days) jday
    else some (m, jday - daySum)

/-- Go on in another state. -/
def Parse.goTo (s : Parse) (t : Tm) (state : State) : Except Stop (Parse × Bool) :=
  .ok ({ s with tmt := { s.tmt with t := t }, state := state }, false)

/-- Finish. -/
def Parse.finish (s : Parse) (tmt : NmxpTmT) : Except Stop (Parse × Bool) :=
  .ok ({ s with tmt := tmt }, true)

/-- Stop with an error. -/
def Parse.refuse (s : Parse) (t : Tm) (errMessage : String) : Except Stop (Parse × Bool) :=
  .error (.refused errMessage { s.tmt with t := t })

/-- `switch(state)`; the result says whether `flag_finished` is set. -/
def switchState (s : Parse) : Except Stop (Parse × Bool) :=
  match s.state with
  | .year =>
    let t := { s.tmt.t with year := s.app - 1900 }
    match s.pEnd.head? with
    | some '/' => s.goTo t .month
    | some '.' => s.goTo t .julianDay
    | _ => s.refuse t "Wrong separator after year!"
  | .month =>
    let t := { s.tmt.t with mon := s.app - 1 }
    match s.pEnd.head? with
    | some '/' => s.goTo t .mday
    | _ => s.refuse t "Wrong separator after month!"
  | .mday =>
    let t := { s.tmt.t with mday := s.app }
    match s.pEnd.head? with
    | none => s.finish { s.tmt with t := t }
    | some ',' => s.goTo t .hour
    | _ => s.refuse t "Wrong separator after day of month!"
  | .julianDay =>
    match monthLoop (monthDays s.tmt.t.year) 0 0 s.app with
    | none => .error .beyondTable
    | some (m, d) =>
      let t := { s.tmt.t with yday := s.app - 1, mon := m, mday := d }
      match s.pEnd.head? with
      | none => s.finish { s.tmt with t := t }
      | some ',' => s.goTo t .hour
      | _ => s.refuse t "Wrong separator after julian day!"
  | .hour =>
    let t := { s.tmt.t with hour := s.app }
    match s.pEnd.head? with
    | some ':' => s.goTo t .minute
    | _ => s.refuse t "Wrong separator after hour!"
  | .minute =>
    let t := { s.tmt.t with min := s.app }
    match s.pEnd.head? with
    | none => s.finish { s.tmt with t := t }
    | some ':' => s.goTo t .second
    | _ => s.refuse t "Wrong separator after minute!"
  | .second =>
    let t := { s.tmt.t with sec := s.app }
    match s.pEnd.head? with
    | none => s.finish { s.tmt with t := t }
    | some '.' => s.goTo t .tenThousandth
    | _ => s.refuse t "Error parsing after second!"
  | .tenThousandth =>
    -- the field is a `uint32_t`
    let tmt := { s.tmt with d := s.app % 2 ^ 32 }
    match s.pEnd.head? with
    | none => s.finish tmt
    | _ => .error (.refused "Error parsing after ten thousandth of second!" tmt)

/-- The digits after the last separator behind a `1`, in the array `str_tt`, with what NUL
characters are among the first five overwritten. The array is not initialised: `strTt` is what it
holds. -/
def padTenThousandth (strTt : CStr) (digits : CStr) : CStr :=
  ('1' :: digits ++ Char.ofNat 0 :: strTt.drop (digits.length + 2)).take 5 |>.map fun c =>
    if c = Char.ofNat 0 then '0' else c

/-- The part after the `switch`: overwrite the separator, and read the next number. -/
def readNumber (strTt : CStr) (s : Parse) : Except Stop Parse :=
  match s.pEnd with
  | [] => .ok s
  | _ :: rest =>
    if s.state = .tenThousandth then
      if rest = [] ∨ rest.length > 4 then
        .error (.refused "Error parsing ten thousandth of second!" s.tmt)
      else
        let r := strtol (padTenThousandth strTt rest)
        if r.range then .error (.refused "NO MESSAGE" s.tmt)
        else .ok { s with app := toInt32 (toInt32 r.value - 10000), pEnd := r.rest }
    else
      let r := strtol (' ' :: rest)
      if r.range then .error (.refused "NO MESSAGE" s.tmt)
      else .ok { s with app := toInt32 r.value, pEnd := r.rest }

/-- *Loop for parsing by a finite state machine*. -/
def parseLoop (strTt : CStr) : ℕ → Parse → Except Stop NmxpTmT
  | 0, s => .error (.refused "Date incomplete!" s.tmt)
  | fuel + 1, s => do
    let (s, finished) ← switchState s
    if finished then return s.tmt
    else
      let s ← readNumber strTt s
      parseLoop strTt fuel s

/-- The number of states. -/
def numStates : ℕ := 8

def EINVAL : ℤ := 22
def ERANGE : ℤ := 34

/-- `nmxp_data_parse_date`. `errno` is what an earlier call left there, and `tmNow` is the present
time, from `gmtime_r`. -/
def nmxpDataParseDate (errno : ℤ) (strTt : CStr) (tmNow : Tm) (pstrDate : CStr) :
    Except Stop NmxpTmT :=
  if MAX_LENGTH_STR_MESSAGE ≤ pstrDate.length then .error .unterminated
  else
    let r := strtol pstrDate
    let tmt : NmxpTmT := ⟨{ tmNow with sec := 0, min := 0, hour := 0 }, 0⟩
    if errno = EINVAL ∨ errno = ERANGE ∨ r.range ∨ r.rest = [] then
      .error (.refused "Error parsing year!" tmt)
    else parseLoop strTt numStates ⟨.year, toInt32 r.value, r.rest, tmt⟩

/-- `nmxp_data_tm_to_time`. -/
def nmxpDataTmToTime (tmt : NmxpTmT) : ℚ := timegm tmt.t + tmt.d / 10000

/-! ### The loop -/

/-- How many rounds the loop can still make. -/
def State.rounds : State → ℕ
  | .year => 7
  | .month => 6
  | .mday => 5
  | .julianDay => 5
  | .hour => 4
  | .minute => 3
  | .second => 2
  | .tenThousandth => 1

theorem rounds_switchState {s s' : Parse} (h : switchState s = .ok (s', false)) :
    s'.state.rounds < s.state.rounds := by
  obtain ⟨state, app, pEnd, tmt⟩ := s
  have hgo : ∀ {s : Parse} {t : Tm} {state : State}, s.goTo t state = .ok (s', false) →
      s'.state = state := by
    intro s t state h
    obtain rfl := congrArg Prod.fst (Except.ok.inj h)
    rfl
  have hfinish : ∀ {s : Parse} {tmt : NmxpTmT}, s.finish tmt ≠ .ok (s', false) := by
    intro s tmt h
    exact Bool.noConfusion (congrArg Prod.snd (Except.ok.inj h))
  have hrefuse : ∀ {s : Parse} {t : Tm} {e : String}, s.refuse t e ≠ .ok (s', false) := by
    intro s t e h
    exact absurd h (by simp [Parse.refuse])
  cases state <;> simp only [switchState] at h <;> split at h <;> try split at h
  all_goals first
    | exact absurd h hrefuse
    | exact absurd h hfinish
    | exact absurd h (by simp)
    | rw [hgo h]; simp only [State.rounds]; decide

theorem state_readNumber {strTt : CStr} {s s' : Parse} (h : readNumber strTt s = .ok s') :
    s'.state = s.state := by
  unfold readNumber at h
  dsimp only at h
  split at h
  · rw [← Except.ok.inj h]
  · split_ifs at h <;> rw [← Except.ok.inj h]

/-- **The fuel is enough**: more of it changes nothing. -/
theorem parseLoop_fuel (strTt : CStr) : ∀ {n : ℕ} {s : Parse}, s.state.rounds ≤ n →
    parseLoop strTt (n + 1) s = parseLoop strTt n s := by
  intro n
  induction n with
  | zero =>
    intro s h
    exact absurd h (by cases s.state <;> decide)
  | succ n ih =>
    intro s h
    rw [parseLoop, parseLoop]
    cases hswitch : switchState s with
    | error e => rfl
    | ok r =>
      obtain ⟨s1, finished⟩ := r
      cases finished with
      | true => rfl
      | false =>
        show (readNumber strTt s1 >>= parseLoop strTt (n + 1)) =
          (readNumber strTt s1 >>= parseLoop strTt n)
        cases hread : readNumber strTt s1 with
        | error e => rfl
        | ok s2 =>
          refine ih ?_
          rw [state_readNumber hread]
          exact Nat.le_of_lt_succ ((rounds_switchState hswitch).trans_le h)

/-! ### Reading back -/

theorem parseLoop_goTo {strTt : CStr} {s s2 : Parse} (s1 : Parse) (n : ℕ)
    (h1 : switchState s = .ok (s1, false)) (h2 : readNumber strTt s1 = .ok s2) :
    parseLoop strTt (n + 1) s = parseLoop strTt n s2 := by
  rw [parseLoop, h1]
  show (do let s ← readNumber strTt s1; parseLoop strTt n s) = _
  rw [h2]
  rfl

theorem parseLoop_finish {strTt : CStr} {s : Parse} (s1 : Parse) (n : ℕ)
    (h : switchState s = .ok (s1, true)) : parseLoop strTt (n + 1) s = .ok s1.tmt := by
  rw [parseLoop, h]
  rfl

theorem parseLoop_error {strTt : CStr} {s : Parse} {e : Stop} (n : ℕ)
    (h : switchState s = .error e) : parseLoop strTt (n + 1) s = .error e := by
  rw [parseLoop, h]
  rfl

theorem switchState_julianDay {s : Parse} {r : ℤ × ℤ} {rest : CStr} (hstate : s.state = .julianDay)
    (hloop : monthLoop (monthDays s.tmt.t.year) 0 0 s.app = some r) (hpEnd : s.pEnd = ',' :: rest) :
    switchState s = s.goTo { s.tmt.t with yday := s.app - 1, mon := r.1, mday := r.2 } .hour := by
  unfold switchState
  rw [hstate]
  dsimp only
  rw [hloop, hpEnd]
  rfl

theorem switchState_beyondTable {s : Parse} (hstate : s.state = .julianDay)
    (hloop : monthLoop (monthDays s.tmt.t.year) 0 0 s.app = none) :
    switchState s = .error .beyondTable := by
  unfold switchState
  rw [hstate]
  dsimp only
  rw [hloop]

theorem not_isDigit_cons {c : Char} (h : ¬ c.isDigit) (rest : CStr) :
    ∀ c' ∈ (c :: rest).head?, ¬ c'.isDigit := by
  intro c' hc'
  rw [← Option.some.inj hc']
  exact h

theorem toInt32_natCast {n : ℕ} (h : n < 2 ^ 31) : toInt32 n = n :=
  Int.bmod_eq_of_le (by omega) (by omega)

theorem readNumber_zeroPadded {strTt : CStr} {s : Parse} {sep : Char} {w n : ℕ} {rest : CStr}
    (hstate : s.state ≠ .tenThousandth) (hpEnd : s.pEnd = sep :: (zeroPadded w n ++ rest))
    (hrest : ∀ c ∈ rest.head?, ¬ c.isDigit) (hn : n < 2 ^ 31) :
    readNumber strTt s = .ok { s with app := n, pEnd := rest } := by
  have hspace : ∀ c ∈ [' '], isSpace c := fun c hc => by
    rw [List.mem_singleton.mp hc]
    rfl
  have hstrtol := strtol_zeroPadded [' '] w n hspace hrest (by omega)
  rw [List.singleton_append] at hstrtol
  unfold readNumber
  rw [hpEnd]
  dsimp only
  rw [if_neg hstate, hstrtol]
  dsimp only
  rw [if_neg (by decide), toInt32_natCast hn]

theorem readNumber_tenThousandth {strTt : CStr} {s : Parse} {sep : Char} {d : ℕ}
    (hstate : s.state = .tenThousandth) (hpEnd : s.pEnd = sep :: zeroPadded 4 d)
    (hd : d < 10 ^ 4) : readNumber strTt s = .ok { s with app := d, pEnd := [] } := by
  have hlen := length_zeroPadded (by decide) hd
  have hdigit : ∀ c ∈ '1' :: zeroPadded 4 d, c.isDigit := by
    intro c hc
    rcases List.mem_cons.mp hc with rfl | hc
    · rfl
    · exact isDigit_of_mem_zeroPadded hc
  have hpad : padTenThousandth strTt (zeroPadded 4 d) = '1' :: zeroPadded 4 d := by
    unfold padTenThousandth
    rw [List.cons_append, ← List.cons_append, List.take_append_of_le_length (by simp [hlen]),
      List.take_of_length_le (by simp [hlen])]
    calc ('1' :: zeroPadded 4 d).map _ = ('1' :: zeroPadded 4 d).map id := by
          refine List.map_congr_left fun c hc => if_neg fun h => ?_
          exact absurd (hdigit c hc) (by rw [h]; decide)
      _ = _ := List.map_id _
  have hvalue : Nat.ofDigitChars 10 ('1' :: zeroPadded 4 d) 0 = 10000 + d := by
    rw [Nat.ofDigitChars_cons, Nat.ofDigitChars_eq_ofDigitChars_zero, hlen,
      ofDigitChars_zeroPadded]
    rfl
  have hstrtol := strtol_digits [] [] (by simp) (List.cons_ne_nil _ _)
    hdigit (by simp) (by omega)
  rw [List.append_nil, List.nil_append, hvalue] at hstrtol
  unfold readNumber
  rw [hpEnd]
  dsimp only
  rw [if_pos hstate, if_neg, hpad, hstrtol]
  · dsimp only
    rw [if_neg (by decide), toInt32_natCast (by omega)]
    have hsub : ((10000 + d : ℕ) : ℤ) - 10000 = (d : ℕ) := by push_cast; omega
    rw [hsub, toInt32_natCast (by omega)]
  · rintro (h | h)
    · rw [h] at hlen
      exact absurd hlen (by decide)
    · omega

/-- A round that goes on and reads another number. -/
theorem parseLoop_number {strTt : CStr} {s : Parse} {t : Tm} {state : State} {sep : Char}
    {w n : ℕ} {rest : CStr} (k : ℕ) (hswitch : switchState s = s.goTo t state)
    (hstate : state ≠ .tenThousandth) (hpEnd : s.pEnd = sep :: (zeroPadded w n ++ rest))
    (hrest : ∀ c ∈ rest.head?, ¬ c.isDigit) (hn : n < 2 ^ 31) :
    parseLoop strTt (k + 1) s = parseLoop strTt k ⟨state, n, rest, { s.tmt with t := t }⟩ :=
  parseLoop_goTo _ k hswitch (readNumber_zeroPadded hstate hpEnd hrest hn)

/-- The time of the day. -/
theorem parseLoop_hour (strTt : CStr) (t : Tm) {hour min sec d : ℕ} (hmin : min < 10 ^ 2)
    (hsec : sec < 10 ^ 2) (hd : d < 10 ^ 4) :
    parseLoop strTt 6 ⟨.hour, hour, ':' :: (zeroPadded 2 min ++ ':' :: (zeroPadded 2 sec ++
        '.' :: zeroPadded 4 d)), ⟨t, 0⟩⟩ =
      .ok ⟨{ t with hour := hour, min := min, sec := sec }, d⟩ := by
  rw [parseLoop_number (t := { t with hour := hour }) 5 rfl (by decide) rfl
      (not_isDigit_cons (by decide) _) (by omega),
    parseLoop_number (t := { t with hour := hour, min := min }) 4 rfl (by decide) rfl
      (not_isDigit_cons (by decide) _) (by omega),
    parseLoop_goTo ⟨.tenThousandth, sec, '.' :: zeroPadded 4 d,
      ⟨{ t with hour := hour, min := min, sec := sec }, 0⟩⟩ 3 rfl
      (readNumber_tenThousandth rfl rfl hd),
    parseLoop_finish ⟨.tenThousandth, d, [],
      ⟨{ t with hour := hour, min := min, sec := sec }, d % 2 ^ 32⟩⟩ 2 rfl,
    Int.emod_eq_of_lt (by omega) (by omega)]

theorem length_dateText {year yday hour min sec d : ℕ} (hyear : year < 10 ^ 4)
    (hyday : yday < 10 ^ 3) (hhour : hour < 10 ^ 2) (hmin : min < 10 ^ 2) (hsec : sec < 10 ^ 2)
    (hd : d < 10 ^ 4) : (dateText year yday hour min sec d).length = 22 := by
  unfold dateText
  simp only [List.length_append, List.length_cons, length_zeroPadded (by decide) hyear,
    length_zeroPadded (by decide) hyday, length_zeroPadded (by decide) hhour,
    length_zeroPadded (by decide) hmin, length_zeroPadded (by decide) hsec,
    length_zeroPadded (by decide) hd]

/-- **What the text of a date is parsed to.** -/
theorem parseDate_dateText (strTt : CStr) (tmNow : Tm) {year yday hour min sec d : ℕ}
    (hyear : year < 10 ^ 4) (hyday : yday < 10 ^ 3) (hhour : hour < 10 ^ 2) (hmin : min < 10 ^ 2)
    (hsec : sec < 10 ^ 2) (hd : d < 10 ^ 4) :
    nmxpDataParseDate 0 strTt tmNow (dateText year yday hour min sec d) =
      (monthLoop (monthDays (year - 1900)) 0 0 yday).elim (.error .beyondTable) fun r =>
        .ok ⟨⟨sec, min, hour, r.2, r.1, year - 1900, yday - 1⟩, d⟩ := by
  unfold nmxpDataParseDate
  rw [if_neg (by rw [length_dateText hyear hyday hhour hmin hsec hd]; decide)]
  unfold dateText
  rw [← List.nil_append (zeroPadded 4 year ++ _), strtol_zeroPadded [] 4 year (by simp)
    (not_isDigit_cons (by decide) _) (by omega)]
  dsimp only
  rw [if_neg (by simp [EINVAL, ERANGE]), toInt32_natCast (by omega),
    show numStates = 7 + 1 from rfl,
    parseLoop_number (t := { tmNow with sec := 0, min := 0, hour := 0, year := year - 1900 }) 7
      rfl (by decide) rfl (not_isDigit_cons (by decide) _) (by omega)]
  cases hloop : monthLoop (monthDays (year - 1900)) 0 0 yday with
  | none => exact parseLoop_error 6 (switchState_beyondTable rfl hloop)
  | some r =>
    rw [parseLoop_number 6 (switchState_julianDay rfl hloop rfl) (by decide) rfl
      (not_isDigit_cons (by decide) _) (by omega)]
    exact parseLoop_hour strTt _ hmin hsec hd

/-! ### The month and the day -/

theorem monthDays_eq (yr : ℤ) : monthDays yr = monthLengths (NMXP_DATA_IS_LEAP yr) := rfl

/-- The loop stops at the month that the day is in, or the day is beyond the table. -/
theorem monthLoop_spec (l : List ℤ) : ∀ (m daySum jday : ℤ), daySum < jday →
    (monthLoop l m daySum jday).elim (daySum + l.sum < jday) fun r =>
      ∃ k < l.length, r = (m + k, jday - (daySum + (l.take k).sum)) ∧
        daySum + (l.take k).sum < jday ∧ jday ≤ daySum + (l.take (k + 1)).sum := by
  induction l with
  | nil =>
    intro m daySum jday h
    show daySum + 0 < jday
    omega
  | cons days l ih =>
    intro m daySum jday h
    unfold monthLoop
    split_ifs with hdays
    · have hrest := ih (m + 1) (daySum + days) jday (by omega)
      cases hloop : monthLoop l (m + 1) (daySum + days) jday with
      | none =>
        rw [hloop] at hrest
        rw [Option.elim_none] at hrest ⊢
        rw [List.sum_cons]
        omega
      | some r =>
        rw [hloop] at hrest
        obtain ⟨k, hk, hr, h1, h2⟩ := hrest
        refine ⟨k + 1, Nat.succ_lt_succ hk, ?_, ?_, ?_⟩
        · rw [hr, List.take_succ_cons, List.sum_cons]
          push_cast
          congr 1 <;> omega
        · rw [List.take_succ_cons, List.sum_cons]
          omega
        · rw [List.take_succ_cons, List.sum_cons]
          omega
    · refine ⟨0, Nat.succ_pos _, ?_, ?_, ?_⟩
      · simp
      · simpa using h
      · simp only [zero_add, List.take_succ_cons, List.take_zero, List.sum_cons, List.sum_nil]
        omega

/-! ### The round trip -/

/-- With `errno` 0 at entry the text of a time is parsed, and gives the time truncated to
ten-thousandths of a second. -/
def RoundTrips (strTt : CStr) (tmNow : Tm) (t : ℚ) : Prop :=
  ∃ tmt, nmxpDataParseDate 0 strTt tmNow (nmxpDataToStr t) = .ok tmt ∧
    nmxpDataTmToTime tmt = ⌊t * 10000⌋ / 10000

/-- The years that are divisible by 400, from the last of February on, and those a hundred years
before, from the second of March on, are left out. -/
def BeforeMisplacedDay (utc : UtcTime) : Prop :=
  ((utc.year + 1900) % 400 = 0 → utc.yday < 59) ∧ ((utc.year + 1900) % 400 = 300 → utc.yday < 60)

/-- The test for leap years is wrong in just these years. -/
theorem isLeap_iff (yr : ℤ) :
    (IsLeap (yr + 1900) ↔ NMXP_DATA_IS_LEAP yr) ↔
      (yr + 1900) % 400 ≠ 0 ∧ (yr + 1900) % 400 ≠ 300 := by
  unfold IsLeap NMXP_DATA_IS_LEAP
  omega

theorem daysFromCivil_of_lt (year mday : ℤ) {mon : ℕ} (h : mon < 12) :
    daysFromCivil year mon mday =
      daysBeforeYear year + daysBeforeMonth (IsLeap year) mon + (mday - 1) := by
  have hdiv : (mon : ℤ) / 12 = 0 := by omega
  have hmod : ((mon : ℤ) % 12).toNat = mon := by omega
  unfold daysFromCivil
  simp only [hdiv, hmod, add_zero]

/-- The month and the day that a table gives make up the day of the year again iff the month begins
with the same day in the calendar. -/
theorem daysFromCivil_table (year yday : ℤ) (leap : Prop) [Decidable leap] {mon : ℕ}
    (h : mon < 12) :
    daysFromCivil year mon (yday + 1 - daysBeforeMonth leap mon) = daysBeforeYear year + yday ↔
      daysBeforeMonth (IsLeap year) mon = daysBeforeMonth leap mon := by
  rw [daysFromCivil_of_lt _ _ h]
  omega

/-- The table is too short only for the last day of a leap year that is taken for a common one. -/
theorem monthLoop_beyond {yr yday : ℤ} (hlt : yday < yearLength (yr + 1900))
    (hsum : (monthLengths (NMXP_DATA_IS_LEAP yr)).sum < yday + 1) :
    yday = 365 ∧ (yr + 1900) % 400 = 0 := by
  rw [sum_monthLengths] at hsum
  unfold yearLength at hlt
  by_cases hyr : NMXP_DATA_IS_LEAP yr
  · rw [if_pos hyr] at hsum
    split_ifs at hlt <;> omega
  · rw [if_neg hyr] at hsum
    split_ifs at hlt with hyear
    · refine ⟨by omega, ?_⟩
      unfold IsLeap at hyear
      unfold NMXP_DATA_IS_LEAP at hyr
      omega
    · omega

/-- **The day of the year**: the month and the day found for it make up the same day again in the
years for which the test is right, and in the others in the first two months of the table. -/
theorem monthLoop_iff {yr yday : ℤ} (h0 : 0 ≤ yday) (hlt : yday < yearLength (yr + 1900)) :
    (∃ r, monthLoop (monthDays yr) 0 0 (yday + 1) = some r ∧
      daysFromCivil (yr + 1900) r.1 r.2 = daysBeforeYear (yr + 1900) + yday) ↔
    ((yr + 1900) % 400 = 0 → yday < 59) ∧ ((yr + 1900) % 400 = 300 → yday < 60) := by
  have hspec := monthLoop_spec (monthDays yr) 0 0 (yday + 1) (by omega)
  rw [monthDays_eq] at hspec ⊢
  cases hloop : monthLoop (monthLengths (NMXP_DATA_IS_LEAP yr)) 0 0 (yday + 1) with
  | none =>
    rw [hloop, Option.elim_none, zero_add] at hspec
    have hbeyond := monthLoop_beyond hlt hspec
    refine iff_of_false (by simp) fun h => ?_
    have := h.1 hbeyond.2
    omega
  | some r =>
    rw [hloop] at hspec
    obtain ⟨k, hk, rfl, h1, h2⟩ := hspec
    have hk : k < 12 := hk
    rw [zero_add] at h1 h2
    change daysBeforeMonth (NMXP_DATA_IS_LEAP yr) k < yday + 1 at h1
    change yday + 1 ≤ daysBeforeMonth (NMXP_DATA_IS_LEAP yr) (k + 1) at h2
    have hdays : (∃ r, some (0 + (k : ℤ), yday + 1 -
          (0 + ((monthLengths (NMXP_DATA_IS_LEAP yr)).take k).sum)) = some r ∧
        daysFromCivil (yr + 1900) r.1 r.2 = daysBeforeYear (yr + 1900) + yday) ↔
        (IsLeap (yr + 1900) ↔ NMXP_DATA_IS_LEAP yr) ∨ k ≤ 1 := by
      rw [zero_add, zero_add, ← daysBeforeMonth_leap _ _ hk, ← daysFromCivil_table _ yday _ hk]
      constructor
      · rintro ⟨r, hr, h⟩
        obtain rfl := Option.some.inj hr
        exact h
      · exact fun h => ⟨_, rfl, h⟩
    obtain ⟨hfeb1, hfeb2⟩ := daysBeforeMonth_february (NMXP_DATA_IS_LEAP yr) hk
    rw [hdays, isLeap_iff]
    by_cases hk1 : k ≤ 1
    · have hfeb := hfeb1 hk1
      refine iff_of_true (Or.inr hk1) ?_
      split_ifs at hfeb with hyr <;> unfold NMXP_DATA_IS_LEAP at hyr <;> omega
    · have hfeb := hfeb2 (by omega)
      split_ifs at hfeb with hyr <;> unfold NMXP_DATA_IS_LEAP at hyr <;> omega

/-- What `gmtime_r` gives. -/
structure GmtimeOK (time : ℤ) (utc : UtcTime) : Prop where
  year : 70 ≤ utc.year
  yday : 0 ≤ utc.yday ∧ utc.yday < yearLength (utc.year + 1900)
  hour : 0 ≤ utc.hour ∧ utc.hour < 24
  min : 0 ≤ utc.min ∧ utc.min < 60
  sec : 0 ≤ utc.sec ∧ utc.sec < 60
  time : time = (daysBeforeYear (utc.year + 1900) + utc.yday) * 86400 + utc.hour * 3600 +
    utc.min * 60 + utc.sec

theorem gmtimeR_ok (time : ℤ) (h : 0 ≤ time) : GmtimeOK time (gmtimeR time) := by
  obtain ⟨h1, h2, h3, h4⟩ := splitYear_spec (time / 86400).toNat 1970 (time / 86400)
    (by omega) (by omega)
  have hsub : (gmtimeR time).year + 1900 =
      (splitYear (time / 86400).toNat 1970 (time / 86400)).1 := Int.sub_add_cancel ..
  have h1970 : daysBeforeYear 1970 = 0 := by decide
  have hhour : (gmtimeR time).hour = time % 86400 / 3600 := rfl
  have hmin : (gmtimeR time).min = time % 3600 / 60 := rfl
  have hsec : (gmtimeR time).sec = time % 60 := rfl
  refine ⟨by omega, ?_, by omega, by omega, by omega, ?_⟩
  · rw [hsub]
    exact ⟨h2, h3⟩
  · rw [hsub, show (gmtimeR time).yday =
      (splitYear (time / 86400).toNat 1970 (time / 86400)).2 from rfl, h4]
    omega

theorem yearLength_le (year : ℤ) : yearLength year ≤ 366 := by
  unfold yearLength
  split_ifs <;> decide

/-- The time from the seconds and the fraction. -/
theorem add_fraction_eq_iff {t : ℚ} {v : ℤ} :
    (v : ℚ) + (⌊(t - ⌊t⌋) * 10000⌋ : ℤ) / 10000 = (⌊t * 10000⌋ : ℤ) / 10000 ↔ v = ⌊t⌋ := by
  have hfloor : ⌊t * 10000⌋ = ⌊t⌋ * 10000 + ⌊(t - ⌊t⌋) * 10000⌋ := by
    rw [← Int.floor_intCast_add]
    congr 1
    push_cast
    ring
  rw [hfloor]
  constructor
  · intro h
    have : (v : ℚ) = ⌊t⌋ := by
      push_cast at h
      linarith
    exact_mod_cast this
  · rintro rfl
    push_cast
    ring

/-- **Dates.** A time of one second after the epoch or later, in a year with four digits, is read
back exactly unless its day is misplaced. -/
theorem date_iff (strTt : CStr) (tmNow : Tm) (t : ℚ) (ht : 1 ≤ t)
    (hyear : (gmtimeR ⌊t⌋).year + 1900 ≤ 9999) :
    RoundTrips strTt tmNow t ↔ BeforeMisplacedDay (gmtimeR ⌊t⌋) := by
  have hfloor : 1 ≤ ⌊t⌋ := Int.le_floor.mpr (by exact_mod_cast ht)
  obtain ⟨h1, h2, h3, h4, h5, htime⟩ := gmtimeR_ok ⌊t⌋ (by omega)
  have hd : 0 ≤ ⌊(t - ⌊t⌋) * 10000⌋ ∧ ⌊(t - ⌊t⌋) * 10000⌋ < 10000 := by
    have hge := Int.floor_le t
    have hlt := Int.lt_floor_add_one t
    refine ⟨Int.floor_nonneg.mpr (by linarith), Int.floor_lt.mpr ?_⟩
    push_cast
    linarith
  have hlen := yearLength_le ((gmtimeR ⌊t⌋).year + 1900)
  have hstr : nmxpDataToStr t = dateText ((gmtimeR ⌊t⌋).year + 1900).toNat
      ((gmtimeR ⌊t⌋).yday + 1).toNat (gmtimeR ⌊t⌋).hour.toNat (gmtimeR ⌊t⌋).min.toNat
      (gmtimeR ⌊t⌋).sec.toNat ⌊(t - ⌊t⌋) * 10000⌋.toNat := by
    unfold nmxpDataToStr
    rw [if_pos (by linarith)]
    dsimp only
    rw [if_neg (by omega)]
    refine List.take_of_length_le ?_
    rw [length_dateText (by omega) (by omega) (by omega) (by omega) (by omega) (by omega)]
    decide
  rw [show BeforeMisplacedDay (gmtimeR ⌊t⌋) ↔ _ from (monthLoop_iff h2.1 h2.2).symm]
  unfold RoundTrips
  rw [hstr, parseDate_dateText strTt tmNow (by omega) (by omega) (by omega) (by omega) (by omega)
    (by omega), Int.toNat_of_nonneg (by omega), Int.toNat_of_nonneg (by omega),
    Int.toNat_of_nonneg h3.1, Int.toNat_of_nonneg h4.1, Int.toNat_of_nonneg h5.1,
    Int.toNat_of_nonneg hd.1, Int.add_sub_cancel, Int.add_sub_cancel]
  generalize gmtimeR ⌊t⌋ = utc at *
  cases monthLoop (monthDays utc.year) 0 0 (utc.yday + 1) with
  | none => exact iff_of_false (by simp) (by simp)
  | some r =>
    simp only [Option.elim_some, Except.ok.injEq, exists_eq_left', Option.some.injEq]
    unfold nmxpDataTmToTime
    rw [add_fraction_eq_iff]
    unfold timegm
    dsimp only
    omega

/-- Any present time. -/
def someTm : Tm := ⟨0, 0, 0, 1, 0, 70, 0⟩

/-- The last second of the year 2024. -/
theorem date_iff_2024 :
    (1 ≤ (17356895999999 / 10000 : ℚ) ∧
      (gmtimeR ⌊(17356895999999 / 10000 : ℚ)⌋).year + 1900 ≤ 9999) ∧
    BeforeMisplacedDay (gmtimeR ⌊(17356895999999 / 10000 : ℚ)⌋) ∧
    RoundTrips [] someTm (17356895999999 / 10000) := by
  have h1 : 1 ≤ (17356895999999 / 10000 : ℚ) := by norm_num
  have h2 : (gmtimeR ⌊(17356895999999 / 10000 : ℚ)⌋).year + 1900 ≤ 9999 := by decide +kernel
  have h3 : BeforeMisplacedDay (gmtimeR ⌊(17356895999999 / 10000 : ℚ)⌋) :=
    ⟨by decide +kernel, by decide +kernel⟩
  exact ⟨⟨h1, h2⟩, h3, (date_iff [] someTm (17356895999999 / 10000) h1 h2).mpr h3⟩

/-- The 29th of February 2000 is read back as the first of March. -/
theorem date_2000 :
    (1 ≤ (951782400 : ℚ) ∧ (gmtimeR ⌊(951782400 : ℚ)⌋).year + 1900 ≤ 9999) ∧
    nmxpDataToStr 951782400 = "2000.060,00:00:00.0000".toList ∧
    ¬ RoundTrips [] someTm 951782400 := by
  refine ⟨by decide +kernel, by decide +kernel, ?_⟩
  rintro ⟨tmt, hparse, htime⟩
  have hmarch : nmxpDataParseDate 0 [] someTm (nmxpDataToStr 951782400) =
      .ok ⟨⟨0, 0, 0, 1, 2, 100, 59⟩, 0⟩ := by decide +kernel
  rw [hmarch] at hparse
  rw [← Except.ok.inj hparse] at htime
  exact absurd htime (by decide +kernel)

end Nmxptool.Data.Date
