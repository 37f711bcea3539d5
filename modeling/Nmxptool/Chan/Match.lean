import Mathlib.Data.List.Forall2
import Nmxptool.Chan.Channels

/-! # Matching a channel name against a pattern

`nmxp_chan_match` checks a pattern NET.STA.CHA.LOC, cuts the name at its first period, and compares
the two parts with the station and channel codes of the pattern.

* `nmxpChanMatch_eq_one`: it returns `1` iff the pattern is valid and `Covers` the name.
* `nmxpChanMatch_eq_neg_one`: it returns `-1` iff the pattern is not valid or the name is
  `Malformed`, whatever the pattern. -/

namespace Nmxptool.Chan.Match

open Nmxptool.Data.Process Nmxptool.Chan.Channels

/-- The size of `name` in `NMXP_CHAN_KEY`. -/
def NMXP_CHAN_KEY_NAME_SIZE : ℕ := 12

/-- `NMXP_CHAN_KEY`: a channel of the server, its name NUL-terminated in its array. -/
structure NmxpChanKey where
  key : Int32
  name : CStr
  name_lt : name.length < NMXP_CHAN_KEY_NAME_SIZE
  deriving DecidableEq

/-- `NMXP_CHAN_LIST`. -/
structure NmxpChanList where
  channel : List NmxpChanKey

/-- The field `number`. -/
def NmxpChanList.number (l : NmxpChanList) : ℕ := l.channel.length

/-- `NMXP_DATATYPE`. -/
inductive NmxpDatatype
  | timeseries
  | soh
  | transerial
  deriving DecidableEq

/-- The number that stands for a data type in a key. -/
def NmxpDatatype.number : NmxpDatatype → Int32
  | timeseries => 1
  | soh => 2
  | transerial => 6

def getDataTypeFromKey (key : Int32) : Int32 := (key >>> 8) &&& 0xff

/-! ### The matcher -/

/-- The name up to its first period and behind it, if it has one (`strchr`, then a terminator
written over the period). -/
def cutAtPeriod : CStr → Option (CStr × CStr)
  | [] => none
  | c :: s => if c = '.' then some ([], s) else (cutAtPeriod s).map fun r => (c :: r.1, r.2)

/-- `strcasecmp(s, t) == 0`. -/
def strcasecmpEq (s t : CStr) : Bool := s.map Char.toLower == t.map Char.toLower

def isLocChar (c : Char) : Bool := c.isAlphanum || c == '-'

def isNetChar (c : Char) : Bool := c.isAlphanum

def isStaChar (c : Char) : Bool := c.isAlphanum || c == '_'

def isChaChar (c : Char) : Bool := c.isAlpha || c == '_' || c == '?'

/-- The comparison of the three characters of a channel code. -/
def chaMatch (chaPattern chaSdc : CStr) : Bool :=
  (chaPattern.zip chaSdc).all fun r => r.1 == '?' || r.1 == r.2

/-- The codes of a pattern. -/
def codes (pattern : CStr) : StaChanCodes := (nmxpChanCpyStaChan pattern).2

/-- `nmxp_chan_match`. -/
def nmxpChanMatch (netDotStationDotChannel pattern : CStr) : ℤ :=
  if (nmxpChanCpyStaChan pattern).1 = false then -1
  else if (codes pattern).location.all isLocChar = false then -1
  else if (codes pattern).network.all isNetChar = false then -1
  else if (codes pattern).station ≠ ['*'] ∧ (codes pattern).station.all isStaChar = false then -1
  else if (codes pattern).channel.length ≠ 3 then -1
  else if (codes pattern).channel.all isChaChar = false then -1
  else match cutAtPeriod (strncpy netDotStationDotChannel NMXP_CHAN_MAX_SIZE_STR_PATTERN) with
    | none => -2
    | some (staSdc, chaSdc) =>
      if chaSdc.length ≠ 3 then -1
      else if strcasecmpEq staSdc (codes pattern).station ∨ (codes pattern).station = ['*'] then
        if chaMatch (codes pattern).channel chaSdc then 1 else 0
      else 0

/-! ### What it decides -/

/-- **The patterns that pass the checks.** -/
structure ValidPattern (pattern : CStr) : Prop where
  form : (nmxpChanCpyStaChan pattern).1 = true
  location : (codes pattern).location.all isLocChar = true
  network : (codes pattern).network.all isNetChar = true
  station : (codes pattern).station = ['*'] ∨ (codes pattern).station.all isStaChar = true
  channel_length : (codes pattern).channel.length = 3
  channel : (codes pattern).channel.all isChaChar = true

instance (pattern : CStr) : Decidable (ValidPattern pattern) :=
  decidable_of_iff ((nmxpChanCpyStaChan pattern).1 = true ∧
      (codes pattern).location.all isLocChar = true ∧
      (codes pattern).network.all isNetChar = true ∧
      ((codes pattern).station = ['*'] ∨ (codes pattern).station.all isStaChar = true) ∧
      (codes pattern).channel.length = 3 ∧ (codes pattern).channel.all isChaChar = true)
    ⟨fun ⟨h1, h2, h3, h4, h5, h6⟩ => ⟨h1, h2, h3, h4, h5, h6⟩,
      fun ⟨h1, h2, h3, h4, h5, h6⟩ => ⟨h1, h2, h3, h4, h5, h6⟩⟩

/-- `name` is STA.CHA: the first period stands between `sta` and `cha`. -/
def SplitsAs (name sta cha : CStr) : Prop := name = sta ++ '.' :: cha ∧ '.' ∉ sta

/-- **A pattern covers a name** STA.CHA: the station is `*` or the same but for case, and each of
the three channel characters is `?` or the same. Network and location play no part. -/
def Covers (pattern name : CStr) : Prop :=
  ∃ sta cha, SplitsAs name sta cha ∧ cha.length = 3 ∧
    ((codes pattern).station = ['*'] ∨ sta.map Char.toLower =
      (codes pattern).station.map Char.toLower) ∧
    List.Forall₂ (fun p c => p = '?' ∨ p = c) (codes pattern).channel cha

/-- A name with a period, and not three characters behind the first one. -/
def malformed (name : CStr) : Bool :=
  match cutAtPeriod name with
  | none => false
  | some r => r.2.length != 3

theorem cutAtPeriod_eq_some {name sta cha : CStr} :
    cutAtPeriod name = some (sta, cha) ↔ SplitsAs name sta cha := by
  induction name generalizing sta with
  | nil => simp [cutAtPeriod, SplitsAs]
  | cons c s ih =>
    unfold cutAtPeriod
    by_cases hc : c = '.'
    · rw [if_pos hc]
      constructor
      · rintro h
        cases h
        exact ⟨by rw [hc]; rfl, by simp⟩
      · rintro ⟨h1, h2⟩
        cases sta with
        | nil => rw [(List.cons.inj h1).2]
        | cons a sta => exact absurd (by rw [← (List.cons.inj h1).1, hc]; simp) h2
    · rw [if_neg hc, Option.map_eq_some_iff]
      constructor
      · rintro ⟨⟨sta', cha'⟩, h, heq⟩
        cases heq
        obtain ⟨h1, h2⟩ := ih.mp h
        refine ⟨by rw [h1]; rfl, ?_⟩
        rintro hm
        rcases List.mem_cons.mp hm with h | h
        · exact hc h.symm
        · exact h2 h
      · rintro ⟨h1, h2⟩
        cases sta with
        | nil => exact absurd (List.cons.inj h1).1 hc
        | cons a sta =>
          obtain ⟨rfl, hs⟩ := List.cons.inj h1
          exact ⟨(sta, cha), ih.mpr ⟨hs, fun h => h2 (List.mem_cons_of_mem _ h)⟩, rfl⟩

theorem chaMatch_iff {p c : CStr} (h : p.length = c.length) :
    chaMatch p c = true ↔ List.Forall₂ (fun p c => p = '?' ∨ p = c) p c := by
  rw [List.forall₂_iff_zip]
  simp [chaMatch, h]

/-- A valid pattern is compared with the name. -/
theorem nmxpChanMatch_of_valid {name pattern : CStr} (hv : ValidPattern pattern) :
    nmxpChanMatch name pattern =
      match cutAtPeriod (strncpy name NMXP_CHAN_MAX_SIZE_STR_PATTERN) with
      | none => -2
      | some (staSdc, chaSdc) =>
        if chaSdc.length ≠ 3 then -1
        else if strcasecmpEq staSdc (codes pattern).station ∨ (codes pattern).station = ['*'] then
          if chaMatch (codes pattern).channel chaSdc then 1 else 0
        else 0 := by
  have hsta : ¬ ((codes pattern).station ≠ ['*'] ∧
      (codes pattern).station.all isStaChar = false) := by
    rintro ⟨h1, h2⟩
    exact hv.station.elim h1 (fun h => by rw [h] at h2; exact Bool.noConfusion h2)
  unfold nmxpChanMatch
  rw [if_neg (ne_false_of_eq_true hv.form), if_neg (ne_false_of_eq_true hv.location),
    if_neg (ne_false_of_eq_true hv.network), if_neg hsta,
    if_neg (not_not_intro hv.channel_length), if_neg (ne_false_of_eq_true hv.channel)]

/-- A pattern that is not valid is refused. -/
theorem nmxpChanMatch_of_not_valid {name pattern : CStr} (hv : ¬ ValidPattern pattern) :
    nmxpChanMatch name pattern = -1 := by
  by_contra hne
  unfold nmxpChanMatch at hne
  -- a value other than `-1` needs every check to be passed
  obtain ⟨h1, hne⟩ := ite_ne_left_iff.mp hne
  obtain ⟨h2, hne⟩ := ite_ne_left_iff.mp hne.symm
  obtain ⟨h3, hne⟩ := ite_ne_left_iff.mp hne.symm
  obtain ⟨h4, hne⟩ := ite_ne_left_iff.mp hne.symm
  obtain ⟨h5, hne⟩ := ite_ne_left_iff.mp hne.symm
  obtain ⟨h6, -⟩ := ite_ne_left_iff.mp hne.symm
  rw [Bool.not_eq_false] at h1 h2 h3 h6
  rw [not_not] at h5
  refine hv ⟨h1, h2, h3, ?_, h5, h6⟩
  by_cases hs : (codes pattern).station = ['*']
  · exact Or.inl hs
  · exact Or.inr (by rw [← Bool.not_eq_false]; exact fun h => h4 ⟨hs, h⟩)

section Ours
variable {name : CStr} (hname : name.length < NMXP_CHAN_KEY_NAME_SIZE)
include hname

/-- A name of the server list fits the matcher's array. -/
theorem strncpy_name : strncpy name NMXP_CHAN_MAX_SIZE_STR_PATTERN = name :=
  List.take_of_length_le (by
    unfold NMXP_CHAN_MAX_SIZE_STR_PATTERN; unfold NMXP_CHAN_KEY_NAME_SIZE at hname; omega)

/-- **`1` means that a valid pattern covers the name.** -/
theorem nmxpChanMatch_eq_one {pattern : CStr} :
    nmxpChanMatch name pattern = 1 ↔ ValidPattern pattern ∧ Covers pattern name := by
  by_cases hv : ValidPattern pattern
  swap
  · rw [nmxpChanMatch_of_not_valid hv]
    simp [hv]
  rw [nmxpChanMatch_of_valid hv, strncpy_name hname]
  constructor
  · intro h
    cases hcut : cutAtPeriod name with
    | none => rw [hcut] at h; exact absurd h (by norm_num)
    | some r =>
      obtain ⟨sta, cha⟩ := r
      rw [hcut] at h
      dsimp only at h
      split_ifs at h with h1 h2 h3
      · rw [not_not] at h1
        refine ⟨hv, sta, cha, cutAtPeriod_eq_some.mp hcut, h1, ?_,
          (chaMatch_iff (by rw [hv.channel_length, h1])).mp h3⟩
        exact h2.symm.imp id (fun h => by simpa [strcasecmpEq] using h)
      all_goals exact absurd h (by norm_num)
  · rintro ⟨-, sta, cha, hs, h1, h2, h3⟩
    rw [cutAtPeriod_eq_some.mpr hs]
    dsimp only
    have hsta : strcasecmpEq sta (codes pattern).station = true ∨ (codes pattern).station = ['*'] :=
      h2.symm.imp (fun h => by simpa [strcasecmpEq] using h) id
    rw [if_neg (by rw [not_not]; exact h1), if_pos hsta,
      if_pos ((chaMatch_iff (by rw [hv.channel_length, h1])).mpr h3)]

/-- **`-1` also means that the name is malformed**, not only that the pattern is not valid. -/
theorem nmxpChanMatch_eq_neg_one {pattern : CStr} :
    nmxpChanMatch name pattern = -1 ↔ ¬ ValidPattern pattern ∨ malformed name = true := by
  by_cases hv : ValidPattern pattern
  swap
  · rw [nmxpChanMatch_of_not_valid hv]
    simp [hv]
  rw [nmxpChanMatch_of_valid hv, strncpy_name hname]
  unfold malformed
  cases hcut : cutAtPeriod name with
  | none => simp [hv]
  | some r =>
    obtain ⟨sta, cha⟩ := r
    dsimp only
    by_cases hl : cha.length = 3
    · rw [if_neg (by rw [not_not]; exact hl)]
      simp only [hv, hl, not_true_eq_false, bne_self_eq_false, Bool.false_eq_true, or_self,
        iff_false]
      split_ifs
      all_goals norm_num
    · simp [hl]

end Ours

/-- A covered name is not malformed. -/
theorem Covers.not_malformed {pattern name : CStr} (h : Covers pattern name) :
    malformed name = false := by
  obtain ⟨sta, cha, hs, hl, -⟩ := h
  unfold malformed
  rw [cutAtPeriod_eq_some.mpr hs]
  simp [hl]

end Nmxptool.Chan.Match
