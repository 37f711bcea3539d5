import Mathlib.Data.List.TakeWhile
import Nmxptool.Chan.Subset
import Nmxptool.Lib.Fields
import Nmxptool.Lib.Lines

/-! # The channel list of a state file

With a state file the list of channels is made of the patterns in that file, one in a line:
`get_channel_list_argument_from_state_file` joins them with commas, and `nmxp_chan_subset` takes
them apart again.

* `lineWord`: the pattern of a line.
* `insertLine_eq`: what is done with a line.
* `stateFile_iff`: for which files the list is that of the patterns. -/

namespace Nmxptool.Chan.StateFile

open Nmxptool.Data.Process Nmxptool.Chan.Subset Nmxptool.Lib.Fields Nmxptool.Lib.Lines

def MAXSIZE_LINE_CHAN_STATE : ℕ := 2048
def MAXSIZECHANNELSTRINGARGUMENT : ℕ := 8000
def MAXSIZE_CHANNEL_STRING : ℕ := 64

def NUL : Char := Char.ofNat 0
def LF : Char := Char.ofNat 10
def CR : Char := Char.ofNat 13

def isBlank (c : Char) : Bool := c = ' ' || c = '\t'

/-! ### The function -/

/-- *Eat any white spaces and tabs at the beginning*: `k`, and the line from there on. -/
def eatBlanks (k : ℕ) : CStr → ℕ × CStr
  | [] => (k, [])
  | c :: line =>
    if isBlank c ∧ k < MAXSIZE_CHANNEL_STRING then eatBlanks (k + 1) line else (k, c :: line)

/-- *Copy any character up to the end of the line or # character*: what is written into
`str_chan`. -/
def copyChan (k : ℕ) : CStr → CStr
  | [] => []
  | c :: line =>
    if c ≠ '#' ∧ c ≠ LF ∧ c ≠ CR ∧ k < MAXSIZE_CHANNEL_STRING then c :: copyChan (k + 1) line
    else []

/-- *Remove possible white spaces and tabs from the end*: every one of them becomes a NUL, except
at index 0; the string ends at the first. -/
def removeBlanks : CStr → CStr
  | [] => []
  | c :: strChan => (c :: strChan.map fun c => if isBlank c then NUL else c).takeWhile (· ≠ NUL)

/-- `strncat` into an array of `size` characters; `none` is a write outside. -/
def strncat (size : ℕ) (dst src : CStr) (n : ℕ) : Option CStr :=
  if (dst ++ src.take n).length < size then some (dst ++ src.take n) else none

/-- `str_chan` is put behind the list. -/
def appendChannel (ret strChan : CStr) : Option CStr :=
  if ret = [] then some (strncpy strChan MAXSIZECHANNELSTRINGARGUMENT)
  else do
    let ret ← strncat MAXSIZECHANNELSTRINGARGUMENT ret [sepChanList]
      (MAXSIZECHANNELSTRINGARGUMENT - ret.length)
    strncat MAXSIZECHANNELSTRINGARGUMENT ret strChan (MAXSIZECHANNELSTRINGARGUMENT - ret.length)

/-- The body of the loop over the lines. -/
def insertLine (ret : CStr) (line : List Char) : Option CStr :=
  let (k, rest) := eatBlanks 0 (line.takeWhile (· ≠ NUL))
  let strChan := copyChan k rest
  -- `str_chan[c] = 0`
  if strChan.length < MAXSIZE_CHANNEL_STRING then
    let strChan := removeBlanks strChan
    if strChan.any (· ≠ ' ') then appendChannel ret strChan else some ret
  else none

/-- `get_channel_list_argument_from_state_file`, with the contents of the file if it can be opened.
The result is a string or NULL, or `none` for a write outside an array. -/
def getChannelListArgumentFromStateFile : Option (List Char) → Option (Option CStr)
  | none => some none
  | some file => ((fgetsLines LF MAXSIZE_LINE_CHAN_STATE [] file).foldlM insertLine []).map some

/-! ### The patterns of a file -/

def isText (c : Char) : Bool := c ≠ '#' && c ≠ LF && c ≠ CR

/-- A line up to a `#` or its end; a carriage return and a NUL end it too. -/
def lineText (line : List Char) : CStr := (line.takeWhile (· ≠ NUL)).takeWhile isText

/-- The blanks in front. -/
def blanks (line : List Char) : ℕ := ((lineText line).takeWhile isBlank).length

/-- The text behind these. -/
def body (line : List Char) : CStr := (lineText line).dropWhile isBlank

/-- **The pattern of a line**: the first word, delimited by blanks, before a `#`. -/
def lineWord (line : List Char) : CStr := (body line).takeWhile fun c => !isBlank c

/-- **The patterns of a file.** -/
def patterns (file : List Char) : List CStr := ((file.splitOn LF).map lineWord).filter (· ≠ [])

/-! ### One line -/

theorem eatBlanks_eq (line : CStr) : ∀ {k : ℕ}, k ≤ MAXSIZE_CHANNEL_STRING →
    eatBlanks k line = (min (k + (line.takeWhile isBlank).length) MAXSIZE_CHANNEL_STRING,
      line.drop (min (line.takeWhile isBlank).length (MAXSIZE_CHANNEL_STRING - k))) := by
  induction line with
  | nil => intro k hk; simp [eatBlanks, hk]
  | cons c line ih =>
    intro k hk
    rw [eatBlanks]
    split_ifs with h
    · obtain ⟨hc, hlt⟩ := h
      rw [ih hlt, List.takeWhile_cons_of_pos hc, List.length_cons,
        show min ((line.takeWhile isBlank).length + 1) (MAXSIZE_CHANNEL_STRING - k) =
          min (line.takeWhile isBlank).length (MAXSIZE_CHANNEL_STRING - (k + 1)) + 1 by omega,
        List.drop_succ_cons]
      congr 2
      omega
    · have hzero :
          (List.takeWhile isBlank (c :: line)).length = 0 ∨ MAXSIZE_CHANNEL_STRING = k := by
        by_cases hc : isBlank c
        · exact Or.inr (by have := not_and.mp h hc; omega)
        · exact Or.inl (by rw [List.takeWhile_cons_of_neg hc]; rfl)
      rcases hzero with hzero | rfl
      · rw [hzero]
        simp [hk]
      · simp

theorem copyChan_eq (line : CStr) : ∀ k : ℕ, copyChan k line =
    (line.takeWhile isText).take (MAXSIZE_CHANNEL_STRING - k) := by
  induction line with
  | nil => intro k; simp [copyChan]
  | cons c line ih =>
    intro k
    rw [copyChan]
    split_ifs with h
    · obtain ⟨h1, h2, h3, hlt⟩ := h
      rw [List.takeWhile_cons_of_pos (by simp [isText, h1, h2, h3]), ih,
        show MAXSIZE_CHANNEL_STRING - k = MAXSIZE_CHANNEL_STRING - (k + 1) + 1 by omega,
        List.take_succ_cons]
    · by_cases hlt : k < MAXSIZE_CHANNEL_STRING
      · rw [List.takeWhile_cons_of_neg (by simp [isText]; tauto), List.take_nil]
      · rw [Nat.sub_eq_zero_of_le (not_lt.mp hlt), List.take_zero]

/-- What is dropped in front of a longer text. -/
theorem dropWhile_takeWhile {p q : Char → Bool} (h : ∀ c, p c → q c) (l : CStr) :
    (l.takeWhile q).dropWhile p = (l.dropWhile p).takeWhile q := by
  induction l with
  | nil => rfl
  | cons c l ih =>
    by_cases hp : p c
    · rw [List.takeWhile_cons_of_pos (h c hp), List.dropWhile_cons_of_pos hp,
        List.dropWhile_cons_of_pos hp, ih]
    · rw [List.dropWhile_cons_of_neg hp]
      by_cases hq : q c
      · rw [List.takeWhile_cons_of_pos hq, List.dropWhile_cons_of_neg hp]
      · rw [List.takeWhile_cons_of_neg hq, List.dropWhile_nil]

/-- A blank does not end a line. -/
theorem isText_of_isBlank {c : Char} (h : isBlank c) : isText c := by
  simp only [isBlank, Bool.or_eq_true, decide_eq_true_eq] at h
  rcases h with rfl | rfl <;> decide

/-- **What is copied** is the text behind the blanks, as far as `k` lets it. -/
theorem copyChan_eatBlanks (line : List Char) :
    copyChan (eatBlanks 0 (line.takeWhile (· ≠ NUL))).1
        (eatBlanks 0 (line.takeWhile (· ≠ NUL))).2 =
      (body line).take (MAXSIZE_CHANNEL_STRING - blanks line) := by
  have htext : lineText line = (line.takeWhile (· ≠ NUL)).takeWhile isText := rfl
  generalize line.takeWhile (· ≠ NUL) = text at htext ⊢
  have hblanks : blanks line = (text.takeWhile isBlank).length := by
    rw [blanks, htext, List.takeWhile_takeWhile]
    congr 2
    funext c
    by_cases hc : isBlank c
    · simp [hc, isText_of_isBlank hc]
    · simp [hc]
  rw [eatBlanks_eq text (Nat.zero_le _), copyChan_eq, body, htext,
    dropWhile_takeWhile (fun _ => isText_of_isBlank), hblanks]
  by_cases hle : (text.takeWhile isBlank).length ≤ MAXSIZE_CHANNEL_STRING
  · rw [Nat.zero_add, Nat.sub_zero, min_eq_left hle, drop_takeWhile_length]
  · have hzero : MAXSIZE_CHANNEL_STRING - (text.takeWhile isBlank).length = 0 := by omega
    rw [Nat.zero_add, min_eq_right (by omega), Nat.sub_self, hzero, List.take_zero, List.take_zero]

/-- The text behind the blanks does not begin with one, and has no NUL. -/
theorem body_spec (line : List Char) :
    (∀ c ∈ (body line).head?, isBlank c = false) ∧ NUL ∉ body line := by
  constructor
  · intro c hc
    have hnot := List.head?_dropWhile_not isBlank (lineText line)
    rw [body] at hc
    rw [Option.mem_def.mp hc] at hnot
    simpa using hnot
  · intro hmem
    have htext : NUL ∈ lineText line := (List.dropWhile_sublist _).subset hmem
    have himp := List.mem_takeWhile_imp ((List.takeWhile_sublist _).subset htext)
    simp at himp

/-- Only the first word is left. -/
theorem removeBlanks_eq {strChan : CStr} (hhead : ∀ c ∈ strChan.head?, isBlank c = false)
    (hnul : NUL ∉ strChan) : removeBlanks strChan = strChan.takeWhile fun c => !isBlank c := by
  cases strChan with
  | nil => rfl
  | cons c strChan =>
    rw [List.mem_cons, not_or] at hnul
    have hc : isBlank c = false := hhead c rfl
    rw [removeBlanks, List.takeWhile_cons_of_pos (by simpa using Ne.symm hnul.1),
      List.takeWhile_cons_of_pos (by simp [hc])]
    congr 1
    have hrest := hnul.2
    clear hnul hc hhead
    induction strChan with
    | nil => rfl
    | cons d strChan ih =>
      rw [List.mem_cons, not_or] at hrest
      by_cases hd : isBlank d
      · rw [List.map_cons, if_pos hd, List.takeWhile_cons_of_neg (by simp),
          List.takeWhile_cons_of_neg (by simp [hd])]
      · rw [List.map_cons, if_neg hd, List.takeWhile_cons_of_pos (by simpa using Ne.symm hrest.1),
          List.takeWhile_cons_of_pos (by simp [hd]), ih hrest.2]

/-- The pattern of a line as far as it is copied. -/
def copied (line : List Char) : CStr :=
  (lineWord line).take (MAXSIZE_CHANNEL_STRING - blanks line)

/-- The terminator of `str_chan` is outside. -/
def Overlong (line : List Char) : Prop :=
  blanks line = 0 ∧ MAXSIZE_CHANNEL_STRING ≤ (lineText line).length

instance (line : List Char) : Decidable (Overlong line) := by unfold Overlong; infer_instance

/-- **What is done with a line.** -/
theorem insertLine_eq (ret : CStr) (line : List Char) : insertLine ret line =
    if Overlong line then none
    else if copied line = [] then some ret else appendChannel ret (copied line) := by
  obtain ⟨hhead, hnul⟩ := body_spec line
  unfold insertLine
  dsimp only
  rw [copyChan_eatBlanks]
  have hover : ((body line).take (MAXSIZE_CHANNEL_STRING - blanks line)).length <
      MAXSIZE_CHANNEL_STRING ↔ ¬ Overlong line := by
    have hbody : (lineText line).length = blanks line + (body line).length := by
      rw [blanks, body, ← List.length_append, List.takeWhile_append_dropWhile]
    have hpos : 0 < MAXSIZE_CHANNEL_STRING := by decide
    rw [List.length_take, Overlong]
    omega
  have hword : removeBlanks ((body line).take (MAXSIZE_CHANNEL_STRING - blanks line)) =
      copied line := by
    rw [removeBlanks_eq, ← List.take_takeWhile, copied, lineWord]
    · intro c hc
      refine hhead c ?_
      rw [List.head?_take] at hc
      split_ifs at hc with h
      · exact absurd hc (by simp)
      · exact hc
    · exact fun h => hnul (List.mem_of_mem_take h)
  have hany : (copied line).any (· ≠ ' ') = true ↔ copied line ≠ [] := by
    constructor
    · rintro h heq
      rw [heq] at h
      exact absurd h (by simp)
    · intro hne
      obtain ⟨c, hc⟩ := List.exists_mem_of_ne_nil _ hne
      have hblank := List.mem_takeWhile_imp (List.mem_of_mem_take hc)
      refine List.any_eq_true.mpr ⟨c, hc, ?_⟩
      rw [decide_eq_true_iff]
      rintro rfl
      exact absurd hblank (by decide)
  rw [hword]
  by_cases hlong : Overlong line
  · rw [if_neg (by rw [hover, not_not]; exact hlong), if_pos hlong]
  rw [if_pos (hover.mpr hlong), if_neg hlong]
  by_cases hnil : copied line = []
  · rw [if_neg (by rw [hany, not_not]; exact hnil), if_pos hnil]
  · rw [if_pos (hany.mpr hnil), if_neg hnil]

/-! ### The list -/

/-- The whole text is put behind the other, or its terminator is outside. -/
theorem strncat_eq {size : ℕ} {dst : CStr} (hdst : dst.length ≤ size) (src : CStr) :
    strncat size dst src (size - dst.length) =
      if (dst ++ src).length < size then some (dst ++ src) else none := by
  unfold strncat
  by_cases hfits : (dst ++ src).length < size
  · rw [List.length_append] at hfits
    rw [List.take_of_length_le (by omega)]
  · have hcut : ¬ (dst ++ src.take (size - dst.length)).length < size := by
      rw [List.length_append] at hfits
      rw [List.length_append, List.length_take]
      omega
    rw [if_neg hcut, if_neg hfits]

/-- Two texts, one behind the other. -/
theorem strncat_strncat {size : ℕ} {dst : CStr} (hdst : dst.length ≤ size) (src src' : CStr) :
    (do
      let s ← strncat size dst src (size - dst.length)
      strncat size s src' (size - s.length)) =
      if (dst ++ src ++ src').length < size then some (dst ++ src ++ src') else none := by
  rw [strncat_eq hdst]
  by_cases hfirst : (dst ++ src).length < size
  · rw [if_pos hfirst, Option.bind_eq_bind, Option.bind_some, strncat_eq hfirst.le]
  · rw [if_neg hfirst, if_neg]
    · rfl
    · rw [List.length_append]
      omega

theorem appendChannel_eq {ret strChan : CStr} (hret : ret ≠ [])
    (hlen : ret.length < MAXSIZECHANNELSTRINGARGUMENT) : appendChannel ret strChan =
    if (ret ++ sepChanList :: strChan).length < MAXSIZECHANNELSTRINGARGUMENT then
      some (ret ++ sepChanList :: strChan)
    else none := by
  have hsplit : ret ++ sepChanList :: strChan = ret ++ [sepChanList] ++ strChan := by simp
  unfold appendChannel
  rw [if_neg hret, hsplit]
  exact strncat_strncat hlen.le [sepChanList] strChan

/-- One more pattern. -/
theorem intercalate_snoc {ps : List CStr} (hps : ps ≠ []) (p : CStr) :
    [sepChanList].intercalate (ps ++ [p]) = [sepChanList].intercalate ps ++ sepChanList :: p := by
  induction ps with
  | nil => exact absurd rfl hps
  | cons q ps ih =>
    cases ps with
    | nil => simp [List.intercalate_cons_cons]
    | cons r ps =>
      rw [List.cons_append, List.cons_append, List.intercalate_cons_cons, ← List.cons_append,
        ih (List.cons_ne_nil _ _), List.intercalate_cons_cons]
      simp

/-- The list grows. -/
theorem length_intercalate_le (ps qs : List CStr) :
    ([sepChanList].intercalate ps).length ≤ ([sepChanList].intercalate (ps ++ qs)).length := by
  induction qs generalizing ps with
  | nil => simp
  | cons q qs ih =>
    have hsnoc : ([sepChanList].intercalate ps).length ≤
        ([sepChanList].intercalate (ps ++ [q])).length := by
      by_cases hps : ps = []
      · simp [hps]
      · rw [intercalate_snoc hps, List.length_append]
        omega
    have hrest := ih (ps ++ [q])
    rw [List.append_assoc, List.singleton_append] at hrest
    exact hsnoc.trans hrest

/-- The patterns of some lines, as they are copied. -/
def copies (lines : List (List Char)) : List CStr := (lines.map copied).filter (· ≠ [])

theorem copies_cons (line : List Char) (lines : List (List Char)) : copies (line :: lines) =
    (if copied line = [] then [] else [copied line]) ++ copies lines := by
  unfold copies
  rw [List.map_cons]
  by_cases h : copied line = []
  · rw [if_pos h, List.filter_cons_of_neg (by simpa using h), List.nil_append]
  · rw [if_neg h, List.filter_cons_of_pos (by simpa using h), List.singleton_append]

/-- A pattern is shorter than `str_chan`, unless its terminator is outside. -/
theorem length_copied_le (line : List Char) : (copied line).length ≤ MAXSIZE_CHANNEL_STRING := by
  rw [copied, List.length_take]
  omega

theorem intercalate_ne_nil {ps : List CStr} (hne : ps ≠ []) (hps : ∀ p ∈ ps, p ≠ []) :
    [sepChanList].intercalate ps ≠ [] := by
  obtain ⟨p, ps, rfl⟩ := List.exists_cons_of_ne_nil hne
  have hp := List.length_pos_of_ne_nil (hps p (List.mem_cons_self ..))
  have hgrow := length_intercalate_le [p] ps
  rw [List.intercalate_singleton, List.singleton_append] at hgrow
  exact List.ne_nil_of_length_pos (hp.trans_le hgrow)

/-- A pattern is put behind the list: the first one is copied, the others go behind a comma. -/
theorem appendChannel_intercalate {ps : List CStr} (hps : ∀ p ∈ ps, p ≠ [])
    (hlen : ([sepChanList].intercalate ps).length < MAXSIZECHANNELSTRINGARGUMENT)
    (line : List Char) :
    appendChannel ([sepChanList].intercalate ps) (copied line) =
      if ([sepChanList].intercalate (ps ++ [copied line])).length <
          MAXSIZECHANNELSTRINGARGUMENT then
        some ([sepChanList].intercalate (ps ++ [copied line]))
      else none := by
  by_cases hempty : ps = []
  · have hcopied := length_copied_le line
    have hsize : MAXSIZE_CHANNEL_STRING < MAXSIZECHANNELSTRINGARGUMENT := by decide
    subst hempty
    rw [List.nil_append, List.intercalate_singleton, if_pos (by omega), appendChannel,
      List.intercalate_nil, if_pos rfl, strncpy, List.take_of_length_le (by omega)]
  · rw [intercalate_snoc hempty, appendChannel_eq (intercalate_ne_nil hempty hps) hlen]

/-- **The loop over the lines.** The list so far is that of the patterns so far. -/
theorem foldlM_insertLine (lines : List (List Char)) {ps : List CStr} (hps : ∀ p ∈ ps, p ≠ [])
    (hlen : ([sepChanList].intercalate ps).length < MAXSIZECHANNELSTRINGARGUMENT) (s : CStr) :
    lines.foldlM insertLine ([sepChanList].intercalate ps) = some s ↔
      (∀ line ∈ lines, ¬ Overlong line) ∧
        ([sepChanList].intercalate (ps ++ copies lines)).length < MAXSIZECHANNELSTRINGARGUMENT ∧
        [sepChanList].intercalate (ps ++ copies lines) = s := by
  induction lines generalizing ps with
  | nil =>
    have hnil : ps ++ copies [] = ps := List.append_nil ps
    rw [List.foldlM_nil, hnil]
    simp [hlen]
  | cons line lines ih =>
    rw [List.foldlM_cons, insertLine_eq, copies_cons, List.forall_mem_cons]
    by_cases hlong : Overlong line
    · rw [if_pos hlong]
      exact iff_of_false (by simp) fun h => h.1.1 hlong
    rw [if_neg hlong, and_iff_right hlong]
    by_cases hnil : copied line = []
    · rw [if_pos hnil, if_pos hnil, Option.bind_eq_bind, Option.bind_some, ih hps hlen,
        List.nil_append]
    rw [if_neg hnil, if_neg hnil, ← List.append_assoc, appendChannel_intercalate hps hlen]
    have hps' : ∀ p ∈ ps ++ [copied line], p ≠ [] := by
      intro p hp
      rcases List.mem_append.mp hp with hp | hp
      · exact hps p hp
      · rwa [List.mem_singleton.mp hp]
    by_cases hfits : ([sepChanList].intercalate (ps ++ [copied line])).length <
        MAXSIZECHANNELSTRINGARGUMENT
    · rw [if_pos hfits, Option.bind_eq_bind, Option.bind_some, ih hps' hfits]
    · have hgrow := length_intercalate_le (ps ++ [copied line]) (copies lines)
      rw [if_neg hfits]
      exact iff_of_false (by simp) fun h => hfits (hgrow.trans_lt h.2.1)

/-! ### The file -/

theorem takeWhile_snoc {p : Char → Bool} {c : Char} (hc : ¬ p c) (l : CStr) :
    (l ++ [c]).takeWhile p = l.takeWhile p := by
  rw [List.takeWhile_append, List.takeWhile_cons_of_neg hc, List.append_nil]
  split_ifs with h
  · exact ((List.takeWhile_prefix p).eq_of_length h).symm
  · rfl

/-- A line with the end of the line is read as without it. -/
theorem insertLine_eol (ret : CStr) (line : List Char) :
    insertLine ret (line ++ [LF]) = insertLine ret line := by
  have htext : lineText (line ++ [LF]) = lineText line := by
    rw [lineText, lineText, List.takeWhile_takeWhile, List.takeWhile_takeWhile,
      takeWhile_snoc (by decide)]
  have hcopied : copied (line ++ [LF]) = copied line := by
    unfold copied lineWord body blanks
    rw [htext]
  have hover : Overlong (line ++ [LF]) ↔ Overlong line := by
    unfold Overlong blanks
    rw [htext]
  rw [insertLine_eq, insertLine_eq, hcopied]
  simp only [hover]

/-- **What the function returns.** -/
theorem stateFile_eq {file : List Char}
    (hline : ∀ line ∈ file.splitOn LF, line.length < MAXSIZE_LINE_CHAN_STATE) (s : CStr) :
    getChannelListArgumentFromStateFile (some file) = some (some s) ↔
      (∀ line ∈ file.splitOn LF, ¬ Overlong line) ∧
        ([sepChanList].intercalate (copies (file.splitOn LF))).length <
          MAXSIZECHANNELSTRINGARGUMENT ∧
        [sepChanList].intercalate (copies (file.splitOn LF)) = s := by
  have hnil (ret : CStr) : insertLine ret [] = pure ret := rfl
  have hloop := @foldlM_insertLine (file.splitOn LF) [] (by simp) (by decide) s
  unfold getChannelListArgumentFromStateFile
  dsimp only
  rw [foldlM_fgetsLines hnil (fun ret line _ => insertLine_eol ret line) (by decide) file hline,
    ← List.nil_append (copies _), ← hloop, List.intercalate_nil]
  simp

/-- **Where the list is that of the patterns**: every pattern ends within the first 64 characters of
its line, a line that begins without a blank has fewer than 64 before a `#` or its end, and the
whole list has fewer than 8000. -/
structure Fits (file : List Char) : Prop where
  inRoom : ∀ line ∈ file.splitOn LF, lineWord line ≠ [] →
    blanks line + (lineWord line).length ≤ MAXSIZE_CHANNEL_STRING
  terminated : ∀ line ∈ file.splitOn LF, ¬ Overlong line
  total : ([sepChanList].intercalate (patterns file)).length < MAXSIZECHANNELSTRINGARGUMENT

/-- A pattern is copied whole. -/
theorem copied_eq_iff (line : List Char) : copied line = lineWord line ↔
    (lineWord line ≠ [] → blanks line + (lineWord line).length ≤ MAXSIZE_CHANNEL_STRING) := by
  rw [copied, List.take_eq_self_iff]
  constructor
  · intro h hne
    have hpos := List.length_pos_of_ne_nil hne
    omega
  · intro h
    by_cases hnil : lineWord line = []
    · simp [hnil]
    · have := h hnil
      omega

/-- Where the patterns are those that are copied, each is copied whole. -/
theorem copied_of_copies {lines : List (List Char)}
    (h : copies lines = (lines.map lineWord).filter (· ≠ [])) :
    ∀ line ∈ lines, copied line = lineWord line := by
  have hflatten := congrArg (List.length ∘ List.flatten) h
  simp only [copies, Function.comp_apply, List.flatten_filter_ne_nil, List.length_flatten,
    List.map_map] at hflatten
  intro line hline
  have hlength := eq_of_sum_eq (f := List.length ∘ copied) (g := List.length ∘ lineWord)
    (fun line _ => by
      rw [Function.comp_apply, Function.comp_apply, copied, List.length_take]
      omega)
    hflatten line hline
  exact List.IsPrefix.eq_of_length (List.take_prefix _ _) hlength

/-- **The list of a state file.** For every file whose lines are shorter than the buffer, with
patterns that are shorter than 64 and have no comma: the list that the function returns, taken apart
at commas, is that of the patterns, and nothing is written outside an array, if and only if it
fits. -/
theorem stateFile_iff (file : List Char)
    (hline : ∀ line ∈ file.splitOn LF, line.length < MAXSIZE_LINE_CHAN_STATE)
    (hpattern : ∀ p ∈ patterns file, p.length < MAXSIZE_CHANNEL_STRING ∧ sepChanList ∉ p) :
    (∃ s, getChannelListArgumentFromStateFile (some file) = some (some s) ∧
        splitPatterns [] s = patterns file) ↔ Fits file := by
  have hcopies : ∀ p ∈ copies (file.splitOn LF), p ≠ [] ∧ sepChanList ∉ p := by
    intro p hp
    obtain ⟨hp, hne⟩ := List.mem_filter.mp hp
    obtain ⟨line, hmem, rfl⟩ := List.mem_map.mp hp
    refine ⟨by simpa using hne, fun hcomma => ?_⟩
    have hword : lineWord line ∈ patterns file := by
      refine List.mem_filter.mpr ⟨List.mem_map_of_mem hmem, ?_⟩
      rw [decide_eq_true_iff]
      rintro hnil
      rw [copied, hnil, List.take_nil] at hcomma
      exact List.not_mem_nil hcomma
    exact (hpattern _ hword).2 (List.mem_of_mem_take hcomma)
  constructor
  · rintro ⟨s, hresult, hsplit⟩
    obtain ⟨hterminated, htotal, rfl⟩ := (stateFile_eq hline s).mp hresult
    rw [splitPatterns_intercalate hcopies] at hsplit
    have hwhole := copied_of_copies hsplit
    refine ⟨fun line hmem => (copied_eq_iff line).mp (hwhole line hmem), hterminated, ?_⟩
    rwa [← hsplit]
  · intro hfits
    have hsame : copies (file.splitOn LF) = patterns file := by
      unfold copies patterns
      congr 1
      exact List.map_congr_left fun line hmem => (copied_eq_iff line).mpr (hfits.inRoom line hmem)
    refine ⟨[sepChanList].intercalate (copies (file.splitOn LF)), ?_, ?_⟩
    · exact (stateFile_eq hline _).mpr ⟨hfits.terminated, by rw [hsame]; exact hfits.total, rfl⟩
    · rw [splitPatterns_intercalate hcopies, hsame]

theorem stateFile_iff_two :
    getChannelListArgumentFromStateFile (some "IV.ACER.BHZ.00 # first\n\tIV.ACER.BHN.00".toList) =
      some (some "IV.ACER.BHZ.00,IV.ACER.BHN.00".toList) ∧
    Fits "IV.ACER.BHZ.00 # first\n\tIV.ACER.BHN.00".toList := by
  have hread : getChannelListArgumentFromStateFile
      (some "IV.ACER.BHZ.00 # first\n\tIV.ACER.BHN.00".toList) =
      some (some "IV.ACER.BHZ.00,IV.ACER.BHN.00".toList) := by decide +kernel
  exact ⟨hread, (stateFile_iff _ (by decide +kernel) (by decide +kernel)).mp
    ⟨_, hread, by decide +kernel⟩⟩

/-- A pattern with 56 blanks behind it. -/
theorem stateFile_overlong : ¬∀ file : List Char,
    (∀ line ∈ file.splitOn LF, line.length < MAXSIZE_LINE_CHAN_STATE) →
    (∀ p ∈ patterns file, p.length < MAXSIZE_CHANNEL_STRING ∧ sepChanList ∉ p) →
    ∃ s, getChannelListArgumentFromStateFile (some file) = some (some s) ∧
      splitPatterns [] s = patterns file := by
  intro hclaim
  obtain ⟨s, hs, -⟩ := hclaim ("ACER.BHZ".toList ++ List.replicate 56 ' ') (by decide +kernel)
    (by decide +kernel)
  have hnone : getChannelListArgumentFromStateFile
      (some ("ACER.BHZ".toList ++ List.replicate 56 ' ')) = none := by decide +kernel
  rw [hnone] at hs
  exact absurd hs (by simp)

end Nmxptool.Chan.StateFile
