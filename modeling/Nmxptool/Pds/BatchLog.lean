import Nmxptool.Chan.StateFile
import Nmxptool.Lib.Decimal
import Nmxptool.Pds.Requests

/-! # The log line of a batch

Before it sends a batch, `nmxp_sendAddTimeSeriesChannel` puts a line together in `s_channels`: how
far the requests are, and the names of the channels. Each name is appended by two calls of
`strncat`, which are given the size of the array less the length of the text, and so leave no room
for the terminator.

* `sent_eq_batch`: the batches are those of which the messages are sent.
* `staysInside_iff`: every step of the loop stays inside the array iff the whole line has fewer
  characters than that.
* `textFits_of_few`: the line of a few channels is short enough.
* `batchLog_iff`: the same for every call, with any list, any number of channels at once and any
  pause. -/

namespace Nmxptool.Pds.BatchLog

open Nmxptool.Data.Process Nmxptool.Lib.Bytes Nmxptool.Lib.Decimal
open Nmxptool.Chan.Channels Nmxptool.Chan.StateFile Nmxptool.Pds.Requests

def MAX_LEN_S_CHANNELS : ℕ := 4096

/-! ### The batch of a call -/

/-- What a call logs: `diff_usec`, `split_channelList`, and `i` behind the loop that copies. -/
structure Batch where
  diffUsec : ℤ
  split : List NmxpChanKeyNet
  i : ℕ

/-- The batch of a call of `nmxp_sendAddTimeSeriesChannel`, if it comes to one. -/
def batchOf (channelList : NmxpChanListNet) (nChannel nUsec : ℤ) (flagRestart : Bool) (tpNow : ℤ)
    (st : Statics) : Option Batch :=
  let nChannel := if nUsec = 0 ∧ nChannel = 0 then (channelList.number : ℤ) else nChannel
  let st := if flagRestart then { st with firstTime := true, i := 0 } else st
  let nUsec := pauseWithin channelList.number nUsec nChannel
  if st.i < channelList.number then
    let diffUsec := if st.firstTime then (nUsec + 1).bmod (2 ^ 32) else tpNow - st.lastTpNow
    if diffUsec ≥ nUsec then
      let split := (channelList.channel.drop st.i).take nChannel.toNat
      if split.length > 0 then some ⟨diffUsec, split, st.i + split.length⟩ else none
    else none
  else none

/-! ### `s_channels` -/

/-- `%.0f` of a number of microseconds, divided by 1000.0. A half is rounded to even. -/
def milliseconds (usec : ℤ) : CStr :=
  let ms := usec.natAbs / 1000
  let rest := usec.natAbs % 1000
  (if usec < 0 then ['-'] else []) ++
    Nat.toDigits 10 (if rest > 500 ∨ (rest = 500 ∧ ms % 2 = 1) then ms + 1 else ms)

/-- What is in front of the names: `%.0f/%d chan %d of %d:`. -/
def front (number : ℕ) (b : Batch) : CStr :=
  milliseconds b.diffUsec ++ '/' :: Nat.toDigits 10 b.split.length ++ " chan ".toList ++
    Nat.toDigits 10 b.i ++ " of ".toList ++ Nat.toDigits 10 number ++ [':']

/-- The body of the loop: a blank, and the name of a channel. -/
def appendName (sChannels : CStr) (ch : NmxpChanKeyNet) : Option CStr := do
  let sChannels ← strncat MAX_LEN_S_CHANNELS sChannels [' '] (MAX_LEN_S_CHANNELS - sChannels.length)
  strncat MAX_LEN_S_CHANNELS sChannels (strncpy ch.name NMXP_CHAN_MAX_SIZE_NAME)
    (MAX_LEN_S_CHANNELS - sChannels.length)

/-- `s_channels` after `snprintf` and `j` steps of the loop; `none` after a write outside. -/
def sChannels (number : ℕ) (b : Batch) (j : ℕ) : Option CStr :=
  (b.split.take j).foldlM appendName ((front number b).take (MAX_LEN_S_CHANNELS - 1))

/-! ### What it should be -/

/-- **After every step** `s_channels` holds a string with its terminator, and nothing was written
outside. -/
def StaysInside (number : ℕ) (b : Batch) : Prop :=
  ∀ j ≤ b.split.length, ∃ s, sChannels number b j = some s ∧ s.length < MAX_LEN_S_CHANNELS

/-- A blank and a name for each channel. -/
def namesText (channels : List NmxpChanKeyNet) : CStr := channels.flatMap fun ch => ' ' :: ch.name

/-- The whole line. -/
def logText (number : ℕ) (b : Batch) : CStr := front number b ++ namesText b.split

/-- **The line is short enough**: at most 4095 characters. -/
def TextFits (number : ℕ) (b : Batch) : Prop :=
  (logText number b).length < MAX_LEN_S_CHANNELS

/-! ### The loop -/

theorem namesText_cons (ch : NmxpChanKeyNet) (channels : List NmxpChanKeyNet) :
    namesText (ch :: channels) = ' ' :: ch.name ++ namesText channels :=
  List.flatMap_cons

theorem appendName_eq {s : CStr} {ch : NmxpChanKeyNet} (hs : s.length < MAX_LEN_S_CHANNELS)
    (hname : ch.name.length < NMXP_CHAN_MAX_SIZE_NAME) : appendName s ch =
      if (s ++ ' ' :: ch.name).length < MAX_LEN_S_CHANNELS then some (s ++ ' ' :: ch.name)
      else none := by
  have hsplit : s ++ ' ' :: ch.name = s ++ [' '] ++ ch.name := List.append_cons s ' ' ch.name
  have hcopy : strncpy ch.name NMXP_CHAN_MAX_SIZE_NAME = ch.name :=
    List.take_of_length_le hname.le
  unfold appendName
  rw [hsplit, hcopy]
  exact strncat_strncat hs.le [' '] ch.name

/-- **The loop** puts all names behind the text, if they fit. -/
theorem foldlM_appendName : ∀ (channels : List NmxpChanKeyNet) {s : CStr},
    s.length < MAX_LEN_S_CHANNELS →
    (∀ ch ∈ channels, ch.name.length < NMXP_CHAN_MAX_SIZE_NAME) →
    channels.foldlM appendName s =
      if (s ++ namesText channels).length < MAX_LEN_S_CHANNELS then some (s ++ namesText channels)
      else none := by
  intro channels
  induction channels with
  | nil =>
    intro s hs _
    simp [namesText, hs]
  | cons ch channels ih =>
    intro s hs hnames
    have hassoc : s ++ namesText (ch :: channels) =
        s ++ ' ' :: ch.name ++ namesText channels := by
      rw [namesText_cons, List.append_assoc]
    rw [List.foldlM_cons, appendName_eq hs (hnames ch List.mem_cons_self), hassoc]
    by_cases hch : (s ++ ' ' :: ch.name).length < MAX_LEN_S_CHANNELS
    · rw [if_pos hch, Option.bind_eq_bind, Option.bind_some,
        ih hch fun c hc => hnames c (List.mem_cons_of_mem _ hc)]
    · rw [if_neg hch, if_neg]
      · rfl
      · rw [List.length_append]
        omega

/-- The first steps put less behind the text than all. -/
theorem length_namesText_take_le (channels : List NmxpChanKeyNet) (j : ℕ) :
    (namesText (channels.take j)).length ≤ (namesText channels).length := by
  have hsplit : namesText channels =
      namesText (channels.take j) ++ namesText (channels.drop j) := by
    rw [namesText, namesText, namesText, ← List.flatMap_append, List.take_append_drop]
  rw [hsplit, List.length_append]
  exact Nat.le_add_right _ _

theorem staysInside_iff {number : ℕ} {b : Batch} (hsplit : b.split ≠ [])
    (hnames : ∀ ch ∈ b.split, ch.name.length < NMXP_CHAN_MAX_SIZE_NAME) :
    StaysInside number b ↔ TextFits number b := by
  set s := (front number b).take (MAX_LEN_S_CHANNELS - 1) with hs
  have hfront : s.length < MAX_LEN_S_CHANNELS := by
    rw [hs, List.length_take]
    unfold MAX_LEN_S_CHANNELS
    omega
  have hsteps (j : ℕ) := foldlM_appendName (b.split.take j) hfront
    fun ch hch => hnames ch (List.mem_of_mem_take hch)
  have htext : (s ++ namesText b.split).length < MAX_LEN_S_CHANNELS ↔ TextFits number b := by
    -- a front that `snprintf` cuts leaves no room for a name
    have hpos : 0 < (namesText b.split).length := by
      obtain ⟨ch, channels, heq⟩ := List.exists_cons_of_ne_nil hsplit
      rw [heq, namesText_cons]
      exact Nat.succ_pos _
    have hlen : s.length = min (MAX_LEN_S_CHANNELS - 1) (front number b).length := by
      rw [hs, List.length_take]
    unfold TextFits logText
    rw [List.length_append, List.length_append, hlen]
    unfold MAX_LEN_S_CHANNELS
    omega
  rw [← htext]
  constructor
  · intro h
    obtain ⟨t, ht, -⟩ := h b.split.length le_rfl
    by_contra hlong
    have hall := hsteps b.split.length
    rw [List.take_length, if_neg hlong] at hall
    rw [sChannels, List.take_length, hall] at ht
    exact absurd ht (by simp)
  · intro h j _
    have hle := length_namesText_take_le b.split j
    have hshort : (s ++ namesText (b.split.take j)).length < MAX_LEN_S_CHANNELS := by
      rw [List.length_append] at h ⊢
      omega
    exact ⟨_, (hsteps j).trans (if_pos hshort), hshort⟩

/-! ### Few channels -/

theorem length_milliseconds_le {usec : ℤ} (h : usec.natAbs < 2 ^ 63) :
    (milliseconds usec).length ≤ 17 := by
  have hdigits : (Nat.toDigits 10 (if usec.natAbs % 1000 > 500 ∨ (usec.natAbs % 1000 = 500 ∧
      usec.natAbs / 1000 % 2 = 1) then usec.natAbs / 1000 + 1 else usec.natAbs / 1000)).length ≤
      16 := by
    rw [Nat.length_toDigits_le_iff (by decide) (by decide)]
    split_ifs <;> omega
  have hsign : (if usec < 0 then ['-'] else []).length ≤ 1 := by
    split_ifs <;> simp
  unfold milliseconds
  rw [List.length_append]
  omega

theorem length_front_le {number : ℕ} {b : Batch} (hnumber : number ≤ MAX_N_CHAN)
    (hi : b.i ≤ number) (hsplit : b.split.length ≤ number) (htime : b.diffUsec.natAbs < 2 ^ 63) :
    (front number b).length ≤ 41 := by
  have hdigits {n : ℕ} (h : n ≤ number) : (Nat.toDigits 10 n).length ≤ 4 := by
    rw [Nat.length_toDigits_le_iff (by decide) (by decide)]
    unfold MAX_N_CHAN at hnumber
    omega
  have h1 := length_milliseconds_le htime
  have h2 := hdigits hsplit
  have h3 := hdigits hi
  have h4 := hdigits (le_refl number)
  have h5 : " chan ".toList.length = 6 := rfl
  have h6 : " of ".toList.length = 4 := rfl
  simp only [front, List.length_append, List.length_cons, List.length_nil, h5, h6]
  omega

theorem length_namesText_le {channels : List NmxpChanKeyNet}
    (h : ∀ ch ∈ channels, ch.name.length < NMXP_CHAN_MAX_SIZE_NAME) :
    (namesText channels).length ≤ NMXP_CHAN_MAX_SIZE_NAME * channels.length := by
  induction channels with
  | nil => exact Nat.zero_le _
  | cons ch channels ih =>
    have hch := h ch List.mem_cons_self
    have hrest := ih fun c hc => h c (List.mem_cons_of_mem _ hc)
    rw [namesText_cons, List.length_append, List.length_cons, List.length_cons]
    rw [Nat.mul_succ]
    omega

/-- **A batch of at most 168 channels**, and so any that is set by a number of channels at once, has
a line that is short enough. -/
theorem textFits_of_few {number : ℕ} {b : Batch} (hnumber : number ≤ MAX_N_CHAN)
    (hi : b.i ≤ number) (hsplit : b.split.length ≤ number) (htime : b.diffUsec.natAbs < 2 ^ 63)
    (hnames : ∀ ch ∈ b.split, ch.name.length < NMXP_CHAN_MAX_SIZE_NAME)
    (hfew : b.split.length ≤ 168) : TextFits number b := by
  have hfront := length_front_le hnumber hi hsplit htime
  have hlen := length_namesText_le hnames
  unfold TextFits logText MAX_LEN_S_CHANNELS
  rw [List.length_append]
  unfold NMXP_CHAN_MAX_SIZE_NAME at hlen
  omega

/-! ### The calls -/

section Calls
variable (channelList : NmxpChanListNet) (nChannel nUsec : ℤ) (flagRestart : Bool) (tpNow : ℤ)
  (st : Statics)

/-- **The batch is what is sent.** -/
theorem sent_eq_batch (host : Host) (o : RequestOptions) :
    (nmxpSendAddTimeSeriesChannel host o channelList nChannel nUsec flagRestart tpNow st).2 =
      (batchOf channelList nChannel nUsec flagRestart tpNow st).toList.map fun b =>
        nmxpSendAddTimeSeriesChannelRaw host o ⟨b.split⟩ := by
  unfold nmxpSendAddTimeSeriesChannel batchOf
  cases flagRestart <;> cases hfirst : st.firstTime
  all_goals
    simp only [hfirst, Bool.false_eq_true, if_false, if_true]
    split_ifs <;> rfl

variable {channelList nChannel nUsec flagRestart tpNow st}

/-- A batch has some of the channels of the list. -/
theorem of_mem_batchOf {b : Batch}
    (h : b ∈ batchOf channelList nChannel nUsec flagRestart tpNow st) :
    b.split ≠ [] ∧ ∀ ch ∈ b.split, ch ∈ channelList.channel := by
  unfold batchOf at h
  dsimp only at h
  generalize (if nUsec = 0 ∧ nChannel = 0 then (channelList.number : ℤ) else nChannel) = n at h
  generalize (if flagRestart then { st with firstTime := true, i := 0 } else st) = st' at h
  generalize (if st'.firstTime then _ else tpNow - st'.lastTpNow) = d at h
  split_ifs at h with hi hdue hpos
  · obtain rfl := Option.some.inj h
    exact ⟨List.ne_nil_of_length_pos hpos,
      fun ch hch => List.mem_of_mem_drop (List.mem_of_mem_take hch)⟩
  · exact absurd h (Option.not_mem_none b)
  · exact absurd h (Option.not_mem_none b)
  · exact absurd h (Option.not_mem_none b)

end Calls

/-- **The log line of a batch.** For every list of channels with names of at most 23 characters, and
in every call, whatever the number of channels at once, the pause, the clock and the calls before:
`s_channels` stays inside its array at every step iff the line is short enough. -/
theorem batchLog_iff (channelList : NmxpChanListNet)
    (hnames : ∀ ch ∈ channelList.channel, ch.name.length < NMXP_CHAN_MAX_SIZE_NAME)
    (nChannel nUsec : ℤ) (flagRestart : Bool) (tpNow : ℤ) (st : Statics) :
    (∀ b ∈ batchOf channelList nChannel nUsec flagRestart tpNow st,
        StaysInside channelList.number b) ↔
      ∀ b ∈ batchOf channelList nChannel nUsec flagRestart tpNow st,
        TextFits channelList.number b := by
  refine forall₂_congr fun b hb => ?_
  obtain ⟨hsplit, hmem⟩ := of_mem_batchOf hb
  exact staysInside_iff hsplit fun ch hch => hnames ch (hmem ch hch)

/-- `n` channels with names such as `NX.STATION007.HHZ.00`. -/
def stations (n : ℕ) : NmxpChanListNet :=
  ⟨(List.range n).map fun k => ⟨Int32.ofNat (65536 * (k + 1) + 256),
    "NX.STATION".toList ++ zeroPadded 3 k ++ ".HHZ.00".toList, by simp⟩⟩

theorem number_stations (n : ℕ) : (stations n).number = n := by
  simp [stations, NmxpChanListNet.number]

theorem length_name_stations {n : ℕ} (hn : n ≤ 1000) {ch : NmxpChanKeyNet}
    (hch : ch ∈ (stations n).channel) : ch.name.length = 20 := by
  obtain ⟨k, hk, rfl⟩ := List.mem_map.mp hch
  have hlen : (zeroPadded 3 k).length = 3 :=
    length_zeroPadded (by decide) (by have := List.mem_range.mp hk; omega)
  simp [hlen]

/-- With all channels at once the first call takes the whole list. -/
theorem batchOf_stations {n : ℕ} (hn : 0 < n) (st : Statics) :
    batchOf (stations n) 0 0 true 0 st = some ⟨1, (stations n).channel, n⟩ := by
  have hnumber := number_stations n
  have hlen : (stations n).channel.length = n := hnumber
  have hpause : pauseWithin n 0 n = 0 := pauseWithin_zero n n
  unfold batchOf
  simp [hnumber, hpause, hn, List.take_of_length_le hlen.le, hlen]

/-- Each of them takes 21 characters of the line. -/
theorem length_logText_stations {n : ℕ} (hn : n ≤ 1000) : (logText (stations n).number
    ⟨1, (stations n).channel, n⟩).length =
      (front n ⟨1, (stations n).channel, n⟩).length + 21 * n := by
  have hnames : ∀ channels : List NmxpChanKeyNet, (∀ ch ∈ channels, ch.name.length = 20) →
      (namesText channels).length = 21 * channels.length := by
    intro channels
    induction channels with
    | nil => exact fun _ => rfl
    | cons ch channels ih =>
      intro h
      rw [namesText_cons, List.length_append, List.length_cons, h ch List.mem_cons_self,
        ih fun c hc => h c (List.mem_cons_of_mem _ hc), List.length_cons]
      omega
  have hlen : (stations n).channel.length = n := number_stations n
  rw [logText, List.length_append, hnames _ fun ch hch => length_name_stations hn hch, hlen,
    number_stations]

/-- **194 channels** make a line of 4096 characters: its terminator is written behind the array. -/
theorem batchLog_full : (stations 194).number ≤ MAX_N_CHAN ∧
    (∀ ch ∈ (stations 194).channel, ch.name.length < NMXP_CHAN_MAX_SIZE_NAME) ∧
    ¬ ∀ b ∈ batchOf (stations 194) 0 0 true 0 ⟨0, true, 0⟩,
      StaysInside (stations 194).number b := by
  have hname : ∀ ch ∈ (stations 194).channel, ch.name.length < NMXP_CHAN_MAX_SIZE_NAME := by
    intro ch hch
    rw [length_name_stations (by omega) hch]
    decide
  have hne : (stations 194).channel ≠ [] := by
    refine List.ne_nil_of_length_pos ?_
    show 0 < (stations 194).number
    rw [number_stations]
    omega
  refine ⟨by rw [number_stations]; decide, hname, fun h => ?_⟩
  have hstays := h _ (batchOf_stations (by omega) _)
  have hfront : (front 194 ⟨1, (stations 194).channel, 194⟩).length = 22 := by decide +kernel
  have hlen := @length_logText_stations 194 (by omega)
  have hfits : (logText _ _).length < MAX_LEN_S_CHANNELS := (staysInside_iff hne hname).mp hstays
  rw [hlen, hfront] at hfits
  exact absurd hfits (by decide)

theorem batchLog_iff_two : ∃ b, batchOf (stations 2) 0 0 true 0 ⟨0, true, 0⟩ = some b ∧
    StaysInside (stations 2).number b := by
  have hb := @batchOf_stations 2 (by omega) ⟨0, true, 0⟩
  refine ⟨_, hb, (batchLog_iff (stations 2) (fun ch hch => ?_) 0 0 true 0 ⟨0, true, 0⟩).mpr
    (fun b hmem => ?_) _ hb⟩
  · rw [length_name_stations (by omega) hch]
    decide
  · rw [hb] at hmem
    obtain rfl := Option.some.inj hmem
    unfold TextFits
    decide +kernel

end Nmxptool.Pds.BatchLog
