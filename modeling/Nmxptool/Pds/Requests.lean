import Nmxptool.Chan.Channels
import Nmxptool.Lib.Rounding
import Nmxptool.Wire.Model

/-! # Requesting the channels

The thread `p_nmxp_sendAddTimeSeriesChannel` calls `nmxp_sendAddTimeSeriesChannel` as many times as
it takes to request all the channels `n_channel` by `n_channel`, and sleeps between the calls. A
call sends nothing if by its own clock the pause is not over, and the thread counts it all the same.

* `requestedKeys_raw`: the keys that a message asks for.
* `requests_iff`: all channels are requested, each once, iff every pause is over when the thread
  goes on. -/

namespace Nmxptool.Pds.Requests

open Nmxptool.Lib.Bytes Nmxptool.Lib.Rounding Nmxptool.Wire.Model Nmxptool.Chan.Channels

def MAX_N_CHAN : ℕ := 2000
def NMXP_MAX_MSCHAN_MSEC : ℤ := 15000
def NMXP_MSG_ADDTIMESERIESCHANNELS : Int32 := 120

def DEFAULT_N_CHANNEL_MINIMUM : ℤ := 3
def DEFAULT_N_CHANNEL_MAXIMUM : ℤ := 30
def DEFAULT_USEC_MINIMUM : ℤ := 0
def DEFAULT_USEC_MAXIMUM : ℤ := 1000000

/-- What `nmxptool_check_params` accepts for the pause and the number of channels. -/
def CheckMschan (usec nChannel : ℤ) : Prop :=
  (usec = 0 ∧ nChannel = 0) ∨
    ((DEFAULT_USEC_MINIMUM ≤ usec ∧ usec ≤ DEFAULT_USEC_MAXIMUM) ∧
      DEFAULT_N_CHANNEL_MINIMUM ≤ nChannel ∧ nChannel ≤ DEFAULT_N_CHANNEL_MAXIMUM)

/-! ### One request -/

/-- What all requests of a session have in common. -/
structure RequestOptions where
  shortTermCompletion : Int32
  outFormat : Int32
  bufferFlag : Int32

/-- A message handed to `nmxp_sendMessage`. -/
structure Request where
  type : Int32
  buffer : List UInt8
  deriving DecidableEq

/-- `app = htonl(v); memcpy(&buffer[disp], &app, 4)`. -/
def putInt32 (host : Host) (v : Int32) : List UInt8 := inMemory host (ntohl host v)

/-- `nmxp_sendAddTimeSeriesChannel_raw`. -/
def nmxpSendAddTimeSeriesChannelRaw (host : Host) (o : RequestOptions)
    (channelList : NmxpChanListNet) : Request where
  type := NMXP_MSG_ADDTIMESERIESCHANNELS
  buffer := putInt32 host (Int32.ofNat channelList.number) ++
    (channelList.channel.flatMap (fun ch => putInt32 host ch.key) ++
      (putInt32 host o.shortTermCompletion ++
        (putInt32 host o.outFormat ++ putInt32 host o.bufferFlag)))

/-- The integer at an offset of a message, from network order. -/
def fieldAt (buffer : List UInt8) (off : ℕ) : Int32 := int32 (load .big ((buffer.drop off).take 4))

/-- The keys that a message asks for: a count, and as many keys. -/
def requestedKeys (r : Request) : List Int32 :=
  (List.range (fieldAt r.buffer 0).toInt.toNat).map fun k => fieldAt r.buffer (4 + 4 * k)

/-! ### One call -/

/-- The static variables of `nmxp_sendAddTimeSeriesChannel`. Times are in microseconds. -/
structure Statics where
  i : ℕ
  firstTime : Bool
  lastTpNow : ℤ

/-- `estimated_time`, in seconds, computed in doubles. -/
def estimatedTime (number nUsec nChannel : ℤ) : ℚ :=
  toDouble (number * toDouble (toDouble (nUsec / 1000000) / nChannel))

/-- The pause for which the requests are just satisfied within `NMXP_MAX_MSCHAN_MSEC`, computed in
doubles. -/
def shorterPause (number nChannel : ℤ) : ℚ :=
  toDouble (NMXP_MAX_MSCHAN_MSEC * 1000 * toDouble (nChannel / number))

/-- The pause, made shorter if with it the requests could not be satisfied within
`NMXP_MAX_MSCHAN_MSEC`. -/
def pauseWithin (number nUsec nChannel : ℤ) : ℤ :=
  if estimatedTime number nUsec nChannel > NMXP_MAX_MSCHAN_MSEC / 1000 then
    ⌊shorterPause number nChannel⌋
  else nUsec

/-- `nmxp_sendAddTimeSeriesChannel`, at a clock reading. -/
def nmxpSendAddTimeSeriesChannel (host : Host) (o : RequestOptions)
    (channelList : NmxpChanListNet) (nChannel nUsec : ℤ) (flagRestart : Bool) (tpNow : ℤ)
    (st : Statics) : Statics × List Request :=
  let nChannel := if nUsec = 0 ∧ nChannel = 0 then (channelList.number : ℤ) else nChannel
  let st := if flagRestart then { st with firstTime := true, i := 0 } else st
  let nUsec := pauseWithin channelList.number nUsec nChannel
  if st.i < channelList.number then
    -- `n_usec + 1` is computed as an `int`
    let diffUsec := if st.firstTime then (nUsec + 1).bmod (2 ^ 32) else tpNow - st.lastTpNow
    let st := if st.firstTime then { st with firstTime := false, lastTpNow := 0 } else st
    if diffUsec ≥ nUsec then
      -- the loop that copies the next channels
      let split := (channelList.channel.drop st.i).take nChannel.toNat
      (⟨st.i + split.length, false, tpNow⟩,
        if split.length > 0 then [nmxpSendAddTimeSeriesChannelRaw host o ⟨split⟩] else [])
    else (st, [])
  else (st, [])

/-! ### The thread -/

/-- How many calls the thread makes. -/
def timesChannel (number : ℕ) (nChannel : ℤ) : ℕ :=
  if nChannel = 0 then 1
  else (number / nChannel + if number % nChannel = 0 then 0 else 1).toNat

/-- The loop of the thread, with `timesChannel` calls to go and `i` made. What `nmxp_usleep` does
shows in the clock readings only. -/
def requestLoop (host : Host) (o : RequestOptions) (channelList : NmxpChanListNet)
    (nChannel usec : ℤ) (clock : ℕ → ℤ) (sigcondition : ℕ → Bool) :
    ℕ → ℕ → Statics → List Request
  | 0, _, _ => []
  | timesChannel + 1, i, st =>
    if sigcondition i then []
    else
      let r := nmxpSendAddTimeSeriesChannel host o channelList nChannel usec (i == 0) (clock i) st
      r.2 ++
        requestLoop host o channelList nChannel usec clock sigcondition timesChannel (i + 1) r.1

/-- `p_nmxp_sendAddTimeSeriesChannel`: the messages it causes. -/
def pNmxpSendAddTimeSeriesChannel (host : Host) (o : RequestOptions)
    (channelListSubset : NmxpChanListNet) (nChannel usec : ℤ) (clock : ℕ → ℤ)
    (sigcondition : ℕ → Bool) (st : Statics) : List Request :=
  requestLoop host o channelListSubset nChannel
    (pauseWithin channelListSubset.number usec nChannel) clock sigcondition
    (timesChannel channelListSubset.number nChannel) 0 st

/-! ### What a message asks for -/

theorem putInt32_eq (host : Host) (v : Int32) : putInt32 host v = network32 v :=
  store_ntohl host v

theorem fieldAt_network32 (pre : List UInt8) {rest : List UInt8} {v : Int32} {off : ℕ}
    (h : pre.length = off) :
    fieldAt (pre ++ (network32 v ++ rest)) off = v := by
  unfold fieldAt
  rw [List.drop_left' h, List.take_left' (length_network32 v), load_network32]

theorem length_flatMap_network32 (keys : List Int32) :
    (keys.flatMap network32).length = 4 * keys.length := by
  induction keys with
  | nil => rfl
  | cons key keys ih =>
    rw [List.flatMap_cons, List.length_append, length_network32, ih, List.length_cons]
    omega

/-- **The body of a message.** -/
theorem buffer_raw (host : Host) (o : RequestOptions) (channelList : NmxpChanListNet) :
    (nmxpSendAddTimeSeriesChannelRaw host o channelList).buffer =
      network32 (Int32.ofNat channelList.number) ++
        ((channelList.channel.map (·.key)).flatMap network32 ++
          (network32 o.shortTermCompletion ++
            (network32 o.outFormat ++ network32 o.bufferFlag))) := by
  have hkeys : channelList.channel.flatMap (fun ch => putInt32 host ch.key) =
      (channelList.channel.map (·.key)).flatMap network32 := by
    rw [List.flatMap_map]
    exact congrArg₂ List.flatMap (funext fun ch => putInt32_eq ..) rfl
  unfold nmxpSendAddTimeSeriesChannelRaw
  simp only [putInt32_eq, ← hkeys]

/-- **A message asks for the channels of its list.** -/
theorem requestedKeys_raw (host : Host) (o : RequestOptions) {channelList : NmxpChanListNet}
    (h : channelList.number ≤ MAX_N_CHAN) :
    requestedKeys (nmxpSendAddTimeSeriesChannelRaw host o channelList) =
      channelList.channel.map (·.key) := by
  have hbuffer := buffer_raw host o channelList
  generalize network32 o.shortTermCompletion ++
    (network32 o.outFormat ++ network32 o.bufferFlag) = rest at hbuffer
  have hcount : (Int32.ofNat channelList.number).toInt.toNat = channelList.number := by
    rw [Int32.toInt_ofNat_of_lt (by unfold MAX_N_CHAN at h; omega)]
    exact Int.toNat_natCast _
  have hnumber : fieldAt (network32 (Int32.ofNat channelList.number) ++
      ((channelList.channel.map (·.key)).flatMap network32 ++ rest)) 0 =
      Int32.ofNat channelList.number := fieldAt_network32 [] rfl
  unfold requestedKeys
  rw [hbuffer, hnumber, hcount]
  refine List.ext_getElem (by simp [NmxpChanListNet.number]) fun k hk hk' => ?_
  rw [List.getElem_map, List.getElem_range]
  generalize channelList.channel.map (·.key) = keys at hk'
  have hsplit : keys.flatMap network32 = (keys.take k).flatMap network32 ++
      (network32 keys[k] ++ (keys.drop (k + 1)).flatMap network32) := by
    rw [← List.flatMap_cons, ← List.drop_eq_getElem_cons hk', ← List.flatMap_append,
      List.take_append_drop]
  rw [hsplit, List.append_assoc, List.append_assoc, ← List.append_assoc (network32 _)]
  refine fieldAt_network32 _ ?_
  rw [List.length_append, length_network32, length_flatMap_network32, List.length_take,
    min_eq_left hk'.le]

/-! ### The calls -/

variable {host : Host} {o : RequestOptions} {channelList : NmxpChanListNet} {nChannel usec : ℤ}
  {clock : ℕ → ℤ} {sigcondition : ℕ → Bool}

/-- All the keys that messages ask for, in order. -/
def allRequestedKeys (rs : List Request) : List Int32 := rs.flatMap requestedKeys

theorem allRequestedKeys_append (rs rs' : List Request) :
    allRequestedKeys (rs ++ rs') = allRequestedKeys rs ++ allRequestedKeys rs' :=
  List.flatMap_append

section Pauses

variable {number usec nChannel : ℤ}

/-- Three roundings lie between the estimated time and its exact value. -/
theorem near_estimatedTime (hnumber : 0 ≤ number) (husec : 0 ≤ usec) (hn : 0 ≤ nChannel) :
    Near 53 3 ((number * ((usec / 1000000) / nChannel) : ℚ))
      (estimatedTime number usec nChannel) := by
  have h1 : (0 : ℚ) ≤ number := mod_cast hnumber
  have h2 : (0 : ℚ) ≤ usec := mod_cast husec
  have h3 : (0 : ℚ) ≤ nChannel := mod_cast hn
  have hsec : Near 53 1 (usec / 1000000 : ℚ) (toDouble (usec / 1000000)) :=
    (Near.refl 53 _).round (by positivity)
  have heach : Near 53 2 ((usec / 1000000) / nChannel : ℚ)
      (toDouble (toDouble (usec / 1000000) / nChannel)) := (hsec.div_right h3).round (by positivity)
  exact (heach.mul_left h1).round (by positivity)

/-- Two roundings lie between the shorter pause and its exact value. -/
theorem near_shorterPause (hnumber : 0 ≤ number) (hn : 0 ≤ nChannel) :
    Near 53 2 (15000000 * (nChannel / number) : ℚ) (shorterPause number nChannel) := by
  have h1 : (0 : ℚ) ≤ number := mod_cast hnumber
  have h3 : (0 : ℚ) ≤ nChannel := mod_cast hn
  have hlimit : (NMXP_MAX_MSCHAN_MSEC * 1000 : ℚ) = 15000000 := by
    norm_num [NMXP_MAX_MSCHAN_MSEC]
  have hshare : Near 53 1 (nChannel / number : ℚ) (toDouble (nChannel / number)) :=
    (Near.refl 53 _).round (by positivity)
  unfold shorterPause
  rw [hlimit]
  exact (hshare.mul_left (by norm_num)).round (by positivity)

theorem pos_of_exceeds (hnumber : 0 ≤ number) (hn : 0 ≤ nChannel)
    (h : estimatedTime number usec nChannel > NMXP_MAX_MSCHAN_MSEC / 1000) :
    0 < number ∧ 0 < nChannel := by
  have hne : number ≠ 0 ∧ nChannel ≠ 0 := by
    constructor <;> rintro rfl <;>
      exact absurd h (by norm_num [estimatedTime, toDouble, NMXP_MAX_MSCHAN_MSEC])
  exact ⟨lt_of_le_of_ne hnumber hne.1.symm, lt_of_le_of_ne hn hne.2.symm⟩

/-- The requests take no longer than the limit, but for the rounding error, and exceed it only if
they do so but for the rounding error. -/
theorem exceeds_bounds (hnumber : 0 ≤ number) (husec : 0 ≤ usec) (hn : 0 < nChannel) :
    (estimatedTime number usec nChannel > NMXP_MAX_MSCHAN_MSEC / 1000 →
      15000000 * (nChannel : ℚ) < usec * number * (1 + 1 / 2 ^ 53) ^ 3) ∧
    (15000000 * (nChannel : ℚ) < usec * number * (1 - 1 / 2 ^ 53) ^ 3 →
      estimatedTime number usec nChannel > NMXP_MAX_MSCHAN_MSEC / 1000) := by
  have hnear := near_estimatedTime hnumber husec hn.le
  have hn' : (0 : ℚ) < nChannel := mod_cast hn
  have hexact : (number * ((usec / 1000000) / nChannel) : ℚ) =
      usec * number / (1000000 * nChannel) := by field_simp
  have hlimit : (NMXP_MAX_MSCHAN_MSEC / 1000 : ℚ) = 15 := by norm_num [NMXP_MAX_MSCHAN_MSEC]
  rw [hexact] at hnear
  rw [hlimit]
  constructor
  · intro h
    have := h.lt.trans_le hnear.upper
    rw [div_mul_eq_mul_div, lt_div_iff₀ (by positivity)] at this
    linarith
  · intro h
    refine lt_of_lt_of_le ?_ hnear.lower
    rw [div_mul_eq_mul_div, lt_div_iff₀ (by positivity)]
    linarith

/-- For numbers of this size the rounding decides only where the requests take just as long as the
limit. -/
theorem exceeds_iff_of_ne (hnumber : 0 ≤ number) (husec : 0 ≤ usec) (hn : 0 < nChannel)
    (hsize : usec * number ≤ 2 ^ 43) (hne : usec * number ≠ 15000000 * nChannel) :
    estimatedTime number usec nChannel > NMXP_MAX_MSCHAN_MSEC / 1000 ↔
      15000000 * nChannel < usec * number := by
  obtain ⟨h1, h2⟩ := exceeds_bounds hnumber husec hn
  have hsize' : (usec * number : ℚ) ≤ 2 ^ 43 := mod_cast hsize
  have h0 : (0 : ℚ) ≤ usec * number := mod_cast mul_nonneg husec hnumber
  constructor
  · intro h
    by_contra! hle
    have hlt : (usec * number + 1 : ℚ) ≤ 15000000 * nChannel := by
      exact_mod_cast lt_of_le_of_ne hle hne
    linarith [h1 h]
  · intro h
    have hlt : (15000000 * nChannel + 1 : ℚ) ≤ usec * number := by exact_mod_cast h
    exact h2 (by linarith)

/-- The pause is then longer than the new one, which is cut to an integer. -/
theorem floor_le_of_exceeds (hnumber : 0 ≤ number) (husec : 0 ≤ usec) (hmax : usec ≤ 2 ^ 31)
    (hn : 0 ≤ nChannel)
    (h : estimatedTime number usec nChannel > NMXP_MAX_MSCHAN_MSEC / 1000) :
    ⌊shorterPause number nChannel⌋ ≤ usec := by
  obtain ⟨hnumber', hn'⟩ := pos_of_exceeds hnumber hn h
  have hpos : (0 : ℚ) < number := mod_cast hnumber'
  have husec' : (0 : ℚ) ≤ usec := mod_cast husec
  have hmax' : (usec : ℚ) ≤ 2 ^ 31 := mod_cast hmax
  have hlt := (exceeds_bounds hnumber husec hn').1 h
  have hshare : (15000000 * (nChannel / number) : ℚ) < usec * (1 + 1 / 2 ^ 53) ^ 3 := by
    rw [← mul_div_assoc, div_lt_iff₀ hpos]
    linarith
  refine Int.lt_add_one_iff.mp (Int.floor_lt.mpr ?_)
  calc shorterPause number nChannel
      ≤ 15000000 * (nChannel / number) * (1 + 1 / 2 ^ 53) ^ 2 :=
        (near_shorterPause hnumber hn).upper
    _ ≤ usec * (1 + 1 / 2 ^ 53) ^ 3 * (1 + 1 / 2 ^ 53) ^ 2 :=
        mul_le_mul_of_nonneg_right hshare.le (by positivity)
    _ < ((usec + 1 : ℤ) : ℚ) := by
        push_cast
        linarith

/-- Where the requests take longer than the limit in exact numbers, it is shorter. -/
theorem floor_lt_of_lt (hnumber : 0 < number) (hn : 0 ≤ nChannel)
    (hsize : usec * number ≤ 2 ^ 43) (h : 15000000 * nChannel < usec * number) :
    ⌊shorterPause number nChannel⌋ < usec := by
  have hpos : (0 : ℚ) < number := mod_cast hnumber
  have hn' : (0 : ℚ) ≤ nChannel := mod_cast hn
  have hsize' : (usec * number : ℚ) ≤ 2 ^ 43 := mod_cast hsize
  have hlt : (15000000 * nChannel + 1 : ℚ) ≤ usec * number := by exact_mod_cast h
  rw [Int.floor_lt]
  calc shorterPause number nChannel
      ≤ 15000000 * (nChannel / number) * (1 + 1 / 2 ^ 53) ^ 2 :=
        (near_shorterPause hnumber.le hn).upper
    _ < usec := by
        rw [← mul_div_assoc, div_mul_eq_mul_div, div_lt_iff₀ hpos]
        linarith

/-- The pause is not made longer. -/
theorem pauseWithin_le (hnumber : 0 ≤ number) (husec : 0 ≤ usec) (hmax : usec ≤ 2 ^ 31)
    (hn : 0 ≤ nChannel) : pauseWithin number usec nChannel ≤ usec := by
  unfold pauseWithin
  split_ifs with h
  · exact floor_le_of_exceeds hnumber husec hmax hn h
  · exact le_rfl

theorem pauseWithin_nonneg (hnumber : 0 ≤ number) (hn : 0 ≤ nChannel) (husec : 0 ≤ usec) :
    0 ≤ pauseWithin number usec nChannel := by
  have h1 : (0 : ℚ) ≤ number := mod_cast hnumber
  have h2 : (0 : ℚ) ≤ nChannel := mod_cast hn
  unfold pauseWithin
  split_ifs
  · exact Int.floor_nonneg.mpr ((near_shorterPause hnumber hn).nonneg (by positivity))
  · exact husec

/-- The new pause does not depend on the one that was given. -/
theorem pauseWithin_idem (number usec nChannel : ℤ) :
    pauseWithin number (pauseWithin number usec nChannel) nChannel =
      pauseWithin number usec nChannel := by
  by_cases h : estimatedTime number usec nChannel > NMXP_MAX_MSCHAN_MSEC / 1000
  · have hpause : pauseWithin number usec nChannel = ⌊shorterPause number nChannel⌋ := if_pos h
    rw [hpause]
    unfold pauseWithin
    split_ifs <;> rfl
  · have hpause : pauseWithin number usec nChannel = usec := if_neg h
    rw [hpause, hpause]

theorem pauseWithin_zero (number nChannel : ℤ) : pauseWithin number 0 nChannel = 0 := by
  have h : estimatedTime number 0 nChannel = 0 := by
    unfold estimatedTime toDouble
    rw [Int.cast_zero, zero_div, round_zero, zero_div, round_zero, mul_zero, round_zero]
  refine if_neg ?_
  rw [h]
  norm_num [NMXP_MAX_MSCHAN_MSEC]

/-- Rounded, 625 channels by 21 are requested with a microsecond less between the requests. -/
example : pauseWithin 625 1000000 21 = 503999 := by decide +kernel

end Pauses

section Calls
variable {n : ℕ} {u : ℤ}
  (hn : (if usec = 0 ∧ nChannel = 0 then (channelList.number : ℤ) else nChannel) = n)
  (hu : pauseWithin channelList.number usec n = u)
include hn hu

/-- A call that is due sends a request for the next channels. -/
theorem call_due {st : Statics} {now : ℤ} (hi : st.i < channelList.number)
    (hfirst : st.firstTime = false) (hdue : u ≤ now - st.lastTpNow) :
    nmxpSendAddTimeSeriesChannel host o channelList nChannel usec false now st =
      (⟨st.i + ((channelList.channel.drop st.i).take n).length, false, now⟩,
        if ((channelList.channel.drop st.i).take n).length > 0 then
          [nmxpSendAddTimeSeriesChannelRaw host o ⟨(channelList.channel.drop st.i).take n⟩]
        else []) := by
  unfold nmxpSendAddTimeSeriesChannel
  simp only [hn, hu, Bool.false_eq_true, if_false, hfirst, Int.toNat_natCast]
  rw [if_pos hi, if_pos hdue]

/-- Another call sends nothing. -/
theorem call_early {st : Statics} {now : ℤ} (hi : st.i < channelList.number)
    (hfirst : st.firstTime = false) (hearly : ¬ u ≤ now - st.lastTpNow) :
    nmxpSendAddTimeSeriesChannel host o channelList nChannel usec false now st = (st, []) := by
  unfold nmxpSendAddTimeSeriesChannel
  simp only [hn, hu, Bool.false_eq_true, if_false, hfirst]
  rw [if_pos hi, if_neg hearly]

/-- The first call is always due, if the pause is not the greatest `int`. -/
theorem call_first (hint : 0 ≤ u ∧ u < 2 ^ 31 - 1) (st : Statics) {now : ℤ}
    (h : 0 < channelList.number) :
    nmxpSendAddTimeSeriesChannel host o channelList nChannel usec true now st =
      (⟨(channelList.channel.take n).length, false, now⟩,
        if (channelList.channel.take n).length > 0 then
          [nmxpSendAddTimeSeriesChannelRaw host o ⟨channelList.channel.take n⟩]
        else []) := by
  unfold nmxpSendAddTimeSeriesChannel
  have hdiff : (u + 1).bmod (2 ^ 32) = u + 1 := Int.bmod_eq_of_le (by omega) (by omega)
  simp only [hn, hu, if_true, Int.toNat_natCast, hdiff]
  rw [if_pos h, if_pos (by omega), List.drop_zero, Nat.zero_add]

omit hn hu in
theorem keys_next (channelList : NmxpChanListNet) (n i : ℕ) :
    (channelList.channel.drop i).map (·.key) =
      ((channelList.channel.drop i).take n).map (·.key) ++ (channelList.channel.drop
        (i + ((channelList.channel.drop i).take n).length)).map (·.key) := by
  rw [← List.map_append, ← List.drop_drop,
    List.prefix_iff_eq_append.mp (List.take_prefix n (channelList.channel.drop i))]

omit hn hu in
variable (host o) in
theorem allRequestedKeys_request {l : List NmxpChanKeyNet} (h : l.length ≤ MAX_N_CHAN) :
    allRequestedKeys (if l.length > 0 then [nmxpSendAddTimeSeriesChannelRaw host o ⟨l⟩] else []) =
      l.map (·.key) := by
  unfold allRequestedKeys
  split_ifs with hl
  · rw [List.flatMap_singleton, requestedKeys_raw host o h]
  · rw [List.eq_nil_of_length_eq_zero (Nat.eq_zero_of_not_pos hl)]
    rfl

variable (hmax : channelList.number ≤ MAX_N_CHAN) (hsig : ∀ k, sigcondition k = false)
include hmax hsig

/-- A round of the loop after the first one. -/
theorem requestLoop_succ (times i : ℕ) {st : Statics} (hi : st.i < channelList.number)
    (hfirst : st.firstTime = false) :
    allRequestedKeys (requestLoop host o channelList nChannel usec clock sigcondition (times + 1)
        (i + 1) st) =
      if u ≤ clock (i + 1) - st.lastTpNow then
        ((channelList.channel.drop st.i).take n).map (·.key) ++
          allRequestedKeys (requestLoop host o channelList nChannel usec clock sigcondition times
            (i + 1 + 1)
            ⟨st.i + ((channelList.channel.drop st.i).take n).length, false, clock (i + 1)⟩)
      else allRequestedKeys (requestLoop host o channelList nChannel usec clock sigcondition times
        (i + 1 + 1) st) := by
  have hmax' : ((channelList.channel.drop st.i).take n).length ≤ MAX_N_CHAN :=
    ((List.take_sublist ..).trans (List.drop_sublist ..)).length_le.trans hmax
  rw [requestLoop, hsig, if_neg Bool.false_ne_true]
  have hrestart : (i + 1 == 0) = false := rfl
  dsimp only
  rw [hrestart]
  split_ifs with hdue
  · rw [call_due hn hu hi hfirst hdue, allRequestedKeys_append,
      allRequestedKeys_request host o hmax']
  · rw [call_early hn hu hi hfirst hdue]
    rfl

omit hn hu hmax in
/-- When all channels are requested, nothing more is sent. -/
theorem requestLoop_done (times : ℕ) : ∀ (i : ℕ) {st : Statics}, ¬ st.i < channelList.number →
    requestLoop host o channelList nChannel usec clock sigcondition times (i + 1) st = [] := by
  induction times with
  | zero => exact fun i st _ => rfl
  | succ times ih =>
    intro i st hi
    have hcall : nmxpSendAddTimeSeriesChannel host o channelList nChannel usec false (clock (i + 1))
        st = (st, []) := if_neg hi
    have hrestart : (i + 1 == 0) = false := rfl
    rw [requestLoop, hsig, if_neg Bool.false_ne_true]
    dsimp only
    rw [hrestart, hcall]
    exact ih (i + 1) hi

variable (host o clock) in
/-- **The calls after the first one** ask for the channels from the cursor on, in order, and for no
more than `n` each. -/
theorem requestLoop_ordered (times : ℕ) : ∀ (i : ℕ) (st : Statics), st.firstTime = false →
    allRequestedKeys (requestLoop host o channelList nChannel usec clock sigcondition times (i + 1)
      st) <+: (channelList.channel.drop st.i).map (·.key) ∧
    (allRequestedKeys (requestLoop host o channelList nChannel usec clock sigcondition times (i + 1)
      st)).length ≤ times * n := by
  induction times with
  | zero => exact fun i st _ => ⟨List.nil_prefix, Nat.zero_le _⟩
  | succ times ih =>
    intro i st hfirst
    by_cases hi : st.i < channelList.number
    · rw [requestLoop_succ hn hu hmax hsig times i hi hfirst]
      split_ifs
      · obtain ⟨h1, h2⟩ := ih (i + 1)
          ⟨st.i + ((channelList.channel.drop st.i).take n).length, false, clock (i + 1)⟩ rfl
        constructor
        · rw [keys_next channelList n st.i]
          exact (List.prefix_append_right_inj _).mpr h1
        · rw [List.length_append, List.length_map, Nat.succ_mul]
          have := List.length_take_le n (channelList.channel.drop st.i)
          omega
      · obtain ⟨h1, h2⟩ := ih (i + 1) st hfirst
        exact ⟨h1, h2.trans (Nat.mul_le_mul_right n (Nat.le_succ times))⟩
    · rw [requestLoop_done hsig _ _ hi]
      exact ⟨List.nil_prefix, Nat.zero_le _⟩

variable (host o clock) in
/-- **All channels from the cursor on are requested iff every call is due**, where there are just
as many calls as it takes. -/
theorem requestLoop_iff (times : ℕ) : ∀ (i : ℕ) (st : Statics), st.firstTime = false →
    channelList.number ≤ st.i + times * n →
    (∀ times', times = times' + 1 → times' * n < channelList.number - st.i) →
    (allRequestedKeys (requestLoop host o channelList nChannel usec clock sigcondition times (i + 1)
        st) = (channelList.channel.drop st.i).map (·.key) ↔
      ∀ m < times, u ≤ clock (i + 1 + m) - if m = 0 then st.lastTpNow else clock (i + m)) := by
  induction times with
  | zero =>
    intro i st _ hle _
    have hnil : channelList.channel.drop st.i = [] := List.drop_eq_nil_of_le
      (by rw [Nat.zero_mul] at hle; exact hle)
    rw [hnil]
    exact iff_of_true rfl (by simp)
  | succ times ih =>
    intro i st hfirst hle htight
    have hlt := htight times rfl
    have hi : st.i < channelList.number := by omega
    rw [requestLoop_succ hn hu hmax hsig times i hi hfirst, Nat.forall_lt_succ_left]
    have hlength : ((channelList.channel.drop st.i).take n).length =
        min n (channelList.number - st.i) := by
      rw [List.length_take, List.length_drop]
      rfl
    by_cases hdue : u ≤ clock (i + 1) - st.lastTpNow
    · have hmul := add_one_mul times n
      rw [if_pos hdue, keys_next channelList n st.i, List.append_right_inj, ih (i + 1) _ rfl]
      · have hindex : ∀ m, (u ≤ clock (i + 1 + (m + 1)) -
            if m + 1 = 0 then st.lastTpNow else clock (i + (m + 1))) ↔
            u ≤ clock (i + 1 + 1 + m) - if m = 0 then clock (i + 1) else clock (i + 1 + m) := by
          intro m
          have h1 : i + 1 + 1 + m = i + 1 + (m + 1) := by omega
          have h2 : i + 1 + m = i + (m + 1) := by omega
          rw [if_neg (Nat.succ_ne_zero m), h1, h2]
          cases m with
          | zero => rfl
          | succ m => rw [if_neg (Nat.succ_ne_zero m)]
        simp only [hindex]
        exact ⟨fun h => ⟨hdue, h⟩, fun h => h.2⟩
      · rw [hlength]
        dsimp only
        omega
      · rintro times' rfl
        have hmul' := add_one_mul times' n
        rw [hlength]
        dsimp only
        omega
    · -- one call less than it takes
      rw [if_neg hdue]
      refine iff_of_false (fun heq => ?_) fun h => hdue h.1
      have hlen : (allRequestedKeys (requestLoop host o channelList nChannel usec clock sigcondition
          times (i + 1 + 1) st)).length ≤ times * n :=
        (requestLoop_ordered host o clock hn hu hmax hsig times (i + 1) st hfirst).2
      rw [heq, List.length_map, List.length_drop] at hlen
      have hnumber : channelList.number = channelList.channel.length := rfl
      omega

/-- The whole loop, where there are just as many calls as it takes. -/
theorem requestLoop_all (hint : 0 ≤ u ∧ u < 2 ^ 31 - 1) (times : ℕ) (hpos : 0 < channelList.number)
    (hle : channelList.number ≤ (times + 1) * n) (htight : times * n < channelList.number)
    (st : Statics) :
    (allRequestedKeys (requestLoop host o channelList nChannel usec clock sigcondition (times + 1) 0
      st)).Perm (channelList.channel.map (·.key)) ↔
    ∀ k, k + 1 < times + 1 → u ≤ clock (k + 1) - clock k := by
  have hnumber : channelList.number = channelList.channel.length := rfl
  have hlength : (channelList.channel.take n).length = min n channelList.number :=
    List.length_take ..
  have hkeys := keys_next channelList n 0
  rw [List.drop_zero, Nat.zero_add] at hkeys
  have hrequest := allRequestedKeys_request host o
    (((List.take_sublist n channelList.channel).length_le).trans hmax)
  have hloop := requestLoop_iff host o clock hn hu hmax hsig times 0
    ⟨(channelList.channel.take n).length, false, clock 0⟩ rfl ?_ ?_
  have hprefix := (requestLoop_ordered host o clock hn hu hmax hsig times 0
    ⟨(channelList.channel.take n).length, false, clock 0⟩ rfl).1
  · rw [requestLoop, hsig, if_neg Bool.false_ne_true]
    show (allRequestedKeys ((nmxpSendAddTimeSeriesChannel host o channelList nChannel usec true _
      st).2 ++ requestLoop host o channelList nChannel usec clock sigcondition times (0 + 1)
        (nmxpSendAddTimeSeriesChannel host o channelList nChannel usec true _ st).1)).Perm _ ↔ _
    rw [call_first hn hu hint st hpos, allRequestedKeys_append, hrequest, hkeys,
      List.perm_append_left_iff]
    have hperm := Iff.intro (fun h : List.Perm _ _ => hprefix.eq_of_length h.length_eq)
      fun h => List.Perm.of_eq h
    rw [hperm, hloop]
    constructor
    · intro h k hk
      have := h k (by omega)
      rw [Nat.add_right_comm, Nat.zero_add] at this
      cases k <;> exact this
    · intro h k hk
      have := h k (by omega)
      rw [Nat.add_right_comm, Nat.zero_add]
      cases k <;> exact this
  · rw [hlength, add_one_mul] at *
    dsimp only
    omega
  · rintro times' rfl
    rw [add_one_mul] at htight
    dsimp only
    omega

end Calls

/-- The thread makes just as many calls as it takes. -/
theorem timesChannel_spec {number n : ℕ} (hn : 0 < n) (hpos : 0 < number) : ∃ times,
    timesChannel number n = times + 1 ∧ number ≤ (times + 1) * n ∧ times * n < number := by
  have htimes : timesChannel number n = number / n + if number % n = 0 then 0 else 1 := by
    unfold timesChannel
    rw [if_neg (by omega)]
    by_cases h : number % n = 0
    · have h' : (number : ℤ) % n = 0 := by exact_mod_cast h
      rw [if_pos h, if_pos h', add_zero, add_zero]
      exact Int.toNat_natCast _
    · have h' : ¬ (number : ℤ) % n = 0 := by exact_mod_cast h
      rw [if_neg h, if_neg h']
      exact Int.toNat_natCast (number / n + 1)
  have hdiv := Nat.div_add_mod' number n
  have hlt := Nat.mod_lt number hn
  by_cases h : number % n = 0
  · rw [if_pos h, add_zero] at htimes
    have hq : 0 < number / n := Nat.pos_of_ne_zero fun h0 => by
      rw [h0, Nat.zero_mul] at hdiv
      omega
    obtain ⟨times, hq⟩ := Nat.exists_eq_succ_of_ne_zero hq.ne'
    refine ⟨times, htimes.trans hq, ?_, ?_⟩ <;>
      · rw [hq, Nat.succ_eq_add_one] at hdiv
        have := add_one_mul times n
        omega
  · rw [if_neg h] at htimes
    refine ⟨number / n, htimes, ?_, ?_⟩
    · have := add_one_mul (number / n) n
      omega
    · omega

/-- Without channels nothing is sent. -/
theorem requestLoop_empty (hzero : channelList.number = 0) (hsig : ∀ k, sigcondition k = false)
    (times : ℕ) (st : Statics) :
    requestLoop host o channelList nChannel usec clock sigcondition times 0 st = [] := by
  cases times with
  | zero => rfl
  | succ times =>
    have hcall : nmxpSendAddTimeSeriesChannel host o channelList nChannel usec true (clock 0) st =
        ({ st with firstTime := true, i := 0 }, []) := if_neg (by rw [hzero]; exact lt_irrefl 0)
    have hrestart : ((0 : ℕ) == 0) = true := rfl
    rw [requestLoop, hsig, if_neg Bool.false_ne_true]
    dsimp only
    rw [hrestart, hcall, List.nil_append]
    exact requestLoop_done hsig times 0 (by rw [hzero]; exact lt_irrefl 0)

/-- **Requesting the channels.** Every channel is requested, once, iff the clock readings of the
calls are a pause apart. -/
theorem requests_iff (host : Host) (o : RequestOptions) (channelList : NmxpChanListNet)
    (hmax : channelList.number ≤ MAX_N_CHAN) (usec nChannel : ℤ)
    (hparams : CheckMschan usec nChannel) (clock : ℕ → ℤ) (sigcondition : ℕ → Bool)
    (hsig : ∀ k, sigcondition k = false) (st : Statics) :
    (allRequestedKeys (pNmxpSendAddTimeSeriesChannel host o channelList nChannel usec clock
      sigcondition st)).Perm (channelList.channel.map (·.key)) ↔
    ∀ k, k + 1 < timesChannel channelList.number nChannel →
      pauseWithin channelList.number usec nChannel ≤ clock (k + 1) - clock k := by
  unfold pNmxpSendAddTimeSeriesChannel
  rcases Nat.eq_zero_or_pos channelList.number with hzero | hpos
  · rw [hzero, requestLoop_empty hzero hsig, List.eq_nil_of_length_eq_zero hzero]
    refine iff_of_true (List.Perm.refl []) fun k hk => absurd hk ?_
    unfold timesChannel
    split_ifs <;> simp
  · rcases hparams with ⟨rfl, rfl⟩ | ⟨⟨h1, h2⟩, h3, -⟩
    · rw [pauseWithin_zero]
      exact requestLoop_all (if_pos ⟨rfl, rfl⟩) (pauseWithin_zero ..) hmax hsig (by decide) 0 hpos
        (by omega) (by omega) st
    · obtain ⟨n, rfl⟩ := Int.eq_ofNat_of_zero_le (show 0 ≤ nChannel from le_trans (by decide) h3)
      have hn : 0 < n := by
        unfold DEFAULT_N_CHANNEL_MINIMUM at h3
        omega
      unfold DEFAULT_USEC_MINIMUM DEFAULT_USEC_MAXIMUM at *
      have hle' := pauseWithin_le (Int.natCast_nonneg channelList.number) h1 (by omega)
        (Int.natCast_nonneg n)
      have hnonneg := pauseWithin_nonneg (Int.natCast_nonneg channelList.number)
        (Int.natCast_nonneg n) h1
      obtain ⟨times, htimes, hle, htight⟩ := timesChannel_spec hn hpos
      rw [htimes]
      exact requestLoop_all (if_neg fun h => by omega)
        (pauseWithin_idem ..) hmax hsig (by omega) times hpos hle htight st

/-- Four channels. -/
def fourChannels : NmxpChanListNet :=
  ⟨[⟨11, ['A'], by decide⟩, ⟨12, ['B'], by decide⟩, ⟨13, ['C'], by decide⟩, ⟨14, ['D'], by decide⟩]⟩

/-- The second call is made half a second after the first one, and all is requested. -/
theorem requests_iff_in_time :
    (fourChannels.number ≤ MAX_N_CHAN ∧ CheckMschan 280000 3) ∧
    (allRequestedKeys (pNmxpSendAddTimeSeriesChannel .little ⟨-1, -1, 0⟩ fourChannels 3 280000
        (fun k => 500000 * k) (fun _ => false) ⟨0, true, 0⟩)).Perm
          (fourChannels.channel.map (·.key)) := by
  have hparams : CheckMschan 280000 3 := Or.inr (by decide)
  have hpause : pauseWithin fourChannels.number 280000 3 = 280000 := by decide +kernel
  refine ⟨⟨by decide, hparams⟩, (requests_iff .little ⟨-1, -1, 0⟩ fourChannels (by decide) 280000 3
    hparams (fun k => 500000 * k) (fun _ => false) (fun _ => rfl) ⟨0, true, 0⟩).mpr fun k _ => ?_⟩
  rw [hpause]
  push_cast
  omega

/-- A signal ends the sleep after a tenth of a second, and the fourth channel is never requested. -/
theorem requests_interrupted :
    (fourChannels.number ≤ MAX_N_CHAN ∧ CheckMschan 280000 3) ∧
    ¬ (allRequestedKeys (pNmxpSendAddTimeSeriesChannel .little ⟨-1, -1, 0⟩ fourChannels 3 280000
        (fun k => 100000 * k) (fun _ => false) ⟨0, true, 0⟩)).Perm
          (fourChannels.channel.map (·.key)) :=
  ⟨⟨by decide, Or.inr (by decide)⟩, by decide +kernel⟩

end Nmxptool.Pds.Requests
