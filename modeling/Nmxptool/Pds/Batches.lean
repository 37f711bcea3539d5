import Nmxptool.Pds.Requests

/-! # Batches of channel requests

Each call of `nmxp_sendAddTimeSeriesChannel` requests the next `n_channel` channels if the pause is
over since the last batch. The first call has no batch before it; it takes the pause for over by
setting the time that has passed to one microsecond more.

* `formatted_raw`: what a batch looks like.
* `Partitions`: what the batches of a sequence of calls should be.
* `Partitions.snoc`: a call after others.
* `batches_iff`: the batches are as they should be unless the pause is the greatest `int`. -/

namespace Nmxptool.Pds.Batches

open Nmxptool.Lib.Bytes Nmxptool.Wire.Model Nmxptool.Chan.Channels Nmxptool.Pds.Requests

/-- The greatest `int`. -/
def INT_MAX : ℤ := 2 ^ 31 - 1

/-- A call, and the messages that it sent. -/
structure Call where
  now : ℤ
  sent : List Request

/-- Calls at the clock readings, of which the first has the given `flag_restart`. -/
def callRun (host : Host) (o : RequestOptions) (channelList : NmxpChanListNet)
    (nChannel nUsec : ℤ) : Bool → List ℤ → Statics → List Call
  | _, [], _ => []
  | flagRestart, tpNow :: clock, st =>
    let r := nmxpSendAddTimeSeriesChannel host o channelList nChannel nUsec flagRestart tpNow st
    ⟨tpNow, r.2⟩ :: callRun host o channelList nChannel nUsec false clock r.1

/-- The keys that calls asked for, in order. -/
def keysOf (run : List Call) : List Int32 := allRequestedKeys (run.flatMap Call.sent)

/-- A batch: `16 + 4k` bytes that hold a count `k`, as many keys, and the options. -/
structure Formatted (o : RequestOptions) (r : Request) : Prop where
  type : r.type = NMXP_MSG_ADDTIMESERIESCHANNELS
  length : r.buffer.length = 16 + 4 * (requestedKeys r).length
  count : (fieldAt r.buffer 0).toInt = (requestedKeys r).length
  nonempty : requestedKeys r ≠ []
  shortTermCompletion : fieldAt r.buffer (4 + 4 * (requestedKeys r).length) = o.shortTermCompletion
  outFormat : fieldAt r.buffer (8 + 4 * (requestedKeys r).length) = o.outFormat
  bufferFlag : fieldAt r.buffer (12 + 4 * (requestedKeys r).length) = o.bufferFlag

/-- The last batch of the calls was sent at `t`. -/
def LastBatch (run : List Call) (t : ℤ) : Prop :=
  ∃ before c quiet, run = before ++ c :: quiet ∧ c.sent ≠ [] ∧ c.now = t ∧
    ∀ q ∈ quiet, q.sent = []

/-- **What the batches should be**, for the keys of the list, `n` channels at a time and a pause:
each is as it should be; together they are the keys in order; each but the last one is full; and
nothing is sent only if nothing is left or the pause is not over. -/
structure Partitions (o : RequestOptions) (keys : List Int32) (n : ℕ) (pause : ℤ)
    (run : List Call) : Prop where
  single : ∀ c ∈ run, c.sent.length ≤ 1
  formatted : ∀ c ∈ run, ∀ r ∈ c.sent, Formatted o r
  ordered : keysOf run <+: keys
  full : ∀ before c after, run = before ++ c :: after → c.sent ≠ [] →
    (keysOf [c]).length = n ∨ keysOf (before ++ [c]) = keys
  quiet : ∀ before c after, run = before ++ c :: after → c.sent = [] →
    keysOf before = keys ∨ ∃ t, LastBatch before t ∧ c.now - t < pause

/-- The number of channels in a batch. -/
def batchSize (channelList : NmxpChanListNet) (nUsec nChannel : Int32) : ℕ :=
  if nUsec.toInt = 0 ∧ nChannel.toInt = 0 then channelList.number else nChannel.toInt.toNat

/-- The pause between two batches. -/
def effectivePause (channelList : NmxpChanListNet) (nUsec nChannel : Int32) : ℤ :=
  pauseWithin channelList.number nUsec.toInt (batchSize channelList nUsec nChannel)

/-! ### A batch -/

theorem keysOf_append (run run' : List Call) :
    keysOf (run ++ run') = keysOf run ++ keysOf run' := by
  unfold keysOf
  rw [List.flatMap_append, allRequestedKeys_append]

theorem keysOf_single (c : Call) : keysOf [c] = allRequestedKeys c.sent := by
  unfold keysOf
  rw [List.flatMap_singleton]

/-- **What a batch looks like.** -/
theorem formatted_raw (host : Host) (o : RequestOptions) {l : List NmxpChanKeyNet} (hl : l ≠ [])
    (hmax : l.length ≤ MAX_N_CHAN) :
    Formatted o (nmxpSendAddTimeSeriesChannelRaw host o ⟨l⟩) := by
  have hkeys : requestedKeys (nmxpSendAddTimeSeriesChannelRaw host o ⟨l⟩) = l.map (·.key) :=
    requestedKeys_raw host o hmax
  have hbuffer := buffer_raw host o ⟨l⟩
  have hlen : ((l.map (·.key)).flatMap network32).length = 4 * l.length := by
    rw [length_flatMap_network32, List.length_map]
  -- a field behind the keys, with what lies before and behind it
  have hfield (pre rest : List UInt8) {v : Int32} {k : ℕ}
      (h : (nmxpSendAddTimeSeriesChannelRaw host o ⟨l⟩).buffer = pre ++ (network32 v ++ rest))
      (hpre : pre.length = k + 4 * (l.map (·.key)).length) :
      fieldAt (nmxpSendAddTimeSeriesChannelRaw host o ⟨l⟩).buffer
        (k + 4 * (l.map (·.key)).length) = v := by
    rw [h]
    exact fieldAt_network32 pre hpre
  refine ⟨rfl, ?_, ?_, ?_, ?_, ?_, ?_⟩
  all_goals rw [hkeys]
  · rw [hbuffer]
    simp only [List.length_append, length_network32, hlen, List.length_map]
    omega
  · have hcount : fieldAt (nmxpSendAddTimeSeriesChannelRaw host o ⟨l⟩).buffer 0 =
        Int32.ofNat l.length := by
      rw [hbuffer]
      exact fieldAt_network32 [] rfl
    unfold MAX_N_CHAN at hmax
    rw [hcount, Int32.toInt_ofNat_of_lt (by omega), List.length_map]
  · simpa using hl
  · refine hfield (network32 (Int32.ofNat l.length) ++ (l.map (·.key)).flatMap network32)
      (network32 o.outFormat ++ network32 o.bufferFlag) ?_ ?_
    · rw [hbuffer, List.append_assoc]
      rfl
    · rw [List.length_append, length_network32, hlen, List.length_map]
  · refine hfield (network32 (Int32.ofNat l.length) ++ ((l.map (·.key)).flatMap network32 ++
      network32 o.shortTermCompletion)) (network32 o.bufferFlag) ?_ ?_
    · rw [hbuffer, List.append_assoc, List.append_assoc]
      rfl
    · simp only [List.length_append, length_network32, hlen, List.length_map]
      omega
  · refine hfield (network32 (Int32.ofNat l.length) ++ ((l.map (·.key)).flatMap network32 ++
      (network32 o.shortTermCompletion ++ network32 o.outFormat))) [] ?_ ?_
    · rw [hbuffer, List.append_nil, List.append_assoc, List.append_assoc, List.append_assoc]
      rfl
    · simp only [List.length_append, length_network32, hlen, List.length_map]
      omega

/-! ### A call after others -/

variable {o : RequestOptions} {keys : List Int32} {n : ℕ} {pause : ℤ} {run : List Call} {c : Call}

/-- A place in calls with one call added. -/
theorem append_singleton_eq {before after : List Call} {c' : Call}
    (h : run ++ [c] = before ++ c' :: after) :
    (run = before ∧ c = c' ∧ after = []) ∨
      ∃ after', after = after' ++ [c] ∧ run = before ++ c' :: after' := by
  rcases List.eq_nil_or_concat after with rfl | ⟨after', d, rfl⟩
  · obtain ⟨h1, h2⟩ := List.append_inj' h rfl
    exact Or.inl ⟨h1, List.head_eq_of_cons_eq h2, rfl⟩
  · right
    rw [List.concat_eq_append, ← List.cons_append, ← List.append_assoc] at h
    obtain ⟨h1, h2⟩ := List.append_inj' h rfl
    obtain rfl := List.head_eq_of_cons_eq h2
    exact ⟨after', List.concat_eq_append, h1⟩

/-- **A call after others.** -/
theorem Partitions.snoc (h : Partitions o keys n pause run) (hsingle : c.sent.length ≤ 1)
    (hformatted : ∀ r ∈ c.sent, Formatted o r) (hordered : keysOf (run ++ [c]) <+: keys)
    (hfull : c.sent ≠ [] → (keysOf [c]).length = n ∨ keysOf (run ++ [c]) = keys)
    (hquiet : c.sent = [] → keysOf run = keys ∨ ∃ t, LastBatch run t ∧ c.now - t < pause) :
    Partitions o keys n pause (run ++ [c]) := by
  refine ⟨fun d hd => ?_, fun d hd => ?_, hordered, fun before d after heq hd => ?_,
    fun before d after heq hd => ?_⟩
  · rcases List.mem_append.mp hd with hd | hd
    · exact h.single d hd
    · rw [List.mem_singleton.mp hd]
      exact hsingle
  · rcases List.mem_append.mp hd with hd | hd
    · exact h.formatted d hd
    · rw [List.mem_singleton.mp hd]
      exact hformatted
  · rcases append_singleton_eq heq with ⟨rfl, rfl, -⟩ | ⟨after', -, heq'⟩
    · exact hfull hd
    · exact h.full before d after' heq' hd
  · rcases append_singleton_eq heq with ⟨rfl, rfl, -⟩ | ⟨after', -, heq'⟩
    · exact hquiet hd
    · exact h.quiet before d after' heq' hd

/-- A batch of the size of the list is the whole list. -/
theorem Partitions.whole {after : List Call}
    (h : Partitions o keys keys.length pause (c :: after)) : keysOf [c] = keys := by
  by_cases hc : c.sent = []
  · rcases h.quiet [] c after rfl hc with hkeys | ⟨t, ⟨before, d, quiet, heq, -⟩, -⟩
    · rw [keysOf_single, hc]
      exact hkeys
    · exact absurd heq (by simp)
  · rcases h.full [] c after rfl hc with hlen | hkeys
    · have hprefix : keysOf [c] <+: keys := by
        refine (List.prefix_append _ (keysOf after)).trans ?_
        rw [← keysOf_append]
        exact h.ordered
      exact hprefix.eq_of_length hlen
    · exact hkeys

theorem partitions_nil (o : RequestOptions) (keys : List Int32) (n : ℕ) (pause : ℤ) :
    Partitions o keys n pause [] :=
  ⟨by simp, by simp, List.nil_prefix, by simp, by simp⟩

theorem lastBatch_snoc_sent (h : c.sent ≠ []) : LastBatch (run ++ [c]) c.now :=
  ⟨run, c, [], rfl, h, rfl, by simp⟩

theorem lastBatch_snoc_quiet {t : ℤ} (h : LastBatch run t) (hc : c.sent = []) :
    LastBatch (run ++ [c]) t := by
  obtain ⟨before, d, quiet, rfl, hd, ht, hquiet⟩ := h
  refine ⟨before, d, quiet ++ [c], by simp, hd, ht, fun q hq => ?_⟩
  rcases List.mem_append.mp hq with hq | hq
  · exact hquiet q hq
  · rw [List.mem_singleton.mp hq]
    exact hc

/-! ### The calls -/

/-- Calls that are as they should be, and the state after them. -/
structure Good (o : RequestOptions) (keys : List Int32) (n : ℕ) (pause : ℤ) (run : List Call)
    (st : Statics) : Prop where
  partitions : Partitions o keys n pause run
  requested : keysOf run = keys.take st.i
  firstTime : st.firstTime = false
  last : LastBatch run st.lastTpNow

section

variable {host : Host} {channelList : NmxpChanListNet} {nChannel nUsec : ℤ}

/-- A batch of the next channels, sent after others. -/
theorem good_batch (host : Host) (o : RequestOptions) (pause now : ℤ)
    (hmax : channelList.number ≤ MAX_N_CHAN) {i : ℕ} (hn : 0 < n) (hi : i < channelList.number)
    (hpartitions : Partitions o (channelList.channel.map (·.key)) n pause run)
    (hrequested : keysOf run = (channelList.channel.map (·.key)).take i) :
    Good o (channelList.channel.map (·.key)) n pause
      (run ++ [⟨now, if ((channelList.channel.drop i).take n).length > 0 then
        [nmxpSendAddTimeSeriesChannelRaw host o ⟨(channelList.channel.drop i).take n⟩] else []⟩])
      ⟨i + ((channelList.channel.drop i).take n).length, false, now⟩ := by
  have hnumber : channelList.number = channelList.channel.length := rfl
  have hlen : ((channelList.channel.drop i).take n).length = min n (channelList.number - i) := by
    rw [List.length_take, List.length_drop, hnumber]
  have hpos : ((channelList.channel.drop i).take n).length > 0 := by omega
  have hmax' : ((channelList.channel.drop i).take n).length ≤ MAX_N_CHAN := by omega
  have hbatch := allRequestedKeys_request host o hmax'
  rw [if_pos hpos] at hbatch ⊢
  have hkeys : keysOf (run ++ [⟨now, [nmxpSendAddTimeSeriesChannelRaw host o
      ⟨(channelList.channel.drop i).take n⟩]⟩]) =
      (channelList.channel.map (·.key)).take
        (i + ((channelList.channel.drop i).take n).length) := by
    have hself := List.prefix_iff_eq_take.mp (List.take_prefix n (channelList.channel.drop i))
    rw [keysOf_append, keysOf_single, hrequested, hbatch, List.take_add, ← List.map_drop,
      ← List.map_take, ← List.map_take, ← hself]
  refine ⟨hpartitions.snoc le_rfl ?_ ?_ ?_ ?_, hkeys, rfl, lastBatch_snoc_sent (by simp)⟩
  · intro r hr
    rw [List.mem_singleton.mp hr]
    exact formatted_raw host o (List.ne_nil_of_length_pos hpos) hmax'
  · rw [hkeys]
    exact List.take_prefix _ _
  · intro _
    rw [keysOf_single, hbatch, List.length_map, hkeys]
    rcases Nat.le_total n (channelList.number - i) with hle | hle
    · exact Or.inl (by omega)
    · exact Or.inr (List.take_of_length_le (by rw [List.length_map]; omega))
  · intro h
    exact absurd h (by simp)

variable {u : ℤ} {st : Statics}
  (hn : (if nUsec = 0 ∧ nChannel = 0 then (channelList.number : ℤ) else nChannel) = n)
  (hu : pauseWithin channelList.number nUsec n = u)
  (hmax : channelList.number ≤ MAX_N_CHAN) (hpos : 0 < n)
include hn hu hmax hpos

/-- **One more call.** -/
theorem good_call (host : Host) (now : ℤ)
    (h : Good o (channelList.channel.map (·.key)) n u run st) :
    Good o (channelList.channel.map (·.key)) n u
      (run ++ [⟨now, (nmxpSendAddTimeSeriesChannel host o channelList nChannel nUsec false now
        st).2⟩])
      (nmxpSendAddTimeSeriesChannel host o channelList nChannel nUsec false now st).1 := by
  -- a call that sends nothing leaves the state as it is
  have hnothing (hcause : keysOf run = channelList.channel.map (·.key) ∨ now - st.lastTpNow < u) :
      Good o (channelList.channel.map (·.key)) n u (run ++ [⟨now, []⟩]) st := by
    have hkeys : keysOf (run ++ [⟨now, []⟩]) = keysOf run := by
      rw [keysOf_append, keysOf_single]
      exact List.append_nil _
    refine ⟨h.partitions.snoc (Nat.zero_le 1) (by simp) ?_ (fun hc => absurd rfl hc) fun _ => ?_,
      hkeys.trans h.requested, h.firstTime, lastBatch_snoc_quiet h.last rfl⟩
    · rw [hkeys]
      exact h.partitions.ordered
    · exact hcause.imp_right fun hlt => ⟨st.lastTpNow, h.last, hlt⟩
  by_cases hi : st.i < channelList.number
  · by_cases hdue : u ≤ now - st.lastTpNow
    · rw [call_due hn hu hi h.firstTime hdue]
      exact good_batch host o u now hmax hpos hi h.partitions h.requested
    · rw [call_early hn hu hi h.firstTime hdue]
      exact hnothing (Or.inr (not_le.mp hdue))
  · have hcall : nmxpSendAddTimeSeriesChannel host o channelList nChannel nUsec false now st =
        (st, []) := if_neg hi
    rw [hcall]
    refine hnothing (Or.inl (h.requested.trans (List.take_of_length_le ?_)))
    rw [List.length_map]
    exact not_lt.mp hi

/-- **Any number of calls.** -/
theorem partitions_callRun (clock : List ℤ)
    (h : Good o (channelList.channel.map (·.key)) n u run st) :
    Partitions o (channelList.channel.map (·.key)) n u
      (run ++ callRun host o channelList nChannel nUsec false clock st) := by
  induction clock generalizing run st with
  | nil => rw [callRun, List.append_nil]; exact h.partitions
  | cons now clock ih =>
    have hrest := ih (good_call hn hu hmax hpos host now h)
    rw [List.append_assoc] at hrest
    exact hrest

/-- **The first call and those after it.** -/
theorem partitions_first (hint : 0 ≤ u ∧ u < 2 ^ 31 - 1) (hnumber : 0 < channelList.number)
    (now : ℤ) (clock : List ℤ) :
    Partitions o (channelList.channel.map (·.key)) n u
      (callRun host o channelList nChannel nUsec true (now :: clock) st) := by
  have hgood := good_batch host o u now hmax hpos hnumber (partitions_nil o _ n u) rfl
  rw [List.drop_zero, Nat.zero_add] at hgood
  rw [callRun, call_first hn hu hint st hnumber]
  exact partitions_callRun hn hu hmax hpos clock hgood

omit hpos hmax in
/-- With the greatest `int` as the pause, the first call sends nothing. -/
theorem not_partitions_first (hmaxint : u = INT_MAX) (hnumber : 0 < channelList.number) (now : ℤ)
    (clock : List ℤ) :
    ¬Partitions o (channelList.channel.map (·.key)) n u
      (callRun host o channelList nChannel nUsec true (now :: clock) st) := by
  have hcall : (nmxpSendAddTimeSeriesChannel host o channelList nChannel nUsec true now st).2 =
      [] := by
    have hearly : ¬(u + 1).bmod (2 ^ 32) ≥ u := by
      rw [hmaxint]
      decide
    unfold nmxpSendAddTimeSeriesChannel
    simp only [hn, hu, if_true]
    rw [if_pos hnumber, if_neg hearly]
  intro h
  rcases h.quiet [] _ _ rfl hcall with hkeys | ⟨t, ⟨before, d, quiet, heq, -⟩, -⟩
  · have hlen := congrArg List.length hkeys
    rw [List.length_map] at hlen
    exact hnumber.ne hlen
  · exact absurd heq (by simp)

end

/-- Without channels nothing is sent, and nothing is left. -/
theorem partitions_empty (host : Host) {channelList : NmxpChanListNet} (nChannel nUsec : ℤ)
    (hnumber : channelList.number = 0) (flagRestart : Bool) (clock : List ℤ) (st : Statics)
    (h : Partitions o [] n pause run) (hrun : keysOf run = []) :
    Partitions o [] n pause
      (run ++ callRun host o channelList nChannel nUsec flagRestart clock st) := by
  induction clock generalizing flagRestart run st with
  | nil => rw [callRun, List.append_nil]; exact h
  | cons now clock ih =>
    have hcall : (nmxpSendAddTimeSeriesChannel host o channelList nChannel nUsec flagRestart now
        st).2 = [] := by
      unfold nmxpSendAddTimeSeriesChannel
      cases flagRestart <;> simp [hnumber]
    have hkeys : keysOf (run ++ [⟨now, []⟩]) = [] := by
      rw [keysOf_append, hrun]
      rfl
    rw [callRun, hcall, List.append_cons]
    exact ih false _ (h.snoc (Nat.zero_le 1) (by simp) (hkeys ▸ List.nil_prefix)
      (fun hc => absurd rfl hc) fun _ => Or.inl hrun) hkeys

/-- So many channels are not requested in just the limit with the greatest `int` as the pause. -/
theorem mul_max_ne {number n : ℕ} (hnumber : number ≤ MAX_N_CHAN) (hn : 0 < n) :
    INT_MAX * (number : ℤ) ≠ 15000000 * n := by
  intro h
  have h' : 2147483647 * number = 15000000 * n := by
    unfold INT_MAX at h
    omega
  have hdvd : 2147483647 ∣ n :=
    (by decide +kernel : Nat.Coprime 2147483647 15000000).dvd_of_dvd_mul_left ⟨number, h'.symm⟩
  have hle := Nat.le_of_dvd hn hdvd
  unfold MAX_N_CHAN at hnumber
  omega

/-- Which pauses are the greatest `int`: those that were given so, for so many channels at a time
that all requests are made within the limit. -/
theorem pauseWithin_eq_max {number n : ℕ} (hnumber : number ≤ MAX_N_CHAN) {usec : ℤ} (hn : 0 < n)
    (h0 : 0 ≤ usec) (husec : usec ≤ INT_MAX) :
    pauseWithin number usec n = INT_MAX ↔ usec = INT_MAX ∧ INT_MAX * number ≤ 15000000 * n := by
  have hsize : INT_MAX * (number : ℤ) ≤ 2 ^ 43 := by
    unfold INT_MAX MAX_N_CHAN at *
    omega
  have hexceeds : estimatedTime number INT_MAX n > NMXP_MAX_MSCHAN_MSEC / 1000 ↔
      15000000 * (n : ℤ) < INT_MAX * number :=
    exceeds_iff_of_ne (Int.natCast_nonneg number) (by decide) (by omega) hsize
      (mul_max_ne hnumber hn)
  by_cases hlt : estimatedTime number usec n > NMXP_MAX_MSCHAN_MSEC / 1000
  · have hpause : pauseWithin number usec n = ⌊shorterPause number n⌋ := if_pos hlt
    rw [hpause]
    rcases husec.eq_or_lt with rfl | hmax
    · have hexact := hexceeds.mp hlt
      have hpos := (pos_of_exceeds (Int.natCast_nonneg number) (Int.natCast_nonneg n) hlt).1
      have hfloor := floor_lt_of_lt hpos (Int.natCast_nonneg n) hsize hexact
      exact iff_of_false hfloor.ne fun h => h.2.not_gt hexact
    · have hfloor := floor_le_of_exceeds (Int.natCast_nonneg number) h0
        (by unfold INT_MAX at husec; omega) (Int.natCast_nonneg n) hlt
      exact iff_of_false (hfloor.trans_lt hmax).ne fun h => hmax.ne h.1
  · have hpause : pauseWithin number usec n = usec := if_neg hlt
    rw [hpause]
    refine ⟨?_, fun h => h.1⟩
    rintro rfl
    exact ⟨rfl, not_lt.mp fun h => hlt (hexceeds.mpr h)⟩

section

variable {channelList : NmxpChanListNet} {nUsec nChannel : Int32}
  (hparams : (nUsec.toInt = 0 ∧ nChannel.toInt = 0) ∨ (0 ≤ nUsec.toInt ∧ 1 ≤ nChannel.toInt))
include hparams

theorem batchSize_eq :
    (if nUsec.toInt = 0 ∧ nChannel.toInt = 0 then (channelList.number : ℤ) else nChannel.toInt) =
      batchSize channelList nUsec nChannel := by
  unfold batchSize
  split_ifs with h0
  · rfl
  · rcases hparams with h | h
    · exact absurd h h0
    · exact (Int.toNat_of_nonneg (by omega)).symm

theorem batchSize_pos (hnumber : 0 < channelList.number) :
    0 < batchSize channelList nUsec nChannel := by
  unfold batchSize
  split_ifs with h0
  · exact hnumber
  · rcases hparams with h | h
    · exact absurd h h0
    · omega

theorem effectivePause_bounds :
    0 ≤ effectivePause channelList nUsec nChannel ∧
      effectivePause channelList nUsec nChannel ≤ INT_MAX := by
  have hlt := nUsec.toInt_lt
  have husec : 0 ≤ nUsec.toInt := by omega
  have hle := pauseWithin_le (Int.natCast_nonneg channelList.number) husec (by omega)
    (Int.natCast_nonneg (batchSize channelList nUsec nChannel))
  refine ⟨pauseWithin_nonneg (Int.natCast_nonneg _) (Int.natCast_nonneg _) husec, ?_⟩
  unfold effectivePause INT_MAX
  omega

theorem effectivePause_eq_max (hmax : channelList.number ≤ MAX_N_CHAN)
    (hnumber : 0 < channelList.number) :
    effectivePause channelList nUsec nChannel = INT_MAX ↔
      nUsec.toInt = INT_MAX ∧ INT_MAX * channelList.number ≤ 15000000 * nChannel.toInt := by
  have h0 : 0 ≤ nUsec.toInt := by omega
  have husec : nUsec.toInt ≤ INT_MAX := by
    have := nUsec.toInt_lt
    unfold INT_MAX
    omega
  unfold effectivePause
  rw [pauseWithin_eq_max hmax (batchSize_pos hparams hnumber) h0 husec]
  refine and_congr_right fun hmaxint => ?_
  have hne : ¬(nUsec.toInt = 0 ∧ nChannel.toInt = 0) := fun h => by
    rw [h.1] at hmaxint
    exact absurd hmaxint (by decide)
  rw [← batchSize_eq hparams, if_neg hne]

end

/-- **The batches are as they should be** unless the pause is the greatest `int`, to which the
first call cannot add. -/
theorem batches_iff (host : Host) (o : RequestOptions) {channelList : NmxpChanListNet}
    (hmax : channelList.number ≤ MAX_N_CHAN) {nUsec nChannel : Int32}
    (hparams : (nUsec.toInt = 0 ∧ nChannel.toInt = 0) ∨ (0 ≤ nUsec.toInt ∧ 1 ≤ nChannel.toInt))
    (clock : List ℤ) (st : Statics) :
    (Partitions o (channelList.channel.map (·.key)) (batchSize channelList nUsec nChannel)
        (effectivePause channelList nUsec nChannel)
        (callRun host o channelList nChannel.toInt nUsec.toInt true clock st) ∧
      (nUsec.toInt = 0 ∧ nChannel.toInt = 0 → ∀ c after,
        callRun host o channelList nChannel.toInt nUsec.toInt true clock st = c :: after →
          keysOf [c] = channelList.channel.map (·.key))) ↔
    ¬(clock ≠ [] ∧ 0 < channelList.number ∧ nUsec.toInt = INT_MAX ∧
      INT_MAX * channelList.number ≤ 15000000 * nChannel.toInt) := by
  have hn : (if nUsec.toInt = 0 ∧ nChannel.toInt = 0 then (channelList.number : ℤ)
      else nChannel.toInt) = batchSize channelList nUsec nChannel := batchSize_eq hparams
  -- a batch of the size of the list is the whole list
  have hwhole (run : List Call) (h : Partitions o (channelList.channel.map (·.key))
      (batchSize channelList nUsec nChannel) (effectivePause channelList nUsec nChannel) run)
      (h0 : nUsec.toInt = 0 ∧ nChannel.toInt = 0) (c : Call) (after : List Call)
      (hrun : run = c :: after) : keysOf [c] = channelList.channel.map (·.key) := by
    have hsize : batchSize channelList nUsec nChannel =
        (channelList.channel.map (·.key)).length := by
      unfold batchSize
      rw [if_pos h0, List.length_map]
      rfl
    rw [hrun, hsize] at h
    exact h.whole
  cases clock with
  | nil =>
    have hnil := partitions_nil o (channelList.channel.map (·.key))
      (batchSize channelList nUsec nChannel) (effectivePause channelList nUsec nChannel)
    exact iff_of_true ⟨hnil, hwhole _ hnil⟩ fun h => h.1 rfl
  | cons now clock =>
    rcases Nat.eq_zero_or_pos channelList.number with hzero | hnumber
    · have hkeys : channelList.channel.map (·.key) = [] := by
        rw [List.map_eq_nil_iff]
        exact List.eq_nil_of_length_eq_zero hzero
      have hempty := partitions_empty host nChannel.toInt nUsec.toInt hzero true (now :: clock) st
        (partitions_nil o [] (batchSize channelList nUsec nChannel)
          (effectivePause channelList nUsec nChannel)) rfl
      rw [List.nil_append, ← hkeys] at hempty
      exact iff_of_true ⟨hempty, hwhole _ hempty⟩ fun h => h.2.1.ne' hzero
    · by_cases hmaxint : effectivePause channelList nUsec nChannel = INT_MAX
      · have hcause := (effectivePause_eq_max hparams hmax hnumber).mp hmaxint
        refine iff_of_false (fun h => ?_) fun h => h ⟨by simp, hnumber, hcause⟩
        exact not_partitions_first hn rfl hmaxint hnumber now clock h.1
      · have hcause := fun h => hmaxint ((effectivePause_eq_max hparams hmax hnumber).mpr h)
        have hint : 0 ≤ effectivePause channelList nUsec nChannel ∧
            effectivePause channelList nUsec nChannel < 2 ^ 31 - 1 :=
          (effectivePause_bounds hparams).imp_right fun hle => lt_of_le_of_ne hle hmaxint
        have hfirst : Partitions o (channelList.channel.map (·.key))
            (batchSize channelList nUsec nChannel) (effectivePause channelList nUsec nChannel)
            (callRun host o channelList nChannel.toInt nUsec.toInt true (now :: clock) st) :=
          partitions_first hn rfl hmax (batchSize_pos hparams hnumber) hint hnumber now clock
        exact iff_of_true ⟨hfirst, hwhole _ hfirst⟩ fun h => hcause h.2.2

/-- With a channel and the greatest `int` as the pause, the first call sends nothing. -/
theorem batches_maxPause : ¬∀ (host : Host) (o : RequestOptions) (channelList : NmxpChanListNet),
    channelList.number ≤ MAX_N_CHAN → ∀ nUsec nChannel : Int32,
      (nUsec.toInt = 0 ∧ nChannel.toInt = 0) ∨ (0 ≤ nUsec.toInt ∧ 1 ≤ nChannel.toInt) →
        ∀ (clock : List ℤ) (st : Statics),
          Partitions o (channelList.channel.map (·.key)) (batchSize channelList nUsec nChannel)
            (effectivePause channelList nUsec nChannel)
            (callRun host o channelList nChannel.toInt nUsec.toInt true clock st) := by
  intro hclaim
  have hparams : ((2147483647 : Int32).toInt = 0 ∧ (1000 : Int32).toInt = 0) ∨
      (0 ≤ (2147483647 : Int32).toInt ∧ 1 ≤ (1000 : Int32).toInt) := Or.inr (by decide)
  have hnumber : 0 < (oneChannel 11).number := by decide
  have hpause : effectivePause (oneChannel 11) 2147483647 1000 = INT_MAX :=
    (effectivePause_eq_max hparams (by decide) hnumber).mpr (by decide)
  exact not_partitions_first (batchSize_eq hparams) rfl hpause hnumber 0 []
    (hclaim .little ⟨-1, -1, 0⟩ (oneChannel 11) (by decide) 2147483647 1000 hparams [0]
      ⟨0, true, 0⟩)

/-- Four channels, three at a time, at two clock readings half a second apart. -/
theorem batches_iff_four :
    (fourChannels.number ≤ MAX_N_CHAN ∧
      (((280000 : Int32).toInt = 0 ∧ (3 : Int32).toInt = 0) ∨
        (0 ≤ (280000 : Int32).toInt ∧ 1 ≤ (3 : Int32).toInt))) ∧
    Partitions ⟨-1, -1, 0⟩ (fourChannels.channel.map (·.key)) (batchSize fourChannels 280000 3)
      (effectivePause fourChannels 280000 3)
      (callRun .little ⟨-1, -1, 0⟩ fourChannels (3 : Int32).toInt (280000 : Int32).toInt true
        [0, 500000] ⟨0, true, 0⟩) :=
  ⟨⟨by decide, Or.inr (by decide)⟩, ((batches_iff .little ⟨-1, -1, 0⟩ (by decide)
    (Or.inr (by decide)) [0, 500000] ⟨0, true, 0⟩).mpr fun h => absurd h.2.2.1 (by decide)).1⟩

end Nmxptool.Pds.Batches
