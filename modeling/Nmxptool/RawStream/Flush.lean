import Nmxptool.RawStream.Runs
import Nmxptool.Chan.Channels

/-! # Flushing

`flushing_raw_data_stream` makes one call with NULL for every channel, and `nmxptool_chanseq_free`
then frees whatever the buffers still hold. `flush_iff`: nothing is lost exactly when, in every
channel, the numbers of the packets that the call walks over leave no gap. -/

namespace Nmxptool.RawStream.Flush

open Nmxptool.Data.Process Nmxptool.Lib.Floating Nmxptool.Chan.Channels
open Nmxptool.Lib.Run Nmxptool.Lib.Sorting Nmxptool.Lib.Drain Nmxptool.Lib.Resequencer
open Nmxptool.RawStream.Model Nmxptool.RawStream.Slots Nmxptool.RawStream.Manage
open Nmxptool.RawStream.Runs

/-- `NMXPTOOL_CHAN_SEQ`. -/
structure NmxptoolChanSeq where
  significant : Int32
  lastTime : Double
  lastTimeCallRawStream : ℤ
  x1 : Int32
  afterStartTime : ℚ
  rawStreamBuffer : NmxpRawStreamData
  deriving DecidableEq

/-- `nmxptool_chanseq_init`. -/
def nmxptoolChanseqInit (number : ℕ) (defaultAfterStartTime : ℚ)
    (maxTolerableLatency timeoutrecv : Int32) : List NmxptoolChanSeq :=
  List.replicate number
    { significant := 0
      lastTime := .finite 0
      lastTimeCallRawStream := 0
      x1 := 0
      afterStartTime := defaultAfterStartTime
      rawStreamBuffer := nmxpRawStreamInit maxTolerableLatency timeoutrecv }

/-- The loop over the channels, with `left` of them from `to_cur_chan` on. Events are tagged with
their channel. -/
def flushLoop (Q : Qsort) (nFuncPd : ℕ) (clocks : ℕ → Clock) : ℕ → ℕ → List NmxptoolChanSeq →
    Except Fault (List NmxptoolChanSeq × List (ℕ × Event))
  | 0, _, seqs => return (seqs, [])
  | left + 1, toCurChan, seqs =>
    match seqs[toCurChan]? with
    | none => .error .slotOutOfRange
    | some s => do
      let (p, evs) ← nmxpRawStreamManage Q nFuncPd (clocks toCurChan) s.rawStreamBuffer none
      let (seqs, evs') ← flushLoop Q nFuncPd clocks left (toCurChan + 1)
        (seqs.set toCurChan { s with rawStreamBuffer := p })
      return (seqs, evs.map (toCurChan, ·) ++ evs')

/-- **`flushing_raw_data_stream`.** A list that does not exist is `none`. -/
def flushingRawDataStream (Q : Qsort) (nFuncPd : ℕ) (clocks : ℕ → Clock) (stc : Int32)
    (channelListSubset : Option NmxpChanListNet) (channelListSeq : Option (List NmxptoolChanSeq)) :
    Except Fault (Option (List NmxptoolChanSeq) × List (ℕ × Event)) :=
  match channelListSubset, channelListSeq with
  | some subset, some seqs =>
    if stc = -1 then do
      let (seqs, evs) ← flushLoop Q nFuncPd clocks subset.number 0 seqs
      return (some seqs, evs)
    else return (some seqs, [])
  | _, _ => return (channelListSeq, [])

/-- The loop of `nmxp_raw_stream_free`, with `left` slots from `j` on. -/
def freeLoop : ℕ → ℕ → Slots → Except Fault (List Event)
  | 0, _, _ => return []
  | left + 1, j, a => do
    match ← readSlot a j with
    | none => freeLoop left (j + 1) a
    | some pd => do
      let evs ← freeLoop left (j + 1) a
      return .freed pd :: evs

/-- `nmxp_raw_stream_free`. -/
def nmxpRawStreamFree (p : NmxpRawStreamData) : Except Fault (List Event) :=
  freeLoop p.nPdlist.toNat 0 p.pdlist

/-- `nmxptool_chanseq_free`. -/
def nmxptoolChanseqFree : List NmxptoolChanSeq → Except Fault (List Event)
  | [] => return []
  | s :: seqs => do
    let evs ← nmxpRawStreamFree s.rawStreamBuffer
    let evs' ← nmxptoolChanseqFree seqs
    return evs ++ evs'

/-! ### One channel -/

/-- The packets `l` have all been handed to every function, once and in order, and are gone. -/
structure Flushed (nFuncPd : ℕ) (l : List Pd) (q : NmxpRawStreamData) (evs : List Event) :
    Prop where
  once : ∀ i < nFuncPd, (handedTo i evs).Perm l
  inOrder : ∀ i < nFuncPd, ((handedTo i evs).map seqNum).Pairwise (· < ·)
  empty : q.nPdlist = 0

/-- The states that the buffer of a channel can be in. -/
def Reachable (Q : Qsort) (nFuncPd : ℕ) (maxTolerableLatency timeoutrecv : Int32)
    (p : NmxpRawStreamData) : Prop :=
  ∃ lastSampleTime calls evs, (∀ c ∈ calls, NonNeg c) ∧
    manageAll Q nFuncPd { nmxpRawStreamInit maxTolerableLatency timeoutrecv with
      lastSampleTime := lastSampleTime } calls = .ok (p, evs)

variable {Q : Qsort} {nFuncPd : ℕ} {maxTolerableLatency timeoutrecv : Int32}
  {p : NmxpRawStreamData}

/-- The buffers that `nmxptool_chanseq_init` sets up are among them. -/
theorem reachable_chanseqInit {number : ℕ} {defaultAfterStartTime : ℚ} {s : NmxptoolChanSeq}
    (hs : s ∈ nmxptoolChanseqInit number defaultAfterStartTime maxTolerableLatency timeoutrecv) :
    Reachable Q nFuncPd maxTolerableLatency timeoutrecv s.rawStreamBuffer := by
  rw [List.eq_of_mem_replicate hs]
  exact ⟨.finite (-1), [], [], by simp, rfl⟩

/-- A call leads from one to another. -/
theorem Reachable.call (h : Reachable Q nFuncPd maxTolerableLatency timeoutrecv p) {c : Call}
    (hc : NonNeg c) {q : NmxpRawStreamData} {evs : List Event}
    (hq : callStep Q nFuncPd p c = .ok (q, evs)) :
    Reachable Q nFuncPd maxTolerableLatency timeoutrecv q := by
  obtain ⟨t, calls, before, hcalls, hrun⟩ := h
  refine ⟨t, calls ++ [c], before ++ evs, ?_, ?_⟩
  · intro c' hc'
    rcases List.mem_append.mp hc' with hc' | hc'
    · exact hcalls c' hc'
    · rw [List.mem_singleton.mp hc']
      exact hc
  · exact run_append.mpr ⟨p, before, evs, hrun,
      run_cons_eq_ok.mpr ⟨q, evs, [], hq, rfl, by simp⟩, rfl⟩

/-- The time of the last sample, which the state file may set, plays no part. -/
theorem reachable_ok (h : Reachable Q nFuncPd maxTolerableLatency timeoutrecv p) :
    NoRoom p ∨ StreamOK p := by
  obtain ⟨t, calls, evs, hcalls, hrun⟩ := h
  refine reachable_cases ((init_ok maxTolerableLatency timeoutrecv).imp (fun h => ?_) fun h => ?_)
    hcalls hrun
  · exact ⟨h.max, h.pdlist, h.nPdlist⟩
  · exact ⟨h.positive, h.capacity, ⟨h.holds.slots, h.holds.count⟩, h.bufOK, h.nonneg, h.last,
      h.empty⟩

/-- **One channel**: the call with NULL flushes it exactly when it meets no gap. -/
theorem flush_channel (Q : Qsort) (nFuncPd : ℕ) (hp : NoRoom p ∨ StreamOK p)
    (hdist : (pending p).Pairwise fun x y => x.seqNo ≠ y.seqNo) (clock : Clock) : ∃ q evs,
    nmxpRawStreamManage Q nFuncPd clock p none = .ok (q, evs) ∧
      (Flushed nFuncPd (pending p) q evs ↔
        Flushable seqNum (Forced clock p) (pending p)) := by
  rcases hp with hp | hp
  · refine ⟨p, [], hp.manage_none Q nFuncPd clock, ?_⟩
    rw [hp.pending_eq]
    exact iff_of_true ⟨fun i _ => .refl _, fun i _ => .nil, hp.nPdlist⟩
      ⟨fun _ => trivial, fun _ => trivial⟩
  · obtain ⟨q, evs, sent, stale, h, hok⟩ := manage_ok Q nFuncPd clock hp none (by simp)
    refine ⟨q, evs, h, ?_⟩
    have hb := bufOK_entry hp none
    have hstep := hok.step
    rw [Option.map_none] at hstep
    obtain ⟨freed, hseen, -⟩ := hok.seen
    have hstrict : (pending p).Pairwise (seqNum · < seqNum ·) :=
      (hp.bufOK.sorted.and hdist).imp fun ⟨hle, hne⟩ =>
        lt_of_le_of_ne hle fun he => hne (Int32.toInt_inj.mp he)
    rw [← hstep.empties_iff hb]
    constructor
    · intro hf
      have hn := hok.inv.holds.count
      rw [hf.empty] at hn
      exact List.length_eq_zero_iff.mp (by exact_mod_cast hn.symm)
    · intro he
      have hsent := hstep.flush_sent hb hstrict he
      dsimp only at hsent
      refine ⟨fun i hi => ?_, fun i hi => ?_, ?_⟩
      · rw [hseen.handed, if_pos hi, hsent]
      · rw [hseen.handed, if_pos hi, hsent]
        exact List.pairwise_map.mpr hstrict
      · rw [hok.inv.holds.count, show pending q = [] from he]
        rfl

/-! ### All channels -/

/-- The events of one channel. -/
def eventsOf (i : ℕ) (evs : List (ℕ × Event)) : List Event :=
  evs.filterMap fun e => if e.1 = i then some e.2 else none

theorem eventsOf_append (i : ℕ) (e f : List (ℕ × Event)) :
    eventsOf i (e ++ f) = eventsOf i e ++ eventsOf i f := by simp [eventsOf]

theorem eventsOf_map (i j : ℕ) (evs : List Event) :
    eventsOf i (evs.map (j, ·)) = if j = i then evs else [] := by
  by_cases h : j = i <;> simp [eventsOf, h, List.filterMap_map]

/-- A call with NULL on a reachable buffer leads to such a buffer. -/
theorem timeout_ok (Q : Qsort) (nFuncPd : ℕ) (clock : Clock) (hp : NoRoom p ∨ StreamOK p) :
    ∃ q evs, nmxpRawStreamManage Q nFuncPd clock p none = .ok (q, evs) ∧
      (NoRoom q ∨ StreamOK q) := by
  rcases hp with h | h
  · exact ⟨p, [], h.manage_none Q nFuncPd clock, Or.inl h⟩
  · obtain ⟨q, evs, sent, stale, hq, hok⟩ := manage_ok Q nFuncPd clock h none (by simp)
    exact ⟨q, evs, hq, Or.inr hok.inv⟩

/-- The loop makes its call for each of its channels, and touches no other. -/
theorem flushLoop_ok (Q : Qsort) (nFuncPd : ℕ) (clocks : ℕ → Clock) : ∀ (left cur : ℕ)
    (seqs : List NmxptoolChanSeq), cur + left = seqs.length →
    (∀ s ∈ seqs, NoRoom s.rawStreamBuffer ∨ StreamOK s.rawStreamBuffer) → ∃ seqs' evs,
    flushLoop Q nFuncPd clocks left cur seqs = .ok (seqs', evs) ∧ seqs'.length = seqs.length ∧
      ∀ i s, seqs[i]? = some s → ∃ s' o, seqs'[i]? = some s' ∧ eventsOf i evs = o ∧
        if i < cur then s' = s ∧ o = []
        else nmxpRawStreamManage Q nFuncPd (clocks i) s.rawStreamBuffer none =
          .ok (s'.rawStreamBuffer, o) := by
  intro left
  induction left with
  | zero =>
    intro cur seqs hlen _
    refine ⟨seqs, [], rfl, rfl, fun i s hs => ⟨s, [], hs, rfl, ?_⟩⟩
    have := (List.getElem?_eq_some_iff.mp hs).1
    rw [if_pos (by omega)]
    exact ⟨rfl, rfl⟩
  | succ left ih =>
    intro cur seqs hlen hok
    have hcur : cur < seqs.length := by omega
    obtain ⟨p, evs, hp, hinv⟩ := timeout_ok Q nFuncPd (clocks cur) (hok _ (List.getElem_mem hcur))
    set seqs1 := seqs.set cur { seqs[cur] with rawStreamBuffer := p } with hseqs1
    obtain ⟨seqs', evs', h', hlen', hall⟩ := ih (cur + 1) seqs1 (by simp [hseqs1]; omega)
      (fun s hs => by
        rcases List.mem_or_eq_of_mem_set hs with hs | rfl
        · exact hok s hs
        · exact hinv)
    refine ⟨seqs', evs.map (cur, ·) ++ evs', ?_, by rw [hlen']; simp [hseqs1], fun i s hs => ?_⟩
    · simp only [flushLoop, List.getElem?_eq_getElem hcur, hp, ok_bind, ← hseqs1, h', pure_eq_ok]
    · rw [eventsOf_append, eventsOf_map]
      by_cases hi : cur = i
      · subst hi
        have hs1 : seqs1[cur]? = some { seqs[cur] with rawStreamBuffer := p } := by
          rw [hseqs1, List.getElem?_set_self hcur]
        obtain ⟨s', o, hs', ho, hif⟩ := hall cur _ hs1
        rw [if_pos (by omega)] at hif
        obtain ⟨rfl, rfl⟩ := hif
        rw [List.getElem?_eq_getElem hcur] at hs
        cases hs
        refine ⟨_, evs, hs', by rw [ho]; simp, ?_⟩
        rw [if_neg (lt_irrefl _)]
        exact hp
      · obtain ⟨s', o, hs', ho, hif⟩ := hall i s (by rw [hseqs1, List.getElem?_set_ne hi, hs])
        refine ⟨s', o, hs', by rw [ho]; simp [hi], ?_⟩
        by_cases hlt : i < cur
        · rw [if_pos (by omega)] at hif
          rwa [if_pos hlt]
        · rw [if_neg (by omega)] at hif
          rwa [if_neg hlt]

theorem nmxptoolChanseqFree_eq_nil : ∀ {seqs : List NmxptoolChanSeq},
    (∀ s ∈ seqs, s.rawStreamBuffer.nPdlist = 0) → nmxptoolChanseqFree seqs = .ok []
  | [], _ => rfl
  | s :: seqs, h => by
    have hs : nmxpRawStreamFree s.rawStreamBuffer = .ok [] := by
      unfold nmxpRawStreamFree
      rw [h s (List.mem_cons_self ..)]
      rfl
    simp only [nmxptoolChanseqFree, hs, ok_bind,
      nmxptoolChanseqFree_eq_nil fun t ht => h t (List.mem_cons_of_mem _ ht), List.nil_append,
      pure_eq_ok]

/-- Every channel is flushed, and freeing the buffers discards nothing. -/
structure LosesNothing (nFuncPd : ℕ) (before after : List NmxptoolChanSeq)
    (evs : List (ℕ × Event)) : Prop where
  flushed : ∀ (i : ℕ) s s', before[i]? = some s → after[i]? = some s' →
    Flushed nFuncPd (pending s.rawStreamBuffer) s'.rawStreamBuffer (eventsOf i evs)
  freed : nmxptoolChanseqFree after = .ok []

/-- **Flushing loses nothing** exactly when no channel holds a gap among the packets that its call
walks over: all of them, or all but the first when the call is forced to handle that one. -/
theorem flush_iff (Q : Qsort) (nFuncPd : ℕ) (maxTolerableLatency timeoutrecv : Int32)
    (clocks : ℕ → Clock) (subset : NmxpChanListNet) (seqs : List NmxptoolChanSeq)
    (hlen : seqs.length = subset.number)
    (hreach : ∀ s ∈ seqs,
      Reachable Q nFuncPd maxTolerableLatency timeoutrecv s.rawStreamBuffer)
    (hdist : ∀ s ∈ seqs, (pending s.rawStreamBuffer).Pairwise fun x y => x.seqNo ≠ y.seqNo) :
    ∃ after evs, flushingRawDataStream Q nFuncPd clocks (-1) (some subset) (some seqs) =
        .ok (some after, evs) ∧
      (LosesNothing nFuncPd seqs after evs ↔ ∀ (i : ℕ) s, seqs[i]? = some s →
        Flushable seqNum (Forced (clocks i) s.rawStreamBuffer) (pending s.rawStreamBuffer)) := by
  obtain ⟨after, evs, hloop, hlen', hall⟩ := flushLoop_ok Q nFuncPd clocks subset.number 0 seqs
    (by omega) fun s hs => reachable_ok (hreach s hs)
  -- what the call for channel `i` does
  have hchan : ∀ (i : ℕ) s, seqs[i]? = some s → ∃ s', after[i]? = some s' ∧
      (Flushed nFuncPd (pending s.rawStreamBuffer) s'.rawStreamBuffer (eventsOf i evs) ↔
        Flushable seqNum (Forced (clocks i) s.rawStreamBuffer) (pending s.rawStreamBuffer)) := by
    intro i s hs
    have hmem := List.mem_of_getElem? hs
    obtain ⟨s', o, hs', ho, hcall⟩ := hall i s hs
    rw [if_neg (by omega)] at hcall
    obtain ⟨q, o', hq, hiff⟩ := flush_channel Q nFuncPd
      (reachable_ok (hreach s hmem)) (hdist s hmem) (clocks i)
    rw [hcall] at hq
    simp only [Except.ok.injEq, Prod.mk.injEq] at hq
    obtain ⟨hq, ho'⟩ := hq
    exact ⟨s', hs', by rw [ho, ho', hq]; exact hiff⟩
  refine ⟨after, evs, ?_, ?_, fun h => ?_⟩
  · unfold flushingRawDataStream
    simp only [if_pos, hloop, ok_bind, pure_eq_ok]
  · intro h i s hs
    obtain ⟨s', hs', hiff⟩ := hchan i s hs
    exact hiff.mp (h.flushed i s s' hs hs')
  · have hflushed : ∀ (i : ℕ) s s', seqs[i]? = some s → after[i]? = some s' →
        Flushed nFuncPd (pending s.rawStreamBuffer) s'.rawStreamBuffer (eventsOf i evs) := by
      intro i s s' hs hs'
      obtain ⟨s'', hs'', hiff⟩ := hchan i s hs
      rw [hs'] at hs''
      cases hs''
      exact hiff.mpr (h i s hs)
    refine ⟨hflushed, nmxptoolChanseqFree_eq_nil fun s' hs' => ?_⟩
    obtain ⟨i, hi, he⟩ := List.getElem_of_mem hs'
    have hi' : i < seqs.length := by omega
    exact (hflushed i seqs[i] s' (List.getElem?_eq_getElem hi')
      (by rw [List.getElem?_eq_getElem hi, he])).empty

/-- The buffer of one channel. -/
def oneSeq (p : NmxpRawStreamData) : List NmxptoolChanSeq :=
  [{ significant := 0
     lastTime := .finite 0
     lastTimeCallRawStream := 0
     x1 := 0
     afterStartTime := 0
     rawStreamBuffer := p }]

/-- Packets 5, 10 and 20, of which the last two wait. -/
def twoGaps : List Call := inTime [5, 10, 20]

/-- The flush delivers packet 10 and leaves packet 20 behind. -/
theorem flush_leaves : (∀ c ∈ twoGaps, NonNeg c) ∧ ∃ p evs after evs',
    manageAll insertion 1 (nmxpRawStreamInit 10 0) twoGaps = .ok (p, evs) ∧
      ((pending p).Pairwise fun x y => x.seqNo ≠ y.seqNo) ∧
      flushingRawDataStream insertion 1 (fun _ _ => 0) (-1) (some (oneChannel 65793))
        (some (oneSeq p)) = .ok (some after, evs') ∧
      ¬ LosesNothing 1 (oneSeq p) after evs' := by
  refine ⟨nonNeg_inTime rfl, ?_⟩
  have h : (manageAll insertion 1 (nmxpRawStreamInit 10 0) twoGaps >>= fun r =>
      (flushingRawDataStream insertion 1 (fun _ _ => 0) (-1) (some (oneChannel 65793))
        (some (oneSeq r.1))).map fun f => (pending r.1,
          f.1.map (List.map fun s : NmxptoolChanSeq => s.rawStreamBuffer.nPdlist))) =
      .ok ([numbered 10, numbered 20], some [1]) := by decide +kernel
  obtain ⟨⟨p, evs⟩, hrun, h⟩ := bind_eq_ok.mp h
  obtain ⟨⟨after, evs'⟩, hflush, h⟩ := map_eq_ok.mp h
  simp only [Prod.mk.injEq, Option.map_eq_some_iff] at h
  obtain ⟨hpend, after, rfl, hn⟩ := h
  refine ⟨p, evs, after, evs', hrun, by rw [hpend]; decide, hflush, fun hlose => ?_⟩
  rcases after with _ | ⟨s', _ | ⟨t, ts⟩⟩
  · simp at hn
  · have hempty := (hlose.flushed 0 _ s' rfl rfl).empty
    simp only [List.map_cons, List.map_nil, List.cons.injEq, and_true] at hn
    omega
  · simp at hn

/-- Packets 10 and 11, which wait for packet 6, are flushed. -/
theorem flush_iff_one_gap : ∃ p evs after evs',
    manageAll insertion 1 (nmxpRawStreamInit 10 0) (inTime [5, 10, 11]) = .ok (p, evs) ∧
      flushingRawDataStream insertion 1 (fun _ _ => 0) (-1) (some (oneChannel 65793))
        (some (oneSeq p)) = .ok (some after, evs') ∧
      pending p = [numbered 10, numbered 11] ∧ LosesNothing 1 (oneSeq p) after evs' := by
  have h : (manageAll insertion 1 (nmxpRawStreamInit 10 0) (inTime [5, 10, 11])).map
      (fun r => (pending r.1, decide (MustForce r.1 (nmxpDataLatency 0 (pending r.1).head?)))) =
      .ok ([numbered 10, numbered 11], false) := by decide +kernel
  obtain ⟨⟨p, evs⟩, hrun, h⟩ := map_eq_ok.mp h
  simp only [Prod.mk.injEq, decide_eq_false_iff_not] at h
  obtain ⟨hpend, hforced⟩ := h
  obtain ⟨after, evs', hflush, hiff⟩ := flush_iff insertion 1 10 0 (fun _ _ => 0) (oneChannel 65793)
    (oneSeq p) rfl
    (fun s hs => by
      rw [List.mem_singleton.mp hs]
      exact ⟨.finite (-1), _, evs, nonNeg_inTime rfl, hrun⟩)
    (fun s hs => by
      rw [List.mem_singleton.mp hs, hpend]
      decide)
  refine ⟨p, evs, after, evs', hrun, hflush, hpend, hiff.mpr fun i s hs => ?_⟩
  rw [List.mem_singleton.mp (List.mem_of_getElem? hs)]
  refine ⟨fun _ => ?_, fun h => absurd h hforced⟩
  rw [hpend]
  simp only [Contiguous, NoGap]
  decide

end Nmxptool.RawStream.Flush
