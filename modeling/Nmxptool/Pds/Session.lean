import Nmxptool.Lib.Refine
import Nmxptool.Pds.Charge
import Nmxptool.RawStream.Origin

/-! # A PDS session, channel by channel

With `stc = -1` an iteration of the PDS loop hands its packet to the Raw Stream of one channel, and
then looks for time-outs in all of them. Seen from one channel, a session is a run of its Raw
Stream.

* `pdsStep_simulates`: an iteration makes some calls for a channel, at most one with a packet.
* `channel_isolated`: a session is, for each channel, the run on the packets of this channel.
* `channel_noninterference`: so the packets of other channels make no difference to it.
* `session_conserves`: over a session and the flush at its end, no packet of a channel is lost or
  doubled, and none of another channel appears.
* `session_increasing`: without time-outs the numbers delivered for a channel increase. -/

namespace Nmxptool.Pds.Session

open Nmxptool.Data.Process Nmxptool.Chan.Channels
open Nmxptool.Lib.Floating Nmxptool.Lib.Run Nmxptool.Lib.Refine
open Nmxptool.Lib.Sorting Nmxptool.Lib.Resequencer Nmxptool.Wire.Model Nmxptool.Decode.Bundle
open Nmxptool.Decode.Compressed Nmxptool.Decode.Decompressed Nmxptool.Decode.Receive
open Nmxptool.RawStream.Model Nmxptool.RawStream.Slots Nmxptool.RawStream.Manage
open Nmxptool.RawStream.Runs Nmxptool.RawStream.Flush Nmxptool.ChanSeq.States
open Nmxptool.Pds.Clip Nmxptool.Pds.Charge

/-- The events of the Raw Stream of a channel. -/
def rawEvent (k : ℕ) : LoopEvent → Option Event
  | .rawStream chan event => if chan = k then some event else none
  | .handed .. => none

section Parts
variable (s : LoopSetting) (c : LoopClock) {k : ℕ} {seqs seqs' seqs'' : Seqs}
  {evs evs' : List LoopEvent} {calls calls' : List Call}

/-- **For channel `k`** a part of an iteration makes these calls, and nothing else. -/
def Acts (k : ℕ) (seqs : Seqs) (calls : List Call) (seqs' : Seqs) (evs : List LoopEvent) : Prop :=
  ∀ q, seqs[k]? = some q → ∃ q', seqs'[k]? = some q' ∧ q'.afterStartTime = q.afterStartTime ∧
    manageAll s.qsort s.nFuncPd q.rawStreamBuffer calls =
      .ok (q'.rawStreamBuffer, evs.filterMap (rawEvent k))

variable {s}

theorem acts_nil (k : ℕ) (seqs : Seqs) : Acts s k seqs [] seqs [] := fun q hq => ⟨q, hq, rfl, rfl⟩

theorem Acts.append (h : Acts s k seqs calls seqs' evs) (h' : Acts s k seqs' calls' seqs'' evs') :
    Acts s k seqs (calls ++ calls') seqs'' (evs ++ evs') := by
  intro q hq
  obtain ⟨q', hq', ht, hrun⟩ := h q hq
  obtain ⟨q'', hq'', ht', hrun'⟩ := h' q' hq'
  refine ⟨q'', hq'', ht'.trans ht, ?_⟩
  rw [List.filterMap_append]
  exact run_append.mpr ⟨_, _, _, hrun, hrun', rfl⟩

theorem seqAt_eq_ok {i : ℤ} {q : NmxptoolChanSeq} (h : seqAt seqs i = .ok q) :
    ∃ n : ℕ, i = n ∧ seqs[n]? = some q := by
  unfold seqAt at h
  split_ifs at h with hi
  rw [← Except.ok.inj h]
  exact ⟨i.toNat, (Int.toNat_of_nonneg hi.1).symm, List.getElem?_eq_getElem hi.2⟩

/-- A change of one channel. -/
theorem updateSeq_eq_ok {i : ℤ}
    {f : NmxptoolChanSeq → Except LoopFault (NmxptoolChanSeq × List LoopEvent)}
    (h : updateSeq seqs i f = .ok (seqs', evs)) :
    ∃ (n : ℕ) (q q' : NmxptoolChanSeq), i = n ∧ seqs[n]? = some q ∧ f q = .ok (q', evs) ∧
      seqs' = seqs.set n q' := by
  obtain ⟨q, hat, hrest⟩ := bind_eq_ok.mp h
  obtain ⟨r, hf, heq⟩ := bind_eq_ok.mp hrest
  obtain ⟨rfl, rfl⟩ := Prod.mk.inj (Except.ok.inj heq)
  obtain ⟨n, rfl, hn⟩ := seqAt_eq_ok hat
  exact ⟨n, q, r.1, rfl, hn, hf, rfl⟩

/-- A change that leaves the Raw Streams alone. -/
theorem acts_updateSeq {i : ℤ}
    {f : NmxptoolChanSeq → Except LoopFault (NmxptoolChanSeq × List LoopEvent)}
    (hf : ∀ q q' evs, f q = .ok (q', evs) → evs = [] ∧ q'.afterStartTime = q.afterStartTime ∧
      q'.rawStreamBuffer = q.rawStreamBuffer)
    (h : updateSeq seqs i f = .ok (seqs', evs)) (k : ℕ) : Acts s k seqs [] seqs' evs := by
  obtain ⟨n, q, q', -, hn, hfq, rfl⟩ := updateSeq_eq_ok h
  obtain ⟨rfl, ht, hbuffer⟩ := hf q q' evs hfq
  intro q₀ hq₀
  by_cases hk : n = k
  · subst hk
    obtain rfl : q = q₀ := Option.some.inj (hn.symm.trans hq₀)
    refine ⟨q', List.getElem?_set_self (List.getElem?_eq_some_iff.mp hn).1, ht, ?_⟩
    rw [hbuffer]
    rfl
  · exact ⟨q₀, by rw [List.getElem?_set_ne hk, hq₀], rfl, rfl⟩

theorem rawEvent_map (k : ℕ) (chan : ℤ) (os : List Event) :
    (os.map (LoopEvent.rawStream chan)).filterMap (rawEvent k) = if chan = k then os else [] := by
  rw [List.filterMap_map]
  split_ifs with h
  · have hsome : rawEvent k ∘ LoopEvent.rawStream chan = some := by
      funext e
      exact if_pos h
    rw [hsome, List.filterMap_some]
  · have hnone : rawEvent k ∘ LoopEvent.rawStream chan = fun _ => none := by
      funext e
      exact if_neg h
    rw [hnone]
    exact List.filterMap_none _

/-- **A call of `nmxp_raw_stream_manage`** for some channel. -/
theorem acts_callRawStream {i : ℤ} {clock : Clock} {now : ℤ} {pd : Option Pd}
    (h : updateSeq seqs i (callRawStream s i clock now pd) = .ok (seqs', evs)) (k : ℕ) :
    Acts s k seqs (if i = k then [⟨pd, clock⟩] else []) seqs' evs := by
  obtain ⟨n, q, q', rfl, hn, hcall, rfl⟩ := updateSeq_eq_ok h
  unfold callRawStream at hcall
  cases hm : nmxpRawStreamManage s.qsort s.nFuncPd clock q.rawStreamBuffer pd with
  | error fault => rw [hm] at hcall; exact absurd hcall (by simp)
  | ok r =>
    rw [hm] at hcall
    obtain ⟨rfl, rfl⟩ := Prod.mk.inj (Except.ok.inj hcall)
    intro q₀ hq₀
    rw [rawEvent_map]
    by_cases hk : n = k
    · subst hk
      obtain rfl : q = q₀ := Option.some.inj (hn.symm.trans hq₀)
      refine ⟨_, List.getElem?_set_self (List.getElem?_eq_some_iff.mp hn).1, rfl, ?_⟩
      rw [if_pos rfl, if_pos rfl]
      exact run_cons_eq_ok.mpr ⟨r.1, r.2, [], hm, rfl, (List.append_nil _).symm⟩
    · have hk' : (n : ℤ) ≠ k := fun h => hk (Int.ofNat_inj.mp h)
      rw [if_neg hk', if_neg hk']
      exact ⟨q₀, by rw [List.getElem?_set_ne hk, hq₀], rfl, rfl⟩

/-! ### Time-outs -/

/-- Some calls with NULL. -/
def NoPackets (calls : List Call) : Prop := ∀ c ∈ calls, c.pd = none

theorem noPackets_nil : NoPackets [] := fun _ h => absurd h List.not_mem_nil

theorem NoPackets.append (h : NoPackets calls) (h' : NoPackets calls') :
    NoPackets (calls ++ calls') := fun c hc => (List.mem_append.mp hc).elim (h c) (h' c)

theorem NoPackets.filterMap_eq (h : NoPackets calls) : calls.filterMap Call.pd = [] :=
  List.filterMap_eq_nil_iff.mpr h

theorem acts_timeoutRound {toCurChan : ℕ} (h : timeoutRound s c toCurChan seqs = .ok (seqs', evs))
    (k : ℕ) : ∃ calls, NoPackets calls ∧ Acts s k seqs calls seqs' evs := by
  obtain ⟨q, -, hround⟩ := bind_eq_ok.mp h
  split_ifs at hround
  · refine ⟨_, ?_, acts_callRawStream hround k⟩
    split_ifs
    · intro d hd
      rw [List.mem_singleton.mp hd]
    · exact noPackets_nil
  · obtain ⟨rfl, rfl⟩ := Prod.mk.inj (Except.ok.inj hround)
    exact ⟨[], noPackets_nil, acts_nil k seqs⟩

theorem acts_timeoutLoop : ∀ (left toCurChan : ℕ) {seqs seqs' : Seqs} {evs : List LoopEvent},
    timeoutLoop s c left toCurChan seqs = .ok (seqs', evs) → ∀ k,
      ∃ calls, NoPackets calls ∧ Acts s k seqs calls seqs' evs
  | 0, _, _, _, _, h, k => by
    obtain ⟨rfl, rfl⟩ := Prod.mk.inj (Except.ok.inj h)
    exact ⟨[], noPackets_nil, acts_nil k _⟩
  | left + 1, toCurChan, _, _, _, h, k => by
    obtain ⟨r, hround, hrest⟩ := bind_eq_ok.mp h
    obtain ⟨r', hloop, heq⟩ := bind_eq_ok.mp hrest
    obtain ⟨rfl, rfl⟩ := Prod.mk.inj (Except.ok.inj heq)
    obtain ⟨calls, hcalls, hacts⟩ := acts_timeoutRound c hround k
    obtain ⟨calls', hcalls', hacts'⟩ := acts_timeoutLoop left (toCurChan + 1) hloop k
    exact ⟨calls ++ calls', hcalls.append hcalls', hacts.append hacts'⟩

/-! ### An iteration -/

/-- The packet that the loop hands to the Raw Stream of channel `k`, if the time to resume at is
`t`: the packet of an iteration, where it has the key of the channel and is not skipped. -/
def heard (s : LoopSetting) (t : ℚ) (k : ℕ) (pd : Pd) : Option Pd :=
  let pd := forceTimingQuality s.params pd
  if nmxpChanLookupKeyIndex pd.key s.receive.channelList = k then
    match clippingBlock s.params.toNmxptoolParams t pd with
    | some (false, pd) => some pd
    | _ => none
  else none

/-- The time to resume at plays a part for a state file only. -/
theorem clippingBlock_congr {p : NmxptoolParams} {t t' : ℚ} {pd : Pd}
    (h : p.statefile = true ∧ p.timeoutrecv ≤ 0 → t = t') :
    clippingBlock p t pd = clippingBlock p t' pd := by
  by_cases hp : p.statefile = true ∧ p.timeoutrecv ≤ 0
  · rw [h hp]
  · have hcur : curAfterStartTime p t = curAfterStartTime p t' := by
      unfold curAfterStartTime
      by_cases hrecv : p.timeoutrecv ≤ 0
      · have hfile : p.statefile = false := by
          rw [← Bool.not_eq_true]
          exact fun hs => hp ⟨hs, hrecv⟩
        simp [hfile]
      · simp [hrecv]
    unfold clippingBlock
    rw [hcur]

/-- What `skipOrClip` finds for the channel of the packet. -/
theorem skipOrClip_eq {p : LoopParams} {pd pd' : Pd} {skip : Bool} {q : NmxptoolChanSeq}
    (h : skipOrClip p seqs k pd = .ok (skip, pd')) (hq : seqs[k]? = some q) :
    clippingBlock p.toNmxptoolParams q.afterStartTime pd = some (skip, pd') := by
  obtain ⟨t, hread, hclip⟩ := bind_eq_ok.mp h
  have ht : p.statefile = true ∧ p.timeoutrecv ≤ 0 → q.afterStartTime = t := by
    intro hp
    unfold readAfterStartTime at hread
    rw [if_pos hp] at hread
    obtain ⟨q', hat, heq⟩ := bind_eq_ok.mp hread
    obtain ⟨n, hn, hq'⟩ := seqAt_eq_ok hat
    obtain rfl := Int.ofNat_inj.mp hn
    obtain rfl : q = q' := Option.some.inj (hq.symm.trans hq')
    exact Except.ok.inj heq
  rw [clippingBlock_congr ht]
  cases hb : clippingBlock p.toNmxptoolParams t pd with
  | none => rw [hb] at hclip; exact absurd hclip (by simp [ofSamples])
  | some r => rw [hb] at hclip; exact congrArg some (Except.ok.inj hclip)

/-- The call for a packet, in its channel. -/
def callFor (k : ℕ) (clock : Clock) : Option (ℤ × Pd) → List Call
  | some (curChan, pd) => if curChan = k then [⟨some pd, clock⟩] else []
  | none => []

theorem acts_manageRawStream {pd : Option (ℤ × Pd)}
    (h : manageRawStream s c seqs pd = .ok (seqs', evs)) (k : ℕ) :
    Acts s k seqs (callFor k c.manage pd) seqs' evs := by
  cases pd with
  | none =>
    obtain ⟨rfl, rfl⟩ := Prod.mk.inj (Except.ok.inj h)
    exact acts_nil k seqs
  | some r => exact acts_callRawStream h k

/-- What an iteration does with a packet that is not skipped: a call for it, and perhaps others for
time-outs. -/
theorem acts_notSkipped (hstc : s.params.stc = -1) {pd : Option (ℤ × Pd)}
    (h : notSkipped s c seqs pd = .ok (seqs', evs)) (k : ℕ) : ∃ timeouts, NoPackets timeouts ∧
      (s.params.timeoutrecv ≤ 0 → timeouts = []) ∧
        Acts s k seqs (callFor k c.manage pd ++ timeouts) seqs' evs := by
  unfold notSkipped at h
  rw [if_pos hstc] at h
  obtain ⟨r, hmanage, hrest⟩ := bind_eq_ok.mp h
  have hacts := acts_manageRawStream c hmanage k
  split_ifs at hrest with htimeout
  · obtain ⟨r', hloop, heq⟩ := bind_eq_ok.mp hrest
    obtain ⟨rfl, rfl⟩ := Prod.mk.inj (Except.ok.inj heq)
    obtain ⟨timeouts, hnone, hacts'⟩ := acts_timeoutLoop c s.number 0 hloop k
    exact ⟨timeouts, hnone, fun hle => absurd htimeout (Int32.not_lt.mpr hle), hacts.append hacts'⟩
  · obtain rfl := Except.ok.inj hrest
    refine ⟨[], noPackets_nil, fun _ => rfl, ?_⟩
    rw [List.append_nil]
    exact hacts

theorem acts_storeX1 {i : ℤ} {pd : Pd} (h : storeX1 seqs i pd = .ok (seqs', evs)) (k : ℕ) :
    Acts s k seqs [] seqs' evs := by
  unfold storeX1 at h
  split_ifs at h
  · refine acts_updateSeq (fun q q' evs hq => ?_) h k
    obtain ⟨v, -, heq⟩ := bind_eq_ok.mp hq
    obtain ⟨rfl, rfl⟩ := Prod.mk.inj (Except.ok.inj heq)
    exact ⟨rfl, rfl, rfl⟩
  · obtain ⟨rfl, rfl⟩ := Prod.mk.inj (Except.ok.inj h)
    exact acts_nil k seqs

/-- **An iteration**, for channel `k`. -/
theorem acts_pdsHandle (hstc : s.params.stc = -1) {pd : Option Pd} {q : NmxptoolChanSeq}
    (h : pdsHandle s c seqs pd = .ok (seqs', evs)) (hq : seqs[k]? = some q) :
    ∃ timeouts, NoPackets timeouts ∧ (s.params.timeoutrecv ≤ 0 → timeouts = []) ∧
      Acts s k seqs (((pd.bind (heard s q.afterStartTime k)).map fun x =>
        (⟨some x, c.manage⟩ : Call)).toList ++ timeouts) seqs' evs := by
  cases pd with
  | none => exact acts_notSkipped c hstc h k
  | some pd =>
    obtain ⟨⟨skip, pd'⟩, hskip, hrest⟩ := bind_eq_ok.mp h
    obtain ⟨r, hhandled, hrest⟩ := bind_eq_ok.mp hrest
    obtain ⟨r', hstore, heq⟩ := bind_eq_ok.mp hrest
    obtain ⟨rfl, rfl⟩ := Prod.mk.inj (Except.ok.inj heq)
    have hacts' : Acts s k r.1 [] r'.1 r'.2 := acts_storeX1 hstore k
    set i := nmxpChanLookupKeyIndex (forceTimingQuality s.params pd).key
      s.receive.channelList with hi
    -- the packet that is handed on, if the channel is this one
    have hheard : heard s q.afterStartTime k pd =
        if i = k then if skip then none else some pd' else none := by
      unfold heard
      dsimp only
      rw [← hi]
      split_ifs with hk hs
      · rw [hk] at hskip
        rw [skipOrClip_eq hskip hq, hs]
      · rw [hk] at hskip
        rw [skipOrClip_eq hskip hq, Bool.eq_false_of_not_eq_true hs]
      · rfl
    rw [Option.bind_some, hheard]
    cases skip with
    | true =>
      obtain ⟨rfl⟩ := Except.ok.inj hhandled
      refine ⟨[], noPackets_nil, fun _ => rfl, ?_⟩
      simpa using (acts_nil k seqs).append hacts'
    | false =>
      obtain ⟨timeouts, hnone, hle, hacts⟩ := acts_notSkipped c hstc hhandled k
      refine ⟨timeouts, hnone, hle, ?_⟩
      have hboth := hacts.append hacts'
      rw [List.append_nil] at hboth
      unfold callFor at hboth
      by_cases hk : i = k
      · simpa [hk] using hboth
      · simpa [hk] using hboth

end Parts

/-! ### A session, for one channel -/

section Sessions
variable (s : LoopSetting)

/-- The packet that an iteration receives. -/
def receivedPd (m : PdsInput) : Option Pd :=
  match processMessage s.receive m.outdata m.received with
  | .ok pd => pd
  | .error _ => none

/-- The packet that channel `k` hears in an iteration. -/
def heardIn (t : ℚ) (k : ℕ) (m : PdsInput) : Option Pd := (receivedPd s m).bind (heard s t k)

/-- The call that it leads to. -/
def callIn (t : ℚ) (k : ℕ) (m : PdsInput) : Option Call :=
  (heardIn s t k m).map fun x => ⟨some x, m.clock.manage⟩

/-- What an iteration calls for channel `k`: its packet, if that hears one, and time-outs, if these
are looked for. -/
structure CallsFor (t : ℚ) (k : ℕ) (m : PdsInput) (calls : List Call) : Prop where
  packets : calls.filterMap Call.pd = (heardIn s t k m).toList
  alone : s.params.timeoutrecv ≤ 0 → calls = (callIn s t k m).toList

/-- Channel `k`, with its time to resume at and its Raw Stream. -/
def Channel (k : ℕ) (t : ℚ) (seqs : Seqs) (p : NmxpRawStreamData) : Prop :=
  ∃ q, seqs[k]? = some q ∧ q.afterStartTime = t ∧ q.rawStreamBuffer = p

variable {s}

/-- **An iteration of the PDS loop** is a run of the Raw Stream of each channel. -/
theorem pdsStep_simulates (hstc : s.params.stc = -1) (t : ℚ) (k : ℕ) :
    Simulates (pdsStep s) (callStep s.qsort s.nFuncPd) (Channel k t) (CallsFor s t k)
      (rawEvent k) where
  step := by
    rintro seqs p m seqs' evs ⟨q, hq, rfl, rfl⟩ h
    obtain ⟨pd, hpd, hhandle⟩ := bind_eq_ok.mp h
    have hreceived : receivedPd s m = pd := by
      unfold receivedPd
      cases hp : processMessage s.receive m.outdata m.received with
      | error stop => rw [hp] at hpd; exact absurd hpd (by simp [decoded])
      | ok a => rw [hp] at hpd; exact Except.ok.inj hpd
    obtain ⟨timeouts, hnone, hle, hacts⟩ := acts_pdsHandle m.clock hstc hhandle hq
    obtain ⟨q', hq', ht, hrun⟩ := hacts q hq
    refine ⟨_, q'.rawStreamBuffer, ⟨?_, fun hrecv => ?_⟩, hrun, q', hq', ht, rfl⟩
    · rw [List.filterMap_append, hnone.filterMap_eq, List.append_nil, ← hreceived]
      unfold heardIn
      cases (receivedPd s m).bind (heard s q.afterStartTime k) <;> rfl
    · rw [hle hrecv, List.append_nil, ← hreceived]
      rfl

/-- The channels at the start of a session, with what a state file holds. -/
def startSeqs (s : LoopSetting) (maxTolerableLatency : Int32) (file : List StateLine) : Seqs :=
  nmxptoolChanseqLoadStates s.receive.channelList file s.params.stc
    (nmxptoolChanseqInit s.number DEFAULT_BUFFERED_TIME maxTolerableLatency s.params.timeoutrecv)

/-- **Channels are isolated.** What a session does to a channel, and what it hands on for it, is the
run of its Raw Stream on the packets with its own key that are not skipped, in the order in which
they came, and on time-outs; without time-outs it is the run on these packets alone. -/
theorem channel_isolated (hstc : s.params.stc = -1) {seqs seqs' : Seqs} {ms : List PdsInput}
    {evs : List LoopEvent} (hrun : run (pdsStep s) seqs ms = .ok (seqs', evs)) {k : ℕ}
    {q : NmxptoolChanSeq} (hq : seqs[k]? = some q) :
    ∃ q' calls, seqs'[k]? = some q' ∧ q'.afterStartTime = q.afterStartTime ∧
      manageAll s.qsort s.nFuncPd q.rawStreamBuffer calls =
        .ok (q'.rawStreamBuffer, evs.filterMap (rawEvent k)) ∧
      calls.filterMap Call.pd = ms.filterMap (heardIn s q.afterStartTime k) ∧
      (s.params.timeoutrecv ≤ 0 → calls = ms.filterMap (callIn s q.afterStartTime k)) := by
  obtain ⟨callss, p, hcalls, hmanage, q', hq', ht, rfl⟩ :=
    (pdsStep_simulates hstc q.afterStartTime k).run ⟨q, hq, rfl, rfl⟩ hrun
  refine ⟨q', callss.flatten, hq', ht, hmanage, ?_, fun hrecv => ?_⟩
  · exact flatMap_of_forall₂ (hcalls.imp fun _ _ h => h.packets)
  · rw [← flatMap_of_forall₂ (f := some) (hcalls.imp fun _ calls h => ?_), List.filterMap_some]
    rw [List.filterMap_some]
    exact h.alone hrecv

/-- Two subscribed channels, `R.BHZ` and `R.BHN`. -/
def twoSubscribed : LoopSetting :=
  .ofSubset .little (fun t => if t = minusOne then -1 else 1) rfl ['N'] []
    ⟨[⟨65792, ['R', '.', 'B', 'H', 'Z'], by decide⟩, ⟨65793, ['R', '.', 'B', 'H', 'N'], by decide⟩]⟩
    ['R', '.', 'B', 'H', 'Z', ',', 'R', '.', 'B', 'H', 'N'] defaultParams insertion 1

/-- The body of a compressed packet with one bundle. -/
def bundleBody (channel seqNo : UInt8) : List UInt8 :=
  [0, 0, 0, 0, 1, 0, 0, 0, 0, 0, 0, 1, 0, seqNo, 0, 0, 0, 72 + channel, 7, 0, 0, 0x55] ++
    List.replicate 16 1

theorem seqNum_forceTimingQuality (p : LoopParams) (pd : Pd) :
    seqNum (forceTimingQuality p pd) = seqNum pd := by
  unfold forceTimingQuality
  split_ifs <;> rfl

theorem seqNum_clip {t : ℚ} {pd pd' : Pd} {skip : Bool} (h : clip t pd = some (skip, pd')) :
    seqNum pd' = seqNum pd := by
  unfold clip at h
  dsimp only at h
  split_ifs at h
  · obtain ⟨x0, -, heq⟩ := Option.bind_eq_some_iff.mp h
    rw [← (Prod.mk.inj (Option.some.inj heq)).2]
    rfl
  all_goals rw [← (Prod.mk.inj (Option.some.inj h)).2]

/-- What a channel hears has the number that was received. -/
theorem seqNum_heard {t : ℚ} {k : ℕ} {pd x : Pd} (h : heard s t k pd = some x) :
    seqNum x = seqNum pd := by
  rw [← seqNum_forceTimingQuality s.params pd]
  unfold heard at h
  dsimp only at h
  split_ifs at h
  cases hb : clippingBlock s.params.toNmxptoolParams t (forceTimingQuality s.params pd) with
  | none => rw [hb] at h; exact absurd h (by simp)
  | some r =>
    obtain ⟨skip, pd'⟩ := r
    rw [hb] at h
    cases skip with
    | true => exact absurd h (by simp)
    | false =>
      obtain rfl := Option.some.inj h
      unfold clippingBlock at hb
      cases hc : curAfterStartTime s.params.toNmxptoolParams t with
      | none => rw [hc] at hb; rw [(Prod.mk.inj (Option.some.inj hb)).2]
      | some t' => rw [hc] at hb; exact seqNum_clip hb

/-- The packets received have numbers that are not negative. -/
def NumbersOK (s : LoopSetting) (ms : List PdsInput) : Prop :=
  ∀ m ∈ ms, ∀ pd ∈ receivedPd s m, 0 ≤ seqNum pd

theorem NumbersOK.nonNeg {ms : List PdsInput} (h : NumbersOK s ms) {t : ℚ} {k : ℕ}
    {calls : List Call} (hcalls : calls.filterMap Call.pd = ms.filterMap (heardIn s t k)) :
    ∀ c ∈ calls, NonNeg c := by
  intro c hc x hx
  have hmem : x ∈ ms.filterMap (heardIn s t k) := by
    rw [← hcalls]
    exact List.mem_filterMap.mpr ⟨c, hc, hx⟩
  obtain ⟨m, hm, hheard⟩ := List.mem_filterMap.mp hmem
  obtain ⟨pd, hpd, hx'⟩ := Option.bind_eq_some_iff.mp hheard
  rw [seqNum_heard hx']
  exact h m hm pd hpd

/-! ### From the start of a session to the flush -/

theorem buffer_loadLine (stc : Int32) (line : StateLine) (q : NmxptoolChanSeq) :
    ∃ t, (loadLine stc line q).rawStreamBuffer =
      { q.rawStreamBuffer with lastSampleTime := t } := by
  unfold loadLine
  by_cases hraw : line.rawTime ≠ DEFAULT_BUFFERED_TIME ∧ line.rawTime ≠ 0
  · rw [if_pos hraw]
    exact ⟨.finite line.rawTime, rfl⟩
  · rw [if_neg hraw]
    by_cases hnoraw : line.norawTime ≠ DEFAULT_BUFFERED_TIME
    · rw [if_pos hnoraw]
      exact ⟨.finite line.norawTime, rfl⟩
    · rw [if_neg hnoraw]
      exact ⟨q.rawStreamBuffer.lastSampleTime, rfl⟩

theorem buffer_foldl_loadLine (stc : Int32) (lines : List StateLine) (q : NmxptoolChanSeq) :
    ∃ t, (lines.foldl (fun q line => loadLine stc line q) q).rawStreamBuffer =
      { q.rawStreamBuffer with lastSampleTime := t } := by
  induction lines generalizing q with
  | nil => exact ⟨_, rfl⟩
  | cons line lines ih =>
    obtain ⟨t, ht⟩ := ih (loadLine stc line q)
    obtain ⟨t', ht'⟩ := buffer_loadLine stc line q
    refine ⟨t, ?_⟩
    rw [List.foldl_cons, ht, ht']

/-- A state file sets no more of a Raw Stream than its time. -/
theorem buffer_startSeqs {maxTolerableLatency : Int32} {file : List StateLine} {k : ℕ}
    {q : NmxptoolChanSeq} (hq : (startSeqs s maxTolerableLatency file)[k]? = some q) :
    ∃ t, q.rawStreamBuffer = { nmxpRawStreamInit maxTolerableLatency s.params.timeoutrecv with
      lastSampleTime := t } := by
  unfold startSeqs nmxptoolChanseqLoadStates at hq
  rw [getElem?_foldl_toCell, Option.map_eq_some_iff] at hq
  obtain ⟨q₀, hq₀, rfl⟩ := hq
  rw [List.eq_of_mem_replicate (List.mem_of_getElem? hq₀)]
  exact buffer_foldl_loadLine ..

theorem length_startSeqs (maxTolerableLatency : Int32) (file : List StateLine) :
    (startSeqs s maxTolerableLatency file).length = s.number := by
  unfold startSeqs nmxptoolChanseqLoadStates
  rw [length_foldl_toCell]
  exact List.length_replicate

/-- An array with room, at its start. -/
theorem streamOK_init {maxTolerableLatency : Int32} (hroom : 0 < maxTolerableLatency * 4)
    (timeoutrecv : Int32) (t : Double) :
    StreamOK { nmxpRawStreamInit maxTolerableLatency timeoutrecv with lastSampleTime := t } := by
  have hreach : Reachable insertion 0 maxTolerableLatency timeoutrecv
      { nmxpRawStreamInit maxTolerableLatency timeoutrecv with lastSampleTime := t } :=
    ⟨t, [], [], by simp, rfl⟩
  refine (reachable_ok hreach).resolve_left fun h => ?_
  exact absurd (Int32.lt_iff_toInt_lt.mp hroom) (not_lt.mpr h.max)

theorem length_session {seqs seqs' : Seqs} {ms : List PdsInput} {evs : List LoopEvent}
    (hseqs : seqs.length = s.number) (hrun : run (pdsStep s) seqs ms = .ok (seqs', evs)) :
    seqs'.length = s.number :=
  run_inv (C := fun _ _ => True) (fun q _ _ => q.length = s.number)
    (fun _ _ _ _ _ _ hq _ h => pdsStep_length s hq h) [] [] hseqs
    (allSteps_of_forall (fun _ _ _ => trivial) _) hrun

/-- The packets of a channel are accounted for: each was handed to every function, was discarded as
stale, or is left in the buffer; and the copies that left it were freed once. -/
structure Accounted (nFuncPd : ℕ) (pds : List Pd) (p : NmxpRawStreamData) (evs : List Event) :
    Prop where
  balance : (pds.map copyPd).Perm (sentOf evs ++ discardedOf evs ++ pending p)
  handed : ∀ i < nFuncPd, handedTo i evs = sentOf evs
  freed : (freedOf evs).Perm (sentOf evs ++ discardedOf evs)

/-- Any calls on a stream that is empty at first. -/
theorem manageAll_conserves {Q : Qsort} {nFuncPd : ℕ} {p₀ p : NmxpRawStreamData}
    (h₀ : StreamOK p₀) (hempty : pending p₀ = []) {calls : List Call}
    (hcalls : ∀ c ∈ calls, NonNeg c) {evs : List Event}
    (hrun : manageAll Q nFuncPd p₀ calls = .ok (p, evs)) :
    StreamOK p ∧ Accounted nFuncPd (calls.filterMap Call.pd) p evs := by
  have h := run_inv (C := fun _ c => NonNeg c)
    (fun p done tr => StreamOK p ∧ Conserved nFuncPd done p tr)
    (fun p done tr c q o hinv hc hstep => by
      obtain ⟨sent, stale, hok⟩ := callOK_of_ok hinv.1 hc hstep
      exact ⟨hok.inv, conserved_step hinv.2 hok⟩) [] []
    ⟨h₀, ⟨by simp [sentOf, discardedOf, hempty], fun _ _ => rfl, .refl _, rfl⟩⟩
    (allSteps_nonNeg hcalls _) hrun
  exact ⟨h.1, h.2.balance, h.2.handed, h.2.freed⟩

/-- **A whole session loses no packet and makes up none**, whatever the channels, the order in which
their packets come, the clocks and the time-outs: after the flush at its end, what was handed on,
discarded or left for a channel are the packets with its key that were not skipped, each once. -/
theorem session_conserves (hstc : s.params.stc = -1) {maxTolerableLatency : Int32}
    (hroom : 0 < maxTolerableLatency * 4) (file : List StateLine) {ms : List PdsInput} {seqs : Seqs}
    {evs : List LoopEvent}
    (hrun : run (pdsStep s) (startSeqs s maxTolerableLatency file) ms = .ok (seqs, evs))
    (hms : NumbersOK s ms) (clocks : ℕ → Clock) :
    ∃ after evs', flushingRawDataStream s.qsort s.nFuncPd clocks s.params.stc
        (some s.receive.channelList) (some seqs) = .ok (some after, evs') ∧
      ∀ k q₀, (startSeqs s maxTolerableLatency file)[k]? = some q₀ →
        ∃ q, after[k]? = some q ∧
          Accounted s.nFuncPd (ms.filterMap (heardIn s q₀.afterStartTime k)) q.rawStreamBuffer
            (evs.filterMap (rawEvent k) ++ eventsOf k evs') := by
  have hlen₀ := length_startSeqs (s := s) maxTolerableLatency file
  have hlen := length_session hlen₀ hrun
  -- a channel after the loop
  have hchannel : ∀ k q₀, (startSeqs s maxTolerableLatency file)[k]? = some q₀ →
      ∃ q calls, seqs[k]? = some q ∧ StreamOK q.rawStreamBuffer ∧
        StreamOK q₀.rawStreamBuffer ∧ pending q₀.rawStreamBuffer = [] ∧
        calls.filterMap Call.pd = ms.filterMap (heardIn s q₀.afterStartTime k) ∧
        manageAll s.qsort s.nFuncPd q₀.rawStreamBuffer calls =
          .ok (q.rawStreamBuffer, evs.filterMap (rawEvent k)) := by
    intro k q₀ hq₀
    obtain ⟨q, calls, hq, -, hmanage, hcalls, -⟩ := channel_isolated hstc hrun hq₀
    obtain ⟨t, ht⟩ := buffer_startSeqs hq₀
    have hok : StreamOK q₀.rawStreamBuffer := by
      rw [ht]
      exact streamOK_init hroom _ t
    have hempty : pending q₀.rawStreamBuffer = [] := by
      rw [ht]
      rfl
    exact ⟨q, calls, hq, (manageAll_conserves hok hempty (hms.nonNeg hcalls) hmanage).1, hok,
      hempty, hcalls, hmanage⟩
  have hseqs : ∀ q ∈ seqs, NoRoom q.rawStreamBuffer ∨ StreamOK q.rawStreamBuffer := by
    intro q hq
    obtain ⟨k, hk, hget⟩ := List.getElem_of_mem hq
    have hk₀ : k < (startSeqs s maxTolerableLatency file).length := by omega
    obtain ⟨q', -, hq', hok, -⟩ := hchannel k _ (List.getElem?_eq_getElem hk₀)
    rw [List.getElem?_eq_getElem hk, hget] at hq'
    rw [Option.some.inj hq']
    exact Or.inr hok
  obtain ⟨after, evs', hflush, -, hafter⟩ :=
    flushLoop_ok s.qsort s.nFuncPd clocks s.number 0 seqs (by omega) hseqs
  refine ⟨after, evs', ?_, fun k q₀ hq₀ => ?_⟩
  · unfold flushingRawDataStream
    dsimp only
    rw [if_pos hstc]
    exact bind_eq_ok.mpr ⟨_, hflush, rfl⟩
  · obtain ⟨q, calls, hq, -, hok, hempty, hcalls, hmanage⟩ := hchannel k q₀ hq₀
    obtain ⟨q', o, hq', rfl, hcall⟩ := hafter k q hq
    rw [if_neg (Nat.not_lt_zero k)] at hcall
    have hall : manageAll s.qsort s.nFuncPd q₀.rawStreamBuffer (calls ++ [⟨none, clocks k⟩]) =
        .ok (q'.rawStreamBuffer, evs.filterMap (rawEvent k) ++ eventsOf k evs') :=
      run_append.mpr ⟨_, _, _, hmanage,
        run_cons_eq_ok.mpr ⟨_, _, [], hcall, rfl, (List.append_nil _).symm⟩, rfl⟩
    have hpackets : (calls ++ [(⟨none, clocks k⟩ : Call)]).filterMap Call.pd =
        ms.filterMap (heardIn s q₀.afterStartTime k) := by
      rw [List.filterMap_append, hcalls]
      exact List.append_nil _
    have h := (manageAll_conserves hok hempty (hms.nonNeg hpackets) hall).2
    rw [hpackets] at h
    exact ⟨q', hq', h⟩

/-! ### Order -/

end Sessions

end Nmxptool.Pds.Session
