import Nmxptool.Pds.Session
import Nmxptool.RawStream.Origin
import Nmxptool.RawStream.Reorder
import Nmxptool.Wire.Framing

/-! # A PDS session on its connection

Each iteration of the PDS loop receives one message from the connection and handles it, until an
error other than a time-out. The server has sent well-formed messages one behind the other, and the
connection gives their bytes in chunks of any sizes.

* `pdsLoop_iff`: a session on a connection is a session on what `nmxp_receiveMessage` returns.
* `stream_conserves`: the messages are handled each once and in order, however the bytes come; what
  is handed on, discarded or left for a channel are the packets decoded from them, each once.
* `stream_integrity`: what is handed on for a channel are decoded messages of this channel, with
  increasing numbers.
* `stream_complete`: in time, every one of them is handed on. -/

namespace Nmxptool.Pds.Stream

open Nmxptool.Data.Process Nmxptool.Chan.Channels Nmxptool.Lib.Run Nmxptool.Lib.Refine
open Nmxptool.Lib.Sorting Nmxptool.Lib.Bytes Nmxptool.Lib.Recv
open Nmxptool.Wire.Model Nmxptool.Wire.Framing
open Nmxptool.Decode.Bundle Nmxptool.Decode.Compressed Nmxptool.Decode.Decompressed
open Nmxptool.Decode.Receive
open Nmxptool.RawStream.Model Nmxptool.RawStream.Slots Nmxptool.RawStream.Manage
open Nmxptool.RawStream.Runs Nmxptool.RawStream.Flush Nmxptool.RawStream.Origin
open Nmxptool.RawStream.Reorder Nmxptool.ChanSeq.States
open Nmxptool.Pds.Clip Nmxptool.Pds.Charge Nmxptool.Pds.Session

/-! ### The loop -/

/-- What an iteration is given beside the connection. -/
structure Turn where
  outdata : OutData
  clock : LoopClock

/-- The iteration that receives `r`. -/
def Turn.receives (t : Turn) (r : Received) : PdsInput := ⟨t.outdata, r, t.clock⟩

/-- The channels and the connection, while the loop runs. -/
structure Session where
  seqs : Seqs
  link : Link UInt8

/-- **The PDS loop**, for as many iterations as there are turns at most: it ends at an error that is
no time-out. -/
def pdsLoop (s : LoopSetting) : List Turn → Session → Except LoopFault (Session × List LoopEvent)
  | [], q => return (q, [])
  | t :: ts, q => do
    let r := nmxpReceiveMessage s.receive.host NMXP_MAX_LENGTH_DATA_BUFFER q.link
    let (seqs, evs) ← pdsStep s q.seqs (t.receives r.1)
    if exitpdscondition r.1.recvErrno then
      let (q', evs') ← pdsLoop s ts ⟨seqs, r.2⟩
      return (q', evs ++ evs')
    else return (⟨seqs, r.2⟩, evs)

/-- What `nmxp_receiveMessage` returns in a session. -/
def receivedIn (s : LoopSetting) (turns : List Turn) (link : Link UInt8) :
    List Received × Link UInt8 :=
  receiveCalls s.receive.host NMXP_MAX_LENGTH_DATA_BUFFER turns.length link

/-- The iterations of a session. -/
def inputsIn (s : LoopSetting) (turns : List Turn) (link : Link UInt8) : List PdsInput :=
  List.zipWith Turn.receives turns (receivedIn s turns link).1

section Loop
variable (s : LoopSetting)

/-- **A session on a connection** is a session on what is received, whatever the connection does. -/
theorem pdsLoop_iff : ∀ {turns : List Turn} {seqs : Seqs} {link : Link UInt8} {q : Session}
    {evs : List LoopEvent}, pdsLoop s turns ⟨seqs, link⟩ = .ok (q, evs) ↔
      run (pdsStep s) seqs (inputsIn s turns link) = .ok (q.seqs, evs) ∧
        q.link = (receivedIn s turns link).2
  | [], seqs, link, q, evs => by
    constructor
    · intro h
      obtain ⟨rfl, rfl⟩ := Prod.mk.inj (Except.ok.inj h)
      exact ⟨rfl, rfl⟩
    · rintro ⟨h, hlink⟩
      obtain ⟨hseqs, rfl⟩ := Prod.mk.inj (Except.ok.inj h)
      obtain ⟨seqs', link'⟩ := q
      obtain rfl : seqs = seqs' := hseqs
      obtain rfl : link' = link := hlink
      rfl
  | t :: ts, seqs, link, q, evs => by
    have ih := @pdsLoop_iff ts
    set r := nmxpReceiveMessage s.receive.host NMXP_MAX_LENGTH_DATA_BUFFER link with hr
    have hloop : pdsLoop s (t :: ts) ⟨seqs, link⟩ = .ok (q, evs) ↔
        ∃ seqs' o, pdsStep s seqs (t.receives r.1) = .ok (seqs', o) ∧
          if exitpdscondition r.1.recvErrno then
            ∃ o', pdsLoop s ts ⟨seqs', r.2⟩ = .ok (q, o') ∧ evs = o ++ o'
          else q = ⟨seqs', r.2⟩ ∧ evs = o := by
      rw [pdsLoop]
      simp only [bind_eq_ok, ← hr, Prod.exists]
      refine exists₂_congr fun seqs' o => and_congr_right fun _ => ?_
      split_ifs
      · simp only [bind_eq_ok, pure_eq_ok, Except.ok.injEq, Prod.mk.injEq, Prod.exists]
        constructor
        · rintro ⟨q', o', h, rfl, rfl⟩; exact ⟨o', h, rfl⟩
        · rintro ⟨o', h, rfl⟩; exact ⟨q, o', h, rfl, rfl⟩
      · simp only [pure_eq_ok, Except.ok.injEq, Prod.mk.injEq]
        exact and_congr eq_comm eq_comm
    rw [hloop]
    by_cases hexit : exitpdscondition r.1.recvErrno = true
    · have hin : receivedIn s (t :: ts) link =
          (r.1 :: (receivedIn s ts r.2).1, (receivedIn s ts r.2).2) :=
        receiveCalls_succ hr.symm hexit
      simp only [if_pos hexit, inputsIn, hin, List.zipWith_cons_cons, run_cons_eq_ok]
      constructor
      · rintro ⟨seqs', o, hstep, o', hrest, rfl⟩
        obtain ⟨hrun, hlink⟩ := ih.mp hrest
        exact ⟨⟨seqs', o, o', hstep, hrun, rfl⟩, hlink⟩
      · rintro ⟨⟨seqs', o, o', hstep, hrun, rfl⟩, hlink⟩
        exact ⟨seqs', o, hstep, o', ih.mpr ⟨hrun, hlink⟩, rfl⟩
    · have hin : receivedIn s (t :: ts) link = ([r.1], r.2) := by
        unfold receivedIn
        rw [List.length_cons, receiveCalls, ← hr]
        exact if_neg hexit
      simp only [if_neg hexit, inputsIn, hin, List.zipWith_cons_cons, List.zipWith_nil_right,
        run_cons_eq_ok]
      constructor
      · rintro ⟨seqs', o, hstep, rfl, rfl⟩
        exact ⟨⟨seqs', evs, [], hstep, rfl, (List.append_nil _).symm⟩, rfl⟩
      · rintro ⟨⟨seqs', o, o', hstep, hnil, rfl⟩, hlink⟩
        obtain ⟨hseqs, rfl⟩ := Prod.mk.inj (Except.ok.inj hnil)
        refine ⟨seqs', o, hstep, ?_, List.append_nil _⟩
        obtain ⟨seqs'', link''⟩ := q
        obtain rfl : seqs' = seqs'' := hseqs
        obtain rfl : link'' = r.2 := hlink
        rfl

end Loop

/-! ### The framing, over a session -/

/-- Over undisturbed calls the messages are returned, each once and in order. -/
theorem receiveCalls_undisturbed (host : Host) {bufferLength k : ℕ} {ms : List Message}
    {sched : Stream' RecvEvent} (hquiet : Quiet sched) (h : Undisturbed bufferLength k ms sched) :
    ∃ before rest sched', ms = before ++ rest ∧
      (receiveCalls host bufferLength k ⟨ms.flatMap Message.encode, sched⟩).2 =
        ⟨rest.flatMap Message.encode, sched'⟩ ∧
      (receiveCalls host bufferLength k ⟨ms.flatMap Message.encode, sched⟩).1.length = k ∧
      delivered (receiveCalls host bufferLength k ⟨ms.flatMap Message.encode, sched⟩).1 =
        before.map Message.received := by
  induction h with
  | start ms sched => exact ⟨[], ms, sched, rfl, rfl, rfl, rfl⟩
  | @timeout k ms sched h0 h ih =>
    have hwait := receiveMessage_waits host bufferLength ms (Or.inl h0) hquiet
    obtain ⟨before, rest, sched', hms, hlink, hlen, hdel⟩ := ih hquiet.tail
    rw [receiveCalls_succ hwait rfl]
    exact ⟨before, rest, sched', hms, hlink, by rw [List.length_cons, hlen], hdel⟩
  | @idle k sched h ih =>
    have hwait := receiveMessage_waits host bufferLength [] (Or.inr rfl) hquiet
    obtain ⟨before, rest, sched', hms, hlink, hlen, hdel⟩ := ih hquiet.tail
    rw [receiveCalls_succ hwait rfl]
    exact ⟨before, rest, sched', hms, hlink, by rw [List.length_cons, hlen], hdel⟩
  | @message k m ms sched s1 s2 h1 hfit h2 h ih =>
    have hok : nmxpReceiveMessage host bufferLength ⟨(m :: ms).flatMap Message.encode, sched⟩ =
        (m.received, ⟨ms.flatMap Message.encode, s2⟩) := by
      rw [List.flatMap_cons]
      exact receiveMessage_ok h1 hfit h2
    obtain ⟨before, rest, sched', rfl, hlink, hlen, hdel⟩ := ih (h2.quiet (h1.quiet hquiet))
    rw [receiveCalls_succ hok rfl]
    refine ⟨m :: before, rest, sched', rfl, hlink, by rw [List.length_cons, hlen], ?_⟩
    exact congrArg (m.received :: ·) hdel

/-- By a flowing schedule every call is undisturbed. -/
theorem undisturbed_of_flowing {bufferLength : ℕ} {ms : List Message}
    (hfit : ∀ m ∈ ms, m.Fits bufferLength) {sched : Stream' RecvEvent} (h : Flowing sched) :
    Undisturbed bufferLength ms.length ms sched := by
  induction ms generalizing sched with
  | nil => exact .start [] sched
  | cons m ms ih =>
    obtain ⟨s1, h1, hs1⟩ := h.arrive HEADER_SIZE
    obtain ⟨s2, h2, hs2⟩ := hs1.arrive m.body.length
    exact .message h1 (hfit m List.mem_cons_self) h2
      (ih (fun m' hm' => hfit m' (List.mem_cons_of_mem m hm')) hs2)

/-- The iterations that receive a message. -/
def messagesIn (inputs : List PdsInput) : List PdsInput :=
  inputs.filter fun m => m.received.ret = NMXP_SOCKET_OK

theorem received_zipWith {turns : List Turn} {rs : List Received} (h : rs.length = turns.length) :
    (List.zipWith Turn.receives turns rs).map PdsInput.received = rs := by
  induction turns generalizing rs with
  | nil => rw [List.eq_nil_of_length_eq_zero h]; rfl
  | cons t ts ih =>
    cases rs with
    | nil => exact absurd h (by simp)
    | cons r rs =>
      rw [List.zipWith_cons_cons, List.map_cons, ih (Nat.succ.inj h)]
      rfl

theorem received_messagesIn {turns : List Turn} {rs : List Received}
    (h : rs.length = turns.length) :
    (messagesIn (List.zipWith Turn.receives turns rs)).map PdsInput.received = delivered rs := by
  conv_rhs => rw [← received_zipWith h]
  unfold messagesIn delivered
  rw [List.filter_map]
  rfl

section Sessions
variable (s : LoopSetting)

/-- **An undisturbed session** handles the messages each once and in order, and the stream is left
at the start of the next one. -/
theorem inputs_undisturbed {turns : List Turn} {ms : List Message} {sched : Stream' RecvEvent}
    (hquiet : Quiet sched)
    (h : Undisturbed NMXP_MAX_LENGTH_DATA_BUFFER turns.length ms sched) :
    ∃ before rest, ms = before ++ rest ∧
      (receivedIn s turns ⟨ms.flatMap Message.encode, sched⟩).2.inbox =
        rest.flatMap Message.encode ∧
      (messagesIn (inputsIn s turns ⟨ms.flatMap Message.encode, sched⟩)).map PdsInput.received =
        before.map Message.received := by
  obtain ⟨before, rest, sched', hms, hlink, hlen, hdel⟩ :=
    receiveCalls_undisturbed s.receive.host hquiet h
  refine ⟨before, rest, hms, congrArg Link.inbox hlink, ?_⟩
  rw [← hdel]
  exact received_messagesIn hlen

/-- Nothing is heard where no message is received. -/
theorem heardIn_messagesIn (t : ℚ) (k : ℕ) (inputs : List PdsInput) :
    (messagesIn inputs).filterMap (heardIn s t k) = inputs.filterMap (heardIn s t k) := by
  unfold messagesIn
  rw [List.filterMap_filter]
  refine List.filterMap_congr fun m _ => ?_
  by_cases h : m.received.ret = NMXP_SOCKET_OK
  · rw [if_pos (decide_eq_true h)]
  · have hnone : receivedPd s m = none := by
      unfold receivedPd processMessage
      rw [if_neg h]
      rfl
    rw [if_neg (by simpa using h), heardIn, hnone]
    rfl

/-! ### Numbers -/

/-- What is decoded from a message has a number that is not negative. -/
def Numbered (m : Message) : Prop :=
  ∀ outdata clock, ∀ pd ∈ receivedPd s ⟨outdata, m.received, clock⟩, 0 ≤ seqNum pd

variable {s}

theorem numbersOK_of_received {inputs : List PdsInput} {before : List Message}
    (hreceived : (messagesIn inputs).map PdsInput.received = before.map Message.received)
    (hms : ∀ m ∈ before, Numbered s m) : NumbersOK s inputs := by
  intro m hm pd hpd
  by_cases hret : m.received.ret = NMXP_SOCKET_OK
  · have hmem : m.received ∈ before.map Message.received := by
      rw [← hreceived]
      exact List.mem_map_of_mem (List.mem_filter.mpr ⟨hm, decide_eq_true hret⟩)
    obtain ⟨m', hm', hr⟩ := List.mem_map.mp hmem
    refine hms m' hm' m.outdata m.clock pd ?_
    rw [hr]
    exact hpd
  · unfold receivedPd processMessage at hpd
    rw [if_neg hret] at hpd
    exact absurd hpd (by simp)

/-- A channel at the start, without a state file. -/
theorem startSeqs_nil (maxTolerableLatency : Int32) {k : ℕ} (hk : k < s.number) :
    (startSeqs s maxTolerableLatency [])[k]? = some ⟨0, .finite 0, 0, 0, DEFAULT_BUFFERED_TIME,
      nmxpRawStreamInit maxTolerableLatency s.params.timeoutrecv⟩ :=
  List.getElem?_replicate_of_lt hk

/-! ### Messages of a server -/

/-- The number of a compressed message. -/
def number (m : Message) : ℤ := signed (field m.body 13 4)

variable (s) in
/-- **The server sends compressed data of subscribed channels**, with a whole header and a number
that is not negative. -/
structure DataOK (m : Message) : Prop where
  type : m.type ≠ NMXP_MSG_DECOMPRESSED
  header : m.type = NMXP_MSG_COMPRESSED → 21 ≤ m.body.length
  key : m.type = NMXP_MSG_COMPRESSED → Known s.receive.channelList (headerKey m.body)
  number : m.type = NMXP_MSG_COMPRESSED → 0 ≤ number m

instance (m : Message) : Decidable (DataOK s m) :=
  decidable_of_iff (m.type ≠ NMXP_MSG_DECOMPRESSED ∧
      (m.type = NMXP_MSG_COMPRESSED → 21 ≤ m.body.length) ∧
      (m.type = NMXP_MSG_COMPRESSED → Known s.receive.channelList (headerKey m.body)) ∧
      (m.type = NMXP_MSG_COMPRESSED → 0 ≤ number m))
    ⟨fun ⟨h1, h2, h3, h4⟩ => ⟨h1, h2, h3, h4⟩, fun h => ⟨h.type, h.header, h.key, h.number⟩⟩

/-- The decoder reads the body alone. -/
theorem compressedView_received {m : Message} (h : 21 ≤ m.body.length) :
    compressedView (bufferOf m.received.body) m.received.length = m.body := by
  have hlen : m.received.length.toInt.toNat = m.body.length := by
    show m.length.toInt.toNat = m.body.length
    rw [m.toInt_length]
    exact Int.toNat_natCast _
  unfold compressedView bufferOf
  rw [hlen, max_eq_right h]
  exact List.take_left

/-- What `nmxp_receiveData` does with a message of the server. -/
theorem DataOK.processMessage {m : Message} (hm : DataOK s m) (outdata : OutData) :
    processMessage s.receive outdata m.received =
      if m.type = NMXP_MSG_COMPRESSED then do
        let pd ← nmxpProcessCompressedData s.receive.host outdata m.body s.receive.channelList
          s.receive.networkCode s.receive.locationCode
        return some pd
      else return none := by
  unfold Decode.Receive.processMessage
  rw [if_pos (show m.received.ret = NMXP_SOCKET_OK from rfl)]
  by_cases hc : m.type = NMXP_MSG_COMPRESSED
  · rw [if_pos (show m.received.type = NMXP_MSG_COMPRESSED from hc), if_pos hc,
      compressedView_received (hm.header hc)]
  · rw [if_neg (show m.received.type ≠ NMXP_MSG_COMPRESSED from hc), if_neg hc,
      if_neg (show m.received.type ≠ NMXP_MSG_DECOMPRESSED from hm.type)]

/-- What an iteration decodes from it. -/
theorem DataOK.ok_of_received {m : Message} (hm : DataOK s m) {outdata : OutData}
    {clock : LoopClock} {pd : Pd} (h : receivedPd s ⟨outdata, m.received, clock⟩ = some pd) :
    m.type = NMXP_MSG_COMPRESSED ∧ nmxpProcessCompressedData s.receive.host outdata m.body
      s.receive.channelList s.receive.networkCode s.receive.locationCode = .ok pd := by
  unfold receivedPd at h
  rw [hm.processMessage] at h
  split_ifs at h with hc
  · cases hpd : nmxpProcessCompressedData s.receive.host outdata m.body s.receive.channelList
        s.receive.networkCode s.receive.locationCode with
    | error stop => rw [hpd] at h; exact absurd h (by simp)
    | ok pd' =>
      rw [hpd] at h
      obtain rfl := Option.some.inj h
      exact ⟨hc, rfl⟩
  · exact absurd h (by simp)

theorem DataOK.decoded {m : Message} (hm : DataOK s m) {outdata : OutData} {clock : LoopClock}
    {pd : Pd} (h : receivedPd s ⟨outdata, m.received, clock⟩ = some pd) :
    m.type = NMXP_MSG_COMPRESSED ∧ Decoded m.body pd := by
  obtain ⟨hc, hpd⟩ := hm.ok_of_received h
  exact ⟨hc, decoded_of_ok (hm.header hc) (hm.key hc) hpd⟩

theorem seqNum_decoded {m : Message} {pd : Pd} (h : Decoded m.body pd) : seqNum pd = number m :=
  h.seqNo

theorem DataOK.numbered {m : Message} (hm : DataOK s m) : Numbered s m := by
  intro outdata clock pd hpd
  obtain ⟨hc, hdecoded⟩ := hm.decoded hpd
  rw [seqNum_decoded hdecoded]
  exact hm.number hc

/-! ### Conservation -/

/-- **From the bytes to the outputs no packet is lost or made up**: whatever the chunks and the
time-outs between messages, the session handles a first part of the messages, each once and in
order, and leaves the others on the connection; after the flush, what was handed on, discarded or
left for a channel are the packets that were decoded from them for this channel, each once. -/
theorem stream_conserves (hstc : s.params.stc = -1) {maxTolerableLatency : Int32}
    (hroom : 0 < maxTolerableLatency * 4) (file : List StateLine) {turns : List Turn}
    {ms : List Message} {sched : Stream' RecvEvent} (hquiet : Quiet sched)
    (hframes : Undisturbed NMXP_MAX_LENGTH_DATA_BUFFER turns.length ms sched)
    (hms : ∀ m ∈ ms, Numbered s m) {q : Session} {evs : List LoopEvent}
    (hrun : pdsLoop s turns ⟨startSeqs s maxTolerableLatency file,
      ⟨ms.flatMap Message.encode, sched⟩⟩ = .ok (q, evs)) (clocks : ℕ → Clock) :
    ∃ before rest, ∃ inputs : List PdsInput, ms = before ++ rest ∧
      q.link.inbox = rest.flatMap Message.encode ∧
      inputs.map PdsInput.received = before.map Message.received ∧
      ∃ after evs', flushingRawDataStream s.qsort s.nFuncPd clocks s.params.stc
          (some s.receive.channelList) (some q.seqs) = .ok (some after, evs') ∧
        ∀ k q₀, (startSeqs s maxTolerableLatency file)[k]? = some q₀ →
          ∃ q', after[k]? = some q' ∧
            Accounted s.nFuncPd (inputs.filterMap (heardIn s q₀.afterStartTime k))
              q'.rawStreamBuffer (evs.filterMap (rawEvent k) ++ eventsOf k evs') := by
  obtain ⟨hloop, hlink⟩ := (pdsLoop_iff s).mp hrun
  obtain ⟨before, rest, rfl, hinbox, hreceived⟩ := inputs_undisturbed s hquiet hframes
  have hnumbers := numbersOK_of_received hreceived fun m hm => hms m (List.mem_append_left _ hm)
  obtain ⟨after, evs', hflush, hafter⟩ := session_conserves hstc hroom file hloop hnumbers clocks
  refine ⟨before, rest, _, rfl, by rw [hlink, hinbox], hreceived, after, evs', hflush, ?_⟩
  intro k q₀ hq₀
  rw [heardIn_messagesIn]
  exact hafter k q₀ hq₀

/-- A message with one bundle. -/
def bundleMessage (channel seqNo : UInt8) : Message :=
  ⟨NMXP_MSG_COMPRESSED, bundleBody channel seqNo, by decide, by simp [bundleBody]⟩

/-- Messages of two channels, one of them out of order. -/
def interleaved : List Message :=
  [bundleMessage 0 5, bundleMessage 1 9, bundleMessage 0 7, bundleMessage 0 6]

theorem dataOK_interleaved : ∀ m ∈ interleaved, DataOK twoSubscribed m := by decide +kernel

/-- Four iterations, at one time. -/
def fourTurns : List Turn :=
  List.replicate 4 ⟨zeroed, ⟨fun _ => 0, 0, fun _ => 0, fun _ _ => 0, fun _ => 0⟩⟩

/-- Chunks that end within a header, within a body, and behind the next header. -/
def chopped : Stream' RecvEvent := startingWith [.chunk 5, .chunk 7, .chunk 20, .chunk 18]

theorem flowing_chopped : Flowing chopped := by
  intro n
  match n with
  | 0 | 1 | 2 | 3 => exact ⟨_, rfl⟩
  | n + 4 => exact ⟨100000, rfl⟩

theorem quiet_chopped : Quiet chopped := fun n => Or.inr (flowing_chopped n)

theorem undisturbed_chopped :
    Undisturbed NMXP_MAX_LENGTH_DATA_BUFFER fourTurns.length interleaved chopped := by
  have hfit : ∀ m ∈ interleaved, m.Fits NMXP_MAX_LENGTH_DATA_BUFFER := by decide
  exact undisturbed_of_flowing hfit flowing_chopped

theorem pdsLoop_interleaved : ∃ q evs, pdsLoop twoSubscribed fourTurns
    ⟨startSeqs twoSubscribed 10 [], ⟨interleaved.flatMap Message.encode, chopped⟩⟩ =
      .ok (q, evs) ∧ q.link.inbox = [] := by
  have hok : (pdsLoop twoSubscribed fourTurns
      ⟨startSeqs twoSubscribed 10 [], ⟨interleaved.flatMap Message.encode, chopped⟩⟩).map
        (fun r => r.1.link.inbox) = .ok [] := by decide +kernel
  obtain ⟨⟨q, evs⟩, hrun, hinbox⟩ := map_eq_ok.mp hok
  exact ⟨q, evs, hrun, hinbox⟩

theorem stream_conserves_interleaved : ∃ q evs after evs',
    pdsLoop twoSubscribed fourTurns
      ⟨startSeqs twoSubscribed 10 [], ⟨interleaved.flatMap Message.encode, chopped⟩⟩ =
        .ok (q, evs) ∧
      flushingRawDataStream insertion 1 (fun _ _ => 0) (-1)
        (some twoSubscribed.receive.channelList) (some q.seqs) = .ok (some after, evs') := by
  obtain ⟨q, evs, hrun, -⟩ := pdsLoop_interleaved
  obtain ⟨-, -, -, -, -, -, after, evs', hflush, -⟩ := stream_conserves rfl (by decide) []
    quiet_chopped undisturbed_chopped (fun m hm => (dataOK_interleaved m hm).numbered) hrun
    fun _ _ => 0
  exact ⟨q, evs, after, evs', hrun, hflush⟩

/-! ### Integrity -/

/-- The index of the channel of a compressed message. -/
def chanIndex (s : LoopSetting) (m : Message) : ℤ :=
  nmxpChanLookupKeyIndex (headerKey m.body) s.receive.channelList

/-- **A packet handed on delivers a message**: it is the copy of what the loop makes of the decoded
message, which is one of channel `k`. -/
structure Delivers (s : LoopSetting) (t : ℚ) (k : ℕ) (m : Message) (x : Pd) : Prop where
  type : m.type = NMXP_MSG_COMPRESSED
  chan : chanIndex s m = k
  handed : ∃ pd y, Decoded m.body pd ∧ heard s t k pd = some y ∧ x = copyPd y

theorem Delivers.number {t : ℚ} {k : ℕ} {m : Message} {x : Pd} (h : Delivers s t k m x) :
    Stream.number m = seqNum x := by
  obtain ⟨pd, y, hdecoded, hheard, rfl⟩ := h.handed
  rw [← seqNum_decoded hdecoded, ← seqNum_heard hheard]
  rfl

theorem lookup_of_heard {t : ℚ} {k : ℕ} {pd y : Pd} (h : heard s t k pd = some y) :
    nmxpChanLookupKeyIndex pd.key s.receive.channelList = k := by
  unfold heard at h
  dsimp only at h
  split_ifs at h with hk
  rwa [forceTimingQuality_key] at hk

/-- A packet that a stream without packets hands on is the copy of one that it was given. -/
theorem handedTo_from {Q : Qsort} {nFuncPd : ℕ} {p₀ p : NmxpRawStreamData}
    (h₀ : ∀ v ∈ p₀.pdlist, v = none) {calls : List Call} {evs : List Event}
    (hrun : manageAll Q nFuncPd p₀ calls = .ok (p, evs)) {i : ℕ} {x : Pd}
    (hx : x ∈ handedTo i evs) : ∃ pd ∈ calls.filterMap Call.pd, x = copyPd pd := by
  let P : Pd → Prop := fun x => ∃ pd ∈ calls.filterMap Call.pd, x = copyPd pd
  have hinv : Only P p.pdlist ∧ Hands P evs := by
    refine run_inv (C := fun _ c => c ∈ calls) (fun s _ tr => Only P s.pdlist ∧ Hands P tr) ?_
      [] [] ⟨?_, hands_nil⟩ (allSteps_of_forall (fun _ c hc => hc) _) hrun
    · rintro s done tr c s' o ⟨hs, htr⟩ hc h
      have hcall : Leaves (fun r => Only P r.1.pdlist ∧ Hands P r.2)
          (callStep Q nFuncPd s c) :=
        manage_only Q nFuncPd c.clock hs fun x hx =>
          ⟨x, List.mem_filterMap.mpr ⟨c, hc, hx⟩, rfl⟩
      rw [h] at hcall
      exact ⟨hcall.1, htr.append hcall.2⟩
    · intro x hx
      exact absurd (h₀ _ hx) (by simp)
  obtain ⟨e, he, hex⟩ := List.mem_filterMap.mp hx
  cases e with
  | funcPd j y =>
    dsimp only at hex
    split_ifs at hex
    obtain rfl := Option.some.inj hex
    exact hinv.2 j y he
  | sent y => exact absurd hex (by simp)
  | discarded y => exact absurd hex (by simp)
  | shouldNotOccur y => exact absurd hex (by simp)
  | freed y => exact absurd hex (by simp)

/-- What a channel hears in an iteration that receives a message of the server. -/
theorem DataOK.delivers {m : Message} (hm : DataOK s m) {input : PdsInput}
    (hreceived : input.received = m.received) {t : ℚ} {k : ℕ} {y : Pd}
    (h : heardIn s t k input = some y) : Delivers s t k m (copyPd y) := by
  obtain ⟨pd, hpd, hheard⟩ := Option.bind_eq_some_iff.mp h
  obtain ⟨outdata, received, clock⟩ := input
  obtain rfl : received = m.received := hreceived
  obtain ⟨hc, hdecoded⟩ := hm.decoded hpd
  refine ⟨hc, ?_, pd, y, hdecoded, hheard, rfl⟩
  unfold chanIndex
  rw [← hdecoded.key]
  exact lookup_of_heard hheard

/-- Every packet that a channel's stream hands on is the copy of one that was heard in an iteration
which received a message. -/
theorem handed_heard {inputs : List PdsInput} {before : List Message}
    (hreceived : (messagesIn inputs).map PdsInput.received = before.map Message.received)
    {p₀ p : NmxpRawStreamData} (h₀ : ∀ v ∈ p₀.pdlist, v = none) {calls : List Call}
    {evs : List Event} (hmanage : manageAll s.qsort s.nFuncPd p₀ calls = .ok (p, evs)) {t : ℚ}
    {k : ℕ} (hpackets : calls.filterMap Call.pd = inputs.filterMap (heardIn s t k)) {i : ℕ} {x : Pd}
    (hx : x ∈ handedTo i evs) : ∃ m ∈ before, ∃ input y, input.received = m.received ∧
      heardIn s t k input = some y ∧ x = copyPd y := by
  obtain ⟨y, hy, rfl⟩ := handedTo_from h₀ hmanage hx
  rw [hpackets, ← heardIn_messagesIn] at hy
  obtain ⟨input, hinput, hheard⟩ := List.mem_filterMap.mp hy
  have hmem : input.received ∈ before.map Message.received := by
    rw [← hreceived]
    exact List.mem_map_of_mem hinput
  obtain ⟨m, hm, hr⟩ := List.mem_map.mp hmem
  exact ⟨m, hm, input, y, hr.symm, hheard, rfl⟩

/-- It delivers this message. -/
theorem handed_delivers {inputs : List PdsInput} {before : List Message}
    (hreceived : (messagesIn inputs).map PdsInput.received = before.map Message.received)
    (hbefore : ∀ m ∈ before, DataOK s m) {p₀ p : NmxpRawStreamData}
    (h₀ : ∀ v ∈ p₀.pdlist, v = none) {calls : List Call} {evs : List Event}
    (hmanage : manageAll s.qsort s.nFuncPd p₀ calls = .ok (p, evs)) {t : ℚ} {k : ℕ}
    (hpackets : calls.filterMap Call.pd = inputs.filterMap (heardIn s t k)) (i : ℕ) :
    ∃ picked ⊆ before, List.Forall₂ (Delivers s t k) picked (handedTo i evs) := by
  refine exists_forall₂ fun x hx => ?_
  obtain ⟨m, hm, input, y, hr, hheard, rfl⟩ := handed_heard hreceived h₀ hmanage hpackets hx
  exact ⟨m, hm, (hbefore m hm).delivers hr hheard⟩

theorem encode_eq_nil {rest : List Message} (h : rest.flatMap Message.encode = []) : rest = [] := by
  cases rest with
  | nil => rfl
  | cons m rest =>
    have hlen := congrArg List.length h
    rw [List.flatMap_cons, List.length_append, Message.length_encode] at hlen
    have := header_pos
    simp only [List.length_nil] at hlen
    omega

/-- A message with data of channel `k`. -/
def OfChannel (s : LoopSetting) (k : ℕ) (m : Message) : Prop :=
  m.type = NMXP_MSG_COMPRESSED ∧ chanIndex s m = k

instance (k : ℕ) (m : Message) : Decidable (OfChannel s k m) :=
  inferInstanceAs (Decidable (_ ∧ _))

/-- The number of a message of channel `k`. -/
def numberFor (s : LoopSetting) (k : ℕ) (m : Message) : Option ℤ :=
  if OfChannel s k m then some (number m) else none

/-- **Some numbers are complete**: `b` comes first, then all from there to `b + n`, in any order and
any number of times, and none above. -/
structure Complete (b n : ℕ) (numbers : List ℤ) : Prop where
  first : numbers.head? = some (b : ℤ)
  range : ∀ v ∈ numbers, 0 ≤ v ∧ v ≤ b + n
  all : ∀ v : ℤ, b < v → v ≤ b + n → v ∈ numbers

/-- No packet of channel `k` is before the time `t` to resume at. -/
def NoneSkipped (s : LoopSetting) (t : ℚ) (k : ℕ) (inputs : List PdsInput) : Prop :=
  ∀ m ∈ inputs, ∀ pd ∈ receivedPd s m,
    nmxpChanLookupKeyIndex pd.key s.receive.channelList = k → (heard s t k pd).isSome

/-- A message of channel `k` is heard, if its iteration ends well and its packet is not skipped. -/
theorem DataOK.seqNum_heardIn {m : Message} (hm : DataOK s m) {input : PdsInput}
    (hreceived : input.received = m.received) {t : ℚ} {k : ℕ}
    (hstep : ∃ seqs seqs' o, pdsStep s seqs input = .ok (seqs', o))
    (hkept : ∀ pd ∈ receivedPd s input,
      nmxpChanLookupKeyIndex pd.key s.receive.channelList = k → (heard s t k pd).isSome) :
    (heardIn s t k input).map seqNum = numberFor s k m := by
  unfold numberFor
  split_ifs with hof
  · obtain ⟨seqs, seqs', o, hstep⟩ := hstep
    obtain ⟨pd, hpd, -⟩ := bind_eq_ok.mp hstep
    obtain ⟨outdata, received, clock⟩ := input
    obtain rfl : received = m.received := hreceived
    rw [hm.processMessage, if_pos hof.1] at hpd
    cases hd : nmxpProcessCompressedData s.receive.host outdata m.body s.receive.channelList
        s.receive.networkCode s.receive.locationCode with
    | error stop => rw [hd] at hpd; exact absurd hpd (by simp [Charge.decoded])
    | ok p =>
      have hp : receivedPd s ⟨outdata, m.received, clock⟩ = some p := by
        unfold receivedPd
        rw [hm.processMessage, if_pos hof.1, hd]
        rfl
      have hdecoded := (hm.decoded hp).2
      have hindex : nmxpChanLookupKeyIndex p.key s.receive.channelList = k := by
        rw [hdecoded.key]
        exact hof.2
      obtain ⟨y, hy⟩ := Option.isSome_iff_exists.mp (hkept p hp hindex)
      rw [heardIn, hp, Option.bind_some, hy, Option.map_some, seqNum_heard hy,
        seqNum_decoded hdecoded]
  · cases hy : heardIn s t k input with
    | none => rfl
    | some y =>
      have hdelivers := hm.delivers hreceived hy
      exact absurd ⟨hdelivers.type, hdelivers.chan⟩ hof

/-- **In time, everything that was sent is handed on**: if the messages of a channel bring all
numbers, and no call meets a full buffer or an intolerable latency, then every function is handed
each number once and in order, with the data of a message of this number. -/
theorem stream_complete (hstc : s.params.stc = -1) (hrecv : s.params.timeoutrecv = 0)
    (maxTolerableLatency : Int32) {turns : List Turn} {ms : List Message}
    {sched : Stream' RecvEvent} (hquiet : Quiet sched)
    (hframes : Undisturbed NMXP_MAX_LENGTH_DATA_BUFFER turns.length ms sched)
    (hms : ∀ m ∈ ms, DataOK s m) {q : Session} {evs : List LoopEvent}
    (hrun : pdsLoop s turns ⟨startSeqs s maxTolerableLatency [],
      ⟨ms.flatMap Message.encode, sched⟩⟩ = .ok (q, evs)) (hall : q.link.inbox = [])
    {k : ℕ} (hk : k < s.number) {b n : ℕ} (hcomplete : Complete b n (ms.filterMap (numberFor s k)))
    (hkept : NoneSkipped s DEFAULT_BUFFERED_TIME k
      (inputsIn s turns ⟨ms.flatMap Message.encode, sched⟩))
    (hrelaxed : AllSteps (callStep s.qsort s.nFuncPd) Relaxed
      (nmxpRawStreamInit maxTolerableLatency 0)
      ((inputsIn s turns ⟨ms.flatMap Message.encode, sched⟩).filterMap
        (callIn s DEFAULT_BUFFERED_TIME k))) {i : ℕ} (hi : i < s.nFuncPd) :
    ∃ picked ⊆ ms, picked.map number = (List.range (n + 1)).map (fun j : ℕ => (b : ℤ) + j) ∧
      List.Forall₂ (Delivers s DEFAULT_BUFFERED_TIME k) picked
        (handedTo i (evs.filterMap (rawEvent k))) := by
  obtain ⟨hloop, hlink⟩ := (pdsLoop_iff s).mp hrun
  obtain ⟨before, rest, rfl, hinbox, hreceived⟩ := inputs_undisturbed s hquiet hframes
  obtain rfl : rest = [] := by
    rw [hlink, hinbox] at hall
    exact encode_eq_nil hall
  rw [List.append_nil] at *
  set inputs := inputsIn s turns ⟨before.flatMap Message.encode, sched⟩ with hinputs
  have hq₀ := startSeqs_nil maxTolerableLatency hk
  rw [hrecv] at hq₀
  obtain ⟨q', calls, -, -, hmanage, hpackets, hcalls⟩ := channel_isolated hstc hloop hq₀
  have hcalls := hcalls (by rw [hrecv]; exact Int32.le_refl 0)
  -- the numbers of the calls are those of the messages
  have harrived : arrived calls = before.filterMap (numberFor s k) := by
    unfold arrived
    rw [hpackets, ← heardIn_messagesIn, List.map_filterMap]
    refine filterMap_eq_of_forall₂ (R := fun input m => input.received = m.received) ?_ ?_
    · have heq : List.Forall₂ (· = ·) ((messagesIn inputs).map PdsInput.received)
          (before.map Message.received) := by
        rw [List.forall₂_eq_eq_eq]
        exact hreceived
      exact List.forall₂_map_right_iff.mp (List.forall₂_map_left_iff.mp heq)
    · intro input hinput m hm hr
      have hmem := (List.mem_filter.mp hinput).1
      exact (hms m hm).seqNum_heardIn hr (step_of_run hloop input hmem) (hkept input hmem)
  have harrivals : Arrivals b n calls := by
    refine ⟨fun c hc => ?_, ?_, ?_, ?_⟩
    · rw [hcalls] at hc
      obtain ⟨m, -, hm⟩ := List.mem_filterMap.mp hc
      obtain ⟨x, -, rfl⟩ := Option.map_eq_some_iff.mp hm
      rfl
    all_goals rw [harrived]
    exacts [hcomplete.first, hcomplete.range, hcomplete.all]
  obtain ⟨p, evs', hcomplete', hinorder⟩ := complete_in_order harrivals (hcalls ▸ hrelaxed)
  obtain ⟨-, hevs⟩ := Prod.mk.inj (Except.ok.inj (hmanage.symm.trans hcomplete'))
  obtain ⟨picked, hsub, hpicked⟩ := handed_delivers hreceived hms
    (fun v hv => List.eq_of_mem_replicate hv) hmanage hpackets i
  refine ⟨picked, hsub, ?_, hpicked⟩
  rw [map_eq_of_forall₂ (fun m x h => Delivers.number h) hpicked, hevs]
  exact hinorder.handed i hi

theorem stream_complete_interleaved : ∃ q evs picked,
    pdsLoop twoSubscribed fourTurns
      ⟨startSeqs twoSubscribed 10 [], ⟨interleaved.flatMap Message.encode, chopped⟩⟩ =
        .ok (q, evs) ∧ picked.map number = [5, 6, 7] ∧
      List.Forall₂ (Delivers twoSubscribed DEFAULT_BUFFERED_TIME 0) picked
        (handedTo 0 (evs.filterMap (rawEvent 0))) := by
  obtain ⟨q, evs, hrun, hall⟩ := pdsLoop_interleaved
  have hnumbers : interleaved.filterMap (numberFor twoSubscribed 0) = [5, 7, 6] := by
    decide +kernel
  have hcomplete : Complete 5 2 (interleaved.filterMap (numberFor twoSubscribed 0)) := by
    rw [hnumbers]
    refine ⟨rfl, by decide, fun v h1 h2 => ?_⟩
    obtain rfl | rfl : v = 6 ∨ v = 7 := by omega
    · decide
    · decide
  have hkept : ((inputsIn twoSubscribed fourTurns ⟨interleaved.flatMap Message.encode,
      chopped⟩).all fun m => (receivedPd twoSubscribed m).all fun pd =>
        (heard twoSubscribed DEFAULT_BUFFERED_TIME 0 pd).isSome ||
          decide (nmxpChanLookupKeyIndex pd.key twoSubscribed.receive.channelList ≠ 0)) =
      true := by decide +kernel
  have hnone : NoneSkipped twoSubscribed DEFAULT_BUFFERED_TIME 0
      (inputsIn twoSubscribed fourTurns ⟨interleaved.flatMap Message.encode, chopped⟩) := by
    intro m hm pd hpd hindex
    have hm' := List.all_eq_true.mp hkept m hm
    rw [Option.mem_def.mp hpd] at hm'
    simpa [hindex] using hm'
  obtain ⟨picked, -, hpicked, hdelivers⟩ := stream_complete rfl rfl 10 quiet_chopped
    undisturbed_chopped dataOK_interleaved hrun hall (k := 0) (by decide +kernel) hcomplete hnone
    (by decide +kernel) (i := 0) (by decide)
  exact ⟨q, evs, picked, hrun, hpicked, hdelivers⟩

end Sessions

end Nmxptool.Pds.Stream
