import Nmxptool.Dap.Answers
import Nmxptool.Dap.Flow
import Nmxptool.Pds.Session
import Nmxptool.Wire.RoundTrip

/-! # Retrieving data from the past

With the data access protocol the client requests one time window for each channel of the subset,
one after the other, and each time takes the answer from the connection before it goes on. What the
server answers, and when its bytes come, is left open.

* `requestLoop`: the loop of `main` over the channels, on the connection.
* `requestStep_ok`: one channel.
* `session_retrieves`: for each channel the outputs get the samples of the answer to its request
  that are inside its window.
* `session_complete`: the requests are wide enough: from a server that sends every packet it has in
  the requested seconds, the outputs get every sample it has inside the window. -/

namespace Nmxptool.Dap.Session

open Nmxptool.Data.Process Nmxptool.Chan.Channels Nmxptool.Lib.Run Nmxptool.Lib.Bytes
open Nmxptool.Lib.Recv Nmxptool.Lib.Window Nmxptool.Wire.Model Nmxptool.Wire.Framing
open Nmxptool.Wire.RoundTrip Nmxptool.Wire.Ready Nmxptool.Wire.UntilReady
open Nmxptool.Decode.Bundle Nmxptool.Decode.Compressed Nmxptool.Decode.Receive
open Nmxptool.Params.Parameters Nmxptool.Pds.Charge Nmxptool.Dap.Answers
open Nmxptool.Pds.Clip (truncate truncate_of_nonneg)
open Nmxptool.Pds.Clip (DEFAULT_BUFFERED_TIME)
open Nmxptool.Pds.Session (twoSubscribed)
open Nmxptool.RawStream.Flush (nmxptoolChanseqInit)
open Nmxptool.Dap.Windows (toInt_truncate)
open Nmxptool.Dap.Flow (startTimeOf)

def NMXP_MSG_DATAREQUEST : Int32 := 227

/-- `sizeof(NMXP_DATA_REQUEST)`. -/
def SIZEOF_DATA_REQUEST : Int32 := 12

/-! ### The request -/

/-- `nmxp_sendDataRequest`. -/
def nmxpSendDataRequest (host : Host) (key startTime endTime : Int32) (o : Outlet) : ℤ × Outlet :=
  nmxpSendMessage host NMXP_MSG_DATAREQUEST
    (some (inMemory host (ntohl host key) ++ (inMemory host (ntohl host startTime) ++
      inMemory host (ntohl host endTime)))) SIZEOF_DATA_REQUEST o

/-- The message. -/
def requestMessage (key startTime endTime : Int32) : Message where
  type := NMXP_MSG_DATAREQUEST
  body := network32 key ++ (network32 startTime ++ network32 endTime)
  type_ne := by decide
  body_lt := by simp

theorem sendDataRequest_eq (host : Host) (key startTime endTime : Int32) (o : Outlet) :
    nmxpSendDataRequest host key startTime endTime o =
      nmxpSendMessage host (requestMessage key startTime endTime).type
        (some (requestMessage key startTime endTime).body)
        (requestMessage key startTime endTime).length o := by
  have hlength : (requestMessage key startTime endTime).length = SIZEOF_DATA_REQUEST := by
    rw [Message.length, requestMessage]
    simp
    rfl
  rw [hlength, nmxpSendDataRequest]
  simp only [inMemory, store_ntohl]
  rfl

/-- **A request is sent** where the calls of `send` take it. -/
theorem sendDataRequest_writable (host : Host) (key startTime endTime : Int32) {o : Outlet}
    (ho : Writable o.schedule) :
    (nmxpSendDataRequest host key startTime endTime o).1 = NMXP_SOCKET_OK ∧
      (nmxpSendDataRequest host key startTime endTime o).2.wire =
        o.wire ++ (requestMessage key startTime endTime).encode ∧
      Writable (nmxpSendDataRequest host key startTime endTime o).2.schedule := by
  rw [sendDataRequest_eq]
  exact sendMessage_writable host (by simp [requestMessage]) ho

/-! ### The loop over the channels -/

/-- The parameters as the loops read them. -/
def loopParams (p : NmxptoolParams) (bufferedTime : ℚ) : LoopParams where
  statefile := p.statefile.isSome
  bufferedTime := bufferedTime
  timeoutrecv := p.timeoutrecv
  stc := p.stc
  timingQuality := p.timingQuality
  typeWriteseed := p.typeWriteseed ≠ 0
  flagSlink := p.flagSlink ≠ 0
  flagSlinkms := p.flagSlinkms ≠ 0
  ewConfigurationFile := p.ewConfigurationFile.isSome

/-- What does not change while the data is retrieved. -/
structure DapSetting where
  loop : LoopSetting
  params : NmxptoolParams
  loop_params : ∃ bufferedTime, loop.params = loopParams params bufferedTime

/-- What the loop over the channels works on. -/
structure Client where
  work : Work
  startTime : ℚ
  requestSocketOk : ℤ
  exitdapcondition : Bool
  link : Link UInt8
  outlet : Outlet

/-- What has come of a request: the channel, its window, and what went to the outputs. -/
structure Retrieved where
  requestChan : ℕ
  key : Int32
  startTime : ℚ
  endTime : ℚ
  evs : List LoopEvent

/-- The message of the request; its times are whole seconds. -/
def Retrieved.request (r : Retrieved) : Message :=
  requestMessage r.key (truncate r.startTime) (truncate (r.endTime + 1))

section Loop
variable (d : DapSetting) (serve : List UInt8 → List UInt8) (defaultStart endTime : ℚ)

/-- `params.start_time` for a channel. With a state file the channel begins there. -/
def prepareChannel (ch : NmxpChanKeyNet) (requestChan : ℕ) (seqs : Seqs) (startTime : ℚ) :
    Except LoopFault (ℚ × Seqs) :=
  if d.params.statefile ≠ none then do
    let c ← seqAt seqs requestChan
    let startTime := startTimeOf d.params defaultStart endTime startTime ⟨ch.key, c.afterStartTime⟩
    let (seqs, _) ← updateSeq seqs requestChan fun c =>
      return ({ c with lastTime := .finite startTime, significant := 1 }, [])
    return (startTime, seqs)
  else return (startTime, seqs)

/-- **A request and its answer.** What the server sends for the request is behind what is already in
flight. -/
def requestStep (q : Client) (requestChan : ℕ) : Except LoopFault (Client × List Retrieved) :=
  match d.loop.receive.channelList.channel[requestChan]? with
  | none => .error (.chanOutOfRange requestChan)
  | some ch => do
    let turn := q.work.turns.head
    let (startTime, seqs) ←
      prepareChannel d defaultStart endTime ch requestChan q.work.seqs q.startTime
    let sent := nmxpSendDataRequest d.loop.receive.host ch.key (truncate startTime)
      (truncate (endTime + 1)) q.outlet
    let exitdapcondition := !(d.loop.params.ewConfigurationFile && turn.flagTerminate)
    if sent.1 = NMXP_SOCKET_OK then
      let link := ⟨q.link.inbox ++ serve (sent.2.wire.drop q.outlet.wire.length), q.link.schedule⟩
      let (work, link, evs) ← retrieve d.loop ⟨requestChan, startTime, endTime, turn.outfile⟩
        ⟨seqs, q.work.buffer, q.work.turns.tail⟩ link
      return (⟨work, startTime, sent.1, exitdapcondition, link, sent.2⟩,
        [⟨requestChan, ch.key, startTime, endTime, evs⟩])
    else
      return (⟨⟨seqs, q.work.buffer, q.work.turns.tail⟩, startTime, sent.1, exitdapcondition,
        q.link, sent.2⟩, [])

/-- **The loop over the channels**, with `left` of them to go. -/
def requestLoop : ℕ → ℕ → Client → Except LoopFault (Client × List Retrieved)
  | 0, _, q => return (q, [])
  | left + 1, requestChan, q =>
    if q.requestSocketOk = NMXP_SOCKET_OK ∧ q.exitdapcondition ∧ q.work.go then do
      let (q, got) ← requestStep d serve defaultStart endTime q requestChan
      let (q', got') ← requestLoop left (requestChan + 1) q
      return (q', got ++ got')
    else return (q, [])

end Loop

/-! ### The server -/

/-- **A server**: for a request that arrives it sends some messages that can be decoded, and a
Ready. Which ones, is its own affair. -/
structure Server (s : LoopSetting) where
  serve : List UInt8 → List UInt8
  answer : Int32 → Int32 → Int32 → List Message
  ready : Message
  answerOK : ∀ key startTime endTime, ∀ m ∈ answer key startTime endTime, AnswerOK s m
  ready_type : ready.type = NMXP_MSG_READY
  ready_fits : ready.Fits NMXP_MAX_LENGTH_DATA_BUFFER
  serves : ∀ key startTime endTime, serve (requestMessage key startTime endTime).encode =
    (answer key startTime endTime ++ [ready]).flatMap Message.encode

/-- **What the outputs should have got of a request.** -/
structure Obtained (d : DapSetting) (server : Server d.loop) (defaultStart endTime startTime : ℚ)
    (times : List ℚ) (k : ℕ) (g : Retrieved) : Prop where
  chan : g.requestChan = k
  windowEnd : g.endTime = endTime
  request : ∃ ch t, d.loop.receive.channelList.channel[k]? = some ch ∧ times[k]? = some t ∧
    g.key = ch.key ∧ g.startTime = startTimeOf d.params defaultStart endTime startTime ⟨ch.key, t⟩
  samples : ∀ o ∈ d.loop.params.outputs, samplesTo o g.evs =
    ((server.answer g.key (truncate g.startTime) (truncate (g.endTime + 1))).filter fun m =>
      nmxpChanLookupKeyIndex (headerKey m.body) d.loop.receive.channelList = k).flatMap
        fun m => wanted g.startTime g.endTime m.body

/-- No channel is resumed at the end of the window or behind it. -/
def WindowsOK (d : DapSetting) (defaultStart endTime startTime : ℚ) (times : List ℚ) : Prop :=
  ∀ (k : ℕ) (ch : NmxpChanKeyNet) (t : ℚ), d.loop.receive.channelList.channel[k]? = some ch →
    times[k]? = some t → startTimeOf d.params defaultStart endTime startTime ⟨ch.key, t⟩ < endTime

/-- What the loop starts from, and keeps: nothing is in flight, and nothing fails. -/
structure ClientOK (d : DapSetting) (q : Client) : Prop where
  work : WorkOK d.loop q.work
  requestSocketOk : q.requestSocketOk = NMXP_SOCKET_OK
  exitdapcondition : q.exitdapcondition = true
  idle : q.link.inbox = []
  flowing : Flowing q.link.schedule
  writable : Writable q.outlet.schedule

section Sessions
variable {d : DapSetting} (server : Server d.loop) {defaultStart endTime : ℚ} {q : Client}

/-- Without a state file all channels have one window, and with one it does not depend on the
channel before. -/
theorem startTimeOf_startTimeOf (p : NmxptoolParams) (startTime : ℚ)
    (ch ch' : Nmxptool.Dap.Flow.SubsetChannel) :
    startTimeOf p defaultStart endTime (startTimeOf p defaultStart endTime startTime ch) ch' =
      startTimeOf p defaultStart endTime startTime ch' := by
  unfold startTimeOf
  split_ifs <;> rfl

theorem prepareChannel_ok (ch : NmxpChanKeyNet) {k : ℕ} {seqs : Seqs} {t : ℚ}
    (ht : (resumeTimes seqs)[k]? = some t) (startTime : ℚ) :
    ∃ seqs', prepareChannel d defaultStart endTime ch k seqs startTime =
        .ok (startTimeOf d.params defaultStart endTime startTime ⟨ch.key, t⟩, seqs') ∧
      resumeTimes seqs' = resumeTimes seqs := by
  unfold prepareChannel
  split_ifs with hstate
  · have hlt : k < seqs.length := by
      have := (List.getElem?_eq_some_iff.mp ht).1
      rwa [resumeTimes, List.length_map] at this
    have hat : seqAt seqs k = .ok (seqs.get ⟨k, hlt⟩) := dif_pos ⟨Int.natCast_nonneg k, hlt⟩
    have htime : (seqs.get ⟨k, hlt⟩).afterStartTime = t := by
      rw [resumeTimes, List.getElem?_map, List.getElem?_eq_getElem hlt] at ht
      exact Option.some.inj ht
    rw [hat, ok_bind, htime]
    obtain ⟨seqs', hupdate, hkept⟩ := updateSeq_ok (Int.natCast_nonneg k) (Int.ofNat_lt.mpr hlt)
      (f := fun c => return ({ c with
        lastTime := .finite (startTimeOf d.params defaultStart endTime startTime ⟨ch.key, t⟩)
        significant := 1 }, [])) fun c => ⟨_, rfl, rfl⟩
    refine ⟨seqs', ?_, hkept⟩
    dsimp only
    rw [hupdate]
    rfl
  · refine ⟨seqs, ?_, rfl⟩
    unfold startTimeOf
    rw [if_neg hstate]
    rfl

/-- **One channel.** -/
theorem requestStep_ok (hq : ClientOK d q) {k : ℕ} {ch : NmxpChanKeyNet} {t : ℚ}
    (hch : d.loop.receive.channelList.channel[k]? = some ch)
    (ht : (resumeTimes q.work.seqs)[k]? = some t)
    (hwin : startTimeOf d.params defaultStart endTime q.startTime ⟨ch.key, t⟩ < endTime) :
    ∃ q' g, requestStep d server.serve defaultStart endTime q k = .ok (q', [g]) ∧
      ClientOK d q' ∧ resumeTimes q'.work.seqs = resumeTimes q.work.seqs ∧
      q'.startTime = g.startTime ∧ q'.outlet.wire = q.outlet.wire ++ g.request.encode ∧
      Obtained d server defaultStart endTime q.startTime (resumeTimes q.work.seqs) k g := by
  obtain ⟨seqs, hprepare, hseqs⟩ := prepareChannel_ok ch ht q.startTime
  set startTime := startTimeOf d.params defaultStart endTime q.startTime ⟨ch.key, t⟩ with hstart
  obtain ⟨hsent, hwire, hopen⟩ := sendDataRequest_writable d.loop.receive.host ch.key
    (truncate startTime) (truncate (endTime + 1)) hq.writable
  set sent := nmxpSendDataRequest d.loop.receive.host ch.key (truncate startTime)
    (truncate (endTime + 1)) q.outlet with hsentEq
  have hlink : (⟨q.link.inbox ++ server.serve (sent.2.wire.drop q.outlet.wire.length),
      q.link.schedule⟩ : Link UInt8) =
      ⟨(server.answer ch.key (truncate startTime) (truncate (endTime + 1)) ++
        [server.ready]).flatMap Message.encode ++ [], q.link.schedule⟩ := by
    rw [hq.idle, hwire, List.drop_left, server.serves, List.nil_append, List.append_nil]
  have hwork : WorkOK d.loop ⟨seqs, q.work.buffer, q.work.turns.tail⟩ :=
    ⟨(length_of_resumeTimes hseqs).trans hq.work.seqs, fun n => hq.work.calm (n + 1)⟩
  obtain ⟨work, sched, evs, hretrieve, hwork', hflow, hkept, hevs⟩ := retrieve_ready
    (d := ⟨k, startTime, endTime, q.work.turns.head.outfile⟩) (Int.natCast_nonneg k) hwin
    (server.answerOK ch.key (truncate startTime) (truncate (endTime + 1)))
    server.ready_type server.ready_fits hwork hq.flowing []
  have hexit : (!(d.loop.params.ewConfigurationFile && q.work.turns.head.flagTerminate)) =
      true := by
    have hcalm : q.work.turns.head.Calm := hq.work.calm 0
    rw [hcalm.flagTerminate, Bool.and_false]
    rfl
  refine ⟨⟨work, startTime, sent.1, true, ⟨[], sched⟩, sent.2⟩,
    ⟨k, ch.key, startTime, endTime, evs⟩, ?_, ⟨hwork', hsent, rfl, rfl, hflow, hopen⟩,
    hkept.trans hseqs, rfl, hwire, rfl, rfl, ⟨ch, t, hch, ht, rfl, hstart⟩, hevs⟩
  unfold requestStep
  simp only [hch, hprepare, ok_bind, ← hsentEq, hsent, if_true, hlink, hretrieve, hexit]
  rfl

/-- **All channels**, from one on. -/
theorem requestLoop_ok (startTime : ℚ) (times : List ℚ)
    (hwin : WindowsOK d defaultStart endTime startTime times) :
    ∀ (left k : ℕ) {q : Client}, left + k = d.loop.number → ClientOK d q →
      resumeTimes q.work.seqs = times →
      (∀ ch, startTimeOf d.params defaultStart endTime q.startTime ch =
        startTimeOf d.params defaultStart endTime startTime ch) →
      ∃ q' got, requestLoop d server.serve defaultStart endTime left k q = .ok (q', got) ∧
        ClientOK d q' ∧ resumeTimes q'.work.seqs = times ∧
        q'.outlet.wire = q.outlet.wire ++ (got.map Retrieved.request).flatMap Message.encode ∧
        List.Forall₂ (Obtained d server defaultStart endTime startTime times)
          (List.range' k left) got
  | 0, k, q, _, hq, htimes, _ =>
    ⟨q, [], rfl, hq, htimes, by simp, List.Forall₂.nil⟩
  | left + 1, k, q, hk, hq, htimes, hstart => by
    have hlt : k < d.loop.receive.channelList.channel.length := by
      change left + 1 + k = d.loop.receive.channelList.channel.length at hk
      omega
    have hch := List.getElem?_eq_getElem hlt
    have htlt : k < times.length := by
      rw [← htimes, resumeTimes, List.length_map, hq.work.seqs]
      exact hlt
    have ht := List.getElem?_eq_getElem htlt
    obtain ⟨q₁, g, hstep, hq₁, hkept, hstart₁, hwire, hg⟩ := requestStep_ok server hq hch
      (by rw [htimes]; exact ht) (by rw [hstart]; exact hwin k _ _ hch ht)
    have hg' : Obtained d server defaultStart endTime startTime times k g := by
      rw [htimes] at hg
      obtain ⟨ch, t, hch, ht, hkey, hgstart⟩ := hg.request
      exact ⟨hg.chan, hg.windowEnd, ⟨ch, t, hch, ht, hkey, hgstart.trans (hstart _)⟩, hg.samples⟩
    obtain ⟨q', got, hloop, hq', hkept', hwire', hgot⟩ := requestLoop_ok startTime times hwin left
      (k + 1) (by omega) hq₁ (hkept.trans htimes) fun ch' => by
        obtain ⟨ch, t, -, -, -, hgstart⟩ := hg'.request
        rw [hstart₁, hgstart, startTimeOf_startTimeOf]
    refine ⟨q', g :: got, ?_, hq', hkept', ?_, ?_⟩
    · unfold requestLoop
      rw [if_pos ⟨hq.requestSocketOk, hq.exitdapcondition, hq.work.go⟩, hstep, ok_bind]
      dsimp only
      rw [hloop]
      rfl
    · rw [hwire', hwire, List.map_cons, List.flatMap_cons, List.append_assoc]
    · rw [List.range'_succ]
      exact List.Forall₂.cons hg' hgot

/-- **What the client retrieves**, whatever the server answers and however its bytes come: the
server gets the requests of all channels, in order and each once, and for each channel the outputs
get the samples of the answer that are of this channel and inside its window, each once and in
order. -/
theorem session_retrieves (hq : ClientOK d q)
    (hwin : WindowsOK d defaultStart endTime q.startTime (resumeTimes q.work.seqs)) :
    ∃ q' got, requestLoop d server.serve defaultStart endTime d.loop.number 0 q = .ok (q', got) ∧
      q'.link.inbox = [] ∧
      q'.outlet.wire = q.outlet.wire ++ (got.map Retrieved.request).flatMap Message.encode ∧
      List.Forall₂ (Obtained d server defaultStart endTime q.startTime (resumeTimes q.work.seqs))
        (List.range d.loop.number) got := by
  obtain ⟨q', got, hloop, hq', -, hwire, hgot⟩ := requestLoop_ok server q.startTime
    (resumeTimes q.work.seqs) hwin d.loop.number 0 rfl hq rfl fun _ => rfl
  exact ⟨q', got, hloop, hq'.idle, hwire, by rwa [List.range_eq_range']⟩

/-! ### An archive -/

/-- The end of the last sample. -/
def headerEnd (body : List UInt8) : ℚ :=
  headerTime body + (diffs body).length / (headerRate body).toInt

/-- A packet has to do with the requested seconds. -/
def Overlaps (startTime endTime : Int32) (body : List UInt8) : Prop :=
  headerTime body ≤ endTime.toInt ∧ startTime.toInt ≤ headerEnd body

/-- **The server sends what it has**: of the packets in the archive at least those of the channel
that overlap the requested seconds. -/
def Archives (archive : List Message) : Prop :=
  ∀ key startTime endTime, ∃ p : Message → Bool,
    server.answer key startTime endTime = archive.filter p ∧
      ∀ m ∈ archive, headerKey m.body = key → Overlaps startTime endTime m.body → p m = true

theorem flatMap_filter_filter {α β : Type} {p f : α → Bool} {g : α → List β} {l : List α}
    (h : ∀ x ∈ l, f x = true → p x = false → g x = []) :
    ((l.filter p).filter f).flatMap g = (l.filter f).flatMap g := by
  induction l with
  | nil => rfl
  | cons x l ih =>
    have hrest := ih fun y hy => h y (List.mem_cons_of_mem _ hy)
    cases hp : p x with
    | true =>
      rw [List.filter_cons_of_pos hp]
      cases hf : f x with
      | true => rw [List.filter_cons_of_pos hf, List.filter_cons_of_pos hf, List.flatMap_cons,
          List.flatMap_cons, hrest]
      | false => rw [List.filter_cons_of_neg (by simp [hf]), List.filter_cons_of_neg (by simp [hf]),
          hrest]
    | false =>
      rw [List.filter_cons_of_neg (by simp [hp]), hrest]
      cases hf : f x with
      | true => rw [List.filter_cons_of_pos hf, List.flatMap_cons, h x (by simp) hf hp,
          List.nil_append]
      | false => rw [List.filter_cons_of_neg (by simp [hf])]

/-- A window has no samples of a packet that does not overlap its seconds. -/
theorem wanted_eq_nil {a b : ℚ} {body : List UInt8} (hrate : 0 < (headerRate body).toInt)
    (ha : 0 ≤ a) (hab : a < b) (hb : b + 1 < 2 ^ 31)
    (h : ¬ Overlaps (truncate a) (truncate (b + 1)) body) : wanted a b body = [] := by
  have hrate' : (0 : ℚ) < (headerRate body).toInt := Int.cast_pos.mpr hrate
  have hstart : ((truncate a).toInt : ℚ) ≤ a := by
    have : a < 2 ^ 31 := by linarith
    rw [toInt_truncate ha (Int.floor_lt.mpr (by exact_mod_cast this))]
    exact Int.floor_le a
  have hend : b ≤ (truncate (b + 1)).toInt := by
    rw [toInt_truncate (by linarith) (Int.floor_lt.mpr (by exact_mod_cast hb))]
    have := Int.lt_floor_add_one (b + 1)
    linarith
  unfold wanted
  refine List.map_eq_nil_iff.mpr (List.filter_eq_nil_iff.mpr fun x hx hin => h ?_)
  obtain ⟨i, hi, rfl⟩ := List.mem_map.mp hx
  obtain ⟨hax, hxb⟩ := of_decide_eq_true hin
  have hhalf : (0 : ℚ) < (i + 1 / 2) / (headerRate body).toInt := by positivity
  have hlt : ((i : ℚ) + 1 / 2) / (headerRate body).toInt ≤
      (diffs body).length / (headerRate body).toInt := by
    have : ((i : ℚ) + 1) ≤ (diffs body).length := by exact_mod_cast List.mem_range.mp hi
    gcongr
    linarith
  refine ⟨?_, ?_⟩
  · dsimp only at hxb
    linarith
  · unfold headerEnd
    dsimp only at hax
    linarith

/-- Where the keys are different, the index of a key is that of its channel. -/
theorem lookup_eq_iff {channelList : NmxpChanListNet}
    (hnodup : (channelList.channel.map (·.key)).Nodup) {k : ℕ} {ch : NmxpChanKeyNet}
    (hch : channelList.channel[k]? = some ch) (key : Int32) :
    nmxpChanLookupKeyIndex key channelList = k ↔ key = ch.key := by
  obtain ⟨hk, rfl⟩ := List.getElem?_eq_some_iff.mp hch
  constructor
  · intro h
    have hmem : key ∈ channelList.channel.map (·.key) := by
      by_contra hnot
      rw [nmxpChanLookupKeyIndex_eq_neg_one.mpr hnot] at h
      omega
    obtain ⟨i, hi, hlookup, hkey⟩ := nmxpChanLookupKeyIndex_spec hmem
    obtain rfl : i = k := by omega
    exact hkey.symm
  · rintro rfl
    obtain ⟨i, hi, hlookup, hkey⟩ := nmxpChanLookupKeyIndex_spec
      (List.mem_map_of_mem (f := (·.key)) (List.getElem_mem hk))
    rw [hlookup]
    refine congrArg Nat.cast
      ((List.getElem?_inj (by rw [List.length_map]; exact hi) hnodup).mp ?_)
    rw [List.getElem?_map, List.getElem?_map, List.getElem?_eq_getElem hi,
      List.getElem?_eq_getElem hk]
    exact congrArg some hkey

theorem startTimeOf_nonneg {startTime : ℚ} (hstart : 0 ≤ startTime) (hdefault : 0 ≤ defaultStart)
    (hmax : d.params.maxDataToRetrieve.toInt ≤ endTime) (ch : Nmxptool.Dap.Flow.SubsetChannel) :
    0 ≤ startTimeOf d.params defaultStart endTime startTime ch := by
  unfold startTimeOf
  split_ifs with h1 h2 h3
  · exact sub_nonneg.mpr hmax
  · exact h2.le
  · exact hdefault
  · exact hstart

/-- **The requests are wide enough**: if the server sends what it has in the requested seconds, the
outputs get, for each channel, all the samples that it has inside the window, each once and in
order. -/
theorem session_complete {archive : List Message} (harchive : ∀ m ∈ archive, AnswerOK d.loop m)
    (hserver : Archives server archive)
    (hnodup : (d.loop.receive.channelList.channel.map (·.key)).Nodup) (hq : ClientOK d q)
    (hwin : WindowsOK d defaultStart endTime q.startTime (resumeTimes q.work.seqs))
    (hstart : 0 ≤ q.startTime) (hdefault : 0 ≤ defaultStart)
    (hmax : d.params.maxDataToRetrieve.toInt ≤ endTime) (hend : endTime + 1 < 2 ^ 31) :
    ∃ q' got, requestLoop d server.serve defaultStart endTime d.loop.number 0 q = .ok (q', got) ∧
      List.Forall₂ (fun k g => ∃ ch t, d.loop.receive.channelList.channel[k]? = some ch ∧
        (resumeTimes q.work.seqs)[k]? = some t ∧
        ∀ o ∈ d.loop.params.outputs, samplesTo o g.evs =
          (archive.filter fun m => headerKey m.body = ch.key).flatMap fun m =>
            wanted (startTimeOf d.params defaultStart endTime q.startTime ⟨ch.key, t⟩) endTime
              m.body)
        (List.range d.loop.number) got := by
  obtain ⟨q', got, hloop, -, -, -, hgot⟩ := requestLoop_ok server q.startTime
    (resumeTimes q.work.seqs) hwin d.loop.number 0 rfl hq rfl fun _ => rfl
  rw [← List.range_eq_range'] at hgot
  refine ⟨q', got, hloop, hgot.imp fun k g hg => ?_⟩
  obtain ⟨ch, t, hch, ht, hkey, hgstart⟩ := hg.request
  refine ⟨ch, t, hch, ht, fun o ho => ?_⟩
  obtain ⟨p, hanswer, hp⟩ := hserver g.key (truncate g.startTime) (truncate (g.endTime + 1))
  have hkeyIff : ∀ m : Message,
      decide (nmxpChanLookupKeyIndex (headerKey m.body) d.loop.receive.channelList = k) =
        decide (headerKey m.body = ch.key) := fun m =>
    decide_eq_decide.mpr (lookup_eq_iff hnodup hch _)
  rw [hg.samples o ho, hanswer, hg.windowEnd, ← hgstart]
  simp only [hkeyIff]
  refine flatMap_filter_filter fun m hm hof hnot => ?_
  have hmkey : headerKey m.body = ch.key := of_decide_eq_true hof
  have hknown : Known d.loop.receive.channelList (headerKey m.body) :=
    ⟨ch, List.mem_of_getElem? hch, hmkey.symm⟩
  refine wanted_eq_nil ((harchive m hm).rate hknown) ?_ ?_ hend fun hover => ?_
  · rw [hgstart]
    exact startTimeOf_nonneg hstart hdefault hmax _
  · rw [hgstart]
    exact hwin k ch t hch ht
  · rw [hp m hm (hmkey.trans hkey.symm) (hg.windowEnd ▸ hover)] at hnot
    exact absurd hnot (by simp)

end Sessions

/-! ### Two channels -/

/-- The two channels, with a file in mini-SEED. -/
def twoArchived : DapSetting where
  loop := { twoSubscribed with
    params := loopParams { NMXPTOOL_PARAMS_DEFAULT with typeWriteseed := 100 } 0 }
  params := { NMXPTOOL_PARAMS_DEFAULT with typeWriteseed := 100 }
  loop_params := ⟨0, rfl⟩

/-- Sixteen samples of a channel, one a second from 1000 on. -/
def archivedBody (channel : UInt8) : List UInt8 :=
  [0, 0, 0, 0, 1, 0xe8, 3, 0, 0, 0, 0, 1, 0, 5, 0, 0, 0, 8 + channel, 7, 0, 0, 0x55] ++
    List.replicate 16 1

theorem compressed_ne : NMXP_MSG_COMPRESSED ≠ 0 := by decide

def archivedMessage (channel : UInt8) : Message :=
  ⟨NMXP_MSG_COMPRESSED, archivedBody channel, compressed_ne, by simp [archivedBody]⟩

theorem answerOK_archived : ∀ m ∈ [archivedMessage 0, archivedMessage 1],
    AnswerOK twoArchived.loop m := by
  have hdecodes : ∀ m ∈ [archivedMessage 0, archivedMessage 1],
      CompressedOK twoArchived.loop.receive.channelList m.body := by
    intro m hm
    have hfacts : ∀ m ∈ [archivedMessage 0, archivedMessage 1], 21 ≤ m.body.length ∧
        Known twoArchived.loop.receive.channelList (headerKey m.body) ∧
        (nmxpProcessCompressedData .little zeroed m.body twoArchived.loop.receive.channelList []
          []).isOk = true := by decide +kernel
    obtain ⟨hheader, hkey, hok⟩ := hfacts m hm
    obtain ⟨pd, hpd⟩ := Nmxptool.Lib.Refine.exists_of_isOk hok
    exact (compressed_iff .little zeroed hheader twoArchived.loop.receive.channelList [] []).mp
      ⟨pd, hpd, (decoded_of_ok hheader hkey hpd).nSamp.le⟩
  have hrest : ∀ m ∈ [archivedMessage 0, archivedMessage 1], m.type ≠ NMXP_MSG_READY ∧
      m.Fits NMXP_MAX_LENGTH_DATA_BUFFER ∧ 21 ≤ m.body.length ∧
      0 < (headerRate m.body).toInt := by decide +kernel
  intro m hm
  obtain ⟨htype, hfits, hheader, hrate⟩ := hrest m hm
  exact ⟨htype, hfits, hheader, hdecodes m hm, fun _ => hrate⟩

/-- A server that answers each request with all that it has. -/
def generous : Server twoArchived.loop where
  serve _ := ([archivedMessage 0, archivedMessage 1] ++ [readyMessage]).flatMap Message.encode
  answer _ _ _ := [archivedMessage 0, archivedMessage 1]
  ready := readyMessage
  answerOK _ _ _ := answerOK_archived
  ready_type := readyMessage_type
  ready_fits := readyMessage_fits
  serves _ _ _ := rfl

theorem length_zeroBuffer : (List.replicate NMXP_MAX_LENGTH_DATA_BUFFER (0 : UInt8)).length =
    NMXP_MAX_LENGTH_DATA_BUFFER := List.length_replicate

/-- A client that has asked for nothing yet. -/
def freshClient : Client where
  work := ⟨nmxptoolChanseqInit 2 DEFAULT_BUFFERED_TIME 600 0,
    ⟨List.replicate NMXP_MAX_LENGTH_DATA_BUFFER 0, length_zeroBuffer⟩,
    Stream'.const ⟨zeroed, false, false, false, false⟩⟩
  startTime := 1002
  requestSocketOk := NMXP_SOCKET_OK
  exitdapcondition := true
  link := ⟨[], Stream'.const (.chunk 1)⟩
  outlet := ⟨[], Stream'.const (.taken 100)⟩

theorem clientOK_fresh : ClientOK twoArchived freshClient where
  work := ⟨by decide +kernel, fun _ => ⟨rfl, rfl, rfl⟩⟩
  requestSocketOk := rfl
  exitdapcondition := rfl
  idle := rfl
  flowing := fun _ => ⟨1, rfl⟩
  writable := fun _ => ⟨100, rfl, by decide⟩

theorem windowsOK_fresh : WindowsOK twoArchived 0 1005 freshClient.startTime
    (resumeTimes freshClient.work.seqs) := by
  intro k ch t _ _
  change (1002 : ℚ) < 1005
  norm_num

/-- The samples of the middle of the packet. -/
theorem session_complete_two : ∃ q' got,
    requestLoop twoArchived generous.serve 0 1005 twoArchived.loop.number 0 freshClient =
      .ok (q', got) ∧
    got.map (fun g => samplesTo .nmxptoolWriteMiniseed g.evs) = [[9, 10, 11], [9, 10, 11]] := by
  have harchives : Archives generous [archivedMessage 0, archivedMessage 1] :=
    fun _ _ _ => ⟨fun _ => true, rfl, fun _ _ _ _ => rfl⟩
  obtain ⟨q', got, hrun, hgot⟩ := session_complete generous answerOK_archived harchives
    (by decide +kernel) clientOK_fresh windowsOK_fresh
    (by change (0 : ℚ) ≤ 1002; norm_num) le_rfl (by change ((0 : ℤ) : ℚ) ≤ 1005; norm_num)
    (by norm_num)
  refine ⟨q', got, hrun, ?_⟩
  have hsamples : ∀ (k : ℕ) (ch : NmxpChanKeyNet),
      twoArchived.loop.receive.channelList.channel[k]? = some ch →
        ([archivedMessage 0, archivedMessage 1].filter fun m =>
          headerKey m.body = ch.key).flatMap (fun m => wanted 1002 1005 m.body) = [9, 10, 11] := by
    have hall : ∀ ch ∈ twoArchived.loop.receive.channelList.channel,
        ([archivedMessage 0, archivedMessage 1].filter fun m =>
          headerKey m.body = ch.key).flatMap (fun m => wanted 1002 1005 m.body) = [9, 10, 11] := by
      decide +kernel
    exact fun k ch hch => hall ch (List.mem_of_getElem? hch)
  have houtput : Output.nmxptoolWriteMiniseed ∈ twoArchived.loop.params.outputs := by decide
  have hnumber : List.range twoArchived.loop.number = [0, 1] := by decide +kernel
  rw [hnumber] at hgot
  obtain ⟨g₀, gs, ⟨ch₀, t₀, hch₀, -, hs₀⟩, hgs, rfl⟩ := List.forall₂_cons_left_iff.mp hgot
  obtain ⟨g₁, gs, ⟨ch₁, t₁, hch₁, -, hs₁⟩, hnil, rfl⟩ := List.forall₂_cons_left_iff.mp hgs
  obtain rfl := List.forall₂_nil_left_iff.mp hnil
  rw [List.map_cons, List.map_cons, hs₀ _ houtput, hs₁ _ houtput]
  exact congrArg₂ (fun l l' => [l, l']) (hsamples 0 ch₀ hch₀) (hsamples 1 ch₁ hch₁)

/-- The requests are on the wire, and nothing is left of the answers. -/
theorem session_retrieves_two : ∃ q' got,
    requestLoop twoArchived generous.serve 0 1005 twoArchived.loop.number 0 freshClient =
      .ok (q', got) ∧ q'.link.inbox = [] ∧
    got.map Retrieved.request = [requestMessage 65792 1002 1006, requestMessage 65793 1002 1006] ∧
    q'.outlet.wire = ([requestMessage 65792 1002 1006, requestMessage 65793 1002 1006]).flatMap
      Message.encode := by
  obtain ⟨q', got, hrun, hidle, hwire, hgot⟩ :=
    session_retrieves generous clientOK_fresh windowsOK_fresh
  have hkeys : twoArchived.loop.receive.channelList.channel.map (·.key) = [65792, 65793] := by
    decide +kernel
  have hnumber : List.range twoArchived.loop.number = [0, 1] := by decide +kernel
  have hkey : ∀ {k : ℕ} {ch : NmxpChanKeyNet},
      twoArchived.loop.receive.channelList.channel[k]? = some ch →
        [65792, 65793][k]? = some ch.key := fun hch => by
    rw [← hkeys, List.getElem?_map, hch]
    rfl
  have hrequests : got.map Retrieved.request =
      [requestMessage 65792 1002 1006, requestMessage 65793 1002 1006] := by
    rw [hnumber] at hgot
    obtain ⟨g₀, gs, hg₀, hgs, rfl⟩ := List.forall₂_cons_left_iff.mp hgot
    obtain ⟨g₁, gs, hg₁, hnil, rfl⟩ := List.forall₂_cons_left_iff.mp hgs
    obtain rfl := List.forall₂_nil_left_iff.mp hnil
    have hrequest : ∀ {k : ℕ} {g : Retrieved} {key : Int32}, [65792, 65793][k]? = some key →
        Obtained twoArchived generous 0 1005 freshClient.startTime
          (resumeTimes freshClient.work.seqs) k g → g.request = requestMessage key 1002 1006 := by
      intro k g key hk hg
      obtain ⟨ch, t, hch, -, hgkey, hgstart⟩ := hg.request
      rw [hkey hch] at hk
      rw [Retrieved.request, hgkey, Option.some.inj hk, hg.windowEnd, hgstart]
      change requestMessage key (truncate 1002) (truncate (1005 + 1)) = _
      exact congrArg₂ (requestMessage key) (by decide +kernel) (by decide +kernel)
    rw [List.map_cons, List.map_cons, hrequest rfl hg₀, hrequest rfl hg₁]
    rfl
  exact ⟨q', got, hrun, hidle, hrequests, by rw [hwire, hrequests]; rfl⟩

end Nmxptool.Dap.Session
