import Nmxptool.Lib.Run
import Nmxptool.Wire.Framing
import Nmxptool.Wire.Ready
import Nmxptool.Wire.RoundTrip

/-! # Receiving until the server is ready

With the data access protocol the server answers a request with some messages and a Ready. The
client takes them from the connection one by one, and handles each, until it meets the Ready or a
call of `nmxp_receiveMessage` fails. Four loops of the program have this shape.

* `receiveMessage_consumes`: a call that returns well takes a header at least, and so the loop ends.
* `receiveLoop_ready`: the messages before the Ready are handled each once and in order, however the
  bytes come, and the connection is left behind the Ready.
* `ask_ready`: a request with its answer. -/

namespace Nmxptool.Wire.UntilReady

open Nmxptool.Lib.Bytes Nmxptool.Lib.Recv Nmxptool.Lib.Run
open Nmxptool.Wire.Model Nmxptool.Wire.Framing Nmxptool.Wire.Ready Nmxptool.Wire.RoundTrip

variable {σ ω ε : Type}

/-- What a loop leaves: its state, what the last call of `nmxp_receiveMessage` returned, and the
connection. -/
structure Awaited (σ : Type) where
  state : σ
  last : Received
  link : Link UInt8

/-- `while(ret == NMXP_SOCKET_OK && type != NMXP_MSG_READY)`, after a call that returned `last`. The
loop may end by another condition of its state. -/
def receiveLoop (host : Host) (bufferLength : ℕ) (go : σ → Bool)
    (step : σ → Received → Except ε (σ × List ω)) :
    ℕ → Awaited σ → Except ε (Awaited σ × List ω)
  | 0, q => return (q, [])
  | left + 1, q =>
    if q.last.ret = NMXP_SOCKET_OK ∧ q.last.type ≠ NMXP_MSG_READY ∧ go q.state then do
      let (state, evs) ← step q.state q.last
      let (last, link) := nmxpReceiveMessage host bufferLength q.link
      let (q', evs') ← receiveLoop host bufferLength go step left ⟨state, last, link⟩
      return (q', evs ++ evs')
    else return (q, [])

/-- **The loop with the call in front of it.** No message is shorter than a byte, so that there are
no more rounds than bytes (`untilReady_enough`). -/
def untilReady (host : Host) (bufferLength : ℕ) (go : σ → Bool)
    (step : σ → Received → Except ε (σ × List ω)) (state : σ) (link : Link UInt8) :
    Except ε (Awaited σ × List ω) :=
  let (last, link') := nmxpReceiveMessage host bufferLength link
  receiveLoop host bufferLength go step link.inbox.length ⟨state, last, link'⟩

/-! ### The loop ends -/

theorem length_recv (n : ℕ) (l : Link UInt8) :
    (recv n l).got.length + (recv n l).link.inbox.length = l.inbox.length := by
  obtain ⟨inbox, s⟩ := l
  unfold recv
  cases s.head with
  | chunk k =>
    cases inbox with
    | nil => rfl
    | cons b bs => simp only [List.length_take, List.length_drop]; omega
  | fail errno => simp
  | eof => simp

/-- What the loop of `nmxp_recv_ctrl` has got is no longer in flight. -/
theorem length_recvLoop (length : ℕ) : ∀ (left : ℕ) (r : Recvd UInt8),
    (recvLoop length left r).got.length + (recvLoop length left r).link.inbox.length =
      r.got.length + r.link.inbox.length
  | 0, _ => rfl
  | left + 1, r => by
    unfold recvLoop
    split_ifs with h
    · have hrest := length_recvLoop length left { recv (length - r.got.length) r.link with
        got := r.got ++ (recv (length - r.got.length) r.link).got }
      have := length_recv (length - r.got.length) r.link
      rw [List.length_append] at hrest
      simp only at hrest ⊢
      omega
    · rfl

theorem length_recvCtrl (n : ℕ) (link : Link UInt8) :
    (nmxpRecvCtrl n link).link.inbox.length ≤ link.inbox.length ∧
      ((nmxpRecvCtrl n link).ret = NMXP_SOCKET_OK →
        (nmxpRecvCtrl n link).link.inbox.length + n ≤ link.inbox.length) := by
  have h := length_recvLoop n n ⟨1, 0, [], link⟩
  simp only [List.length_nil, Nat.zero_add] at h
  unfold nmxpRecvCtrl
  generalize recvLoop n n ⟨1, 0, [], link⟩ = r at h ⊢
  simp only
  generalize (if r.cc = 0 ∧ r.errno = 0 then (-100 : ℤ) else r.errno) = recvErrno
  split_ifs with h1 h2
  · exact ⟨by simp only; omega, fun hret => absurd hret error_ne_ok⟩
  · rw [not_or, not_ne_iff] at h2
    exact ⟨by simp only; omega, fun _ => by simp only; omega⟩
  · rw [not_or, not_ne_iff] at h1
    exact ⟨by simp only; omega, fun _ => by simp only; omega⟩

theorem length_receiveHeader (host : Host) (link : Link UInt8) :
    (nmxpReceiveHeader host link).2 = (nmxpRecvCtrl HEADER_SIZE link).link ∧
      ((nmxpReceiveHeader host link).1.ret = NMXP_SOCKET_OK →
        (nmxpRecvCtrl HEADER_SIZE link).ret = NMXP_SOCKET_OK) := by
  unfold nmxpReceiveHeader
  simp only
  split_ifs with h1 h2
  · exact ⟨rfl, fun h => absurd h error_ne_ok⟩
  · exact ⟨rfl, fun h => h⟩
  · exact ⟨rfl, fun h => h⟩

/-- **A call that returns well takes a header from the connection**, at least. -/
theorem receiveMessage_consumes {host : Host} {bufferLength : ℕ} {link : Link UInt8}
    (h : (nmxpReceiveMessage host bufferLength link).1.ret = NMXP_SOCKET_OK) :
    (nmxpReceiveMessage host bufferLength link).2.inbox.length + HEADER_SIZE ≤
      link.inbox.length := by
  obtain ⟨hlink, hret⟩ := length_receiveHeader host link
  have hctrl := length_recvCtrl HEADER_SIZE link
  unfold nmxpReceiveMessage at h ⊢
  simp only at h ⊢
  split_ifs at h ⊢ with h1 h2 h3
  · exact absurd h error_ne_ok
  · have hbody := (length_recvCtrl (nmxpReceiveHeader host link).1.length.toInt.toNat
      (nmxpReceiveHeader host link).2).1
    have := hctrl.2 (hret h1)
    rw [hlink] at hbody
    simp only [hlink]
    omega
  · simp only [hlink]
    exact hctrl.2 (hret h1)
  · exact absurd h h1

variable {host : Host} {bufferLength : ℕ} {go : σ → Bool}
  {step : σ → Received → Except ε (σ × List ω)}

/-- The bytes that a loop can still take: none, if the last call failed. -/
def toTake (q : Awaited σ) : ℕ := if q.last.ret = NMXP_SOCKET_OK then q.link.inbox.length + 1 else 0

/-- **With as many rounds as bytes the loop comes to its end**: more rounds make no difference. -/
theorem receiveLoop_enough : ∀ (left : ℕ) (q : Awaited σ), toTake q ≤ left → ∀ more,
    receiveLoop host bufferLength go step (left + more) q =
      receiveLoop host bufferLength go step left q
  | 0, q, h, more => by
    have hret : q.last.ret ≠ NMXP_SOCKET_OK := fun hret => by simp [toTake, hret] at h
    cases more with
    | zero => rfl
    | succ more =>
      rw [Nat.zero_add]
      unfold receiveLoop
      rw [if_neg (fun h => hret h.1)]
  | left + 1, q, h, more => by
    rw [Nat.add_right_comm]
    unfold receiveLoop
    split_ifs with hgo
    · have hnext : ∀ state : σ, toTake (⟨state, (nmxpReceiveMessage host bufferLength q.link).1,
          (nmxpReceiveMessage host bufferLength q.link).2⟩ : Awaited σ) ≤ left := fun state => by
        unfold toTake at h ⊢
        rw [if_pos hgo.1] at h
        split_ifs with hret
        · have := receiveMessage_consumes hret
          unfold HEADER_SIZE at this
          simp only
          omega
        · exact Nat.zero_le _
      simp only [fun state => receiveLoop_enough left _ (hnext state) more]
    · rfl

/-- No round is missing in `untilReady`. -/
theorem untilReady_enough (state : σ) (link : Link UInt8) (more : ℕ) :
    receiveLoop host bufferLength go step (link.inbox.length + more)
        ⟨state, (nmxpReceiveMessage host bufferLength link).1,
          (nmxpReceiveMessage host bufferLength link).2⟩ =
      untilReady host bufferLength go step state link := by
  refine receiveLoop_enough _ _ ?_ more
  unfold toTake
  split_ifs with hret
  · have := receiveMessage_consumes hret
    unfold HEADER_SIZE at this
    simp only
    omega
  · exact Nat.zero_le _

/-! ### The messages before a Ready -/

/-- **Each message before the Ready is handled once and in order**, whatever the chunks, and the
connection is left behind the Ready. -/
theorem receiveLoop_ready {ready : Message} (hready : ready.type = NMXP_MSG_READY)
    (hfit : ready.Fits bufferLength) (rest : List UInt8) : ∀ {before : List Message} {left : ℕ}
    {state : σ} {s : Stream' RecvEvent}, (∀ m ∈ before, m.type ≠ NMXP_MSG_READY) →
    (∀ m ∈ before, m.Fits bufferLength) → Flowing s → before.length ≤ left →
    AllSteps step (fun state _ => go state = true) state (before.map Message.received) →
    ∃ s', Flowing s' ∧
      (let r := nmxpReceiveMessage host bufferLength
        ⟨before.flatMap Message.encode ++ (ready.encode ++ rest), s⟩
      receiveLoop host bufferLength go step left ⟨state, r.1, r.2⟩) =
        (run step state (before.map Message.received)).map fun q =>
          (⟨q.1, ready.received, ⟨rest, s'⟩⟩, q.2)
  | [], left, state, s, _, _, hs, _, _ => by
    obtain ⟨s', hr, hs'⟩ : ∃ s', nmxpReceiveMessage host bufferLength ⟨ready.encode ++ rest, s⟩ =
        (ready.received, ⟨rest, s'⟩) ∧ Flowing s' := receiveMessage_flowing hs hfit
    refine ⟨s', hs', ?_⟩
    simp only [List.flatMap_nil, List.nil_append, hr]
    cases left with
    | zero => rfl
    | succ left =>
      unfold receiveLoop
      rw [if_neg (fun h => h.2.1 hready)]
      rfl
  | m :: before, 0, _, _, _, _, _, hleft, _ => absurd hleft (by simp)
  | m :: before, left + 1, state, s, htype, hfits, hs, hleft, hgo => by
    obtain ⟨s₁, hr, hs₁⟩ : ∃ s₁, nmxpReceiveMessage host bufferLength
        ⟨m.encode ++ (before.flatMap Message.encode ++ (ready.encode ++ rest)), s⟩ = (m.received,
          ⟨before.flatMap Message.encode ++ (ready.encode ++ rest), s₁⟩) ∧ Flowing s₁ :=
      receiveMessage_flowing hs (hfits m (by simp))
    simp only [List.flatMap_cons, List.append_assoc, hr]
    unfold receiveLoop
    rw [if_pos ⟨rfl, htype m (by simp), hgo.1⟩]
    cases hstep : step state m.received with
    | error e =>
      refine ⟨s₁, hs₁, ?_⟩
      simp only [List.map_cons, run, hstep, error_bind, Except.map]
    | ok r =>
      obtain ⟨state', evs⟩ := r
      obtain ⟨s', hs', hrest⟩ := receiveLoop_ready hready hfit rest
        (fun m hm => htype m (List.mem_cons_of_mem _ hm))
        (fun m hm => hfits m (List.mem_cons_of_mem _ hm)) hs₁ (Nat.le_of_succ_le_succ hleft)
        (hgo.2 state' evs hstep)
      refine ⟨s', hs', ?_⟩
      simp only at hrest
      simp only [List.map_cons, run, hstep, ok_bind, hrest]
      cases run step state' (before.map Message.received) <;> rfl

theorem ready_ne : NMXP_MSG_READY ≠ 0 := by decide

theorem noBody_lt : ([] : List UInt8).length < 2 ^ 31 := by decide

/-- A Ready has no body. -/
def readyMessage : Message := ⟨NMXP_MSG_READY, [], ready_ne, noBody_lt⟩

theorem readyMessage_type : readyMessage.type = NMXP_MSG_READY := rfl

theorem readyMessage_fits : readyMessage.Fits (4092 * 4) := by decide

theorem length_le_flatMap_encode : ∀ (ms : List Message),
    ms.length ≤ (ms.flatMap Message.encode).length
  | [] => le_rfl
  | m :: ms => by
    have := length_le_flatMap_encode ms
    have hm := m.length_encode
    unfold HEADER_SIZE at hm
    rw [List.flatMap_cons, List.length_append, List.length_cons]
    omega

/-- **Receiving until Ready.** -/
theorem untilReady_ready (host : Host) {before : List Message} {ready : Message} {state : σ}
    {s : Stream' RecvEvent} (rest : List UInt8) (htype : ∀ m ∈ before, m.type ≠ NMXP_MSG_READY)
    (hready : ready.type = NMXP_MSG_READY) (hfits : ∀ m ∈ before ++ [ready], m.Fits bufferLength)
    (hs : Flowing s)
    (hgo : AllSteps step (fun state _ => go state = true) state (before.map Message.received)) :
    ∃ s', Flowing s' ∧ untilReady host bufferLength go step state
      ⟨(before ++ [ready]).flatMap Message.encode ++ rest, s⟩ =
        (run step state (before.map Message.received)).map fun q =>
          (⟨q.1, ready.received, ⟨rest, s'⟩⟩, q.2) := by
  have hbytes : (before ++ [ready]).flatMap Message.encode ++ rest =
      before.flatMap Message.encode ++ (ready.encode ++ rest) := by
    rw [List.flatMap_append, List.flatMap_singleton, List.append_assoc]
  have hrounds := length_le_flatMap_encode before
  rw [hbytes]
  refine receiveLoop_ready hready (hfits ready (by simp)) rest htype
    (fun m hm => hfits m (List.mem_append_left _ hm)) hs ?_ hgo
  rw [List.length_append]
  omega

/-! ### A request and its answer -/

/-- Every call of `send` takes a whole header, or the whole body of a request. -/
def Writable (s : Stream' SendEvent) : Prop := s.All fun e => ∃ n, e = .taken n ∧ 24 ≤ n

theorem sendCtrl_writable {buffer : List UInt8} (h : buffer.length ≤ 24) {o : Outlet}
    (ho : Writable o.schedule) :
    (nmxpSendCtrl buffer o).1 = NMXP_SOCKET_OK ∧ Writable (nmxpSendCtrl buffer o).2.schedule := by
  obtain ⟨n, hn, hn24⟩ : ∃ n, o.schedule.head = .taken n ∧ 24 ≤ n := ho 0
  unfold nmxpSendCtrl
  rw [hn]
  dsimp only
  rw [List.take_of_length_le (by omega), if_neg (by simp)]
  exact ⟨rfl, fun k => ho (k + 1)⟩

/-- **A small message is sent** where the calls of `send` take it. -/
theorem sendMessage_writable (host : Host) {m : Message} (hm : m.body.length ≤ 24) {o : Outlet}
    (ho : Writable o.schedule) :
    (nmxpSendMessage host m.type (some m.body) m.length o).1 = NMXP_SOCKET_OK ∧
      (nmxpSendMessage host m.type (some m.body) m.length o).2.wire = o.wire ++ m.encode ∧
      Writable (nmxpSendMessage host m.type (some m.body) m.length o).2.schedule := by
  obtain ⟨hheader, hopen⟩ : (nmxpSendHeader host m.type m.length o).1 = NMXP_SOCKET_OK ∧
      Writable (nmxpSendHeader host m.type m.length o).2.schedule :=
    sendCtrl_writable (by simp [inMemory]) ho
  have hbody : (m.body.take m.length.toInt.toNat).length ≤ 24 :=
    (List.length_take_le _ _).trans (by rw [m.toInt_length]; omega)
  obtain ⟨hok, hopen⟩ : (nmxpSendMessage host m.type (some m.body) m.length o).1 =
      NMXP_SOCKET_OK ∧
        Writable (nmxpSendMessage host m.type (some m.body) m.length o).2.schedule := by
    unfold nmxpSendMessage
    dsimp only
    rw [if_pos hheader]
    split_ifs
    · exact sendCtrl_writable hbody hopen
    · exact ⟨hheader, hopen⟩
  exact ⟨hok, nmxpSendMessage_wire hok, hopen⟩

/-- Both directions of a connection. -/
structure Line where
  link : Link UInt8
  outlet : Outlet

/-- A request is sent. What the server sends for it is behind what is already in flight. -/
def Line.send (line : Line) (serve : List UInt8 → List UInt8) (request : Outlet → ℤ × Outlet) :
    Line :=
  let o := (request line.outlet).2
  ⟨⟨line.link.inbox ++ serve (o.wire.drop line.outlet.wire.length), line.link.schedule⟩, o⟩

/-- **A request, and the loop over its answer.** -/
def ask (host : Host) (bufferLength : ℕ) (step : σ → Received → Except ε (σ × List ω))
    (serve : List UInt8 → List UInt8) (request : Outlet → ℤ × Outlet) (state : σ) (line : Line) :
    Except ε ((σ × Line) × List ω) := do
  let line := line.send serve request
  let (q, evs) ← untilReady host bufferLength (fun _ => true) step state line.link
  return ((q.state, ⟨q.link, line.outlet⟩), evs)

/-- Nothing is in flight, and nothing fails. -/
structure Line.Idle (line : Line) : Prop where
  idle : line.link.inbox = []
  flowing : Flowing line.link.schedule
  writable : Writable line.outlet.schedule

/-- **A request that is answered with a Ready.** -/
theorem ask_ready (host : Host) {serve : List UInt8 → List UInt8}
    {request : Outlet → ℤ × Outlet} {sent : Message} {before : List Message} {ready : Message}
    {state state' : σ} {evs : List ω} {line : Line} (hline : line.Idle)
    (hrequest : ∀ o, Writable o.schedule → (request o).2.wire = o.wire ++ sent.encode ∧
      Writable (request o).2.schedule)
    (hserve : serve sent.encode = (before ++ [ready]).flatMap Message.encode)
    (htype : ∀ m ∈ before, m.type ≠ NMXP_MSG_READY) (hready : ready.type = NMXP_MSG_READY)
    (hfits : ∀ m ∈ before ++ [ready], m.Fits bufferLength)
    (hrun : run step state (before.map Message.received) = .ok (state', evs)) :
    ∃ line' : Line, ask host bufferLength step serve request state line =
        .ok ((state', line'), evs) ∧
      line'.Idle ∧ line'.outlet.wire = line.outlet.wire ++ sent.encode := by
  obtain ⟨hwire, hopen⟩ := hrequest line.outlet hline.writable
  have hsend : line.send serve request =
      ⟨⟨(before ++ [ready]).flatMap Message.encode ++ [], line.link.schedule⟩,
        (request line.outlet).2⟩ := by
    simp only [Line.send, hline.idle, hwire, List.drop_left, hserve, List.nil_append,
      List.append_nil]
  obtain ⟨s', hs', hloop⟩ : ∃ s', Flowing s' ∧
      untilReady host bufferLength (fun _ => true) step state
        ⟨(before ++ [ready]).flatMap Message.encode ++ [], line.link.schedule⟩ =
          (run step state (before.map Message.received)).map fun q =>
            (⟨q.1, ready.received, ⟨[], s'⟩⟩, q.2) :=
    untilReady_ready host [] htype hready hfits hline.flowing
      (allSteps_of_forall (fun _ _ _ => rfl) state)
  refine ⟨⟨⟨[], s'⟩, (request line.outlet).2⟩, ?_, ⟨rfl, hs', hopen⟩, hwire⟩
  unfold ask
  rw [hsend]
  dsimp only
  rw [hloop, hrun]
  rfl

end Nmxptool.Wire.UntilReady
