import Nmxptool.Wire.Model

/-! # Framing

`nmxp_receiveMessage` is called again and again on a stream of well-formed messages. No call keeps
the bytes that it consumed before a time-out, and the body of a message that is longer than the
buffer stays in the stream.

* `Framed`: before each call the stream stands at the start of a message, and what was returned so
  far are the messages before it.
* `Undisturbed`: what the schedule must be like for that.
* `framing_iff`: the first holds if and only if the second does. -/

namespace Nmxptool.Wire.Framing

open Nmxptool.Lib.Bytes Nmxptool.Lib.Recv Nmxptool.Wire.Model

/-! ### Messages -/

/-- A well-formed message. -/
structure Message where
  type : Int32
  body : List UInt8
  type_ne : type ≠ 0
  body_lt : body.length < 2 ^ 31
  deriving DecidableEq

namespace Message

/-- The field `length` of the header. -/
def length (m : Message) : Int32 := int32 m.body.length

def header (m : Message) : List UInt8 :=
  network32 NMX_SIGNATURE ++ (network32 m.type ++ network32 m.length)

/-- **The bytes of a message.** -/
def encode (m : Message) : List UInt8 := m.header ++ m.body

/-- What a call that receives the message returns. -/
def received (m : Message) : Received := ⟨NMXP_SOCKET_OK, m.type, m.length, m.body, 0⟩

/-- The message has room in a buffer. -/
def Fits (bufferLength : ℕ) (m : Message) : Prop := m.body.length ≤ bufferLength

instance (bufferLength : ℕ) (m : Message) : Decidable (m.Fits bufferLength) :=
  inferInstanceAs (Decidable (_ ≤ _))

theorem toInt_length (m : Message) : m.length.toInt = m.body.length := by
  have := m.body_lt
  exact toInt_int32_of_lt (by omega)

@[simp] theorem length_header (m : Message) : m.header.length = HEADER_SIZE := by
  simp [header, HEADER_SIZE]

theorem length_encode (m : Message) : m.encode.length = HEADER_SIZE + m.body.length := by
  rw [encode, List.length_append, length_header]

end Message

/-! ### One call -/

variable {host : Host} {bufferLength : ℕ} {m : Message} {rest : List UInt8}
  {s s' s1 s2 : Stream' RecvEvent}

theorem msgField_append (host : Host) (pre post : List UInt8) (v : Int32) {off : ℕ}
    (hoff : off = pre.length) :
    msgField host (pre ++ (network32 v ++ post)) off = int32 (load host (network32 v)) := by
  subst hoff
  rw [msgField, List.drop_left, List.take_left' (length_network32 v)]

/-- The fields of a header, in host order. -/
theorem ntohl_msgField (host : Host) (m : Message) :
    ntohl host (msgField host m.header 0) = NMX_SIGNATURE ∧
      ntohl host (msgField host m.header 4) = m.type ∧
      ntohl host (msgField host m.header 8) = m.length := by
  have h0 : msgField host m.header 0 = int32 (load host (network32 NMX_SIGNATURE)) :=
    msgField_append host [] _ _ rfl
  have h4 : msgField host m.header 4 = int32 (load host (network32 m.type)) :=
    msgField_append host (network32 NMX_SIGNATURE) _ _ (length_network32 _).symm
  have h8 : msgField host m.header 8 = int32 (load host (network32 m.length)) := by
    rw [Message.header, ← List.append_assoc, ← List.append_nil (network32 m.length)]
    exact msgField_append host _ _ _ (by simp)
  rw [h0, h4, h8]
  exact ⟨ntohl_network32 host _, ntohl_network32 host _, ntohl_network32 host _⟩

theorem ntohl_zero (host : Host) : ntohl host 0 = 0 := by
  cases host <;> decide

theorem msgField_type_ne (host : Host) (m : Message) : msgField host m.header 4 ≠ 0 := by
  intro h
  have := (ntohl_msgField host m).2.1
  rw [h, ntohl_zero] at this
  exact m.type_ne this.symm

theorem receiveHeader_arrive (h : Arrive HEADER_SIZE s s1) :
    nmxpReceiveHeader host ⟨m.header ++ rest, s⟩ =
      (⟨NMXP_SOCKET_OK, m.type, m.length, [], 0⟩, ⟨rest, s1⟩) := by
  have hr := nmxpRecvCtrl_arrive rest (a := m.header) (by rw [m.length_header]; exact h)
  rw [m.length_header] at hr
  obtain ⟨h0, h4, h8⟩ := ntohl_msgField host m
  have hne := msgField_type_ne host m
  simp only [nmxpReceiveHeader, hr, h0, h4, h8, ne_eq, hne, not_false_eq_true, and_self, if_true,
    not_true_eq_false, if_false]

/-- What a call gives that ends before it has a header. -/
def noHeader : Received := ⟨NMXP_SOCKET_ERROR, 0, 0, [], EWOULDBLOCK⟩

theorem receiveHeader_interrupted {c : ℕ} (h : Interrupted HEADER_SIZE s c s') :
    nmxpReceiveHeader host ⟨m.header ++ rest, s⟩ = (noHeader, ⟨m.header.drop c ++ rest, s'⟩) := by
  have hr := nmxpRecvCtrl_interrupted rest (a := m.header) (by rw [m.length_header]; exact h)
  rw [m.length_header] at hr
  have hret : ¬ (NMXP_SOCKET_ERROR = NMXP_SOCKET_OK ∧
      msgField host (m.header.take c) 4 ≠ 0) := fun hc => error_ne_ok hc.1
  simp only [nmxpReceiveHeader, hr, if_neg hret]
  rfl

/-- Nothing in flight. -/
theorem receiveMessage_empty (host : Host) (bufferLength : ℕ) (hs : Quiet s) :
    nmxpReceiveMessage host bufferLength ⟨[], s⟩ = (noHeader, ⟨[], s.tail⟩) := by
  have hr := nmxpRecvCtrl_empty hs header_pos
  have hret : ¬ (NMXP_SOCKET_ERROR = NMXP_SOCKET_OK ∧ msgField host [] 4 ≠ 0) :=
    fun hc => error_ne_ok hc.1
  simp only [nmxpReceiveMessage, nmxpReceiveHeader, hr, if_neg hret, if_neg error_ne_ok]
  rfl

/-- A time-out in the header. -/
theorem receiveMessage_noHeader {c : ℕ} (h : Interrupted HEADER_SIZE s c s') :
    nmxpReceiveMessage host bufferLength ⟨m.encode ++ rest, s⟩ =
      (noHeader, ⟨m.encode.drop c ++ rest, s'⟩) := by
  have hlt := h.lt
  have hret : ¬ noHeader.ret = NMXP_SOCKET_OK := error_ne_ok
  have hdrop : m.encode.drop c ++ rest = m.header.drop c ++ (m.body ++ rest) := by
    rw [Message.encode, List.drop_append_of_le_length (by rw [m.length_header]; exact hlt.le),
      List.append_assoc]
  rw [hdrop, Message.encode, List.append_assoc]
  simp only [nmxpReceiveMessage, receiveHeader_interrupted h, if_neg hret]

/-- The call once the header has arrived. -/
theorem receiveMessage_header (h : Arrive HEADER_SIZE s s1) :
    nmxpReceiveMessage host bufferLength ⟨m.encode ++ rest, s⟩ =
      if m.length.toInt > bufferLength then
        (⟨NMXP_SOCKET_ERROR, m.type, m.length, [], 0⟩, ⟨m.body ++ rest, s1⟩)
      else if m.length.toInt > 0 then
        let r := nmxpRecvCtrl m.body.length ⟨m.body ++ rest, s1⟩
        (⟨r.ret, m.type, m.length, r.buffer, r.recvErrno⟩, r.link)
      else (⟨NMXP_SOCKET_OK, m.type, m.length, [], 0⟩, ⟨m.body ++ rest, s1⟩) := by
  have hn : m.length.toInt.toNat = m.body.length := by rw [m.toInt_length, Int.toNat_natCast]
  rw [Message.encode, List.append_assoc]
  simp only [nmxpReceiveMessage, receiveHeader_arrive h, if_true, hn]

/-- **A message that arrives and fits is returned.** -/
theorem receiveMessage_ok (h1 : Arrive HEADER_SIZE s s1) (hfit : m.Fits bufferLength)
    (h2 : Arrive m.body.length s1 s2) :
    nmxpReceiveMessage host bufferLength ⟨m.encode ++ rest, s⟩ = (m.received, ⟨rest, s2⟩) := by
  have hlen := m.toInt_length
  unfold Message.Fits at hfit
  rw [receiveMessage_header h1, if_neg (by omega)]
  by_cases hb : m.body = []
  · rw [if_neg (by rw [hlen, hb]; simp), Message.received, hb]
    rw [hb] at h2
    cases h2 with
    | done => rfl
    | chunk hn => exact absurd hn (by simp)
  · have hpos := List.length_pos_of_ne_nil hb
    rw [if_pos (by omega), nmxpRecvCtrl_arrive rest h2]
    rfl

/-- By a flowing schedule every message that fits is returned, and the schedule flows on. -/
theorem receiveMessage_flowing (hs : Flowing s) (hfit : m.Fits bufferLength) :
    ∃ s', nmxpReceiveMessage host bufferLength ⟨m.encode ++ rest, s⟩ = (m.received, ⟨rest, s'⟩) ∧
      Flowing s' := by
  obtain ⟨s1, h1, hs1⟩ := hs.arrive HEADER_SIZE
  obtain ⟨s2, h2, hs2⟩ := hs1.arrive m.body.length
  exact ⟨s2, receiveMessage_ok h1 hfit h2, hs2⟩

/-- A message that does not fit leaves its body behind. -/
theorem receiveMessage_reject (h1 : Arrive HEADER_SIZE s s1) (hfit : ¬ m.Fits bufferLength) :
    nmxpReceiveMessage host bufferLength ⟨m.encode ++ rest, s⟩ =
      (⟨NMXP_SOCKET_ERROR, m.type, m.length, [], 0⟩,
        ⟨m.encode.drop HEADER_SIZE ++ rest, s1⟩) := by
  have hlen := m.toInt_length
  unfold Message.Fits at hfit
  rw [receiveMessage_header h1, if_pos (by omega), Message.encode,
    List.drop_left' m.length_header]

/-- A time-out in the body leaves the rest of it behind. -/
theorem receiveMessage_noBody {c : ℕ} (h1 : Arrive HEADER_SIZE s s1) (hfit : m.Fits bufferLength)
    (h2 : Interrupted m.body.length s1 c s') :
    nmxpReceiveMessage host bufferLength ⟨m.encode ++ rest, s⟩ =
      (⟨NMXP_SOCKET_ERROR, m.type, m.length, m.body.take c, EWOULDBLOCK⟩,
        ⟨m.encode.drop (HEADER_SIZE + c) ++ rest, s'⟩) := by
  have hlen := m.toInt_length
  have hlt := h2.lt
  unfold Message.Fits at hfit
  rw [receiveMessage_header h1, if_neg (by omega), if_pos (by omega),
    nmxpRecvCtrl_interrupted rest h2, Message.encode, ← List.drop_drop,
    List.drop_left' m.length_header]

/-- **What a call does at the start of a message**: it times out at once; or it returns the whole
message; or it fails and leaves the stream inside the message. -/
theorem receiveMessage_cases (host : Host) (bufferLength : ℕ) (m : Message) (rest : List UInt8)
    (hs : Quiet s) :
    s.head = .fail EWOULDBLOCK ∨
      (∃ s1 s2, Arrive HEADER_SIZE s s1 ∧ m.Fits bufferLength ∧ Arrive m.body.length s1 s2) ∨
      ∃ c, 0 < c ∧ c < m.encode.length ∧
        (nmxpReceiveMessage host bufferLength ⟨m.encode ++ rest, s⟩).2.inbox =
          m.encode.drop c ++ rest := by
  have hlen := m.length_encode
  rcases arrive_or_interrupted HEADER_SIZE hs with ⟨s1, h1⟩ | ⟨c, s', h1⟩
  · by_cases hfit : m.Fits bufferLength
    · rcases arrive_or_interrupted m.body.length (h1.quiet hs) with ⟨s2, h2⟩ | ⟨c, s', h2⟩
      · exact Or.inr (Or.inl ⟨s1, s2, h1, hfit, h2⟩)
      · have hlt := h2.lt
        refine Or.inr (Or.inr ⟨HEADER_SIZE + c, ?_, by omega, ?_⟩)
        · unfold HEADER_SIZE
          omega
        · rw [receiveMessage_noBody h1 hfit h2]
    · refine Or.inr (Or.inr ⟨HEADER_SIZE, header_pos, ?_, ?_⟩)
      · unfold Message.Fits at hfit
        omega
      · rw [receiveMessage_reject h1 hfit]
  · rcases Nat.eq_zero_or_pos c with hc | hc
    · exact Or.inl (h1.head_of_zero hc).1
    · have hlt := h1.lt
      refine Or.inr (Or.inr ⟨c, hc, by omega, ?_⟩)
      rw [receiveMessage_noHeader h1]

/-! ### Calling again and again -/

/-- `exitpdscondition` of the PDS loop after a call: whether it goes on. -/
def exitpdscondition (recvErrno : ℤ) : Bool := recvErrno = 0 ∨ recvErrno = EWOULDBLOCK

/-- At most `k` calls, as long as the loop goes on: what they return, and the link. -/
def receiveCalls (host : Host) (bufferLength : ℕ) : ℕ → Link UInt8 → List Received × Link UInt8
  | 0, link => ([], link)
  | k + 1, link =>
    let r := nmxpReceiveMessage host bufferLength link
    if exitpdscondition r.1.recvErrno then
      let rs := receiveCalls host bufferLength k r.2
      (r.1 :: rs.1, rs.2)
    else ([r.1], r.2)

/-- The messages returned. -/
def delivered (rs : List Received) : List Received := rs.filter fun r => r.ret = NMXP_SOCKET_OK

/-- After some calls on the messages `ms`, which gave `rs` and left `inbox`: the stream stands
between two messages, and those before it were returned, except for those that do not fit. -/
def AtBoundary (bufferLength : ℕ) (ms : List Message) (rs : List Received) (inbox : List UInt8) :
    Prop :=
  ∃ before rest, ms = before ++ rest ∧ inbox = rest.flatMap Message.encode ∧
    delivered rs = (before.filter fun m => m.Fits bufferLength).map Message.received

/-- **The framing survives** `k` calls. -/
def Framed (host : Host) (bufferLength : ℕ) (ms : List Message) (s : Stream' RecvEvent) (k : ℕ) :
    Prop :=
  ∀ j ≤ k, AtBoundary bufferLength ms
    (receiveCalls host bufferLength j ⟨ms.flatMap Message.encode, s⟩).1
    (receiveCalls host bufferLength j ⟨ms.flatMap Message.encode, s⟩).2.inbox

/-- **Each of `k` calls is undisturbed**: it meets a time-out before anything else, or nothing is in
flight, or it meets a message that fits and that arrives before any time-out. -/
inductive Undisturbed (bufferLength : ℕ) : ℕ → List Message → Stream' RecvEvent → Prop
  | start (ms : List Message) (s : Stream' RecvEvent) : Undisturbed bufferLength 0 ms s
  | timeout {k : ℕ} {ms : List Message} {s : Stream' RecvEvent}
      (hs : s.head = .fail EWOULDBLOCK) (h : Undisturbed bufferLength k ms s.tail) :
      Undisturbed bufferLength (k + 1) ms s
  | idle {k : ℕ} {s : Stream' RecvEvent} (h : Undisturbed bufferLength k [] s.tail) :
      Undisturbed bufferLength (k + 1) [] s
  | message {k : ℕ} {m : Message} {ms : List Message} {s s1 s2 : Stream' RecvEvent}
      (h1 : Arrive HEADER_SIZE s s1) (hfit : m.Fits bufferLength)
      (h2 : Arrive m.body.length s1 s2) (h : Undisturbed bufferLength k ms s2) :
      Undisturbed bufferLength (k + 1) (m :: ms) s

variable {ms : List Message} {k : ℕ}

theorem receiveCalls_succ {link link' : Link UInt8} {r : Received}
    (h : nmxpReceiveMessage host bufferLength link = (r, link'))
    (hr : exitpdscondition r.recvErrno = true) : receiveCalls host bufferLength (k + 1) link =
      (r :: (receiveCalls host bufferLength k link').1,
        (receiveCalls host bufferLength k link').2) := by
  rw [receiveCalls, h]
  exact if_pos hr

theorem receiveCalls_one (host : Host) (bufferLength : ℕ) (link : Link UInt8) :
    (receiveCalls host bufferLength 1 link).2 = (nmxpReceiveMessage host bufferLength link).2 := by
  simp only [receiveCalls]
  split_ifs <;> rfl

theorem framed_zero (host : Host) (bufferLength : ℕ) (ms : List Message)
    (s : Stream' RecvEvent) : Framed host bufferLength ms s 0 := by
  intro j hj
  obtain rfl : j = 0 := by omega
  exact ⟨[], ms, rfl, rfl, rfl⟩

/-- A call that leaves everything in place. -/
theorem framed_idle (h : nmxpReceiveMessage host bufferLength ⟨ms.flatMap Message.encode, s⟩ =
    (noHeader, ⟨ms.flatMap Message.encode, s.tail⟩)) :
    Framed host bufferLength ms s (k + 1) ↔ Framed host bufferLength ms s.tail k := by
  have hstep : ∀ j, AtBoundary bufferLength ms
      (receiveCalls host bufferLength (j + 1) ⟨ms.flatMap Message.encode, s⟩).1
      (receiveCalls host bufferLength (j + 1) ⟨ms.flatMap Message.encode, s⟩).2.inbox ↔
      AtBoundary bufferLength ms
        (receiveCalls host bufferLength j ⟨ms.flatMap Message.encode, s.tail⟩).1
        (receiveCalls host bufferLength j ⟨ms.flatMap Message.encode, s.tail⟩).2.inbox := by
    intro j
    rw [receiveCalls_succ h rfl]
    rfl
  constructor
  · intro hf j hj
    exact (hstep j).mp (hf (j + 1) (by omega))
  · intro hf j hj
    rcases j with _ | j
    · exact framed_zero host bufferLength ms s 0 le_rfl
    · exact (hstep j).mpr (hf j (by omega))

/-- A call that returns the first message. -/
theorem framed_message (hfit : m.Fits bufferLength)
    (h : nmxpReceiveMessage host bufferLength ⟨m.encode ++ ms.flatMap Message.encode, s⟩ =
      (m.received, ⟨ms.flatMap Message.encode, s2⟩)) :
    Framed host bufferLength (m :: ms) s (k + 1) ↔ Framed host bufferLength ms s2 k := by
  have hstep : ∀ rs inbox, AtBoundary bufferLength (m :: ms) (m.received :: rs) inbox ↔
      AtBoundary bufferLength ms rs inbox := by
    intro rs inbox
    have hdel : delivered (m.received :: rs) = m.received :: delivered rs := rfl
    constructor
    · rintro ⟨before, rest, hms, hin, hd⟩
      cases before with
      | nil =>
        rw [hdel] at hd
        exact absurd hd (by simp)
      | cons b before =>
        rw [List.cons_append] at hms
        obtain ⟨rfl, hms'⟩ := List.cons.inj hms
        rw [hdel, List.filter_cons_of_pos (by simpa using hfit), List.map_cons] at hd
        exact ⟨before, rest, hms', hin, (List.cons.inj hd).2⟩
    · rintro ⟨before, rest, hms, hin, hd⟩
      refine ⟨m :: before, rest, by rw [hms, List.cons_append], hin, ?_⟩
      rw [hdel, List.filter_cons_of_pos (by simpa using hfit), List.map_cons, hd]
  have hcalls : ∀ j, receiveCalls host bufferLength (j + 1)
      ⟨(m :: ms).flatMap Message.encode, s⟩ =
      (m.received :: (receiveCalls host bufferLength j ⟨ms.flatMap Message.encode, s2⟩).1,
        (receiveCalls host bufferLength j ⟨ms.flatMap Message.encode, s2⟩).2) :=
    fun j => receiveCalls_succ (by rw [List.flatMap_cons]; exact h) rfl
  constructor
  · intro hf j hj
    have := hf (j + 1) (by omega)
    rw [hcalls] at this
    exact (hstep _ _).mp this
  · intro hf j hj
    rcases j with _ | j
    · exact framed_zero host bufferLength (m :: ms) s 0 le_rfl
    · rw [hcalls]
      exact (hstep _ _).mpr (hf j (by omega))

/-- After a call that leaves the stream inside a message, the framing is lost. -/
theorem not_framed {c : ℕ} (hc0 : 0 < c) (hc : c < m.encode.length)
    (h : (nmxpReceiveMessage host bufferLength
      ⟨m.encode ++ ms.flatMap Message.encode, s⟩).2.inbox =
        m.encode.drop c ++ ms.flatMap Message.encode) :
    ¬ Framed host bufferLength (m :: ms) s (k + 1) := by
  intro hf
  obtain ⟨before, rest, hms, hin, -⟩ := hf 1 (by omega)
  rw [receiveCalls_one, List.flatMap_cons, h] at hin
  exact not_boundary hms.symm hc0 hc hin

/-- A call that meets a time-out first, or no message, leaves everything in place. -/
theorem receiveMessage_waits (host : Host) (bufferLength : ℕ) (ms : List Message)
    (h : s.head = .fail EWOULDBLOCK ∨ ms = []) (hs : Quiet s) :
    nmxpReceiveMessage host bufferLength ⟨ms.flatMap Message.encode, s⟩ =
      (noHeader, ⟨ms.flatMap Message.encode, s.tail⟩) := by
  cases ms with
  | nil => rw [List.flatMap_nil, receiveMessage_empty host bufferLength hs]
  | cons m ms =>
    have h0 : s.head = .fail EWOULDBLOCK := h.resolve_right (by simp)
    rw [List.flatMap_cons, receiveMessage_noHeader (.now header_pos h0), List.drop_zero]

/-- **Framing.** For every stream of well-formed messages, and every schedule of chunks and
time-outs: over `k` calls the framing survives if and only if each of them is undisturbed. -/
theorem framing_iff (host : Host) (bufferLength : ℕ) (ms : List Message) (s : Stream' RecvEvent)
    (k : ℕ) (hs : Quiet s) :
    Framed host bufferLength ms s k ↔ Undisturbed bufferLength k ms s := by
  induction k generalizing ms s with
  | zero => exact ⟨fun _ => .start ms s, fun _ => framed_zero host bufferLength ms s⟩
  | succ k ih =>
    constructor
    · intro hf
      cases ms with
      | nil =>
        have hw := receiveMessage_waits host bufferLength [] (Or.inr rfl) hs
        exact .idle ((ih [] s.tail hs.tail).mp ((framed_idle hw).mp hf))
      | cons m ms =>
        rcases receiveMessage_cases host bufferLength m (ms.flatMap Message.encode) hs with
          h0 | ⟨s1, s2, h1, hfit, h2⟩ | ⟨c, hc0, hc, h⟩
        · have hw := receiveMessage_waits host bufferLength (m :: ms) (Or.inl h0) hs
          exact .timeout h0 ((ih (m :: ms) s.tail hs.tail).mp ((framed_idle hw).mp hf))
        · exact .message h1 hfit h2 ((ih ms s2 (h2.quiet (h1.quiet hs))).mp
            ((framed_message hfit (receiveMessage_ok h1 hfit h2)).mp hf))
        · exact absurd hf (not_framed hc0 hc h)
    · intro hu
      cases hu with
      | timeout h0 h =>
        have hw := receiveMessage_waits host bufferLength ms (Or.inl h0) hs
        exact (framed_idle hw).mpr ((ih ms s.tail hs.tail).mpr h)
      | idle h =>
        have hw := receiveMessage_waits host bufferLength [] (Or.inr rfl) hs
        exact (framed_idle hw).mpr ((ih [] s.tail hs.tail).mpr h)
      | message h1 hfit h2 h =>
        exact (framed_message hfit (receiveMessage_ok h1 hfit h2)).mpr
          ((ih _ _ (h2.quiet (h1.quiet hs))).mpr h)

/-- Some events, then large chunks. -/
def startingWith (es : List RecvEvent) : Stream' RecvEvent := fun n => es.getD n (.chunk 100000)

def threeBytes : Message := ⟨4, [1, 2, 3], by decide, by decide⟩

/-- A message one byte longer than `NMXP_MAX_LENGTH_DATA_BUFFER`. -/
def tooLong : Message :=
  ⟨4, List.replicate 16369 0, by decide, by rw [List.length_replicate]; norm_num⟩

theorem length_tooLong : tooLong.body.length = 16369 := List.length_replicate

/-- A time-out between two messages, and a chunk that ends in a header. -/
theorem framing_iff_between : Framed .little 16368 [threeBytes, threeBytes]
    (startingWith [.chunk 5, .chunk 7, .chunk 3, .fail EWOULDBLOCK]) 3 := by
  refine (framing_iff .little 16368 [threeBytes, threeBytes]
    (startingWith [.chunk 5, .chunk 7, .chunk 3, .fail EWOULDBLOCK]) 3 ?_).mpr ?_
  · intro n
    match n with
    | 0 | 1 | 2 => exact Or.inr ⟨_, rfl⟩
    | 3 => exact Or.inl rfl
    | n + 4 => exact Or.inr ⟨100000, rfl⟩
  · refine .message (.chunk header_pos rfl (.chunk (by decide) rfl (.done _))) (by decide)
      (.chunk (by decide) rfl (.done _)) ?_
    refine .timeout rfl ?_
    exact .message (.chunk header_pos rfl (.done _)) (by decide)
      (.chunk (by decide) rfl (.done _)) (.start _ _)

/-- A time-out after five bytes of a header, and a message that does not fit. -/
theorem framing_lost :
    ¬ Framed .little 16368 [threeBytes] (startingWith [.chunk 5, .fail EWOULDBLOCK]) 1 ∧
      ¬ Framed .little 16368 [tooLong] (startingWith []) 1 := by
  constructor
  · have h : Interrupted HEADER_SIZE (startingWith [.chunk 5, .fail EWOULDBLOCK]) (5 + 0) _ :=
      .later (k := 5) rfl (by decide) (.now (by decide) rfl)
    refine not_framed (c := 5) (by decide) (by decide) ?_
    rw [receiveMessage_noHeader h]
  · have h : Arrive HEADER_SIZE (startingWith []) _ :=
      .chunk (k := 100000) header_pos rfl (.done _)
    have hfit : ¬ tooLong.Fits 16368 := by rw [Message.Fits, length_tooLong]; norm_num
    have hlt : HEADER_SIZE < tooLong.encode.length := by
      rw [Message.length_encode, length_tooLong]; norm_num
    refine not_framed header_pos hlt ?_
    rw [receiveMessage_reject h hfit]

end Nmxptool.Wire.Framing
