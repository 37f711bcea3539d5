import Nmxptool.Wire.Terminate

/-! # Waiting for Ready

`nmxp_waitReady` takes message after message from a connection until one is a Ready. It reads the
fields of a header one by one, and gives up with the eleventh message.

* `nmxpWaitReady`: the function.
* `waitRound_frame`: a round consumes one message.
* `waitReady_finds`: it returns well exactly if one of the first ten messages is a Ready, and leaves
  what follows it. -/

namespace Nmxptool.Wire.Ready

open Nmxptool.Lib.Bytes Nmxptool.Lib.Recv Nmxptool.Wire.Model Nmxptool.Wire.Terminate

def NMXP_MSG_READY : Int32 := 208

/-- What `sizeof(err_buff)` is. -/
def SIZEOF_ERR_BUFF : ℤ := 200

/-! ### The function -/

/-- How a call ends: it returns, or the process exits, or memory is used outside its block. -/
inductive Ended
  | returned (rc : ℤ)
  | exited
  | outside
  deriving DecidableEq

/-- An `int32_t` that `nmxp_recv_ctrl` has read, in host order, with its return value. -/
structure RecvInt where
  rc : ℤ
  value : Int32
  link : Link UInt8

/-- `nmxp_recv_ctrl` into an `int32_t`, and `ntohl`. What does not arrive stays as it was. -/
def recvInt (host : Host) (old : Int32) (link : Link UInt8) : RecvInt :=
  let r := nmxpRecvCtrl 4 link
  ⟨r.ret, ntohl host (int32 (load host (r.buffer ++ (inMemory host old).drop r.buffer.length))),
    r.link⟩

/-- The branch for a signature of 200. What the variables hold before they are read is `stack`. -/
def terminateMessage (host : Host) (stack : Int32) (link : Link UInt8) : Ended × Link UInt8 :=
  let errLength := recvInt host stack link
  let errReason := recvInt host stack errLength.link
  if errLength.value.toInt > 4 then
    (if errLength.value.toInt < SIZEOF_ERR_BUFF then .returned NMXP_SOCKET_ERROR else .outside,
      (nmxpRecvCtrl (errLength.value.toInt - 4).toNat errReason.link).link)
  else (.returned NMXP_SOCKET_ERROR, errReason.link)

/-- A round of the loop ends the function, or leaves `rc` and `type` to be tested. -/
inductive Round
  | ended (e : Ended) (link : Link UInt8)
  | next (rc : ℤ) (type : Int32) (link : Link UInt8)

/-- The body of a message that is not a Ready. -/
def skipBody (type length : Int32) (link : Link UInt8) : Round :=
  if length.toInt > 0 then
    let r := nmxpRecvCtrl length.toInt.toNat link
    if type = NMXP_MSG_TERMINATESUBSCRIPTION then
      -- four bytes of the block are read for the reason
      .ended (if length.toInt < 4 then .outside else .exited) r.link
    else if length = 4 then
      if r.ret ≠ NMXP_SOCKET_OK then .ended (.returned r.ret) r.link
      else .next r.ret type r.link
    else .next r.ret type r.link
  else .next NMXP_SOCKET_OK type link

/-- A round, up to the test of `times`. -/
def waitRound (host : Host) (stack : Int32) (link : Link UInt8) : Round :=
  let first := recvInt host stack link
  if first.rc ≠ NMXP_SOCKET_OK then .ended (.returned first.rc) first.link
  else
    -- the result of receiving again is not tested
    let signature := if first.value = 0 then recvInt host first.value first.link else first
    if signature.value ≠ NMX_SIGNATURE then
      if signature.value = 200 then
        .ended (terminateMessage host stack signature.link).1
          (terminateMessage host stack signature.link).2
      else .ended (.returned NMXP_SOCKET_ERROR) signature.link
    else
      let type := recvInt host stack signature.link
      if type.rc ≠ NMXP_SOCKET_OK then .ended (.returned type.rc) type.link
      else
        let length := recvInt host stack type.link
        if length.rc ≠ NMXP_SOCKET_OK then .ended (.returned length.rc) length.link
        else if type.value ≠ NMXP_MSG_READY then skipBody type.value length.value length.link
        else if length.value ≠ 0 then .ended (.returned NMXP_SOCKET_ERROR) length.link
        else .next length.rc type.value length.link

/-- The loop, with `times` rounds behind it. -/
def waitLoop (host : Host) (stack : Int32) (times : ℕ) (link : Link UInt8) :
    Ended × Link UInt8 :=
  match waitRound host stack link with
  | .ended e link => (e, link)
  | .next rc type link =>
    if times + 1 > 10 then (.returned NMXP_SOCKET_ERROR, link)
    else if rc = NMXP_SOCKET_OK ∧ type ≠ NMXP_MSG_READY then waitLoop host stack (times + 1) link
    else (.returned rc, link)
termination_by 11 - times

/-- **`nmxp_waitReady`.** -/
def nmxpWaitReady (host : Host) (stack : Int32) (link : Link UInt8) : Ended × Link UInt8 :=
  waitLoop host stack 0 link

/-! ### Messages -/

/-- A well-formed message, of any type. -/
structure Frame where
  type : Int32
  body : List UInt8
  body_lt : body.length < 2 ^ 31

namespace Frame

/-- The field `length` of the header. -/
def length (m : Frame) : Int32 := int32 m.body.length

/-- **The bytes of a message.** -/
def encode (m : Frame) : List UInt8 := headerBytes m.type m.length ++ m.body

theorem toInt_length (m : Frame) : m.length.toInt = m.body.length :=
  toInt_int32_of_lt m.body_lt

end Frame

/-! ### A round -/

variable {host : Host} {stack : Int32} {rest : List UInt8} {s : Stream' RecvEvent} {n : ℕ}

/-- Four bytes that arrive are read. -/
theorem recvInt_network32 (host : Host) (old v : Int32) (rest : List UInt8)
    (hs : FlowsFor (4 + n) s) :
    ∃ s', recvInt host old ⟨network32 v ++ rest, s⟩ = ⟨NMXP_SOCKET_OK, v, ⟨rest, s'⟩⟩ ∧
      FlowsFor n s' := by
  obtain ⟨s', harrive, hs'⟩ := hs.arrive 4
  refine ⟨s', ?_, hs'⟩
  have hr := nmxpRecvCtrl_arrive rest (a := network32 v) (by rw [length_network32]; exact harrive)
  rw [length_network32] at hr
  have hold : (inMemory host old).drop (network32 v).length = [] :=
    List.drop_eq_nil_of_le (by simp [inMemory])
  unfold recvInt
  rw [hr]
  dsimp only
  rw [hold, List.append_nil, ntohl_network32]

/-- Where nothing is left, nothing is read, whatever is reported. -/
theorem nmxpRecvCtrl_nothing (s : Stream' RecvEvent) (hn : 0 < n) :
    (nmxpRecvCtrl n ⟨[], s⟩).ret = NMXP_SOCKET_ERROR := by
  obtain ⟨left, rfl⟩ : ∃ l, n = l + 1 := ⟨n - 1, by omega⟩
  obtain ⟨r, hr, hcc, hgot⟩ : ∃ r, recv (left + 1) (⟨[], s⟩ : Link UInt8) = r ∧ r.cc ≤ 0 ∧
      r.got = [] := by
    refine ⟨_, rfl, ?_⟩
    unfold recv
    cases s.head <;> simp
  have hloop : (recvLoop (left + 1) (left + 1) ⟨1, 0, [], ⟨[], s⟩⟩).got = [] := by
    rw [recvLoop_succ (by norm_num) rfl (Nat.succ_pos left)]
    dsimp only
    rw [List.length_nil, Nat.sub_zero, hr, List.nil_append,
      recvLoop_done (fun hc => absurd hc.1 (not_lt.mpr hcc)) left]
    exact hgot
  have hlen : (recvLoop (left + 1) (left + 1) ⟨1, 0, [], ⟨[], s⟩⟩).got.length ≠ left + 1 := by
    rw [hloop]
    simp
  unfold nmxpRecvCtrl
  dsimp only
  rw [if_pos (Or.inl hlen), if_pos (Or.inl hlen)]

theorem waitRound_nothing (s : Stream' RecvEvent) :
    ∃ link, waitRound host stack ⟨[], s⟩ = .ended (.returned NMXP_SOCKET_ERROR) link := by
  have hrc : (recvInt host stack ⟨[], s⟩).rc = NMXP_SOCKET_ERROR :=
    nmxpRecvCtrl_nothing s (by decide)
  unfold waitRound
  dsimp only
  rw [hrc, if_pos error_ne_ok]
  exact ⟨_, rfl⟩

/-- A body is skipped. -/
theorem skipBody_frame (m : Frame) (rest : List UInt8)
    (hterm : m.type = NMXP_MSG_TERMINATESUBSCRIPTION → m.body = [])
    (hs : FlowsFor (m.body.length + n) s) :
    ∃ s', skipBody m.type m.length ⟨m.body ++ rest, s⟩ =
      .next NMXP_SOCKET_OK m.type ⟨rest, s'⟩ ∧ FlowsFor n s' := by
  have hlen := m.toInt_length
  obtain ⟨s', harrive, hs'⟩ := hs.arrive m.body.length
  unfold skipBody
  by_cases hbody : m.body = []
  · rw [hbody] at harrive
    rw [if_neg (by rw [hlen, hbody]; simp), hbody]
    cases harrive with
    | done => exact ⟨s, rfl, hs'⟩
    | chunk hpos => exact absurd hpos (by simp)
  · have hpos := List.length_pos_of_ne_nil hbody
    have hr := nmxpRecvCtrl_arrive rest harrive
    refine ⟨s', ?_, hs'⟩
    rw [if_pos (by omega), hlen, Int.toNat_natCast, hr]
    dsimp only
    rw [if_neg (fun h => hbody (hterm h)), if_neg (not_not_intro rfl), ite_self]

/-- **A round consumes one message.** -/
theorem waitRound_frame (host : Host) (stack : Int32) (m : Frame) (rest : List UInt8)
    (hready : m.type = NMXP_MSG_READY → m.body = [])
    (hterm : m.type = NMXP_MSG_TERMINATESUBSCRIPTION → m.body = [])
    (hs : FlowsFor (m.encode.length + n) s) :
    ∃ s', waitRound host stack ⟨m.encode ++ rest, s⟩ = .next NMXP_SOCKET_OK m.type ⟨rest, s'⟩ ∧
      FlowsFor n s' := by
  have hbytes : m.encode.length + n = 4 + (4 + (4 + (m.body.length + n))) := by
    rw [Frame.encode, List.length_append, length_headerBytes, HEADER_SIZE]
    omega
  have htext : m.encode ++ rest = network32 NMX_SIGNATURE ++ (network32 m.type ++
      (network32 m.length ++ (m.body ++ rest))) := by
    simp only [Frame.encode, headerBytes, List.append_assoc]
  rw [hbytes] at hs
  obtain ⟨s1, h1, hs1⟩ := recvInt_network32 host stack NMX_SIGNATURE (network32 m.type ++
    (network32 m.length ++ (m.body ++ rest))) hs
  obtain ⟨s2, h2, hs2⟩ := recvInt_network32 host stack m.type
    (network32 m.length ++ (m.body ++ rest)) hs1
  obtain ⟨s3, h3, hs3⟩ := recvInt_network32 host stack m.length (m.body ++ rest) hs2
  obtain ⟨s', hskip, hs'⟩ := skipBody_frame m rest hterm hs3
  have hzero : NMX_SIGNATURE ≠ 0 := by decide
  rw [htext]
  unfold waitRound
  simp only [h1, if_neg hzero, not_true_eq_false, ne_eq, if_false, h2, h3]
  by_cases htype : m.type = NMXP_MSG_READY
  · have hnil := hready htype
    have hlen : m.length = 0 := by
      rw [Frame.length, hnil]
      rfl
    rw [if_neg (not_not_intro htype), if_neg (not_not_intro hlen), hnil, List.nil_append]
    rw [hnil, List.length_nil, Nat.zero_add] at hs3
    exact ⟨s3, rfl, hs3⟩
  · rw [if_pos htype]
    exact ⟨s', hskip, hs'⟩

/-! ### The loop -/

/-- **The rounds.** After at most ten messages the loop ends with the first Ready that is among the
ones still counted, or with an error. -/
theorem waitLoop_frames (host : Host) (stack : Int32) (ms : List Frame) : ∀ (times : ℕ)
    (s : Stream' RecvEvent),
    FlowsFor (ms.flatMap Frame.encode).length s →
    (∀ m ∈ ms, m.type = NMXP_MSG_READY → m.body = []) →
    (∀ m ∈ ms.takeWhile (·.type ≠ NMXP_MSG_READY),
      m.type = NMXP_MSG_TERMINATESUBSCRIPTION → m.body = []) →
    (∃ link, waitLoop host stack times ⟨ms.flatMap Frame.encode, s⟩ =
        (.returned NMXP_SOCKET_ERROR, link) ∧
      ∀ m ∈ ms.take (10 - times), m.type ≠ NMXP_MSG_READY) ∨
    ∃ before ready after s', waitLoop host stack times ⟨ms.flatMap Frame.encode, s⟩ =
        (.returned NMXP_SOCKET_OK, ⟨after.flatMap Frame.encode, s'⟩) ∧
      ms = before ++ ready :: after ∧ before.length < 10 - times ∧
      ready.type = NMXP_MSG_READY ∧ ∀ m ∈ before, m.type ≠ NMXP_MSG_READY := by
  induction ms with
  | nil =>
    intro times s _ _ _
    obtain ⟨link, hround⟩ := @waitRound_nothing host stack s
    left
    refine ⟨link, ?_, by simp⟩
    rw [waitLoop, List.flatMap_nil, hround]
  | cons m ms ih =>
    intro times s hs hready hterm
    have hm : m.type = NMXP_MSG_TERMINATESUBSCRIPTION → m.body = [] := by
      intro htype
      have hne : m.type ≠ NMXP_MSG_READY := by
        rw [htype]
        decide
      exact hterm m (by simp [hne]) htype
    rw [List.flatMap_cons, List.length_append] at hs
    obtain ⟨s', hround, hs'⟩ := waitRound_frame host stack m (ms.flatMap Frame.encode)
      (hready m (List.mem_cons_self ..)) hm hs
    rw [waitLoop, List.flatMap_cons, hround]
    dsimp only
    by_cases htimes : times + 1 > 10
    · left
      rw [if_pos htimes, Nat.sub_eq_zero_of_le (by omega)]
      exact ⟨_, rfl, by simp⟩
    · rw [if_neg htimes]
      by_cases htype : m.type = NMXP_MSG_READY
      · right
        rw [if_neg (fun h => h.2 htype)]
        exact ⟨[], m, ms, s', rfl, rfl, by simp; omega, htype, by simp⟩
      · have hstop : 10 - times = (10 - (times + 1)) + 1 := by omega
        rw [if_pos ⟨rfl, htype⟩]
        rw [List.takeWhile_cons_of_pos (by simpa using htype)] at hterm
        rcases ih (times + 1) s' hs' (fun m' h => hready m' (List.mem_cons_of_mem _ h))
            (fun m' h => hterm m' (List.mem_cons_of_mem _ h)) with
          ⟨link, hloop, hnone⟩ | ⟨before, ready, after, s2, hloop, rfl, hlen, hr, hbefore⟩
        · left
          refine ⟨link, hloop, ?_⟩
          rw [hstop, List.take_succ_cons]
          exact List.forall_mem_cons.mpr ⟨htype, hnone⟩
        · right
          refine ⟨m :: before, ready, after, s2, hloop, rfl, ?_, hr,
            List.forall_mem_cons.mpr ⟨htype, hbefore⟩⟩
          rw [List.length_cons]
          omega

/-- **Waiting for Ready.** On a stream of well-formed messages, in any chunks, with no
TerminateSubscription that has a body before the first Ready: the call returns well if and only if
one of the first ten messages is a Ready, and then exactly the messages up to the first Ready are
consumed. -/
theorem waitReady_finds (host : Host) (stack : Int32) (ms : List Frame) (s : Stream' RecvEvent)
    (hs : FlowsFor (ms.flatMap Frame.encode).length s)
    (hready : ∀ m ∈ ms, m.type = NMXP_MSG_READY → m.body = [])
    (hterm : ∀ m ∈ ms.takeWhile (·.type ≠ NMXP_MSG_READY),
      m.type = NMXP_MSG_TERMINATESUBSCRIPTION → m.body = []) :
    ((nmxpWaitReady host stack ⟨ms.flatMap Frame.encode, s⟩).1 = .returned NMXP_SOCKET_OK ↔
      ∃ m ∈ ms.take 10, m.type = NMXP_MSG_READY) ∧
    ((nmxpWaitReady host stack ⟨ms.flatMap Frame.encode, s⟩).1 = .returned NMXP_SOCKET_OK →
      ∃ before ready after, ms = before ++ ready :: after ∧ ready.type = NMXP_MSG_READY ∧
        (∀ m ∈ before, m.type ≠ NMXP_MSG_READY) ∧
        (nmxpWaitReady host stack ⟨ms.flatMap Frame.encode, s⟩).2.inbox =
          after.flatMap Frame.encode) := by
  unfold nmxpWaitReady
  rcases waitLoop_frames host stack ms 0 s hs hready hterm with
    ⟨link, hloop, hnone⟩ | ⟨before, ready, after, s', hloop, rfl, hlen, hr, hbefore⟩
  · rw [hloop]
    have hne : (Ended.returned NMXP_SOCKET_ERROR) ≠ .returned NMXP_SOCKET_OK := by decide
    refine ⟨iff_of_false hne ?_, fun h => absurd h hne⟩
    rintro ⟨m, hm, htype⟩
    exact hnone m hm htype
  · rw [hloop]
    refine ⟨iff_of_true rfl ⟨ready, ?_, hr⟩, fun _ => ⟨before, ready, after, rfl, hr, hbefore, rfl⟩⟩
    have htake : (before ++ ready :: after).take (before.length + 1) <+:
        (before ++ ready :: after).take 10 := List.take_prefix_take_left (by omega)
    refine htake.subset ?_
    rw [List.take_length_add_append]
    simp

/-- A message with a body, a Ready and another message, in chunks of three bytes. -/
theorem waitReady_finds_second :
    let pending : Frame := ⟨7, [1, 2, 3, 4, 5], by decide⟩
    let ready : Frame := ⟨NMXP_MSG_READY, [], by decide⟩
    (nmxpWaitReady .little 0 ⟨[pending, ready, pending].flatMap Frame.encode,
        Stream'.const (.chunk 3)⟩).1 = .returned NMXP_SOCKET_OK ∧
    ∃ before r after, [pending, ready, pending] = before ++ r :: after ∧
        r.type = NMXP_MSG_READY ∧ (∀ m ∈ before, m.type ≠ NMXP_MSG_READY) ∧
        (nmxpWaitReady .little 0 ⟨[pending, ready, pending].flatMap Frame.encode,
          Stream'.const (.chunk 3)⟩).2.inbox = after.flatMap Frame.encode := by
  intro pending ready
  obtain ⟨hiff, hend⟩ := waitReady_finds .little 0 [pending, ready, pending] _
    (Flowing.flowsFor (fun _ => ⟨3, rfl⟩) _) (by decide) (by decide)
  have hready := hiff.mpr ⟨ready, by simp, rfl⟩
  exact ⟨hready, hend hready⟩

end Nmxptool.Wire.Ready
