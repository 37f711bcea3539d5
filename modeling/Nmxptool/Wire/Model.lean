import Nmxptool.Lib.Bytes
import Nmxptool.Lib.Recv

/-! # Messages on the wire

A message is a header of three integers in network order (a signature, the type and the length of
the body) and the body. This module models the functions that send and receive one:
`nmxp_send_ctrl`, `nmxp_sendHeader`, `nmxp_sendMessage`, `nmxp_recv_ctrl`, `nmxp_receiveHeader` and
`nmxp_receiveMessage`, and the lemmas on what a call of `nmxp_recv_ctrl` does.

* `nmxpRecvCtrl_arrive`: it returns what arrives.
* `nmxpRecvCtrl_interrupted`: a time-out ends it, and what came before is lost. -/

namespace Nmxptool.Wire.Model

open Nmxptool.Lib.Bytes Nmxptool.Lib.Recv

def NMXP_SOCKET_OK : ℤ := 0
def NMXP_SOCKET_ERROR : ℤ := -1
def NMX_SIGNATURE : Int32 := 0x7abcde0f

/-- `sizeof(NMXP_MESSAGE_HEADER)`. -/
def HEADER_SIZE : ℕ := 12

theorem error_ne_ok : NMXP_SOCKET_ERROR ≠ NMXP_SOCKET_OK := by decide

theorem header_pos : 0 < HEADER_SIZE := by decide

/-! ### Sending -/

/-- What one call of `send` reports: how many bytes it took at most, or a failure. -/
inductive SendEvent
  | taken (n : ℕ)
  | fail
  deriving DecidableEq

/-- The sending side: what is on the wire, and what the calls of `send` will report. -/
structure Outlet where
  wire : List UInt8
  schedule : Stream' SendEvent

/-- `nmxp_send_ctrl`, one call of `send`. -/
def nmxpSendCtrl (buffer : List UInt8) (o : Outlet) : ℤ × Outlet :=
  match o.schedule.head with
  | .taken n =>
    (if (buffer.take n).length ≠ buffer.length then NMXP_SOCKET_ERROR else NMXP_SOCKET_OK,
      ⟨o.wire ++ buffer.take n, o.schedule.tail⟩)
  | .fail =>
    (if (-1 : ℤ) ≠ buffer.length then NMXP_SOCKET_ERROR else NMXP_SOCKET_OK,
      ⟨o.wire, o.schedule.tail⟩)

/-- An `int32_t` as it lies in the memory of a host. -/
def inMemory (host : Host) (v : Int32) : List UInt8 := store host 4 (nat32 v)

/-- `nmxp_sendHeader`. -/
def nmxpSendHeader (host : Host) (type length : Int32) (o : Outlet) : ℤ × Outlet :=
  nmxpSendCtrl (inMemory host (ntohl host NMX_SIGNATURE) ++
    (inMemory host (ntohl host type) ++ inMemory host (ntohl host length))) o

/-- **`nmxp_sendMessage`**; `buffer` is `none` for a NULL pointer. -/
def nmxpSendMessage (host : Host) (type : Int32) (buffer : Option (List UInt8)) (length : Int32)
    (o : Outlet) : ℤ × Outlet :=
  let r := nmxpSendHeader host type length o
  if r.1 = NMXP_SOCKET_OK then
    match buffer with
    | some buffer =>
      if length.toInt > 0 then nmxpSendCtrl (buffer.take length.toInt.toNat) r.2 else r
    | none => r
  else r

/-! ### Receiving -/

/-- The loop of `nmxp_recv_ctrl`: `cc`, `*recv_errno` and the bytes so far (`recvCount` is their
number), with at most `left` rounds to go. -/
def recvLoop (length : ℕ) : ℕ → Recvd UInt8 → Recvd UInt8
  | 0, r => r
  | left + 1, r =>
    if r.cc > 0 ∧ r.errno = 0 ∧ r.got.length < length then
      let r' := recv (length - r.got.length) r.link
      recvLoop length left { r' with got := r.got ++ r'.got }
    else r

/-- What `nmxp_recv_ctrl` gives: its return value, `*recv_errno`, and the bytes in the buffer. -/
structure RecvCtrl where
  ret : ℤ
  recvErrno : ℤ
  buffer : List UInt8
  link : Link UInt8

/-- **`nmxp_recv_ctrl`.** -/
def nmxpRecvCtrl (length : ℕ) (link : Link UInt8) : RecvCtrl :=
  let r := recvLoop length length ⟨1, 0, [], link⟩
  if r.got.length ≠ length ∨ r.errno ≠ 0 ∨ r.cc ≤ 0 then
    let recvErrno := if r.cc = 0 ∧ r.errno = 0 then -100 else r.errno
    if r.got.length ≠ length ∨ recvErrno ≠ EWOULDBLOCK then
      ⟨NMXP_SOCKET_ERROR, recvErrno, r.got, r.link⟩
    else ⟨NMXP_SOCKET_OK, recvErrno, r.got, r.link⟩
  else ⟨NMXP_SOCKET_OK, r.errno, r.got, r.link⟩

/-- What a receiving function gives: its return value, `*type`, `*length`, the body in the buffer,
and `*recv_errno`. -/
structure Received where
  ret : ℤ
  type : Int32
  length : Int32
  body : List UInt8
  recvErrno : ℤ
  deriving DecidableEq

/-- The field at an offset of the header, as the host reads it. -/
def msgField (host : Host) (msg : List UInt8) (off : ℕ) : Int32 :=
  int32 (load host ((msg.drop off).take 4))

/-- `nmxp_receiveHeader`. -/
def nmxpReceiveHeader (host : Host) (link : Link UInt8) : Received × Link UInt8 :=
  let r := nmxpRecvCtrl HEADER_SIZE link
  let none := (⟨r.ret, 0, 0, [], r.recvErrno⟩ : Received)
  if r.ret = NMXP_SOCKET_OK ∧ msgField host r.buffer 4 ≠ 0 then
    if ntohl host (msgField host r.buffer 0) ≠ NMX_SIGNATURE then
      ({ none with ret := NMXP_SOCKET_ERROR }, r.link)
    else
      ({ none with
        type := ntohl host (msgField host r.buffer 4)
        length := ntohl host (msgField host r.buffer 8) }, r.link)
  else (none, r.link)

/-- **`nmxp_receiveMessage`**, with a buffer of `bufferLength` bytes. -/
def nmxpReceiveMessage (host : Host) (bufferLength : ℕ) (link : Link UInt8) :
    Received × Link UInt8 :=
  let (h, link) := nmxpReceiveHeader host link
  if h.ret = NMXP_SOCKET_OK then
    if h.length.toInt > bufferLength then ({ h with ret := NMXP_SOCKET_ERROR }, link)
    else if h.length.toInt > 0 then
      let r := nmxpRecvCtrl h.length.toInt.toNat link
      ({ h with ret := r.ret, body := r.buffer, recvErrno := r.recvErrno }, r.link)
    else (h, link)
  else (h, link)

/-! ### One call of `nmxp_recv_ctrl` -/

/-- A loop state that is done stays. -/
theorem recvLoop_done {length : ℕ} {r : Recvd UInt8}
    (h : ¬ (r.cc > 0 ∧ r.errno = 0 ∧ r.got.length < length)) : ∀ left, recvLoop length left r = r
  | 0 => rfl
  | _ + 1 => if_neg h

/-- One round. -/
theorem recvLoop_succ {length left : ℕ} {r : Recvd UInt8} (h1 : r.cc > 0) (h2 : r.errno = 0)
    (h3 : r.got.length < length) : recvLoop length (left + 1) r =
      recvLoop length left { recv (length - r.got.length) r.link with
        got := r.got ++ (recv (length - r.got.length) r.link).got } :=
  if_pos ⟨h1, h2, h3⟩

/-- A round that takes a chunk out of the bytes `a` still wanted. -/
theorem recvLoop_chunk {left : ℕ} {cc : ℤ} {got a inbox : List UInt8} {s : Stream' RecvEvent}
    {k : ℕ+} (hcc : cc > 0) (ha : a ≠ []) (hk : s.head = .chunk k) :
    recvLoop (got ++ a).length (left + 1) ⟨cc, 0, got, ⟨a ++ inbox, s⟩⟩ =
      recvLoop (got ++ a).length left
        ⟨(a.take k).length, 0, got ++ a.take k, ⟨a.drop k ++ inbox, s.tail⟩⟩ := by
  have hpos := List.length_pos_of_ne_nil ha
  have hwant : (got ++ a).length - got.length = a.length := by simp
  rw [recvLoop_succ hcc rfl (by simpa using hpos), hwant, recv_chunk hk ha]

/-- A round that ends in a time-out ends the loop. -/
theorem recvLoop_timeout {length left : ℕ} {cc : ℤ} {got : List UInt8} {link : Link UInt8}
    {rest : Link UInt8} (hcc : cc > 0) (hlt : got.length < length)
    (h : recv (length - got.length) link = ⟨-1, EWOULDBLOCK, [], rest⟩) :
    recvLoop length (left + 1) ⟨cc, 0, got, link⟩ = ⟨-1, EWOULDBLOCK, got, rest⟩ := by
  rw [recvLoop_succ hcc rfl hlt, h, List.append_nil]
  exact recvLoop_done (fun hc => absurd hc.1 (by simp)) left

theorem recvLoop_arrive {n : ℕ} {s s' : Stream' RecvEvent} (h : Arrive n s s') :
    ∀ (left : ℕ) (cc : ℤ) (got a inbox : List UInt8), cc > 0 → a.length = n → n ≤ left →
      ∃ cc' > 0, recvLoop (got ++ a).length left ⟨cc, 0, got, ⟨a ++ inbox, s⟩⟩ =
        ⟨cc', 0, got ++ a, ⟨inbox, s'⟩⟩ := by
  induction h with
  | done s =>
    intro left cc got a inbox hcc ha _
    rw [List.length_eq_zero_iff] at ha
    subst ha
    refine ⟨cc, hcc, ?_⟩
    rw [recvLoop_done (fun hc => absurd hc.2.2 (by simp)) left]
    simp
  | @chunk n s s' k hn hk _ ih =>
    intro left cc got a inbox hcc ha hleft
    obtain ⟨left, rfl⟩ : ∃ l, left = l + 1 := ⟨left - 1, by omega⟩
    have hne : a ≠ [] := List.ne_nil_of_length_pos (by omega)
    have hkpos := k.pos
    obtain ⟨cc', hcc', hrun⟩ := ih left (a.take k).length (got ++ a.take k) (a.drop k) inbox
      (by simp; omega) (by simp [ha]) (by omega)
    rw [List.append_assoc, List.take_append_drop] at hrun
    refine ⟨cc', hcc', ?_⟩
    rw [recvLoop_chunk hcc hne hk]
    exact hrun

theorem recvLoop_interrupted {n c : ℕ} {s s' : Stream' RecvEvent} (h : Interrupted n s c s') :
    ∀ (left : ℕ) (cc : ℤ) (got a inbox : List UInt8), cc > 0 → a.length = n → n ≤ left →
      recvLoop (got ++ a).length left ⟨cc, 0, got, ⟨a ++ inbox, s⟩⟩ =
        ⟨-1, EWOULDBLOCK, got ++ a.take c, ⟨a.drop c ++ inbox, s'⟩⟩ := by
  induction h with
  | @now n s hn hs =>
    intro left cc got a inbox hcc ha hleft
    obtain ⟨left, rfl⟩ : ∃ l, left = l + 1 := ⟨left - 1, by omega⟩
    rw [recvLoop_timeout hcc (by simp; omega) (recv_timeout hs)]
    simp
  | @later n c s s' k hk hn _ ih =>
    intro left cc got a inbox hcc ha hleft
    obtain ⟨left, rfl⟩ : ∃ l, left = l + 1 := ⟨left - 1, by omega⟩
    have hne : a ≠ [] := List.ne_nil_of_length_pos (by omega)
    have hkpos := k.pos
    have hrun := ih left (a.take k).length (got ++ a.take k) (a.drop k) inbox
      (by simp; omega) (by simp [ha]) (by omega)
    rw [List.append_assoc, List.take_append_drop] at hrun
    rw [recvLoop_chunk hcc hne hk, hrun, List.append_assoc, ← List.take_add, List.drop_drop]

/-- **What arrives is returned.** -/
theorem nmxpRecvCtrl_arrive {s s' : Stream' RecvEvent} {a : List UInt8} (inbox : List UInt8)
    (h : Arrive a.length s s') :
    nmxpRecvCtrl a.length ⟨a ++ inbox, s⟩ = ⟨NMXP_SOCKET_OK, 0, a, ⟨inbox, s'⟩⟩ := by
  obtain ⟨cc, hcc, hrun⟩ := recvLoop_arrive h a.length 1 [] a inbox (by norm_num) rfl le_rfl
  rw [List.nil_append] at hrun
  have hok : ¬ (a.length ≠ a.length ∨ (0 : ℤ) ≠ 0 ∨ cc ≤ 0) := by simpa using hcc
  simp only [nmxpRecvCtrl, hrun, if_neg hok]

/-- The code that a time-out leads to. -/
theorem nmxpRecvCtrl_timeout {n : ℕ} {link rest : Link UInt8} {got : List UInt8}
    (hrun : recvLoop n n ⟨1, 0, [], link⟩ = ⟨-1, EWOULDBLOCK, got, rest⟩)
    (hlen : got.length ≠ n) :
    nmxpRecvCtrl n link = ⟨NMXP_SOCKET_ERROR, EWOULDBLOCK, got, rest⟩ := by
  have hcc : ¬ ((-1 : ℤ) = 0 ∧ EWOULDBLOCK = 0) := by decide
  rw [nmxpRecvCtrl, hrun]
  dsimp only
  rw [if_pos (Or.inl hlen), if_pos (Or.inl hlen), if_neg hcc]

/-- **A time-out loses what came before it.** -/
theorem nmxpRecvCtrl_interrupted {s s' : Stream' RecvEvent} {a : List UInt8} {c : ℕ}
    (inbox : List UInt8) (h : Interrupted a.length s c s') :
    nmxpRecvCtrl a.length ⟨a ++ inbox, s⟩ =
      ⟨NMXP_SOCKET_ERROR, EWOULDBLOCK, a.take c, ⟨a.drop c ++ inbox, s'⟩⟩ := by
  have hc := h.lt
  refine nmxpRecvCtrl_timeout ?_ (by simp; omega)
  exact recvLoop_interrupted h a.length 1 [] a inbox (by norm_num) rfl le_rfl

/-- Where nothing is in flight, a call ends in a time-out. -/
theorem nmxpRecvCtrl_empty {s : Stream' RecvEvent} (hs : Quiet s) {n : ℕ} (hn : 0 < n) :
    nmxpRecvCtrl n ⟨[], s⟩ = ⟨NMXP_SOCKET_ERROR, EWOULDBLOCK, [], ⟨[], s.tail⟩⟩ := by
  obtain ⟨left, rfl⟩ : ∃ l, n = l + 1 := ⟨n - 1, by omega⟩
  have hrecv : recv (left + 1 - ([] : List UInt8).length) (⟨[], s⟩ : Link UInt8) =
      ⟨-1, EWOULDBLOCK, [], ⟨[], s.tail⟩⟩ := by
    rcases hs 0 with h | ⟨k, h⟩
    · exact recv_timeout h
    · exact recv_empty h
  exact nmxpRecvCtrl_timeout (recvLoop_timeout (by norm_num) (by simp) hrecv) (by simp)

end Nmxptool.Wire.Model
