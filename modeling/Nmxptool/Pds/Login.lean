import Nmxptool.Decode.Bundle
import Nmxptool.Pds.Crc32
import Nmxptool.Wire.UntilReady

/-! # Logging in

The DAP server starts with its time. The client answers with a ConnectRequest, which holds the user,
this time and a checksum over the user, the time and the password, and waits for Ready.

* `sendConnectRequest_eq`: what is sent, which is the same on every host, or the write outside
  `crc32buf` where user and password are too long.
* `login_iff`: when the three steps end well, and what the server has got then.
* `login_ready`: a login where nothing goes wrong, and the connection behind it.
* `accepts_iff`: a request is good for one connection: with another time the checksum is another
  one. -/

namespace Nmxptool.Pds.Login

open Nmxptool.Lib.Bytes Nmxptool.Lib.Recv Nmxptool.Lib.Run Nmxptool.Decode.Bundle
open Nmxptool.Wire.Model Nmxptool.Wire.Framing Nmxptool.Wire.Terminate Nmxptool.Wire.Ready
open Nmxptool.Wire.UntilReady Nmxptool.Pds.Crc32

def NMXP_MSG_CONNECTREQUEST : Int32 := 206
def NMXP_MAX_SIZE_USERNAME : ℕ := 12

/-- `sizeof(NMXP_CONNECT_REQUEST)`. -/
def SIZEOF_CONNECT_REQUEST : Int32 := 24

/-- `sizeof(crc32buf)`. -/
def SIZEOF_CRC32BUF : ℕ := 100

/-! ### `nmxp_sendConnectRequest` -/

/-- The bytes up to the NUL; `strlen` is their number. NULL counts as empty. -/
def textBytes (text : Option Text) : List UInt8 := (text.map Text.bytes).getD []

/-- `crc32buf` and `crc32buf_length`. -/
structure Crc32buf where
  cells : List UInt8
  length : ℕ

/-- One `memcpy` to `crc32buf + crc32buf_length`. There is no result if it writes outside. -/
def Crc32buf.memcpy (src : List UInt8) (b : Crc32buf) : Option Crc32buf :=
  if b.length + src.length ≤ SIZEOF_CRC32BUF then
    some ⟨b.cells.take b.length ++ src ++ b.cells.drop (b.length + src.length),
      b.length + src.length⟩
  else none

/-- The bytes of `connection_time`, swapped on a little-endian host. -/
def swappedTime (host : Host) (connectionTime : Int32) : List UInt8 :=
  if host ≠ .big then nmxpDataSwap4b (inMemory host connectionTime)
  else inMemory host connectionTime

/-- The part that fills `crc32buf`, if there are a user and a password. -/
def fillCrc32buf (host : Host) (username password : List UInt8) (connectionTime : Int32) :
    Option Crc32buf :=
  let zeros : Crc32buf := ⟨List.replicate SIZEOF_CRC32BUF 0, 0⟩
  if username.length ≠ 0 ∧ password.length ≠ 0 then do
    let b ← zeros.memcpy username
    let b ← b.memcpy (inMemory host 0)
    let b ← b.memcpy (swappedTime host connectionTime)
    b.memcpy password
  else some zeros

/-- The field `username`, 12 zeros and `strncpy`. -/
def usernameField (username : List UInt8) : List UInt8 :=
  username.take NMXP_MAX_SIZE_USERNAME ++
    List.replicate (NMXP_MAX_SIZE_USERNAME - username.length) 0

/-- A `NMXP_CONNECT_REQUEST` in memory, once its fields have been converted. -/
def connectRequest (host : Host) (username : List UInt8) (connectionTime crc : Int32) :
    List UInt8 :=
  usernameField username ++ (inMemory host (ntohl host 0) ++
    (inMemory host (ntohl host connectionTime) ++ inMemory host (ntohl host crc)))

/-- **`nmxp_sendConnectRequest`**; `tab` is what the table of `crc32` holds before it is built. -/
def nmxpSendConnectRequest (host : Host) (tab : Table) (username password : Option Text)
    (connectionTime : Int32) (o : Outlet) : Option (ℤ × Outlet) := do
  let b ← fillCrc32buf host (textBytes username) (textBytes password) connectionTime
  let crc := crc32 tab 0 b.cells (BitVec.ofNat 32 b.length)
  return nmxpSendMessage host NMXP_MSG_CONNECTREQUEST
    (some (connectRequest host (textBytes username) connectionTime (int32 crc.toNat)))
    SIZEOF_CONNECT_REQUEST o

/-! ### What is sent -/

/-- The text of the checksum. -/
def checkedText (username password : List UInt8) (connectionTime : Int32) : List UInt8 :=
  if username.length ≠ 0 ∧ password.length ≠ 0 then
    username ++ network32 0 ++ network32 connectionTime ++ password
  else []

def checksum (username password : List UInt8) (connectionTime : Int32) : Int32 :=
  int32 (serialCrc 0 (checkedText username password connectionTime)).toNat

/-- **The body of a ConnectRequest.** -/
def requestBody (username password : List UInt8) (connectionTime : Int32) : List UInt8 :=
  usernameField username ++ (network32 0 ++ (network32 connectionTime ++
    network32 (checksum username password connectionTime)))

/-- User and password have room in `crc32buf`. -/
def Fits (username password : List UInt8) (connectionTime : Int32) : Prop :=
  (checkedText username password connectionTime).length ≤ SIZEOF_CRC32BUF

instance (username password : List UInt8) (connectionTime : Int32) :
    Decidable (Fits username password connectionTime) := inferInstanceAs (Decidable (_ ≤ _))

theorem swappedTime_eq (host : Host) (t : Int32) : swappedTime host t = network32 t := by
  have hswap : ∀ m : List UInt8, m.length = 4 → nmxpDataSwap4b m = m.reverse := by
    intro m hm
    match m, hm with
    | [a, b, c, d], _ => rfl
  cases host with
  | little => exact hswap (inMemory .little t) (length_store .little 4 _)
  | big => rfl

theorem inMemory_zero (host : Host) : inMemory host 0 = network32 0 := by cases host <;> rfl

theorem length_usernameField (username : List UInt8) :
    (usernameField username).length = NMXP_MAX_SIZE_USERNAME := by
  unfold usernameField
  rw [List.length_append, List.length_take, List.length_replicate]
  omega

theorem length_requestBody (username password : List UInt8) (t : Int32) :
    (requestBody username password t).length = 24 := by
  simp [requestBody, length_usernameField, NMXP_MAX_SIZE_USERNAME]

/-- The text in `crc32buf`. -/
structure Holds (b : Crc32buf) (text : List UInt8) : Prop where
  length : b.length = text.length
  cells : b.cells.take b.length = text
  size : b.cells.length = SIZEOF_CRC32BUF

/-- One `memcpy`. -/
theorem Holds.memcpy {b : Crc32buf} {text : List UInt8} (h : Holds b text) (src : List UInt8) :
    ((text ++ src).length ≤ SIZEOF_CRC32BUF →
        ∃ b', b.memcpy src = some b' ∧ Holds b' (text ++ src)) ∧
      (¬ (text ++ src).length ≤ SIZEOF_CRC32BUF → b.memcpy src = none) := by
  unfold Crc32buf.memcpy
  rw [h.length, List.length_append]
  have htake : b.cells.take text.length = text := by rw [← h.length]; exact h.cells
  refine ⟨fun hle => ⟨_, if_pos hle, ?_, ?_, ?_⟩, fun hlt => if_neg hlt⟩
  · exact List.length_append.symm
  · dsimp only
    rw [htake, ← List.length_append, List.take_left]
  · dsimp only
    rw [htake, List.length_append, List.length_append, List.length_drop, h.size]
    omega

/-- Several, one behind the other. -/
theorem Holds.memcpys : ∀ (srcs : List (List UInt8)) {b : Crc32buf} {text : List UInt8},
    Holds b text →
    ((text ++ srcs.flatten).length ≤ SIZEOF_CRC32BUF →
      ∃ b', srcs.foldlM (fun b src => b.memcpy src) b = some b' ∧
        Holds b' (text ++ srcs.flatten)) ∧
    (¬ (text ++ srcs.flatten).length ≤ SIZEOF_CRC32BUF → b.length ≤ SIZEOF_CRC32BUF →
      srcs.foldlM (fun b src => b.memcpy src) b = none)
  | [], b, text, h => by
    rw [List.flatten_nil, List.append_nil]
    exact ⟨fun _ => ⟨b, rfl, h⟩, fun hlt hle => absurd (h.length ▸ hle) hlt⟩
  | src :: srcs, b, text, h => by
    rw [List.flatten_cons, ← List.append_assoc]
    have hfold : (src :: srcs).foldlM (fun b src => Crc32buf.memcpy src b) b =
        b.memcpy src >>= fun b' => srcs.foldlM (fun b src => b.memcpy src) b' := rfl
    rw [hfold]
    by_cases hle : (text ++ src).length ≤ SIZEOF_CRC32BUF
    · obtain ⟨b', hb', hholds⟩ := (h.memcpy src).1 hle
      have ih := Holds.memcpys srcs hholds
      rw [hb']
      exact ⟨ih.1, fun hlt _ => ih.2 hlt (hholds.length ▸ hle)⟩
    · rw [(h.memcpy src).2 hle]
      refine ⟨fun hall => absurd ?_ hle, fun _ _ => rfl⟩
      rw [List.length_append] at hall
      omega

/-- **The buffer** holds the text, or something is written outside. -/
theorem fillCrc32buf_eq (host : Host) (username password : List UInt8) (t : Int32) :
    (Fits username password t → ∃ b, fillCrc32buf host username password t = some b ∧
      Holds b (checkedText username password t)) ∧
    (¬ Fits username password t → fillCrc32buf host username password t = none) := by
  have hzeros : Holds ⟨List.replicate SIZEOF_CRC32BUF 0, 0⟩ [] :=
    ⟨rfl, rfl, List.length_replicate⟩
  unfold Fits fillCrc32buf checkedText
  rw [inMemory_zero, swappedTime_eq]
  split_ifs with h
  · have hfold := hzeros.memcpys [username, network32 0, network32 t, password]
    have hflat : ([] ++ [username, network32 0, network32 t, password].flatten : List UInt8) =
        username ++ network32 0 ++ network32 t ++ password := by
      simp [List.append_assoc]
    rw [hflat] at hfold
    simp only [List.foldlM_cons, List.foldlM_nil, bind_pure] at hfold
    exact ⟨hfold.1, fun hlt => hfold.2 hlt (Nat.zero_le _)⟩
  · exact ⟨fun _ => ⟨_, rfl, hzeros⟩, fun hlt => absurd (Nat.zero_le _) hlt⟩

/-- **What `nmxp_sendConnectRequest` does**: the request is the same on every host; where the text
of the checksum has no room, the call writes outside `crc32buf`. -/
theorem sendConnectRequest_eq (host : Host) (tab : Table) (username password : Option Text)
    (t : Int32) (o : Outlet) :
    nmxpSendConnectRequest host tab username password t o =
      if Fits (textBytes username) (textBytes password) t then
        some (nmxpSendMessage host NMXP_MSG_CONNECTREQUEST
          (some (requestBody (textBytes username) (textBytes password) t)) SIZEOF_CONNECT_REQUEST o)
      else none := by
  obtain ⟨hfits, hnot⟩ := fillCrc32buf_eq host (textBytes username) (textBytes password) t
  unfold nmxpSendConnectRequest
  split_ifs with h
  · obtain ⟨b, hb, hholds⟩ := hfits h
    have hlen : b.length < 2 ^ 32 := by
      rw [hholds.length]
      exact lt_of_le_of_lt h (by norm_num [SIZEOF_CRC32BUF])
    have hcrc : crc32 tab 0 b.cells (BitVec.ofNat 32 b.length) =
        serialCrc 0 (checkedText (textBytes username) (textBytes password) t) := by
      rw [← crc32_eq_serial tab 0 (by rw [← hholds.length]; exact hlen), ← hholds.length]
      unfold crc32
      rw [BitVec.toNat_ofNat, Nat.mod_eq_of_lt hlen, hholds.cells, hholds.length, List.take_length]
    have hmemory : ∀ v : Int32, inMemory host (ntohl host v) = network32 v := store_ntohl host
    rw [hb, Option.bind_eq_bind, Option.bind_some, hcrc]
    dsimp only
    unfold connectRequest requestBody checksum
    rw [hmemory, hmemory, hmemory]
    rfl
  · rw [hnot h]
    rfl

/-! ### The three steps -/

/-- How the login ends. -/
inductive LoginEnd
  | noConnectionTime
  | outsideCrc32buf
  | notSent
  | notReady (ended : Ended)
  | ready
  deriving DecidableEq

/-- `nmxp_readConnectionTime`, into a variable that holds `stack`. -/
def nmxpReadConnectionTime (host : Host) (stack : Int32) (link : Link UInt8) : RecvInt :=
  recvInt host stack link

/-- What does not change: the host, what variables hold before they are read, and the table. -/
structure LoginSetting where
  host : Host
  stack : Int32
  tab : Table

/-- **DAP steps 2 to 4**, as the tool and `nmxp_getMetaChannelList` take them: read the connection
time, send a ConnectRequest, wait for Ready. -/
def dapLogin (s : LoginSetting) (username password : Option Text) (link : Link UInt8) (o : Outlet) :
    LoginEnd × Link UInt8 × Outlet :=
  let time := nmxpReadConnectionTime s.host s.stack link
  if time.rc ≠ NMXP_SOCKET_OK then (.noConnectionTime, time.link, o)
  else
    match nmxpSendConnectRequest s.host s.tab username password time.value o with
    | none => (.outsideCrc32buf, time.link, o)
    | some (ret, o') =>
      if ret ≠ NMXP_SOCKET_OK then (.notSent, time.link, o')
      else
        let r := nmxpWaitReady s.host s.stack time.link
        if r.1 ≠ .returned NMXP_SOCKET_OK then (.notReady r.1, r.2, o')
        else (.ready, r.2, o')

/-- The bytes of a ConnectRequest. -/
def requestMessage (username password : List UInt8) (t : Int32) : List UInt8 :=
  headerBytes NMXP_MSG_CONNECTREQUEST SIZEOF_CONNECT_REQUEST ++ requestBody username password t

/-- **Logging in.** A server sends its time and then well-formed messages, in any chunks, with no
TerminateSubscription that has a body before the first Ready. The login ends well if and only if
user and password fit, the request is sent, and one of the first ten messages is a Ready. Then the
server has got the request for its own time, the same from every host, and what follows the Ready
is left. -/
theorem login_iff (s : LoginSetting) (username password : Option Text) (t : Int32)
    (ms : List Frame) (sched : Stream' RecvEvent) (o : Outlet)
    (hs : FlowsFor (4 + (ms.flatMap Frame.encode).length) sched)
    (hready : ∀ m ∈ ms, m.type = NMXP_MSG_READY → m.body = [])
    (hterm : ∀ m ∈ ms.takeWhile (·.type ≠ NMXP_MSG_READY),
      m.type = NMXP_MSG_TERMINATESUBSCRIPTION → m.body = []) :
    let r := dapLogin s username password ⟨network32 t ++ ms.flatMap Frame.encode, sched⟩ o
    (r.1 = .ready ↔ Fits (textBytes username) (textBytes password) t ∧
      (nmxpSendMessage s.host NMXP_MSG_CONNECTREQUEST
        (some (requestBody (textBytes username) (textBytes password) t)) SIZEOF_CONNECT_REQUEST
        o).1 = NMXP_SOCKET_OK ∧ ∃ m ∈ ms.take 10, m.type = NMXP_MSG_READY) ∧
    (r.1 = .ready →
      r.2.2.wire = o.wire ++ requestMessage (textBytes username) (textBytes password) t ∧
      ∃ before ready after, ms = before ++ ready :: after ∧ ready.type = NMXP_MSG_READY ∧
        (∀ m ∈ before, m.type ≠ NMXP_MSG_READY) ∧ r.2.1.inbox = after.flatMap Frame.encode) := by
  obtain ⟨s1, htime, hs1⟩ := recvInt_network32 s.host s.stack t (ms.flatMap Frame.encode) hs
  set sent := nmxpSendMessage s.host NMXP_MSG_CONNECTREQUEST
    (some (requestBody (textBytes username) (textBytes password) t)) SIZEOF_CONNECT_REQUEST o
    with hsent
  intro r
  have hr : r = dapLogin s username password ⟨network32 t ++ ms.flatMap Frame.encode, sched⟩ o :=
    rfl
  unfold dapLogin nmxpReadConnectionTime nmxpWaitReady at hr
  simp only [htime, not_true_eq_false, ne_eq, if_false, sendConnectRequest_eq, ← hsent] at hr
  by_cases hfit : Fits (textBytes username) (textBytes password) t
  · rw [if_pos hfit] at hr
    dsimp only at hr
    by_cases hok : sent.1 = NMXP_SOCKET_OK
    · rw [if_neg (not_not_intro hok)] at hr
      have hwire : sent.2.wire =
          o.wire ++ requestMessage (textBytes username) (textBytes password) t := by
        rw [hsent, nmxpSendMessage_sent hok, Option.getD_some, requestMessage,
          List.take_of_length_le (by rw [length_requestBody]; decide)]
      rcases waitLoop_frames s.host s.stack ms 0 s1 hs1 hready hterm with
        ⟨link, hloop, hnone⟩ | ⟨before, ready, after, s', hloop, rfl, hlen, htype, hbefore⟩
      · have herror : Ended.returned NMXP_SOCKET_ERROR ≠ .returned NMXP_SOCKET_OK := by decide
        rw [hloop, if_pos herror] at hr
        have hne : r.1 ≠ .ready := by rw [hr]; simp
        refine ⟨iff_of_false hne ?_, fun h => absurd h hne⟩
        rintro ⟨-, -, m, hm, hm'⟩
        exact hnone m hm hm'
      · rw [hloop, if_neg (not_not_intro rfl)] at hr
        have hmem : ready ∈ (before ++ ready :: after).take 10 := by
          rw [List.take_append]
          refine List.mem_append_right _ ?_
          rw [show 10 - before.length = (9 - before.length) + 1 by omega, List.take_succ_cons]
          exact List.mem_cons_self
        rw [hr]
        exact ⟨iff_of_true rfl ⟨hfit, hok, ready, hmem, htype⟩, fun _ =>
          ⟨hwire, before, ready, after, rfl, htype, hbefore, rfl⟩⟩
    · rw [if_pos hok] at hr
      have hne : r.1 ≠ .ready := by rw [hr]; simp
      exact ⟨iff_of_false hne fun h => hok h.2.1, fun h => absurd h hne⟩
  · rw [if_neg hfit] at hr
    have hne : r.1 ≠ .ready := by rw [hr]; simp
    exact ⟨iff_of_false hne fun h => hfit h.1, fun h => absurd h hne⟩

/-- A user `user` with the password `pass`, and a time. -/
def user : Text := ⟨[117, 115, 101, 114], by decide⟩
def pass : Text := ⟨[112, 97, 115, 115], by decide⟩

theorem login_iff_user :
    let o : Outlet := ⟨[], Stream'.const (.taken 100)⟩
    let r := dapLogin ⟨.little, 0, Vector.replicate 256 0⟩ (some user) (some pass)
      ⟨network32 1000 ++ [(⟨NMXP_MSG_READY, [], by decide⟩ : Frame)].flatMap Frame.encode,
        Stream'.const (.chunk 3)⟩ o
    r.1 = .ready ∧ r.2.2.wire = requestMessage user.bytes pass.bytes 1000 := by
  have h := login_iff ⟨.little, 0, Vector.replicate 256 0⟩ (some user) (some pass) 1000
    [⟨NMXP_MSG_READY, [], by decide⟩] (Stream'.const (.chunk 3)) ⟨[], Stream'.const (.taken 100)⟩
    (Flowing.flowsFor (fun _ => ⟨3, rfl⟩) _) (by decide) (by decide)
  have hready := h.1.mpr ⟨by decide, ?_, _, List.mem_cons_self, rfl⟩
  · exact ⟨hready, (h.2 hready).1⟩
  · rfl

/-! ### A login where nothing goes wrong -/

section Ready
variable {s : Stream' RecvEvent}

/-- The connection flows on behind an integer. -/
theorem recvInt_flowing (host : Host) (old v : Int32) (rest : List UInt8) (hs : Flowing s) :
    ∃ s', recvInt host old ⟨network32 v ++ rest, s⟩ = ⟨NMXP_SOCKET_OK, v, ⟨rest, s'⟩⟩ ∧
      Flowing s' := by
  obtain ⟨s', hr, -⟩ := recvInt_network32 (n := 0) host old v rest (hs.flowsFor _)
  refine ⟨s', hr, fun n => ?_⟩
  obtain ⟨s₂, hr₂, hs₂⟩ := recvInt_network32 (n := n + 1) host old v rest (hs.flowsFor _)
  rw [hr, RecvInt.mk.injEq, Link.mk.injEq] at hr₂
  obtain ⟨-, -, -, rfl⟩ := hr₂
  exact hs₂ n (Nat.lt_succ_self n)

/-- The connection flows on behind a Ready. -/
theorem waitReady_flowing (host : Host) (stack : Int32) (rest : List UInt8) {m : Frame}
    (htype : m.type = NMXP_MSG_READY) (hbody : m.body = []) (hs : Flowing s) :
    ∃ s', nmxpWaitReady host stack ⟨m.encode ++ rest, s⟩ =
        (.returned NMXP_SOCKET_OK, ⟨rest, s'⟩) ∧ Flowing s' := by
  have hround (n : ℕ) := waitRound_frame (n := n) host stack m rest (fun _ => hbody)
    (fun _ => hbody) (hs.flowsFor _)
  obtain ⟨s', hr, -⟩ := hround 0
  refine ⟨s', ?_, fun n => ?_⟩
  · rw [nmxpWaitReady, waitLoop, hr]
    dsimp only
    rw [if_neg (by omega), if_neg (fun h => h.2 htype)]
  · obtain ⟨s₂, hr₂, hs₂⟩ := hround (n + 1)
    rw [hr, Round.next.injEq, Link.mk.injEq] at hr₂
    obtain ⟨-, -, -, rfl⟩ := hr₂
    exact hs₂ n (Nat.lt_succ_self n)

theorem connectRequest_ne : NMXP_MSG_CONNECTREQUEST ≠ 0 := by decide

/-- The ConnectRequest. -/
def connectMessage (username password : List UInt8) (t : Int32) : Message where
  type := NMXP_MSG_CONNECTREQUEST
  body := requestBody username password t
  type_ne := connectRequest_ne
  body_lt := by
    rw [length_requestBody]
    decide

/-- **A login where nothing goes wrong.** User and password fit, the server sends its time and a
Ready, and the connection is quiet behind it. -/
theorem login_ready (d : LoginSetting) (username password : Option Text) (t : Int32) {m : Frame}
    (htype : m.type = NMXP_MSG_READY) (hbody : m.body = [])
    (hfit : Fits (textBytes username) (textBytes password) t) (hs : Flowing s) {o : Outlet}
    (ho : Writable o.schedule) :
    ∃ s' o', dapLogin d username password ⟨network32 t ++ m.encode, s⟩ o =
        (.ready, ⟨[], s'⟩, o') ∧ Flowing s' ∧ Writable o'.schedule ∧
      o'.wire = o.wire ++
        (connectMessage (textBytes username) (textBytes password) t).encode := by
  set c := connectMessage (textBytes username) (textBytes password) t with hc
  have hlen : c.body.length = 24 := length_requestBody _ _ _
  have hlength : c.length = SIZEOF_CONNECT_REQUEST := by
    rw [Message.length, hlen]
    rfl
  obtain ⟨hok, hwire, hopen⟩ := sendMessage_writable d.host (m := c) hlen.le ho
  obtain ⟨s₁, htime, hs₁⟩ := recvInt_flowing d.host d.stack t m.encode hs
  obtain ⟨s', hwait, hs'⟩ := waitReady_flowing d.host d.stack [] htype hbody hs₁
  rw [List.append_nil] at hwait
  have hsend : nmxpSendConnectRequest d.host d.tab username password t o =
      some (nmxpSendMessage d.host c.type (some c.body) c.length o) := by
    rw [sendConnectRequest_eq, if_pos hfit, hlength]
    rfl
  refine ⟨s', (nmxpSendMessage d.host c.type (some c.body) c.length o).2, ?_, hs', hopen, hwire⟩
  unfold dapLogin nmxpReadConnectionTime
  rw [htime]
  dsimp only
  rw [if_neg (not_not_intro rfl), hsend]
  dsimp only
  rw [if_neg (not_not_intro hok), hwait]
  dsimp only
  rw [if_neg (not_not_intro rfl)]

end Ready

/-! ### The checksum as a proof of the password -/

/-- **A server checks a request** against the time that it sent and the password that it knows: it
takes the user from the request and compares the checksums. -/
def Accepts (password : List UInt8) (t : Int32) (body : List UInt8) : Prop :=
  (body.drop 20).take 4 =
    network32 (int32 (serialCrc 0 (((body.take NMXP_MAX_SIZE_USERNAME).takeWhile (· ≠ 0)) ++
      network32 0 ++ network32 t ++ password)).toNat)

theorem user_requestBody {username : List UInt8} (hno : 0 ∉ username)
    (hlen : username.length ≤ NMXP_MAX_SIZE_USERNAME) (password : List UInt8) (t : Int32) :
    ((requestBody username password t).take NMXP_MAX_SIZE_USERNAME).takeWhile (· ≠ 0) =
      username := by
  unfold requestBody
  rw [List.take_left' (length_usernameField username), usernameField, List.take_of_length_le hlen]
  have hall : ∀ b ∈ username, decide (b ≠ 0) = true := fun b hb =>
    decide_eq_true fun h => hno (h ▸ hb)
  rw [List.takeWhile_append_of_pos hall]
  cases NMXP_MAX_SIZE_USERNAME - username.length with
  | zero => simp
  | succ n => simp [List.replicate_succ]

theorem crc_requestBody (username password : List UInt8) (t : Int32) :
    ((requestBody username password t).drop 20).take 4 =
      network32 (checksum username password t) := by
  have hpre : requestBody username password t = (usernameField username ++ (network32 0 ++
      network32 t)) ++ network32 (checksum username password t) := by
    simp only [requestBody, List.append_assoc]
  have hlen : (usernameField username ++ (network32 0 ++ network32 t)).length = 20 := by
    simp [length_usernameField, NMXP_MAX_SIZE_USERNAME]
  rw [hpre, List.drop_left' hlen]
  exact List.take_of_length_le (by simp)

theorem network32_inj {v w : Int32} (h : network32 v = network32 w) : v = w := by
  rw [← load_network32 v, h, load_network32]

theorem int32_toNat_inj {x y : BitVec 32} (h : int32 x.toNat = int32 y.toNat) : x = y := by
  have hnat := congrArg nat32 h
  rw [nat32_int32 (lt_of_lt_of_eq x.isLt (by norm_num)),
    nat32_int32 (lt_of_lt_of_eq y.isLt (by norm_num))] at hnat
  exact BitVec.eq_of_toNat_eq hnat

/-- The body of a request that was made for the time `t'`. -/
theorem accepts_requestBody {username password : List UInt8} (hno : 0 ∉ username)
    (huser : username.length ≠ 0) (hlen : username.length ≤ NMXP_MAX_SIZE_USERNAME)
    (hpassword : password.length ≠ 0) (t t' : Int32) :
    Accepts password t (requestBody username password t') ↔ t = t' := by
  unfold Accepts
  rw [user_requestBody hno hlen, crc_requestBody]
  unfold checksum checkedText
  rw [if_pos ⟨huser, hpassword⟩]
  constructor
  · intro h
    have hcrc := int32_toNat_inj (network32_inj h)
    exact (network32_inj (serialCrc_burst 0 (username ++ network32 0) password (by simp)
      (by simp) hcrc)).symm
  · rintro rfl
    rfl

/-- **A request is good for one connection.** Whatever the user, of at most 12 characters, and the
password: the server accepts the request that was sent for the time `t'` exactly if `t'` is the time
that it sent, so a request that was overheard is no use later. -/
theorem accepts_iff (host : Host) (tab : Table) {username password : Text}
    (huser : username.bytes.length ≠ 0) (hlen : username.bytes.length ≤ NMXP_MAX_SIZE_USERNAME)
    (hpassword : password.bytes.length ≠ 0) (t' : Int32) {o o' : Outlet}
    (hsent : nmxpSendConnectRequest host tab (some username) (some password) t' o =
      some (NMXP_SOCKET_OK, o')) :
    ∃ body, o'.wire =
        o.wire ++ (headerBytes NMXP_MSG_CONNECTREQUEST SIZEOF_CONNECT_REQUEST ++ body) ∧
      ∀ t, Accepts password.bytes t body ↔ t = t' := by
  refine ⟨requestBody username.bytes password.bytes t', ?_, fun t =>
    accepts_requestBody username.no_nul huser hlen hpassword t t'⟩
  rw [sendConnectRequest_eq] at hsent
  split_ifs at hsent with hfit
  have hsend := Option.some.inj hsent
  have hwire := nmxpSendMessage_sent (congrArg Prod.fst hsend)
  rw [hsend, Option.getD_some, List.take_of_length_le (by rw [length_requestBody]; decide)] at hwire
  exact hwire

/-- The request of a user is accepted at its time, and not a second later. -/
theorem accepts_iff_user : ∃ o' body,
    nmxpSendConnectRequest .little (Vector.replicate 256 0) (some user) (some pass) 1000
      ⟨[], Stream'.const (.taken 100)⟩ = some (NMXP_SOCKET_OK, o') ∧
    o'.wire = headerBytes NMXP_MSG_CONNECTREQUEST SIZEOF_CONNECT_REQUEST ++ body ∧
    Accepts pass.bytes 1000 body ∧ ¬ Accepts pass.bytes 1001 body := by
  set sent := nmxpSendMessage .little NMXP_MSG_CONNECTREQUEST
    (some (requestBody user.bytes pass.bytes 1000)) SIZEOF_CONNECT_REQUEST
    ⟨[], Stream'.const (.taken 100)⟩ with hsend
  have hok : sent.1 = NMXP_SOCKET_OK := by decide +kernel
  have hsent : nmxpSendConnectRequest .little (Vector.replicate 256 0) (some user) (some pass) 1000
      ⟨[], Stream'.const (.taken 100)⟩ = some (NMXP_SOCKET_OK, sent.2) := by
    rw [sendConnectRequest_eq, if_pos (by decide), ← hok]
    rfl
  obtain ⟨body, hwire, haccepts⟩ :=
    accepts_iff .little (Vector.replicate 256 0) (by decide) (by decide) (by decide) 1000 hsent
  exact ⟨_, body, hsent, hwire, (haccepts 1000).mpr rfl, fun h =>
    absurd ((haccepts 1001).mp h) (by decide)⟩

end Nmxptool.Pds.Login
