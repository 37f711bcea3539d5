import Nmxptool.Wire.RoundTrip

/-! # Terminating a subscription

`nmxp_sendTerminateSubscription` sends the text alone, without the reason that the receiving side
reads in front of it, and without the last character of the text.

* `terminate_sent`: what it puts on the wire.
* `terminate_never_agrees`: in no case does the receiving side read what was meant. -/

namespace Nmxptool.Wire.Terminate

open Nmxptool.Lib.Bytes Nmxptool.Lib.Recv Nmxptool.Wire.Model Nmxptool.Wire.RoundTrip

def NMXP_MSG_TERMINATESUBSCRIPTION : Int32 := 200

/-- `NMXP_SHUTDOWN_REASON`. -/
inductive NmxpShutdownReason
  | normal
  | error
  | timeout
  deriving DecidableEq

def NmxpShutdownReason.toInt32 : NmxpShutdownReason → Int32
  | .normal => 1
  | .error => 2
  | .timeout => 3

/-- A text in memory, without the NUL behind it. -/
structure Text where
  bytes : List UInt8
  no_nul : 0 ∉ bytes

/-! ### Sending -/

/-- `(message)? strlen(message)-1 : 0`, as an `int32_t`. -/
def messageLength : Option Text → Int32
  | some message => Int32.ofInt (message.bytes.length - 1)
  | none => 0

/-- `nmxp_sendTerminateSubscription`. -/
def nmxpSendTerminateSubscription (host : Host) (_reason : NmxpShutdownReason)
    (message : Option Text) (o : Outlet) : ℤ × Outlet :=
  nmxpSendMessage host NMXP_MSG_TERMINATESUBSCRIPTION (message.map (·.bytes ++ [0]))
    (messageLength message) o

/-! ### Receiving -/

/-- What `nmxp_display_error_from_server` logs. -/
structure Shutdown where
  reason : Int32
  kind : String
  text : List UInt8
  deriving DecidableEq

def shutdownKind (reason : Int32) : String :=
  if reason = 0 then "Normal"
  else if reason = 1 then "Error"
  else if reason = 2 then "Timeout"
  else "Unknown"

/-- `nmxp_display_error_from_server`, on the bytes of a body: the reason, and the text behind it.
It is `none` where the body is too short for a reason. -/
def nmxpDisplayErrorFromServer (host : Host) (buffer : List UInt8) : Option Shutdown :=
  if buffer.length < 4 then none
  else
    let reason := ntohl host (int32 (load host (buffer.take 4)))
    some ⟨reason, shutdownKind reason, (buffer.drop 4).takeWhile (· ≠ 0)⟩

/-! ### Agreement -/

/-- The length that the header of a message announces. -/
def announced (sent : List UInt8) : Int32 := int32 (load .big ((sent.drop 8).take 4))

/-- The text that was meant. -/
def meant : Option Text → List UInt8
  | some message => message.bytes
  | none => []

/-- **What encoder and decoder should agree on**, given the bytes that were sent. -/
structure Agrees (receiver : Host) (reason : NmxpShutdownReason) (message : Option Text)
    (sent : List UInt8) : Prop where
  length_nonneg : 0 ≤ (announced sent).toInt
  length_eq : (announced sent).toInt = (sent.drop HEADER_SIZE).length
  reads : ∃ r, nmxpDisplayErrorFromServer receiver (sent.drop HEADER_SIZE) = some r ∧
    r.reason = reason.toInt32 ∧ r.text = meant message

/-- The header of a message. -/
def headerBytes (type length : Int32) : List UInt8 :=
  network32 NMX_SIGNATURE ++ (network32 type ++ network32 length)

@[simp] theorem length_headerBytes (type length : Int32) :
    (headerBytes type length).length = HEADER_SIZE := by
  simp [headerBytes, HEADER_SIZE]

/-- What a call of `nmxp_sendMessage` that returns well has put on the wire. -/
theorem nmxpSendMessage_sent {host : Host} {type length : Int32} {buffer : Option (List UInt8)}
    {o : Outlet} (h : (nmxpSendMessage host type buffer length o).1 = NMXP_SOCKET_OK) :
    (nmxpSendMessage host type buffer length o).2.wire =
      o.wire ++ (headerBytes type length ++ (buffer.getD []).take length.toInt.toNat) := by
  unfold nmxpSendMessage nmxpSendHeader inMemory at h ⊢
  simp only [store_ntohl] at h ⊢
  rw [← headerBytes] at h ⊢
  by_cases hh : (nmxpSendCtrl (headerBytes type length) o).1 = NMXP_SOCKET_OK
  · rw [if_pos hh] at h ⊢
    cases buffer with
    | none => simp [nmxpSendCtrl_wire hh]
    | some buffer =>
      by_cases hpos : length.toInt > 0
      · simp only [if_pos hpos] at h ⊢
        rw [nmxpSendCtrl_wire h, nmxpSendCtrl_wire hh, Option.getD_some, List.append_assoc]
      · simp only [if_neg hpos]
        rw [nmxpSendCtrl_wire hh, show length.toInt.toNat = 0 by omega]
        simp
  · rw [if_neg hh] at h
    exact absurd h hh

/-- The part of the text that is sent. -/
def bodySent (message : Option Text) : List UInt8 :=
  ((message.map (·.bytes ++ [0])).getD []).take (messageLength message).toInt.toNat

/-- **What is put on the wire.** -/
theorem terminate_sent {host : Host} {reason : NmxpShutdownReason} {message : Option Text}
    {o : Outlet} (h : (nmxpSendTerminateSubscription host reason message o).1 = NMXP_SOCKET_OK) :
    (nmxpSendTerminateSubscription host reason message o).2.wire =
      o.wire ++ (headerBytes NMXP_MSG_TERMINATESUBSCRIPTION (messageLength message) ++
        bodySent message) :=
  nmxpSendMessage_sent h

/-- The last character of the text is not sent. -/
theorem length_bodySent (message : Option Text) :
    (bodySent message).length ≤ (meant message).length - 1 := by
  cases message with
  | none => simp [bodySent]
  | some message =>
    have hlen : (messageLength (some message)).toInt.toNat ≤ message.bytes.length - 1 := by
      rw [messageLength, Int32.toInt_ofInt]
      cases hn : message.bytes.length with
      | zero => decide
      | succ n =>
        have hle : (n : ℤ).bmod (2 ^ 32) ≤ n := by
          rw [Int.bmod_def]
          split_ifs <;> omega
        simp only [Nat.cast_add, Nat.cast_one, add_sub_cancel_right, Nat.add_sub_cancel]
        exact Int.toNat_le.mpr hle
    exact (List.length_take_le _ _).trans hlen

/-- **In no case do they agree**: what is read behind a reason is shorter than the text. -/
theorem terminate_never_agrees (sender receiver : Host) (reason : NmxpShutdownReason)
    (message : Option Text) (o : Outlet)
    (h : (nmxpSendTerminateSubscription sender reason message o).1 = NMXP_SOCKET_OK) :
    ¬Agrees receiver reason message
      ((nmxpSendTerminateSubscription sender reason message o).2.wire.drop o.wire.length) := by
  rw [terminate_sent h, List.drop_left]
  rintro ⟨-, -, r, hread, -, htext⟩
  have hlen := length_bodySent message
  rw [List.drop_left' (length_headerBytes _ _), nmxpDisplayErrorFromServer] at hread
  by_cases hshort : (bodySent message).length < 4
  · rw [if_pos hshort] at hread
    exact absurd hread (by simp)
  · rw [if_neg hshort] at hread
    obtain rfl := Option.some.inj hread
    have hle : (meant message).length ≤ ((bodySent message).drop 4).length := by
      rw [← htext]
      exact (List.takeWhile_prefix _).length_le
    rw [List.length_drop] at hle
    omega

/-- `NMXP_SHUTDOWN_NORMAL` and `Bye!`, as the tool sends them when it ends. -/
def bye : Text := ⟨[66, 121, 101, 33], by decide⟩

/-- A socket that takes all at once. -/
def freshOutlet : Outlet := ⟨[], Stream'.const (.taken 100)⟩

/-- Three bytes are sent, too few for a reason. -/
theorem bye_disagrees : ¬∀ (sender receiver : Host) (reason : NmxpShutdownReason)
    (message : Option Text) (o : Outlet),
    (nmxpSendTerminateSubscription sender reason message o).1 = NMXP_SOCKET_OK →
      Agrees receiver reason message
        ((nmxpSendTerminateSubscription sender reason message o).2.wire.drop o.wire.length) := by
  intro hclaim
  obtain ⟨-, -, r, hread, -⟩ :=
    hclaim .little .little .normal (some bye) freshOutlet (by decide)
  have hnone : nmxpDisplayErrorFromServer .little
      (((nmxpSendTerminateSubscription .little .normal (some bye) freshOutlet).2.wire.drop
        freshOutlet.wire.length).drop HEADER_SIZE) = none := by decide
  exact absurd (hnone.symm.trans hread) (by simp)

theorem terminate_never_agrees_bye :
    (nmxpSendTerminateSubscription .little .normal (some bye) freshOutlet).1 = NMXP_SOCKET_OK ∧
    ¬Agrees .little .normal (some bye)
      ((nmxpSendTerminateSubscription .little .normal (some bye) freshOutlet).2.wire.drop
        freshOutlet.wire.length) :=
  ⟨by decide, terminate_never_agrees .little .little .normal (some bye) freshOutlet (by decide)⟩

end Nmxptool.Wire.Terminate
