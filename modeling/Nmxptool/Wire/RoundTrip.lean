import Nmxptool.Wire.Framing

/-! # Sending and receiving

What `nmxp_sendMessage` puts on the wire, `nmxp_receiveMessage` takes off again, however the bytes
arrive.

* `sendMessages_wire`: messages that were sent lie on the wire one after the other.
* `receive_undoes_send`: the same number of calls return the same messages and leave nothing. -/

namespace Nmxptool.Wire.RoundTrip

open Nmxptool.Lib.Bytes Nmxptool.Lib.Recv Nmxptool.Wire.Model Nmxptool.Wire.Framing

/-! ### Sending -/

/-- Messages sent one after the other: what the calls return, and the outlet. -/
def sendMessages (host : Host) : List Message → Outlet → List ℤ × Outlet
  | [], o => ([], o)
  | m :: ms, o =>
    let r := nmxpSendMessage host m.type (some m.body) m.length o
    let rs := sendMessages host ms r.2
    (r.1 :: rs.1, rs.2)

/-- A call that returns well has sent everything. -/
theorem nmxpSendCtrl_wire {buffer : List UInt8} {o : Outlet}
    (h : (nmxpSendCtrl buffer o).1 = NMXP_SOCKET_OK) :
    (nmxpSendCtrl buffer o).2.wire = o.wire ++ buffer := by
  unfold nmxpSendCtrl at h ⊢
  cases he : o.schedule.head with
  | fail =>
    have hne : (-1 : ℤ) ≠ buffer.length := by omega
    simp only [he, if_pos hne] at h
    exact absurd h error_ne_ok
  | taken n =>
    simp only [he] at h ⊢
    by_cases hlen : (buffer.take n).length ≠ buffer.length
    · rw [if_pos hlen] at h
      exact absurd h error_ne_ok
    · rw [not_not, List.length_take] at hlen
      rw [List.take_of_length_le (by omega)]

theorem header_inMemory (host : Host) (m : Message) :
    inMemory host (ntohl host NMX_SIGNATURE) ++
      (inMemory host (ntohl host m.type) ++ inMemory host (ntohl host m.length)) = m.header := by
  simp only [inMemory, store_ntohl, Message.header]

theorem nmxpSendMessage_wire {host : Host} {m : Message} {o : Outlet}
    (h : (nmxpSendMessage host m.type (some m.body) m.length o).1 = NMXP_SOCKET_OK) :
    (nmxpSendMessage host m.type (some m.body) m.length o).2.wire = o.wire ++ m.encode := by
  have hlen := m.toInt_length
  unfold nmxpSendMessage nmxpSendHeader at h ⊢
  rw [header_inMemory] at h ⊢
  by_cases hh : (nmxpSendCtrl m.header o).1 = NMXP_SOCKET_OK
  · simp only [if_pos hh] at h ⊢
    by_cases hpos : m.length.toInt > 0
    · have hall : m.body.take m.length.toInt.toNat = m.body :=
        List.take_of_length_le (by rw [hlen]; simp)
      simp only [if_pos hpos, hall] at h ⊢
      rw [nmxpSendCtrl_wire h, nmxpSendCtrl_wire hh, Message.encode, List.append_assoc]
    · have hnil : m.body = [] := List.eq_nil_of_length_eq_zero (by omega)
      rw [if_neg hpos, nmxpSendCtrl_wire hh, Message.encode, hnil, List.append_nil]
  · simp only [if_neg hh] at h
    exact absurd h hh

/-- **The wire** after messages that were all sent. -/
theorem sendMessages_wire {host : Host} {ms : List Message} {o : Outlet}
    (h : ∀ ret ∈ (sendMessages host ms o).1, ret = NMXP_SOCKET_OK) :
    (sendMessages host ms o).2.wire = o.wire ++ ms.flatMap Message.encode := by
  induction ms generalizing o with
  | nil => simp [sendMessages]
  | cons m ms ih =>
    simp only [sendMessages, List.mem_cons, forall_eq_or_imp] at h ⊢
    rw [ih h.2, nmxpSendMessage_wire h.1, List.flatMap_cons, List.append_assoc]

/-! ### Receiving -/

theorem receiveCalls_all (host : Host) (bufferLength : ℕ) (ms : List Message)
    {s : Stream' RecvEvent} (hfit : ∀ m ∈ ms, m.Fits bufferLength) (hs : Flowing s) :
    ∃ s', receiveCalls host bufferLength ms.length ⟨ms.flatMap Message.encode, s⟩ =
      (ms.map Message.received, ⟨[], s'⟩) := by
  induction ms generalizing s with
  | nil => exact ⟨s, rfl⟩
  | cons m ms ih =>
    obtain ⟨s1, hone, hs1⟩ : ∃ s1, nmxpReceiveMessage host bufferLength
        ⟨m.encode ++ ms.flatMap Message.encode, s⟩ =
        (m.received, ⟨ms.flatMap Message.encode, s1⟩) ∧ Flowing s1 :=
      receiveMessage_flowing hs (hfit m (List.mem_cons_self ..))
    obtain ⟨s', hrest⟩ := ih (fun m' hm' => hfit m' (List.mem_cons_of_mem _ hm')) hs1
    refine ⟨s', ?_⟩
    rw [List.length_cons, List.flatMap_cons, receiveCalls_succ hone rfl, hrest, List.map_cons]

/-- **Receive undoes send.** For all messages that fit the buffer and that were sent on an empty
wire, and every way of cutting the bytes into chunks: as many calls as messages return them, with
the same types, lengths and bodies and in the same order, and nothing is left. -/
theorem receive_undoes_send (sender receiver : Host) (bufferLength : ℕ) (ms : List Message)
    (sends : Stream' SendEvent) (s : Stream' RecvEvent)
    (hfit : ∀ m ∈ ms, m.body.length ≤ bufferLength)
    (hsent : ∀ ret ∈ (sendMessages sender ms ⟨[], sends⟩).1, ret = NMXP_SOCKET_OK)
    (hs : Flowing s) :
    ∃ s', receiveCalls receiver bufferLength ms.length
        ⟨(sendMessages sender ms ⟨[], sends⟩).2.wire, s⟩ =
      (ms.map fun m => ⟨NMXP_SOCKET_OK, m.type, int32 m.body.length, m.body, 0⟩, ⟨[], s'⟩) := by
  rw [sendMessages_wire hsent, List.nil_append]
  exact receiveCalls_all receiver bufferLength ms hfit hs

/-- Two messages, one of them empty, in chunks of one byte. -/
theorem receive_undoes_send_two : ∃ s', receiveCalls .big 16 2
    ⟨(sendMessages .little [⟨206, [7, 8], by decide, by decide⟩, ⟨205, [], by decide, by decide⟩]
      ⟨[], Stream'.const (.taken 100)⟩).2.wire, Stream'.const (.chunk 1)⟩ =
    ([⟨NMXP_SOCKET_OK, 206, 2, [7, 8], 0⟩, ⟨NMXP_SOCKET_OK, 205, 0, [], 0⟩], ⟨[], s'⟩) :=
  receive_undoes_send .little .big 16
    [⟨206, [7, 8], by decide, by decide⟩, ⟨205, [], by decide, by decide⟩]
    (Stream'.const (.taken 100)) (Stream'.const (.chunk 1)) (by decide) (by decide)
    (fun _ => ⟨1, rfl⟩)

end Nmxptool.Wire.RoundTrip
