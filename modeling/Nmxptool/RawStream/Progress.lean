import Nmxptool.RawStream.Runs

/-! # The time that a Raw Stream has reached

`last_sample_time` is the end of the last packet that was sent, and this is what the state file
keeps for the channel.

* `lastSampleTime_manage`: a call of `nmxp_raw_stream_manage` advances it over what it sends.
* `lastSampleTime_call`: with a receive time-out, the first packet of a stream sets it to the epoch
  before that. -/

namespace Nmxptool.RawStream.Progress

open Nmxptool.Data.Process Nmxptool.Lib.Floating Nmxptool.Lib.Run Nmxptool.Lib.Sorting
open Nmxptool.RawStream.Model Nmxptool.RawStream.Slots Nmxptool.RawStream.Manage
open Nmxptool.RawStream.Runs

/-- The end of the last packet, if there is one; else `t`. -/
def endOfLast (t : Double) (pds : List Pd) : Double := (pds.getLast?.map (·.endTime)).getD t

theorem endOfLast_append (t : Double) (l l' : List Pd) :
    endOfLast t (l ++ l') = endOfLast (endOfLast t l) l' := by
  unfold endOfLast
  rw [List.getLast?_append]
  cases l'.getLast? <;> rfl

theorem endOfLast_of_ne {l : List Pd} (hl : l ≠ []) (t t' : Double) :
    endOfLast t l = endOfLast t' l := by
  unfold endOfLast
  rw [List.getLast?_eq_getLast_of_ne_nil hl]
  rfl

variable {nFuncPd : ℕ} {clock : Clock} {p q : NmxpRawStreamData} {evs : List Event}

theorem sentOf_sent (nFuncPd : ℕ) (pd : Pd) (evs : List Event) :
    sentOf (callFuncPd nFuncPd pd ++ .sent pd :: evs) = [pd] ++ sentOf evs := by
  rw [List.append_cons, sentOf_append, (seen_sent nFuncPd pd).sent]

/-- The send loop advances the time to the end of what it sends. -/
theorem lastSampleTime_sendLoop : ∀ (left j : ℕ) {p q : NmxpRawStreamData} {j' : ℕ}
    {evs : List Event}, sendLoop nFuncPd clock left j p = .ok (j', q, evs) →
    q.lastSampleTime = endOfLast p.lastSampleTime (sentOf evs) := by
  intro left
  induction left with
  | zero =>
    intro j p q j' evs h
    obtain ⟨-, h⟩ := Prod.mk.inj (Except.ok.inj h)
    obtain ⟨rfl, rfl⟩ := Prod.mk.inj h
    rfl
  | succ left ih =>
    intro j p q j' evs h
    unfold sendLoop at h
    obtain ⟨pd, -, h⟩ := bind_eq_ok.mp h
    dsimp only at h
    split_ifs at h with h0 h1
    · obtain ⟨⟨j1, q1, evs1⟩, hrest, h⟩ := bind_eq_ok.mp h
      obtain ⟨-, h⟩ := Prod.mk.inj (Except.ok.inj h)
      obtain ⟨rfl, rfl⟩ := Prod.mk.inj h
      show q1.lastSampleTime = endOfLast p.lastSampleTime (sentOf evs1)
      exact ih (j + 1) hrest
    · obtain ⟨⟨j1, q1, evs1⟩, hrest, h⟩ := bind_eq_ok.mp h
      obtain ⟨-, h⟩ := Prod.mk.inj (Except.ok.inj h)
      obtain ⟨rfl, rfl⟩ := Prod.mk.inj h
      rw [sentOf_sent, endOfLast_append]
      exact ih (j + 1) hrest
    · obtain ⟨-, h⟩ := Prod.mk.inj (Except.ok.inj h)
      obtain ⟨rfl, rfl⟩ := Prod.mk.inj h
      rfl

/-- Shifting and freeing sends nothing. -/
theorem sentOf_shiftFreeRound {j n k : ℕ} {a a' : Slots}
    (h : shiftFreeRound j n a k = .ok (a', evs)) : sentOf evs = [] := by
  unfold shiftFreeRound at h
  dsimp only at h
  split_ifs at h with h1 h2 h2
  · obtain ⟨pd, -, h⟩ := bind_eq_ok.mp h
    obtain ⟨a1, -, h⟩ := bind_eq_ok.mp h
    rw [pure_eq_ok, ok_bind] at h
    obtain ⟨v, -, h⟩ := bind_eq_ok.mp h
    obtain ⟨a2, -, h⟩ := bind_eq_ok.mp h
    obtain ⟨a3, -, h⟩ := bind_eq_ok.mp h
    obtain ⟨-, rfl⟩ := Prod.mk.inj (Except.ok.inj h)
    rfl
  · obtain ⟨pd, -, h⟩ := bind_eq_ok.mp h
    obtain ⟨a1, -, h⟩ := bind_eq_ok.mp h
    rw [pure_eq_ok, ok_bind] at h
    obtain ⟨a2, -, h⟩ := bind_eq_ok.mp h
    obtain ⟨-, rfl⟩ := Prod.mk.inj (Except.ok.inj h)
    rfl
  · rw [pure_eq_ok, ok_bind] at h
    obtain ⟨v, -, h⟩ := bind_eq_ok.mp h
    obtain ⟨a2, -, h⟩ := bind_eq_ok.mp h
    obtain ⟨a3, -, h⟩ := bind_eq_ok.mp h
    obtain ⟨-, rfl⟩ := Prod.mk.inj (Except.ok.inj h)
    rfl
  · rw [pure_eq_ok, ok_bind] at h
    obtain ⟨a2, -, h⟩ := bind_eq_ok.mp h
    obtain ⟨-, rfl⟩ := Prod.mk.inj (Except.ok.inj h)
    rfl

theorem sentOf_shiftFree : ∀ (left k : ℕ) {j n : ℕ} {a a' : Slots} {evs : List Event},
    shiftFree j n left k a = .ok (a', evs) → sentOf evs = [] := by
  intro left
  induction left with
  | zero =>
    intro k j n a a' evs h
    obtain ⟨-, rfl⟩ := Prod.mk.inj (Except.ok.inj h)
    rfl
  | succ left ih =>
    intro k j n a a' evs h
    unfold shiftFree at h
    obtain ⟨⟨a1, evs1⟩, hround, h⟩ := bind_eq_ok.mp h
    obtain ⟨⟨a2, evs2⟩, hrest, h⟩ := bind_eq_ok.mp h
    obtain ⟨-, rfl⟩ := Prod.mk.inj (Except.ok.inj h)
    rw [sentOf_append, ih (k + 1) hrest, sentOf_shiftFreeRound hround]
    rfl

/-- A forced delivery advances the time as well. -/
theorem lastSampleTime_addPd {latency : Double} {pd : Option Pd}
    (h : addPd nFuncPd clock latency p pd = .ok (q, evs)) :
    q.lastSampleTime = endOfLast p.lastSampleTime (sentOf evs) := by
  unfold addPd forceFirst appendPd at h
  split_ifs at h with hforce hn
  · obtain ⟨first, -, h⟩ := bind_eq_ok.mp h
    dsimp only at h
    obtain ⟨slots, -, h⟩ := bind_eq_ok.mp h
    obtain ⟨rfl, rfl⟩ := Prod.mk.inj (Except.ok.inj h)
    split_ifs
    · rw [sentOf_append, (seen_sent nFuncPd first).sent]
      rfl
    · rfl
  · cases pd with
    | none =>
      obtain ⟨rfl, rfl⟩ := Prod.mk.inj (Except.ok.inj h)
      rfl
    | some pd =>
      obtain ⟨slots, -, h⟩ := bind_eq_ok.mp h
      obtain ⟨rfl, rfl⟩ := Prod.mk.inj (Except.ok.inj h)
      rfl
  · cases pd with
    | none =>
      obtain ⟨rfl, rfl⟩ := Prod.mk.inj (Except.ok.inj h)
      rfl
    | some pd =>
      obtain ⟨p1, happend, h⟩ := bind_eq_ok.mp h
      obtain ⟨slots, -, happend⟩ := bind_eq_ok.mp happend
      obtain rfl := Except.ok.inj happend
      obtain ⟨rfl, rfl⟩ := Prod.mk.inj (Except.ok.inj h)
      rfl

theorem lastSampleTime_compactAndSort {Q : Qsort} (h : compactAndSort Q p = .ok q) :
    q.lastSampleTime = p.lastSampleTime := by
  unfold compactAndSort at h
  obtain ⟨⟨count, slots⟩, -, h⟩ := bind_eq_ok.mp h
  obtain ⟨slots', -, h⟩ := bind_eq_ok.mp h
  obtain rfl := Except.ok.inj h
  rfl

theorem lastSampleTime_sendAndShift (h : sendAndShift nFuncPd clock p = .ok (q, evs)) :
    q.lastSampleTime = endOfLast p.lastSampleTime (sentOf evs) := by
  unfold sendAndShift at h
  obtain ⟨⟨j, p1, evs1⟩, hloop, h⟩ := bind_eq_ok.mp h
  dsimp only at h
  split_ifs at h with hj
  · obtain ⟨⟨slots, evs2⟩, hshift, h⟩ := bind_eq_ok.mp h
    obtain ⟨rfl, rfl⟩ := Prod.mk.inj (Except.ok.inj h)
    rw [sentOf_append, sentOf_shiftFree _ _ hshift, List.append_nil]
    show p1.lastSampleTime = _
    exact lastSampleTime_sendLoop _ _ hloop
  · obtain ⟨rfl, rfl⟩ := Prod.mk.inj (Except.ok.inj h)
    exact lastSampleTime_sendLoop _ _ hloop

/-- After a time-out the first packet is sent. -/
theorem sentOf_of_rewind (hp : 0 < p.nPdlist) {p' : NmxpRawStreamData}
    (hrewind : rewind clock p none = .ok p') (h : sendAndShift nFuncPd clock p' = .ok (q, evs)) :
    sentOf evs ≠ [] := by
  unfold rewind at hrewind
  rw [if_pos ⟨rfl, hp⟩] at hrewind
  obtain ⟨first, hfirst, hrewind⟩ := bind_eq_ok.mp hrewind
  obtain rfl := Except.ok.inj hrewind
  have hleft : p.nPdlist.toNat = (p.nPdlist.toNat - 1) + 1 := by omega
  have hdiff : first.seqNo - (first.seqNo - 1) = 1 := by grind
  unfold sendAndShift at h
  obtain ⟨⟨j, p1, evs1⟩, hloop, h⟩ := bind_eq_ok.mp h
  have hsent : sentOf evs1 ≠ [] := by
    dsimp only at hloop
    rw [hleft, sendLoop, Nat.cast_zero, hfirst, ok_bind] at hloop
    dsimp only at hloop
    rw [hdiff, if_neg (by decide), if_pos rfl] at hloop
    obtain ⟨⟨j2, q2, evs2⟩, -, hloop⟩ := bind_eq_ok.mp hloop
    obtain ⟨-, hloop⟩ := Prod.mk.inj (Except.ok.inj hloop)
    rw [← (Prod.mk.inj hloop).2, sentOf_sent]
    exact List.cons_ne_nil _ _
  dsimp only at h
  split_ifs at h with hj
  · obtain ⟨⟨slots, evs2⟩, hshift, h⟩ := bind_eq_ok.mp h
    rw [← (Prod.mk.inj (Except.ok.inj h)).2, sentOf_append]
    exact fun hnil => hsent (List.append_eq_nil_iff.mp hnil).1
  · rw [← (Prod.mk.inj (Except.ok.inj h)).2]
    exact hsent

/-- **A call of `nmxp_raw_stream_manage`** advances the time of its channel, from what the part for
the first packet leaves, to the end of the last packet that it sends. -/
theorem lastSampleTime_manage {Q : Qsort} {pd : Option Pd}
    (h : nmxpRawStreamManage Q nFuncPd clock p pd = .ok (q, evs)) :
    q.lastSampleTime = endOfLast
      ((pd.map copyPd).elim p (firstTime clock p)).lastSampleTime (sentOf evs) := by
  unfold nmxpRawStreamManage at h
  obtain ⟨latency, -, h⟩ := bind_eq_ok.mp h
  obtain ⟨⟨p1, evs1⟩, hadd, h⟩ := bind_eq_ok.mp h
  obtain ⟨p2, hsort, h⟩ := bind_eq_ok.mp h
  obtain ⟨p3, hrewind, h⟩ := bind_eq_ok.mp h
  obtain ⟨⟨p4, evs2⟩, hsend, h⟩ := bind_eq_ok.mp h
  obtain ⟨rfl, rfl⟩ := Prod.mk.inj (Except.ok.inj h)
  have h1 := lastSampleTime_addPd hadd
  have h2 := lastSampleTime_compactAndSort hsort
  have h4 := lastSampleTime_sendAndShift hsend
  -- what a time-out sets is overwritten by what is sent
  have h3 : endOfLast p3.lastSampleTime (sentOf evs2) =
      endOfLast p2.lastSampleTime (sentOf evs2) := by
    by_cases hback : (pd.map copyPd).isNone ∧ 0 < p2.nPdlist
    · have hnone : pd.map copyPd = none := Option.isNone_iff_eq_none.mp hback.1
      rw [hnone] at hrewind
      exact endOfLast_of_ne (sentOf_of_rewind hback.2 hrewind hsend) _ _
    · unfold rewind at hrewind
      rw [if_neg hback] at hrewind
      rw [← Except.ok.inj hrewind]
  rw [sentOf_append, h4, h3, h2, h1, ← endOfLast_append]

/-! ### The first packet of a stream -/

/-- The call has the first packet of its stream, and there is a receive time-out: the time starts
again at the epoch. -/
def Begins (p : NmxpRawStreamData) (c : Call) : Prop :=
  p.lastSeqNoSent = -1 ∧ p.timeoutrecv ≠ 0 ∧ c.pd.isSome

instance (p : NmxpRawStreamData) (c : Call) : Decidable (Begins p c) := by
  unfold Begins
  infer_instance

/-- Without a receive time-out the first packet of a stream is sent at once. -/
theorem sentOf_of_first {Q : Qsort} {c : Call} {x : Pd} (hp : StreamOK p) (hc : NonNeg c)
    (h : callStep Q nFuncPd p c = .ok (q, evs)) (hx : c.pd = some x)
    (hfirst : p.lastSeqNoSent = -1) (hrecv : p.timeoutrecv = 0) : sentOf evs ≠ [] := by
  obtain ⟨sent, stale, hok⟩ := callOK_of_ok hp hc h
  obtain ⟨freed, hseen, -⟩ := hok.seen
  have hstep := hok.step
  have hentry : entryLast p (some x) = seqNum x - 1 := by
    simp only [entryLast, if_pos hfirst, if_pos hrecv]
  rw [hx, hentry, hp.empty (eq_neg_one_iff.mp hfirst)] at hstep
  rw [hseen.sent]
  exact hstep.sent_ne_nil_of_next (by rw [seqNum_copyPd]; omega)

/-- **A call, in a reachable state**: the time stays or starts again at the epoch, and then is the
end of the last packet sent, if there is one. -/
theorem lastSampleTime_call {Q : Qsort} {c : Call} (hp : NoRoom p ∨ StreamOK p) (hc : NonNeg c)
    (h : callStep Q nFuncPd p c = .ok (q, evs)) : q.lastSampleTime =
      endOfLast (if Begins p c then .finite 0 else p.lastSampleTime) (sentOf evs) := by
  have hcall := lastSampleTime_manage (show nmxpRawStreamManage Q nFuncPd c.clock p c.pd = _ from h)
  rw [hcall]
  cases hx : c.pd with
  | none => rw [if_neg fun hb => by simp [Begins, hx] at hb]; rfl
  | some x =>
    have hok : StreamOK p := hp.resolve_left fun hroom => by
      rw [callStep, hx, hroom.manage_some] at h
      exact absurd h (by simp)
    show endOfLast (firstTime c.clock p (copyPd x)).lastSampleTime _ = _
    unfold firstTime
    by_cases hfirst : p.lastSeqNoSent = -1
    · by_cases hrecv : p.timeoutrecv = 0
      · exact endOfLast_of_ne (sentOf_of_first hok hc h hx hfirst hrecv) _ _
      · rw [if_pos hfirst, if_neg hrecv, if_pos ⟨hfirst, hrecv, by rw [hx]; rfl⟩]
    · rw [if_neg hfirst, if_neg fun hb => hfirst hb.1]

end Nmxptool.RawStream.Progress
