import Nmxptool.RawStream.Manage

/-! # Runs of a Raw Stream

A run starts with `nmxp_raw_stream_init` and makes any calls of `nmxp_raw_stream_manage`.

* `reachable_cases`: after a run with non-negative numbers the stream satisfies `StreamOK`, or has
  no room at all.
* `representation_iff`: the representation invariant and the conservation of packets hold of every
  run exactly when the size of the array, computed in `int32_t`, is positive.
* `increasing_of_single`: delivered numbers increase as long as no forced time-out meets a number
  twice. -/

namespace Nmxptool.RawStream.Runs

open Nmxptool.Data.Process Nmxptool.Lib.Floating Nmxptool.Lib.Run Nmxptool.Lib.Sorting
open Nmxptool.Lib.Drain
open Nmxptool.Lib.Resequencer
open Nmxptool.RawStream.Model Nmxptool.RawStream.Slots Nmxptool.RawStream.Manage

/-- The call has a packet with a non-negative number, or none. -/
def NonNeg (c : Call) : Prop := ∀ x ∈ c.pd, 0 ≤ seqNum x

variable {Q : Qsort} {nFuncPd : ℕ} {p q : NmxpRawStreamData} {evs : List Event} {c : Call}

theorem callStep_ok (Q : Qsort) (nFuncPd : ℕ) (hp : StreamOK p) (hc : NonNeg c) :
    ∃ q evs sent stale, callStep Q nFuncPd p c = .ok (q, evs) ∧
      CallOK nFuncPd c.clock p c.pd q evs sent stale :=
  manage_ok Q nFuncPd c.clock hp c.pd hc

theorem callOK_of_ok (hp : StreamOK p) (hc : NonNeg c) (h : callStep Q nFuncPd p c = .ok (q, evs)) :
    ∃ sent stale, CallOK nFuncPd c.clock p c.pd q evs sent stale := by
  obtain ⟨q', evs', sent, stale, h', hok⟩ := callStep_ok Q nFuncPd hp hc
  rw [h] at h'
  simp only [Except.ok.injEq, Prod.mk.injEq] at h'
  obtain ⟨rfl, rfl⟩ := h'
  exact ⟨sent, stale, hok⟩

/-! ### A stream without room

The size of the array is `max_tolerable_latency * 4` in `int32_t`. Where that is not positive the
first packet is written outside the array. -/

/-- No slot at all, and nothing in use. -/
structure NoRoom (p : NmxpRawStreamData) : Prop where
  max : p.maxPdlistItems.toInt ≤ 0
  pdlist : p.pdlist = []
  nPdlist : p.nPdlist = 0

theorem NoRoom.mustForce (h : NoRoom p) (latency : Double) : MustForce p latency := by
  have hle : p.maxPdlistItems.toInt ≤ p.nPdlist := by rw [h.nPdlist]; exact h.max
  rcases Int32.lt_or_le 0 p.timeoutrecv with ht | ht
  · exact Or.inr ⟨hle, ht⟩
  · exact Or.inl ⟨Or.inl hle, ht⟩

theorem NoRoom.firstLatency (h : NoRoom p) (clock : Clock) :
    firstLatency clock p = .ok (.finite 0) := by
  unfold Model.firstLatency
  rw [if_neg (by rw [h.nPdlist]; omega)]
  rfl

theorem NoRoom.pending_eq (h : NoRoom p) : pending p = [] := by
  simp [pending, h.pdlist]

/-- A time-out leaves it as it is. -/
theorem NoRoom.manage_none (h : NoRoom p) (Q : Qsort) (nFuncPd : ℕ) (clock : Clock) :
    nmxpRawStreamManage Q nFuncPd clock p none = .ok (p, []) := by
  have hn : ¬ 0 < p.nPdlist := by rw [h.nPdlist]; omega
  have hs : Q.sort nmxpRawStreamSeqNoCompare ([] : Slots) = [] :=
    (Q.perm nmxpRawStreamSeqNoCompare []).eq_nil
  have hadd : addPd nFuncPd clock (.finite 0) p none = .ok (p, []) := by
    unfold addPd forceFirst
    rw [if_pos (h.mustForce (.finite 0)), if_neg hn]
    rfl
  have hsort : compactAndSort Q p = .ok p := by
    have h1 : removeNulls p.nPdlist.toNat 0 p.pdlist = .ok (0, []) := by
      rw [h.nPdlist, h.pdlist]; rfl
    have h2 : sortSlots Q (p.nPdlist - (0 : ℕ)) [] = .ok [] := by
      unfold sortSlots
      rw [h.nPdlist]
      simp [hs]
    have h3 : { p with nPdlist := p.nPdlist - (0 : ℕ), pdlist := [] } = p := by
      rw [Nat.cast_zero, sub_zero, ← h.pdlist]
    unfold compactAndSort
    simp only [h1, ok_bind, h2, h3, pure_eq_ok]
  have hrew : rewind clock p none = .ok p := by
    unfold rewind
    rw [if_neg fun h => hn h.2]
    rfl
  have hsend : sendAndShift nFuncPd clock p = .ok (p, []) := by
    unfold sendAndShift
    rw [h.nPdlist]
    rfl
  unfold nmxpRawStreamManage
  simp only [Option.map_none, Option.elim_none, h.firstLatency, ok_bind, hadd, hsort, hrew, hsend,
    List.append_nil, pure_eq_ok]

/-- A packet does not fit. -/
theorem NoRoom.manage_some (h : NoRoom p) (Q : Qsort) (nFuncPd : ℕ) (clock : Clock) (x : Pd) :
    nmxpRawStreamManage Q nFuncPd clock p (some x) = .error .slotOutOfRange := by
  have hsame := firstTime_same clock p (copyPd x)
  have h1 : NoRoom (firstTime clock p (copyPd x)) :=
    ⟨by rw [hsame.maxPdlistItems]; exact h.max, by rw [hsame.pdlist, h.pdlist],
      by rw [hsame.nPdlist, h.nPdlist]⟩
  have hn : ¬ 0 < (firstTime clock p (copyPd x)).nPdlist := by rw [h1.nPdlist]; omega
  have hw : writeSlot (firstTime clock p (copyPd x)).pdlist 0 (some (copyPd x)) =
      .error .slotOutOfRange := by
    have := writeSlot_error (a := (firstTime clock p (copyPd x)).pdlist) (k := 0)
      (by rw [h1.pdlist]; simp) (some (copyPd x))
    simpa using this
  have hadd : addPd nFuncPd clock (.finite 0) (firstTime clock p (copyPd x)) (some (copyPd x)) =
      .error .slotOutOfRange := by
    unfold addPd forceFirst
    rw [if_pos (h1.mustForce (.finite 0)), if_neg hn]
    simp only [hw, error_bind]
  unfold nmxpRawStreamManage
  simp only [Option.map_some, Option.elim_some, h1.firstLatency, ok_bind, hadd, error_bind]

/-! ### Reachable states -/

theorem init_cases (maxTolerableLatency timeoutrecv : Int32) :
    (0 < maxTolerableLatency * 4 ∧ StreamOK (nmxpRawStreamInit maxTolerableLatency timeoutrecv)) ∨
      (¬ 0 < maxTolerableLatency * 4 ∧
        NoRoom (nmxpRawStreamInit maxTolerableLatency timeoutrecv)) := by
  have hpend : pending (nmxpRawStreamInit maxTolerableLatency timeoutrecv) = [] := by
    simp [pending, nmxpRawStreamInit]
  have hpos : 0 < maxTolerableLatency * 4 ↔ 0 < (maxTolerableLatency * 4).toInt := by
    rw [Int32.lt_iff_toInt_lt]; rfl
  by_cases h : 0 < maxTolerableLatency * 4
  · refine Or.inl ⟨h, hpos.mp h, by simp [nmxpRawStreamInit],
      ⟨⟨List.replicate (maxTolerableLatency * 4).toInt.toNat none, ?_⟩, by rw [hpend]; rfl⟩,
      ?_, ?_, le_of_eq (by rfl), fun _ => hpend⟩
    · rw [hpend]; rfl
    · exact ⟨by unfold toBuf; rw [hpend]; exact List.Pairwise.nil,
        by unfold toBuf; rw [hpend]; simp⟩
    · rw [hpend]; simp
  · have hle : (maxTolerableLatency * 4).toInt ≤ 0 := not_lt.mp (hpos.not.mp h)
    refine Or.inr ⟨h, hle, ?_, rfl⟩
    have : (maxTolerableLatency * 4).toInt.toNat = 0 := by omega
    simp only [nmxpRawStreamInit, this, List.replicate_zero]

theorem init_ok (maxTolerableLatency timeoutrecv : Int32) :
    NoRoom (nmxpRawStreamInit maxTolerableLatency timeoutrecv) ∨
      StreamOK (nmxpRawStreamInit maxTolerableLatency timeoutrecv) :=
  (init_cases maxTolerableLatency timeoutrecv).symm.imp And.right And.right

/-- **Induction over runs.** A property of the state and of everything put out so far, which the
calls that meet `C` keep, holds at the end; a stream without room has put out nothing. -/
theorem run_induction {C : NmxpRawStreamData → Call → Prop} (hnn : ∀ s c, C s c → NonNeg c)
    (I : NmxpRawStreamData → List Event → Prop) {s₀ : NmxpRawStreamData}
    (h₀ : NoRoom s₀ ∨ StreamOK s₀) (hI₀ : I s₀ [])
    (hstep : ∀ s tr c s' o sent stale, StreamOK s → C s c → I s tr →
      CallOK nFuncPd c.clock s c.pd s' o sent stale → I s' (tr ++ o)) {calls : List Call}
    (hC : AllSteps (callStep Q nFuncPd) C s₀ calls)
    (hrun : manageAll Q nFuncPd s₀ calls = .ok (p, evs)) :
    (NoRoom p ∧ evs = []) ∨ (StreamOK p ∧ I p evs) := by
  refine run_inv (fun s _ tr => (NoRoom s ∧ tr = []) ∨ (StreamOK s ∧ I s tr)) ?_ [] [] ?_ hC hrun
  · rintro s done tr c s' o (⟨hs, rfl⟩ | ⟨hs, hI⟩) hc h
    · rcases c with ⟨_ | x, clock⟩
      · simp only [callStep, hs.manage_none, Except.ok.injEq, Prod.mk.injEq] at h
        obtain ⟨rfl, rfl⟩ := h
        exact Or.inl ⟨hs, rfl⟩
      · simp only [callStep, hs.manage_some] at h
        exact absurd h (by simp)
    · obtain ⟨sent, stale, hok⟩ := callOK_of_ok hs (hnn s c hc) h
      exact Or.inr ⟨hok.inv, hstep s tr c s' o sent stale hs hc hI hok⟩
  · exact h₀.imp (fun h => ⟨h, rfl⟩) fun h => ⟨h, hI₀⟩

theorem allSteps_nonNeg {calls : List Call} (hcalls : ∀ c ∈ calls, NonNeg c)
    (s : NmxpRawStreamData) :
    AllSteps (callStep Q nFuncPd) (fun _ c => NonNeg c) s calls :=
  allSteps_of_forall (fun _ c hc => hcalls c hc) s

/-- **Reachable states.** -/
theorem reachable_cases {s₀ : NmxpRawStreamData} (h₀ : NoRoom s₀ ∨ StreamOK s₀)
    {calls : List Call} (hcalls : ∀ c ∈ calls, NonNeg c)
    (hrun : manageAll Q nFuncPd s₀ calls = .ok (p, evs)) : NoRoom p ∨ StreamOK p :=
  (run_induction (fun _ _ h => h) (fun _ _ => True) h₀ trivial
    (fun _ _ _ _ _ _ _ _ _ _ _ => trivial) (allSteps_nonNeg hcalls _) hrun).imp And.left And.left

/-- **One call** in a reachable state leads to one. -/
theorem reachable_step (hp : NoRoom p ∨ StreamOK p) (hc : NonNeg c)
    (h : callStep Q nFuncPd p c = .ok (q, evs)) : NoRoom q ∨ StreamOK q := by
  have hrun : manageAll Q nFuncPd p [c] = .ok (q, evs ++ []) :=
    run_cons_eq_ok.mpr ⟨q, evs, [], h, rfl, rfl⟩
  exact reachable_cases hp (by simpa using hc) hrun

/-! ### Representation and conservation -/

/-- The array as its users rely on it. -/
structure Represented (p : NmxpRawStreamData) : Prop where
  nonneg : 0 ≤ p.nPdlist
  le_max : p.nPdlist ≤ p.maxPdlistItems.toInt
  size : (p.pdlist.length : ℤ) = p.maxPdlistItems.toInt
  filled : p.pdlist.take p.nPdlist.toNat = (pending p).map some
  sorted : (pending p).Pairwise fun x y => x.seqNo ≤ y.seqNo
  gap : ∀ x ∈ pending p, p.lastSeqNoSent.toInt + 2 ≤ x.seqNo.toInt
  empty : p.lastSeqNoSent = -1 → p.nPdlist = 0

/-- What was handed in was delivered, discarded, or waits; what left the buffer was freed once. -/
structure Conserved (nFuncPd : ℕ) (calls : List Call) (p : NmxpRawStreamData)
    (evs : List Event) : Prop where
  balance : ((calls.filterMap Call.pd).map copyPd).Perm
    (sentOf evs ++ discardedOf evs ++ pending p)
  handed : ∀ i < nFuncPd, handedTo i evs = sentOf evs
  freed : (freedOf evs).Perm (sentOf evs ++ discardedOf evs)
  quiet : shouldNotOccurOf evs = []

/-- After any calls with non-negative numbers the run is free of faults, and both hold. -/
def RunsKeepInvariant (Q : Qsort) (nFuncPd : ℕ) (maxTolerableLatency timeoutrecv : Int32) : Prop :=
  ∀ calls, (∀ c ∈ calls, NonNeg c) → ∃ p evs,
    manageAll Q nFuncPd (nmxpRawStreamInit maxTolerableLatency timeoutrecv) calls = .ok (p, evs) ∧
      Represented p ∧ Conserved nFuncPd calls p evs

theorem represented_of_inv (hp : StreamOK p) : Represented p := by
  obtain ⟨⟨junk, hj⟩, hc⟩ := hp.holds
  have hcap := hp.capacity
  have hpos := hp.positive
  have hlen : (pending p).length ≤ p.pdlist.length := by
    have := congrArg List.length hj
    simp only [List.length_append, List.length_map] at this
    omega
  refine ⟨by omega, by omega, by omega, ?_, ?_, hp.bufOK.gap, fun h => ?_⟩
  · rw [hc, Int.toNat_natCast, hj]
    simp
  · exact hp.bufOK.sorted.imp fun h => Int32.le_iff_toInt_le.mpr h
  · rw [hc, hp.empty (eq_neg_one_iff.mp h)]
    rfl

theorem conserved_init (nFuncPd : ℕ) (maxTolerableLatency timeoutrecv : Int32) :
    Conserved nFuncPd [] (nmxpRawStreamInit maxTolerableLatency timeoutrecv) [] := by
  refine ⟨?_, fun i _ => rfl, .refl _, rfl⟩
  simp [sentOf, discardedOf, pending, nmxpRawStreamInit]

theorem conserved_step {calls : List Call} {o : List Event} {sent stale : List Pd}
    (h : Conserved nFuncPd calls p evs) (hok : CallOK nFuncPd c.clock p c.pd q o sent stale) :
    Conserved nFuncPd (calls ++ [c]) q (evs ++ o) := by
  obtain ⟨freed, hseen, hfreed⟩ := hok.seen
  refine ⟨?_, ?_, ?_, ?_⟩
  · -- the balance of the step and the one before, item by item
    have hstep := hok.step.perm
    have hcall : ((calls ++ [c]).filterMap Call.pd).map copyPd =
        (calls.filterMap Call.pd).map copyPd ++ (c.pd.map copyPd).toList := by
      rcases hpd : c.pd with _ | x <;> simp [hpd]
    rw [hcall, sentOf_append, discardedOf_append, hseen.sent, hseen.stale,
      List.perm_iff_count]
    intro x
    have h1 := h.balance.count_eq x
    have h2 := hstep.count_eq x
    simp only [List.count_append, toBuf] at h1 h2 ⊢
    omega
  · intro i hi
    rw [handedTo_append, sentOf_append, h.handed i hi, hseen.handed, hseen.sent, if_pos hi]
  · rw [freedOf_append, sentOf_append, discardedOf_append, hseen.freed, hseen.sent, hseen.stale,
      List.perm_iff_count]
    intro x
    have h1 := h.freed.count_eq x
    have h2 := hfreed.count_eq x
    simp only [List.count_append] at h1 h2 ⊢
    omega
  · rw [shouldNotOccurOf_append, h.quiet, hseen.quiet]
    rfl

/-- A packet with one sample and the given number, whose sample ends at time 0. -/
def numbered (seqNo : Int32) : Pd :=
  { nmxpDataInit (-1) with seqNo := seqNo, nSamp := 1, sampRate := 1, pDataPtr := some [0] }

/-- Calls with packets of the given numbers, at clock 0, when none is late. -/
def inTime (numbers : List Int32) : List Call :=
  numbers.map fun n => ⟨some (numbered n), fun _ => 0⟩

theorem nonNeg_inTime {numbers : List Int32} (h : numbers.all (0 ≤ ·) = true) :
    ∀ c ∈ inTime numbers, NonNeg c := by
  intro c hc
  obtain ⟨n, hn, rfl⟩ := List.mem_map.mp hc
  rintro x ⟨⟩
  exact Int32.le_iff_toInt_le.mp (of_decide_eq_true (List.all_eq_true.mp h n hn))

/-- **Representation and conservation** hold of every run exactly when the array has a slot. -/
theorem representation_iff (Q : Qsort) (nFuncPd : ℕ) (maxTolerableLatency timeoutrecv : Int32) :
    RunsKeepInvariant Q nFuncPd maxTolerableLatency timeoutrecv ↔ 0 < maxTolerableLatency * 4 := by
  rcases init_cases maxTolerableLatency timeoutrecv with ⟨hpos, hinit⟩ | ⟨hpos, hinit⟩
  · refine iff_of_true (fun calls hcalls => ?_) hpos
    obtain ⟨p, evs, hrun, hp, hcons⟩ := run_ok
      (fun s done tr => StreamOK s ∧ Conserved nFuncPd done s tr)
      (fun s done tr c ⟨hs, hcons⟩ hc => by
        obtain ⟨q, o, sent, stale, h, hok⟩ := callStep_ok Q nFuncPd hs hc
        exact ⟨q, o, h, hok.inv, conserved_step hcons hok⟩)
      [] [] ⟨hinit, conserved_init nFuncPd maxTolerableLatency timeoutrecv⟩
      (allSteps_nonNeg hcalls _)
    exact ⟨p, evs, hrun, represented_of_inv hp, hcons⟩
  · refine iff_of_false (fun h => ?_) hpos
    obtain ⟨p, evs, hrun, -⟩ := h (inTime [0]) (nonNeg_inTime rfl)
    obtain ⟨p', o, o', hstep, -⟩ := run_cons_eq_ok.mp hrun
    simp only [callStep, hinit.manage_some] at hstep
    exact absurd hstep (by simp)

/-- A tolerable latency of 2²⁹ seconds wraps the size around to a negative one. -/
theorem representation_overflow :
    ¬ RunsKeepInvariant insertion 1 536870912 0 := by
  intro h
  obtain ⟨p, evs, hrun, -⟩ := h (inTime [0]) (nonNeg_inTime rfl)
  have herr : manageAll insertion 1 (nmxpRawStreamInit 536870912 0) (inTime [0]) =
      .error .slotOutOfRange := by decide +kernel
  rw [herr] at hrun
  exact absurd hrun (by simp)

/-! ### Order of delivery -/

/-- A time-out that is forced to handle the first item while the second has the same number. -/
def TwiceAtFront (p : NmxpRawStreamData) (c : Call) : Prop :=
  c.pd = none ∧ Forced c.clock p ∧ ∃ x y ys, pending p = x :: y :: ys ∧ x.seqNo = y.seqNo

theorem last_le_entryLast (hp : StreamOK p) {a : Option Pd} (ha : ∀ x ∈ a, 0 ≤ seqNum x) :
    p.lastSeqNoSent.toInt ≤ entryLast p a := by
  have hle := neg_one_le_entryLast hp ha
  rcases a with _ | x
  · exact le_rfl
  · by_cases h : p.lastSeqNoSent.toInt = -1
    · omega
    · simp only [entryLast, eq_neg_one_iff, if_neg h, le_refl]

/-- What one call hands to a function lies above everything handed to it before. -/
theorem increasing_step {i : ℕ} {o : List Event} {sent stale : List Pd} (hp : StreamOK p)
    (hc : NonNeg c) (htwice : ¬ TwiceAtFront p c)
    (hok : CallOK nFuncPd c.clock p c.pd q o sent stale)
    (hinc : ((handedTo i evs).map seqNum).Pairwise (· < ·))
    (hle : ∀ v ∈ (handedTo i evs).map seqNum, v ≤ p.lastSeqNoSent.toInt) :
    ((handedTo i (evs ++ o)).map seqNum).Pairwise (· < ·) ∧
      ∀ v ∈ (handedTo i (evs ++ o)).map seqNum, v ≤ q.lastSeqNoSent.toInt := by
  have hb := bufOK_entry hp c.pd
  have hentry := last_le_entryLast hp hc
  have hlast := hok.step.last_le hb
  have hnew : ∀ v ∈ (handedTo i o).map seqNum,
      entryLast p c.pd < v ∧ v ≤ q.lastSeqNoSent.toInt := by
    intro v hv
    obtain ⟨freed, hseen, -⟩ := hok.seen
    rw [hseen.handed] at hv
    split_ifs at hv
    · exact hok.step.sent_mem hb hv
    · simp at hv
  have hsent : ((handedTo i o).map seqNum).Pairwise (· < ·) := by
    obtain ⟨freed, hseen, -⟩ := hok.seen
    rw [hseen.handed]
    split_ifs
    · refine hok.step.increasing hb ?_
      rintro ⟨hf, hnone, x, y, ys, heq, hxy⟩
      refine htwice ⟨by simpa using hnone, hf, x, y, ys, heq, ?_⟩
      exact Int32.toInt_inj.mp hxy
    · exact List.Pairwise.nil
  rw [handedTo_append, List.map_append]
  refine ⟨List.pairwise_append.mpr ⟨hinc, hsent, fun u hu v hv => ?_⟩, fun v hv => ?_⟩
  · have := hle u hu
    have := (hnew v hv).1
    omega
  · dsimp only [toBuf] at hlast
    rcases List.mem_append.mp hv with hv | hv
    · have := hle v hv
      omega
    · exact (hnew v hv).2

/-- **Delivered numbers increase** over every run in which no call is `TwiceAtFront`. -/
theorem increasing_of_single (Q : Qsort) (nFuncPd : ℕ) (maxTolerableLatency timeoutrecv : Int32)
    (calls : List Call) (hC : AllSteps (callStep Q nFuncPd)
      (fun p c => NonNeg c ∧ ¬ TwiceAtFront p c)
      (nmxpRawStreamInit maxTolerableLatency timeoutrecv) calls)
    (hrun : manageAll Q nFuncPd (nmxpRawStreamInit maxTolerableLatency timeoutrecv) calls =
      .ok (p, evs)) (i : ℕ) :
    ((handedTo i evs).map seqNum).Pairwise (· < ·) := by
  have h := run_induction (fun _ _ h => h.1)
    (fun s tr => ((handedTo i tr).map seqNum).Pairwise (· < ·) ∧
      ∀ v ∈ (handedTo i tr).map seqNum, v ≤ s.lastSeqNoSent.toInt) (init_ok _ _)
    ⟨List.Pairwise.nil, by simp [handedTo]⟩
    (fun s tr c s' o sent stale hs ⟨hc, htwice⟩ ⟨hinc, hle⟩ hok =>
      increasing_step hs hc htwice hok hinc hle) hC hrun
  rcases h with ⟨-, rfl⟩ | ⟨-, hinc, -⟩
  · exact List.Pairwise.nil
  · exact hinc

/-- Packets 0, 2 and 2 again, and a time-out when packet 2 is 100 seconds old. -/
def duplicateThenTimeout : List Call := inTime [0, 2, 2] ++ [⟨none, fun _ => 100⟩]

theorem increasing_fails : (∀ c ∈ duplicateThenTimeout, NonNeg c) ∧ ∃ p evs,
    manageAll insertion 1 (nmxpRawStreamInit 1 0) duplicateThenTimeout = .ok (p, evs) ∧
      ¬ ((handedTo 0 evs).map seqNum).Pairwise (· < ·) := by
  refine ⟨fun c hc => ?_, ?_⟩
  · rcases List.mem_append.mp hc with hc | hc
    · exact nonNeg_inTime (by rfl) c hc
    · rw [List.mem_singleton.mp hc]
      rintro x ⟨⟩
  have h : (manageAll insertion 1 (nmxpRawStreamInit 1 0) duplicateThenTimeout).map
      (fun r => (handedTo 0 r.2).map seqNum) = .ok [0, 2, 2] := by decide +kernel
  obtain ⟨⟨p, evs⟩, hrun, hnums⟩ := map_eq_ok.mp h
  refine ⟨p, evs, hrun, ?_⟩
  rw [hnums]
  decide

/-- Packets 0, 2 and 1 come out in order. -/
theorem increasing_of_single_fill : ∃ p evs,
    manageAll insertion 1 (nmxpRawStreamInit 10 0) (inTime [0, 2, 1]) = .ok (p, evs) ∧
    ((handedTo 0 evs).map seqNum).Pairwise (· < ·) := by
  have h : (manageAll insertion 1 (nmxpRawStreamInit 10 0) (inTime [0, 2, 1])).map
      (fun _ => ()) = .ok () := by decide +kernel
  obtain ⟨⟨p, evs⟩, hrun, -⟩ := map_eq_ok.mp h
  refine ⟨p, evs, hrun, increasing_of_single insertion 1 10 0 _ ?_ hrun 0⟩
  refine allSteps_of_forall (fun s c hc => ⟨nonNeg_inTime rfl c hc, fun htwice => ?_⟩) _
  obtain ⟨n, -, rfl⟩ := List.mem_map.mp hc
  exact absurd htwice.1 (by simp)

end Nmxptool.RawStream.Runs
