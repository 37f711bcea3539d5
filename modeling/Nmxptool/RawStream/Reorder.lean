import Nmxptool.RawStream.Runs

/-! # Order of arrival

With `timeoutrecv = 0`, and as long as nothing forces the buffer to deliver early, the order in
which packets arrive does not show: `reorder_transparent`. A forced delivery may overtake a packet
that arrives in the same call: `late_filler_iff`. -/

namespace Nmxptool.RawStream.Reorder

open Nmxptool.Data.Process Nmxptool.Lib.Floating Nmxptool.Lib.Run Nmxptool.Lib.Sorting
open Nmxptool.Lib.Drain
open Nmxptool.Lib.Resequencer
open Nmxptool.RawStream.Model Nmxptool.RawStream.Slots Nmxptool.RawStream.Manage
open Nmxptool.RawStream.Runs

variable {Q : Qsort} {nFuncPd : ℕ} {p q : NmxpRawStreamData} {evs : List Event} {c : Call}

/-! ### Relaxed runs -/

/-- The buffer is not full, and the latency of its first item is tolerable. -/
def Relaxed (p : NmxpRawStreamData) (c : Call) : Prop :=
  p.nPdlist < p.maxPdlistItems.toInt ∧
    ¬ .finite p.maxTolerableLatency ≤ nmxpDataLatency (c.clock .decision) (pending p).head?

instance (p : NmxpRawStreamData) (c : Call) : Decidable (Relaxed p c) := by
  unfold Relaxed; infer_instance

theorem not_forced (h : Relaxed p c) : ¬ Forced c.clock p := by
  rintro (⟨h1 | h1, -⟩ | ⟨h1, -⟩)
  · exact absurd h.1 (not_lt.mpr h1)
  · exact h.2 h1
  · exact absurd h.1 (not_lt.mpr h1)

/-- The numbers of the packets of some calls. -/
def arrived (calls : List Call) : List ℤ := (calls.filterMap Call.pd).map seqNum

/-- The calls bring `b` first, all the numbers from there to `b + n`, and none above. -/
structure Arrivals (b n : ℕ) (calls : List Call) : Prop where
  packets : ∀ c ∈ calls, c.pd.isSome
  first : (arrived calls).head? = some (b : ℤ)
  range : ∀ v ∈ arrived calls, 0 ≤ v ∧ v ≤ b + n
  all : ∀ v : ℤ, b < v → v ≤ b + n → v ∈ arrived calls

/-- How far a relaxed run has come: `e` is the number from which its next call starts. -/
structure Progress (nFuncPd b n : ℕ) (e : ℤ) (p : NmxpRawStreamData) (calls : List Call)
    (evs : List Event) : Prop where
  inv : StreamOK p
  ge : (b : ℤ) - 1 ≤ e
  le : e ≤ b + n
  handed : ∀ i < nFuncPd, (handedTo i evs).map seqNum = after (b - 1) e
  seen : ∀ v ∈ arrived calls, v ≤ e ∨ ∃ y ∈ pending p, seqNum y = v
  bound : ∀ y ∈ pending p, seqNum y ≤ b + n

theorem progress_step {b n : ℕ} {calls : List Call} {x : Pd} {o : List Event}
    {sent stale : List Pd} (hx : 0 ≤ seqNum x ∧ seqNum x ≤ b + n) (hc : c.pd = some x)
    (hrel : Relaxed p c) (h : Progress nFuncPd b n (entryLast p (some x)) p calls evs)
    (hok : CallOK nFuncPd c.clock p c.pd q o sent stale) :
    Progress nFuncPd b n q.lastSeqNoSent.toInt q (calls ++ [c]) (evs ++ o) ∧
      ∀ v ∈ arrived (calls ++ [c]), v ≤ q.lastSeqNoSent.toInt ∨
        q.lastSeqNoSent.toInt + 2 ≤ v := by
  have hstep := hok.step
  rw [hc] at hstep
  have hb := bufOK_entry h.inv (some x)
  obtain ⟨hnums, hle⟩ := hstep.sent_of_keep (not_forced hrel)
  dsimp only [toBuf] at hnums hle
  have hbound : ∀ y ∈ sent ++ stale ++ pending q, seqNum y ≤ b + n := by
    intro y hy
    rcases List.mem_append.mp (hstep.perm.mem_iff.mp hy) with hy | hy
    · obtain ⟨z, hz, rfl⟩ := mem_copied.mp hy
      cases hz
      exact hx.2
    · exact h.bound y hy
  have hprog : Progress nFuncPd b n q.lastSeqNoSent.toInt q (calls ++ [c]) (evs ++ o) := by
    refine ⟨hok.inv, h.ge.trans hle, ?_, fun i hi => ?_, fun v hv => ?_, fun y hy =>
      hbound y (List.mem_append_right _ hy)⟩
    · -- a new last number is the number of a packet
      rcases hle.eq_or_lt with he | hlt
      · rw [← he]; exact h.le
      · have hm : q.lastSeqNoSent.toInt ∈ sent.map seqNum := by
          rw [hnums, mem_after]; exact ⟨hlt, le_rfl⟩
        obtain ⟨y, hy, hye⟩ := List.mem_map.mp hm
        rw [← hye]
        exact hbound y (by simp [hy])
    · obtain ⟨freed, hseen, -⟩ := hok.seen
      rw [handedTo_append, List.map_append, h.handed i hi, hseen.handed, if_pos hi, hnums]
      exact after_append h.ge hle
    · have hold : ∀ y ∈ pending p, seqNum y = v → v ≤ q.lastSeqNoSent.toInt ∨
          ∃ y ∈ pending q, seqNum y = v := by
        rintro y hy rfl
        exact (hstep.num_le_or_mem hb (Or.inr hy)).imp id fun hy' => ⟨y, hy', rfl⟩
      have happ : arrived (calls ++ [c]) = arrived calls ++ [seqNum x] := by
        simp [arrived, hc]
      rw [happ, List.mem_append, List.mem_singleton] at hv
      rcases hv with hv | rfl
      · rcases h.seen v hv with hv | ⟨y, hy, hye⟩
        · exact Or.inl (hv.trans hle)
        · exact hold y hy hye
      · exact (hstep.num_le_or_mem hb (x := copyPd x) (Or.inl (by simp))).imp id
          fun hy' => ⟨copyPd x, hy', rfl⟩
  refine ⟨hprog, fun v hv => ?_⟩
  rcases hprog.seen v hv with hv | ⟨y, hy, rfl⟩
  · exact Or.inl hv
  · exact Or.inr (hok.inv.bufOK.gap y hy)

/-- A call after the first. -/
theorem progress_later {b n : ℕ} {done : List Call} (h : Progress nFuncPd b n
    p.lastSeqNoSent.toInt p done evs) (hb : (b : ℤ) ≤ p.lastSeqNoSent.toInt) (hrel : Relaxed p c)
    (hc : ∃ x, c.pd = some x ∧ 0 ≤ seqNum x ∧ seqNum x ≤ b + n) :
    ∃ q o, callStep Q nFuncPd p c = .ok (q, o) ∧
      Progress nFuncPd b n q.lastSeqNoSent.toInt q (done ++ [c]) (evs ++ o) ∧
      (b : ℤ) ≤ q.lastSeqNoSent.toInt := by
  obtain ⟨x, hx, hx0, hxn⟩ := hc
  have hnn : NonNeg c := fun z hz => by rw [hx] at hz; cases hz; exact hx0
  obtain ⟨q, o, sent, stale, hq, hok⟩ := callStep_ok Q nFuncPd h.inv hnn
  have he : entryLast p (some x) = p.lastSeqNoSent.toInt := by
    simp only [entryLast, eq_neg_one_iff, if_neg (show p.lastSeqNoSent.toInt ≠ -1 by omega)]
  obtain ⟨hprog, -⟩ := progress_step ⟨hx0, hxn⟩ hx hrel (by rw [he]; exact h) hok
  refine ⟨q, o, hq, hprog, ?_⟩
  have hle := hok.step.last_le (bufOK_entry h.inv c.pd)
  rw [hx, he] at hle
  exact hb.trans hle

/-- When all numbers have been seen, everything has been delivered. -/
theorem progress_done {b n : ℕ} {calls : List Call}
    (h : Progress nFuncPd b n p.lastSeqNoSent.toInt p calls evs) (harr : Arrivals b n calls) :
    p.lastSeqNoSent.toInt = b + n ∧ pending p = [] := by
  have hge := h.ge
  have hle := h.le
  have hall : ∀ v : ℤ, b ≤ v → v ≤ b + n → v ∈ arrived calls := fun v h1 h2 => by
    rcases h1.eq_or_lt with rfl | h1
    · exact List.mem_of_head? harr.first
    · exact harr.all v h1 h2
  have hlast : p.lastSeqNoSent.toInt = b + n := by
    by_contra hne
    rcases h.seen (p.lastSeqNoSent.toInt + 1) (hall _ (by omega) (by omega)) with hv | ⟨y, hy, he⟩
    · omega
    · have := h.inv.bufOK.gap y hy
      dsimp only [toBuf] at this
      omega
  refine ⟨hlast, List.eq_nil_iff_forall_not_mem.mpr fun y hy => ?_⟩
  have := h.inv.bufOK.gap y hy
  have := h.bound y hy
  dsimp only [toBuf] at *
  omega

/-- What the run delivers in the end: each number from `b` to `b + n` once, in order. -/
structure InOrder (nFuncPd b n : ℕ) (p : NmxpRawStreamData) (evs : List Event) : Prop where
  handed : ∀ i < nFuncPd,
    (handedTo i evs).map seqNum = (List.range (n + 1)).map fun k : ℕ => (b : ℤ) + k
  last : p.lastSeqNoSent.toInt = b + n
  nPdlist : p.nPdlist = 0

theorem after_eq_range (b n : ℕ) :
    after ((b : ℤ) - 1) (b + n) = (List.range (n + 1)).map fun k : ℕ => (b : ℤ) + k := by
  have h : ((b : ℤ) + n - (b - 1)).toNat = n + 1 := by omega
  unfold after
  rw [h]
  exact List.map_congr_left fun k _ => by ring

/-- At the start nothing is handed over, and the first number is the next one. -/
theorem progress_init {maxTolerableLatency : Int32} {b n : ℕ} {x : Pd}
    (hinv : StreamOK (nmxpRawStreamInit maxTolerableLatency 0)) (hx : seqNum x = b) :
    Progress nFuncPd b n (entryLast (nmxpRawStreamInit maxTolerableLatency 0) (some x))
      (nmxpRawStreamInit maxTolerableLatency 0) [] [] := by
  have h1 : (nmxpRawStreamInit maxTolerableLatency 0).lastSeqNoSent = -1 := rfl
  have h2 : (nmxpRawStreamInit maxTolerableLatency 0).timeoutrecv = 0 := rfl
  have hentry : entryLast (nmxpRawStreamInit maxTolerableLatency 0) (some x) = b - 1 := by
    simp only [entryLast, if_pos h1, if_pos h2, hx]
  have hpend : pending (nmxpRawStreamInit maxTolerableLatency 0) = [] := hinv.empty rfl
  rw [hentry]
  refine ⟨hinv, le_rfl, by omega, fun i _ => ?_, by simp [arrived], by rw [hpend]; simp⟩
  rw [after_self]
  rfl

theorem complete_in_order {maxTolerableLatency : Int32} {b n : ℕ} {calls : List Call}
    (harr : Arrivals b n calls)
    (hrel : AllSteps (callStep Q nFuncPd) Relaxed (nmxpRawStreamInit maxTolerableLatency 0) calls) :
    ∃ p evs, manageAll Q nFuncPd (nmxpRawStreamInit maxTolerableLatency 0) calls = .ok (p, evs) ∧
      InOrder nFuncPd b n p evs := by
  set init := nmxpRawStreamInit maxTolerableLatency 0 with hinit
  have hrange : ∀ s, ∀ c ∈ calls, (fun (_ : NmxpRawStreamData) (c : Call) =>
      ∃ x, c.pd = some x ∧ 0 ≤ seqNum x ∧ seqNum x ≤ b + n) s c := by
    intro s c hc
    obtain ⟨x, hx⟩ := Option.isSome_iff_exists.mp (harr.packets c hc)
    refine ⟨x, hx, harr.range _ ?_⟩
    exact List.mem_map_of_mem (List.mem_filterMap.mpr ⟨c, hc, hx⟩)
  have hsteps := hrel.and (allSteps_of_forall hrange init)
  rcases calls with _ | ⟨c, cs⟩
  · exact absurd harr.first (by simp [arrived])
  -- the first call, which starts from `b - 1`
  obtain ⟨⟨hrel0, x, hx, hx0, hxn⟩, hrest⟩ := hsteps
  have hxb : seqNum x = b := by
    have := harr.first
    simpa [arrived, hx] using this
  have hnn : NonNeg c := fun y hy => by rw [hx] at hy; cases hy; exact hx0
  have hinv : StreamOK init := by
    rcases init_cases maxTolerableLatency 0 with ⟨-, h⟩ | ⟨-, h⟩
    · exact h
    · exact absurd hrel0.1 (by rw [← hinit] at h; rw [h.nPdlist]; exact not_lt.mpr h.max)
  obtain ⟨s1, o1, sent, stale, h1, hok⟩ := callStep_ok Q nFuncPd hinv hnn
  obtain ⟨hprog, hgap⟩ := progress_step ⟨hx0, hxn⟩ hx hrel0 (progress_init hinv hxb) hok
  have hb1 : (b : ℤ) ≤ s1.lastSeqNoSent.toInt := by
    have := hgap b (by simp [arrived, hx, hxb])
    have := hprog.ge
    omega
  -- the other calls, which start from the last number
  obtain ⟨p, o, hrun, hfinal, -⟩ := run_ok
    (fun s done tr => Progress nFuncPd b n s.lastSeqNoSent.toInt s done tr ∧
      (b : ℤ) ≤ s.lastSeqNoSent.toInt)
    (fun s done tr c' h hc' => progress_later h.1 h.2 hc'.1 hc'.2) [c] o1 ⟨hprog, hb1⟩
    (hrest s1 o1 h1)
  obtain ⟨hlast, hpend⟩ := progress_done hfinal harr
  refine ⟨p, o1 ++ o, run_cons_eq_ok.mpr ⟨s1, o1, o, h1, hrun, rfl⟩, fun i hi => ?_, hlast, ?_⟩
  · rw [hfinal.handed i hi, hlast, after_eq_range]
  · rw [hfinal.inv.holds.count, hpend]
    rfl

/-- **Reordering transparency.** Relaxed runs over the same numbers, in whatever order they arrive
after the first and however often, deliver each number once and in order; so any two deliver the
same. -/
theorem reorder_transparent (Q : Qsort) (nFuncPd : ℕ) (maxTolerableLatency : Int32) (b n : ℕ)
    (calls : List Call) (harr : Arrivals b n calls)
    (hrel : AllSteps (callStep Q nFuncPd) Relaxed (nmxpRawStreamInit maxTolerableLatency 0)
      calls) :
    ∃ p evs, manageAll Q nFuncPd (nmxpRawStreamInit maxTolerableLatency 0) calls = .ok (p, evs) ∧
      InOrder nFuncPd b n p evs ∧
      ∀ calls', Arrivals b n calls' →
        AllSteps (callStep Q nFuncPd) Relaxed (nmxpRawStreamInit maxTolerableLatency 0) calls' →
        ∃ p' evs', manageAll Q nFuncPd (nmxpRawStreamInit maxTolerableLatency 0) calls' =
            .ok (p', evs') ∧ InOrder nFuncPd b n p' evs' ∧
          ∀ i < nFuncPd, (handedTo i evs').map seqNum = (handedTo i evs).map seqNum := by
  obtain ⟨p, evs, hrun, hin⟩ := complete_in_order harr hrel
  refine ⟨p, evs, hrun, hin, fun calls' harr' hrel' => ?_⟩
  obtain ⟨p', evs', hrun', hin'⟩ := complete_in_order harr' hrel'
  exact ⟨p', evs', hrun', hin', fun i hi => by rw [hin.handed i hi, hin'.handed i hi]⟩

/-- Packets 5, 7, 3, 7 and 6: a gap, a stale number and a repetition. -/
def shuffled : List Call := inTime [5, 7, 3, 7, 6]

theorem reorder_transparent_shuffled : ∃ p evs,
    manageAll insertion 2 (nmxpRawStreamInit 10 0) shuffled = .ok (p, evs) ∧
      InOrder 2 5 2 p evs := by
  have harr : Arrivals 5 2 shuffled := by
    refine ⟨by decide, by decide, by decide, fun v h1 h2 => ?_⟩
    obtain rfl | rfl : v = 6 ∨ v = 7 := by omega
    · decide
    · decide
  obtain ⟨p, evs, hrun, hin, -⟩ := reorder_transparent insertion 2 10 5 2 shuffled harr
    (by decide +kernel)
  exact ⟨p, evs, hrun, hin⟩

/-! ### Late packets -/

/-- Everything delivered so far lies between 0 and the last number. -/
theorem sent_le_last {maxTolerableLatency timeoutrecv : Int32} {calls : List Call}
    (hcalls : ∀ c ∈ calls, NonNeg c)
    (hrun : manageAll Q nFuncPd (nmxpRawStreamInit maxTolerableLatency timeoutrecv) calls =
      .ok (p, evs)) (hsent : sentOf evs ≠ []) :
    StreamOK p ∧ ∀ v ∈ (sentOf evs).map seqNum, 0 ≤ v ∧ v ≤ p.lastSeqNoSent.toInt := by
  have h := run_induction (fun _ _ h => h)
    (fun s tr => ∀ v ∈ (sentOf tr).map seqNum, 0 ≤ v ∧ v ≤ s.lastSeqNoSent.toInt)
    (init_ok _ _) (by simp [sentOf]) ?_ (allSteps_nonNeg hcalls _) hrun
  · rcases h with ⟨-, rfl⟩ | h
    · exact absurd rfl hsent
    · exact h
  · intro s tr c s' o sent stale hs hc hle hok v hv
    obtain ⟨freed, hseen, -⟩ := hok.seen
    have hb := bufOK_entry hs c.pd
    have h1 := last_le_entryLast hs hc
    have h2 := neg_one_le_entryLast hs hc
    have h3 := hok.step.last_le hb
    dsimp only [toBuf] at h3
    rw [sentOf_append, List.map_append, hseen.sent] at hv
    rcases List.mem_append.mp hv with hv | hv
    · have := hle v hv
      omega
    · have := hok.step.sent_mem hb hv
      dsimp only [toBuf] at this
      omega

/-- The forced first item has a higher number than the packet that arrives with the same call. -/
def OvertakenBy (clock : Clock) (p : NmxpRawStreamData) (a : Pd) : Prop :=
  Forced clock p ∧ ∃ y ys, pending p = y :: ys ∧ a.seqNo < y.seqNo

/-- **Late fillers.** In a reachable state in which something was delivered, a packet above the last
number is delivered or waits after the call that takes it exactly when the call does not force an
item with a higher number out first. -/
theorem late_filler_iff (Q : Qsort) (nFuncPd : ℕ) (maxTolerableLatency : Int32) (calls : List Call)
    (hcalls : ∀ c ∈ calls, NonNeg c) (p : NmxpRawStreamData) (evs : List Event)
    (hrun : manageAll Q nFuncPd (nmxpRawStreamInit maxTolerableLatency 0) calls = .ok (p, evs))
    (hsent : sentOf evs ≠ []) (clock : Clock) (a : Pd) (ha : p.lastSeqNoSent < a.seqNo) :
    ∃ q o, nmxpRawStreamManage Q nFuncPd clock p (some a) = .ok (q, o) ∧
      ((∃ x ∈ sentOf (evs ++ o) ++ pending q, x.seqNo = a.seqNo) ↔ ¬ OvertakenBy clock p a) := by
  obtain ⟨hp, hle⟩ := sent_le_last hcalls hrun hsent
  have ha' : p.lastSeqNoSent.toInt < seqNum a := Int32.lt_iff_toInt_lt.mp ha
  have hlast : 0 ≤ p.lastSeqNoSent.toInt := by
    obtain ⟨x, hx⟩ := List.exists_mem_of_ne_nil _ hsent
    have := hle _ (List.mem_map_of_mem hx)
    omega
  have hentry : entryLast p (some a) = p.lastSeqNoSent.toInt := by
    simp only [entryLast, eq_neg_one_iff, if_neg (show p.lastSeqNoSent.toInt ≠ -1 by omega)]
  obtain ⟨q, o, sent, stale, h, hok⟩ := manage_ok Q nFuncPd clock hp (some a) (by
    rintro x ⟨⟩
    omega)
  obtain ⟨freed, hseen, -⟩ := hok.seen
  have hiff := hok.step.filler_iff (bufOK_entry hp (some a)) (by
    rw [hentry, seqNum_copyPd]; exact ha')
  refine ⟨q, o, h, ?_⟩
  have hover : OvertakenBy clock p a ↔
      Overtaken seqNum (Forced clock p) (copyPd a) (pending p) := by
    simp only [OvertakenBy, Overtaken, Int32.lt_iff_toInt_lt]
    rfl
  rw [hover, ← hiff]
  -- what was delivered before has other numbers
  constructor
  · rintro ⟨x, hx, he⟩
    have he' : seqNum x = seqNum (copyPd a) := congrArg Int32.toInt he
    rw [sentOf_append, hseen.sent, List.append_assoc] at hx
    rcases List.mem_append.mp hx with hx | hx
    · have := hle _ (List.mem_map_of_mem hx)
      rw [he', seqNum_copyPd] at this
      omega
    · exact ⟨x, hx, he'⟩
  · rintro ⟨x, hx, he⟩
    refine ⟨x, ?_, Int32.toInt_inj.mp he⟩
    rw [sentOf_append, hseen.sent, List.append_assoc]
    exact List.mem_append_right _ hx

/-- Packets 5 and 10, of which the second waits. -/
def gapped : List Call := inTime [5, 10]

/-- Packet 7 comes when packet 10 is 100 seconds old, and is lost. -/
theorem late_filler_lost : (∀ c ∈ gapped, NonNeg c) ∧ ∃ p evs q o,
    manageAll insertion 1 (nmxpRawStreamInit 1 0) gapped = .ok (p, evs) ∧ sentOf evs ≠ [] ∧
      p.lastSeqNoSent < (numbered 7).seqNo ∧
      nmxpRawStreamManage insertion 1 (fun _ => 100) p (some (numbered 7)) = .ok (q, o) ∧
      ¬ ∃ x ∈ sentOf (evs ++ o) ++ pending q, x.seqNo = (numbered 7).seqNo := by
  refine ⟨nonNeg_inTime rfl, ?_⟩
  have h : (manageAll insertion 1 (nmxpRawStreamInit 1 0) gapped >>= fun r =>
      (nmxpRawStreamManage insertion 1 (fun _ => 100) r.1 (some (numbered 7))).map fun s =>
        (r.1.lastSeqNoSent, sentOf r.2,
          (sentOf (r.2 ++ s.2) ++ pending s.1).map NmxpDataProcess.seqNo)) =
      .ok (5, [numbered 5], [5, 10]) := by decide +kernel
  obtain ⟨⟨p, evs⟩, hrun, h⟩ := bind_eq_ok.mp h
  obtain ⟨⟨q, o⟩, hcall, h⟩ := map_eq_ok.mp h
  simp only [Prod.mk.injEq] at h
  obtain ⟨hlast, hsent, hnums⟩ := h
  refine ⟨p, evs, q, o, hrun, by rw [hsent]; simp, by rw [hlast]; decide, hcall, ?_⟩
  rintro ⟨x, hx, he⟩
  have := List.mem_map_of_mem (f := NmxpDataProcess.seqNo) hx
  rw [hnums, he] at this
  exact absurd this (by decide)

/-- In time, packet 7 waits with packet 10. -/
theorem late_filler_iff_in_time : ∃ p evs q o,
    manageAll insertion 1 (nmxpRawStreamInit 1 0) gapped = .ok (p, evs) ∧
      nmxpRawStreamManage insertion 1 (fun _ => 0) p (some (numbered 7)) = .ok (q, o) ∧
      ¬ OvertakenBy (fun _ => 0) p (numbered 7) ∧
      ∃ x ∈ sentOf (evs ++ o) ++ pending q, x.seqNo = (numbered 7).seqNo := by
  have h : (manageAll insertion 1 (nmxpRawStreamInit 1 0) gapped).map
      (fun r => (r.1.lastSeqNoSent, sentOf r.2,
        decide (MustForce r.1 (nmxpDataLatency 0 (pending r.1).head?)))) =
      .ok (5, [numbered 5], false) := by decide +kernel
  obtain ⟨⟨p, evs⟩, hrun, h⟩ := map_eq_ok.mp h
  simp only [Prod.mk.injEq, decide_eq_false_iff_not] at h
  obtain ⟨hlast, hsent, hforced⟩ := h
  obtain ⟨q, o, hcall, hiff⟩ := late_filler_iff insertion 1 1 gapped
    (nonNeg_inTime rfl) p evs hrun (by rw [hsent]; simp) (fun _ => 0)
    (numbered 7) (by rw [hlast]; decide)
  have hfree : ¬ OvertakenBy (fun _ => 0) p (numbered 7) := fun h => hforced h.1
  exact ⟨p, evs, q, o, hrun, hcall, hfree, hiff.mpr hfree⟩

end Nmxptool.RawStream.Reorder
