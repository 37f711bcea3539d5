import Nmxptool.RawStream.Slots
import Nmxptool.Lib.Resequencer

/-! # One call of `nmxp_raw_stream_manage`

`StreamOK` is what holds of a Raw Stream between calls. `manage_ok`: from such a state a call with a
packet of non-negative number, or with NULL, does not fault, leads to such a state, and does to the
numbers what a step of the abstract resequencer does. Everything said of runs follows from this. -/

namespace Nmxptool.RawStream.Manage

open Nmxptool.Data.Process Nmxptool.Lib.Floating Nmxptool.Lib.Run Nmxptool.Lib.Sorting
open Nmxptool.Lib.Drain
open Nmxptool.Lib.Resequencer Nmxptool.RawStream.Model Nmxptool.RawStream.Slots

/-- The array holds the packets `l` in its first slots, which are those in use. -/
structure Holds (p : NmxpRawStreamData) (l : List Pd) : Prop where
  slots : ∃ junk, p.pdlist = l.map some ++ junk
  count : p.nPdlist = l.length

theorem Holds.pending_eq {p : NmxpRawStreamData} {l : List Pd} (h : Holds p l) :
    pending p = l := by
  obtain ⟨junk, hj⟩ := h.slots
  unfold pending
  rw [hj, h.count]
  simp [List.filterMap_map]

/-- The state as a buffer of the resequencer. -/
def toBuf (p : NmxpRawStreamData) : Buf Pd := ⟨p.lastSeqNoSent.toInt, pending p⟩

/-- The sizes and limits, which no call changes. -/
structure SameLimits (p q : NmxpRawStreamData) : Prop where
  maxPdlistItems : q.maxPdlistItems = p.maxPdlistItems
  maxTolerableLatency : q.maxTolerableLatency = p.maxTolerableLatency
  timeoutrecv : q.timeoutrecv = p.timeoutrecv
  length : q.pdlist.length = p.pdlist.length

theorem SameLimits.trans {p q r : NmxpRawStreamData} (h : SameLimits p q) (h' : SameLimits q r) :
    SameLimits p r :=
  ⟨h'.1.trans h.1, h'.2.trans h.2, h'.3.trans h.3, h'.4.trans h.4⟩

/-- **The representation invariant.** -/
structure StreamOK (p : NmxpRawStreamData) : Prop where
  positive : 0 < p.maxPdlistItems.toInt
  capacity : p.pdlist.length = p.maxPdlistItems.toInt.toNat
  holds : Holds p (pending p)
  bufOK : (toBuf p).OK seqNum
  nonneg : ∀ x ∈ pending p, 0 ≤ seqNum x
  last : -1 ≤ p.lastSeqNoSent.toInt
  empty : p.lastSeqNoSent.toInt = -1 → pending p = []

/-- The time does not matter to it. -/
theorem StreamOK.withTime {p : NmxpRawStreamData} (h : StreamOK p) (t : Double) :
    StreamOK { p with lastSampleTime := t } :=
  ⟨h.positive, h.capacity, ⟨h.holds.slots, h.holds.count⟩, ⟨h.bufOK.sorted, h.bufOK.gap⟩,
    h.nonneg, h.last, h.empty⟩

/-- The number sent last that a call with `a` starts from. -/
def entryLast (p : NmxpRawStreamData) : Option Pd → ℤ
  | some x =>
    if p.lastSeqNoSent = -1 then if p.timeoutrecv = 0 then seqNum x - 1 else 0
    else p.lastSeqNoSent.toInt
  | none => p.lastSeqNoSent.toInt

/-- The call handles the first item whatever its number. -/
def Forced (clock : Clock) (p : NmxpRawStreamData) : Prop :=
  MustForce p (nmxpDataLatency (clock .decision) (pending p).head?)

/-! ### The parts -/

variable {p : NmxpRawStreamData} {l : List Pd}

theorem firstLatency_ok (clock : Clock) (h : Holds p l) :
    firstLatency clock p = .ok (nmxpDataLatency (clock .decision) l.head?) := by
  obtain ⟨junk, hj⟩ := h.slots
  unfold firstLatency
  rcases l with _ | ⟨x, xs⟩
  · rw [if_neg (by rw [h.count]; simp)]; rfl
  · have hd : derefSlot p.pdlist (0 : ℕ) = .ok x := derefSlot_ok (by rw [hj]; rfl)
    rw [if_pos (by rw [h.count]; simp)]
    rw [Nat.cast_zero] at hd
    rw [hd]; rfl

/-- Without a forced delivery there is a free slot. -/
theorem lt_of_not_mustForce {latency : Double} (h : ¬ MustForce p latency) :
    p.nPdlist < p.maxPdlistItems.toInt := by
  unfold MustForce at h
  rcases Int32.lt_or_le 0 p.timeoutrecv with ht | ht
  · by_contra hn
    exact h (Or.inr ⟨not_lt.mp hn, ht⟩)
  · by_contra hn
    exact h (Or.inl ⟨Or.inl (not_lt.mp hn), ht⟩)

/-- What the part before the sort leaves: the slots in use are `base`, some of which may be NULL. -/
structure Filed (nFuncPd : ℕ) (force : Prop) (p : NmxpRawStreamData) (l : List Pd) (a : Option Pd)
    (q : NmxpRawStreamData) (evs : List Event) (base : Slots) (front : List Pd) (mid : Buf Pd) :
    Prop where
  limits : SameLimits p q
  slots : ∃ junk, q.pdlist = base ++ junk
  count : q.nPdlist = base.length
  seen : Seen nFuncPd evs front [] front
  front : Front seqNum force ⟨p.lastSeqNoSent.toInt, l⟩ front mid
  last : mid.last = q.lastSeqNoSent.toInt
  perm : (base.filterMap id).Perm (a.toList ++ mid.items)

/-- A free slot behind the packets. -/
theorem free_slot {junk : Slots} (hj : p.pdlist = l.map some ++ junk)
    (h : l.length < p.pdlist.length) : ∃ v junk', junk = v :: junk' := by
  rcases junk with _ | ⟨v, junk⟩
  · rw [hj, List.append_nil, List.length_map] at h
    exact absurd h (lt_irrefl _)
  · exact ⟨v, junk, rfl⟩

theorem appendPd_ok (nFuncPd : ℕ) (force : Prop) (hf : force → l = []) (a : Option Pd)
    (h : Holds p l) (hlt : l.length < p.pdlist.length) : ∃ q base,
    appendPd p a = .ok q ∧
      Filed nFuncPd force p l a q [] base [] ⟨p.lastSeqNoSent.toInt, l⟩ := by
  obtain ⟨junk, hj⟩ := h.slots
  rcases a with _ | a
  · refine ⟨p, l.map some, rfl, ⟨rfl, rfl, rfl, rfl⟩, ⟨junk, hj⟩, by simpa using h.count,
      seen_nil _, .keep hf, rfl, ?_⟩
    simp [List.filterMap_map]
  · obtain ⟨v, junk, rfl⟩ := free_slot hj hlt
    have hw : writeSlot p.pdlist p.nPdlist (some a) = .ok ((l ++ [a]).map some ++ junk) := by
      rw [h.count, writeSlot_ok hlt, hj]
      simp [List.set_append_right]
    refine ⟨{ p with nPdlist := p.nPdlist + 1, pdlist := (l ++ [a]).map some ++ junk },
      (l ++ [a]).map some, by simp only [appendPd, hw, ok_bind, pure_eq_ok],
      ⟨rfl, rfl, rfl, by simp [hj]⟩, ⟨junk, rfl⟩, by simp [h.count], seen_nil _, .keep hf, rfl, ?_⟩
    simp only [List.filterMap_map, Function.comp_def, id_eq, List.filterMap_some]
    exact List.perm_append_comm

theorem forceFirst_ok (nFuncPd : ℕ) (clock : Clock) {force : Prop} (hf : force) (a : Option Pd)
    (h : Holds p l) (hlt : 0 < p.pdlist.length) (hl : ∀ x ∈ l, Comparable p.lastSeqNoSent.toInt x)
    (hgap : ∀ x ∈ l, p.lastSeqNoSent.toInt + 2 ≤ seqNum x) : ∃ q evs base front mid,
    forceFirst nFuncPd clock p a = .ok (q, evs) ∧
      Filed nFuncPd force p l a q evs base front mid := by
  obtain ⟨junk, hj⟩ := h.slots
  rcases l with _ | ⟨x, xs⟩
  · -- an empty buffer: the packet goes into slot 0, as `appendPd` would put it
    have hn : p.nPdlist = 0 := h.count
    obtain ⟨q, base, hq, hfiled⟩ := appendPd_ok nFuncPd force (fun _ => rfl) a h hlt
    refine ⟨q, [], base, [], _, ?_, hfiled⟩
    unfold forceFirst
    rw [if_neg (by omega)]
    unfold appendPd at hq
    rcases a with _ | a
    · simpa using hq
    · simp only [hn, zero_add, bind_eq_ok] at hq ⊢
      obtain ⟨slots, hw, hq⟩ := hq
      simp only [pure_eq_ok, Except.ok.injEq] at hq
      exact ⟨slots, hw, by rw [← hq]; rfl⟩
  · have hn : 0 < p.nPdlist := by rw [h.count]; simp
    have hd : derefSlot p.pdlist (0 : ℕ) = .ok x := derefSlot_ok (by rw [hj]; rfl)
    have hw : writeSlot p.pdlist (0 : ℕ) a = .ok (a :: (xs.map some ++ junk)) := by
      rw [writeSlot_ok (by rw [hj]; simp), hj]; rfl
    have hx := hgap x (List.mem_cons_self ..)
    have hdiff : 0 < x.seqNo - p.lastSeqNoSent := by
      rw [Int32.lt_iff_toInt_lt, seqNoDiff_eq (hl x (List.mem_cons_self ..)),
        show (0 : Int32).toInt = 0 from rfl]
      omega
    rw [Nat.cast_zero] at hd hw
    refine ⟨{ noteSent (clock .forced) p x with pdlist := a :: (xs.map some ++ junk) }, _,
      a :: xs.map some, [x], ⟨seqNum x, xs⟩, ?_, ⟨rfl, rfl, rfl, by simp [hj]⟩, ⟨junk, rfl⟩,
      by simp [noteSent, h.count], (seen_sent nFuncPd x).append (seen_freed nFuncPd [x]),
      .forced hf, rfl, ?_⟩
    · unfold forceFirst
      simp only [if_pos hn, hd, hw, ok_bind, if_pos hdiff, pure_eq_ok]
      rfl
    · rcases a with _ | a <;> simp [List.filterMap_map]

theorem addPd_ok (nFuncPd : ℕ) (clock : Clock) (latency : Double) (a : Option Pd) (h : Holds p l)
    (hpos : 0 < p.maxPdlistItems.toInt) (hcap : p.pdlist.length = p.maxPdlistItems.toInt.toNat)
    (hl : ∀ x ∈ l, Comparable p.lastSeqNoSent.toInt x)
    (hgap : ∀ x ∈ l, p.lastSeqNoSent.toInt + 2 ≤ seqNum x) : ∃ q evs base front mid,
    addPd nFuncPd clock latency p a = .ok (q, evs) ∧
      Filed nFuncPd (MustForce p latency) p l a q evs base front mid := by
  unfold addPd
  by_cases hf : MustForce p latency
  · rw [if_pos hf]
    exact forceFirst_ok nFuncPd clock hf a h (by omega) hl hgap
  · have hlt := lt_of_not_mustForce hf
    rw [h.count] at hlt
    obtain ⟨q, base, hq, hfiled⟩ := appendPd_ok nFuncPd _ (fun h => absurd h hf) a h (by omega)
    exact ⟨q, [], base, [], _, by rw [if_neg hf, hq]; rfl, hfiled⟩

theorem compactAndSort_ok (Q : Qsort) {base : Slots} (hs : ∃ junk, p.pdlist = base ++ junk)
    (hn : p.nPdlist = base.length) : ∃ q s, compactAndSort Q p = .ok q ∧ SameLimits p q ∧
      q.lastSeqNoSent = p.lastSeqNoSent ∧ Holds q s ∧ s.Perm (base.filterMap id) ∧
      s.Pairwise (seqNum · ≤ seqNum ·) := by
  obtain ⟨junk, hj⟩ := hs
  obtain ⟨count, junk', h1, h2, h3⟩ := removeNulls_ok [] base junk
  obtain ⟨s, h4, hp, hsort⟩ := sortSlots_ok Q (base.filterMap id) junk'
  simp only [List.length_nil, List.map_nil, List.nil_append] at h1
  have hcount : p.nPdlist - count = (base.filterMap id).length := by rw [hn]; omega
  refine ⟨{ p with nPdlist := p.nPdlist - count, pdlist := s.map some ++ junk' }, s, ?_,
    ⟨rfl, rfl, rfl, ?_⟩, rfl, ⟨⟨junk', rfl⟩, ?_⟩, hp, hsort⟩
  · unfold compactAndSort
    rw [hj, hn, Int.toNat_natCast, h1]
    simp only [ok_bind]
    rw [← hn, hcount, h4]
    rfl
  · have := hp.length_eq
    simp [hj]; omega
  · rw [hp.length_eq]; exact hcount

theorem rewind_ok (clock : Clock) {s : List Pd} (a : Option Pd) (h : Holds p s)
    (hnn : ∀ x ∈ s, 0 ≤ seqNum x) : ∃ q,
    rewind clock p a = .ok q ∧ SameLimits p q ∧ Holds q s ∧
      q.lastSeqNoSent.toInt = startAt seqNum a p.lastSeqNoSent.toInt s := by
  obtain ⟨junk, hj⟩ := h.slots
  rcases a with _ | a
  · rcases s with _ | ⟨x, xs⟩
    · refine ⟨p, ?_, ⟨rfl, rfl, rfl, rfl⟩, h, rfl⟩
      unfold rewind
      rw [if_neg (by rw [h.count]; simp)]
      rfl
    · have hd : derefSlot p.pdlist (0 : ℕ) = .ok x := derefSlot_ok (by rw [hj]; rfl)
      rw [Nat.cast_zero] at hd
      have hn : (none : Option Pd).isNone ∧ 0 < p.nPdlist := ⟨rfl, by rw [h.count]; simp⟩
      refine ⟨{ p with
        lastSeqNoSent := x.seqNo - 1
        lastSampleTime := .finite x.time
        lastLatency := nmxpDataLatency (clock .timeout) (some x) }, ?_, ⟨rfl, rfl, rfl, rfl⟩,
        ⟨⟨junk, hj⟩, h.count⟩, ?_⟩
      · unfold rewind
        rw [if_pos hn, hd]
        rfl
      · have hx := hnn x (List.mem_cons_self ..)
        unfold seqNum at hx
        exact toInt_sub_one (by omega)
  · exact ⟨p, by unfold rewind; rw [if_neg (by simp)]; rfl, ⟨rfl, rfl, rfl, rfl⟩, h, rfl⟩

theorem sendAndShift_ok (nFuncPd : ℕ) (clock : Clock) {s : List Pd} (h : Holds p s)
    (hs : s.Pairwise (seqNum · ≤ seqNum ·))
    (hc : ∀ x ∈ s, Comparable p.lastSeqNoSent.toInt x) {d : Drained Pd}
    (hd : d = drain seqNum p.lastSeqNoSent.toInt s) : ∃ q evs freed,
    sendAndShift nFuncPd clock p = .ok (q, evs) ∧ SameLimits p q ∧ Holds q d.rest ∧
      q.lastSeqNoSent.toInt = d.last ∧ Seen nFuncPd evs d.sent d.stale freed ∧
      freed.Perm (d.sent ++ d.stale) := by
  obtain ⟨junk, hj⟩ := h.slots
  obtain ⟨t, hst, hlen, hperm⟩ := (drain_ok seqNum p.lastSeqNoSent.toInt s hs).split
  obtain ⟨j, q, evs, hloop, hsame, hjr, hlast, hseen⟩ :=
    sendLoop_ok nFuncPd clock [] s junk p (by simpa using hj) hc
  rw [← hd] at hst hlen hperm hjr hlast hseen
  have hjt : j = t.length := by
    have := congrArg List.length hst
    simp only [List.length_append, List.length_nil] at this hjr
    omega
  have hn : p.nPdlist.toNat = t.length + d.rest.length := by
    rw [h.count, Int.toNat_natCast, hst, List.length_append]
  rw [List.length_nil] at hloop
  unfold sendAndShift
  rw [h.count, Int.toNat_natCast, hloop]
  simp only [ok_bind]
  subst hjt
  by_cases ht : 0 < t.length
  · obtain ⟨junk', hshift, hl'⟩ := shiftFree_ok (t := d.rest) junk ht
    have hqn : q.nPdlist.toNat = t.length + d.rest.length := by rw [hsame.nPdlist, hn]
    have hqd : q.pdlist = (t ++ d.rest).map some ++ junk := by rw [hsame.pdlist, hj, ← hst]
    rw [if_pos ht, hqn, hqd, hshift]
    refine ⟨_, _, t, rfl, ⟨hsame.1, hsame.2, hsame.3, ?_⟩, ⟨⟨junk', rfl⟩, ?_⟩, hlast, ?_, hperm⟩
    · rw [hj, hst]; simp; omega
    · dsimp only
      rw [hsame.nPdlist, h.count, hst]; simp
    · simpa using hseen.append (seen_freed nFuncPd t)
  · obtain rfl : t = [] := List.length_eq_zero_iff.mp (by omega)
    rw [if_neg ht]
    refine ⟨q, evs, [], rfl, ⟨hsame.1, hsame.2, hsame.3, by rw [hsame.pdlist]⟩,
      ⟨⟨junk, ?_⟩, ?_⟩, hlast, hseen, hperm⟩
    · rw [hsame.pdlist, hj, hst]; rfl
    · rw [hsame.nPdlist, h.count, hst]; rfl
/-! ### The whole call -/

theorem seqNum_copyPd (x : Pd) : seqNum (copyPd x) = seqNum x := rfl

theorem mem_copied {a : Option Pd} {x : Pd} :
    x ∈ (a.map copyPd).toList ↔ ∃ y ∈ a, copyPd y = x := by
  simp

theorem eq_neg_one_iff {v : Int32} : v = -1 ↔ v.toInt = -1 := by
  rw [← Int32.toInt_inj]; rfl

theorem comparable_of_nonneg {last : ℤ} {x : Pd} (hl : 0 ≤ last) (hx : 0 ≤ seqNum x) :
    Comparable last x := by
  have := x.seqNo.toInt_lt
  exact ⟨hx, by unfold seqNum; omega⟩

theorem firstTime_same (clock : Clock) (p : NmxpRawStreamData) (x : Pd) :
    SameButLast p (firstTime clock p x) := by
  unfold firstTime
  split_ifs <;> exact ⟨rfl, rfl, rfl, rfl, rfl⟩

theorem firstTime_last (clock : Clock) (p : NmxpRawStreamData) {x : Pd} (hx : 0 ≤ seqNum x) :
    (firstTime clock p (copyPd x)).lastSeqNoSent.toInt = entryLast p (some x) := by
  unfold firstTime entryLast
  split_ifs
  · unfold seqNum at *
    exact toInt_sub_one (by rw [show (copyPd x).seqNo = x.seqNo from rfl]; omega)
  · rfl
  · rfl

/-- The number a call starts from is −1 only before the very first packet, if that has number 0. -/
theorem entryLast_eq_neg_one (hp : StreamOK p) {a : Option Pd} (h : entryLast p a = -1) :
    pending p = [] ∧ ∀ x ∈ a, seqNum x = 0 := by
  rcases a with _ | x
  · exact ⟨hp.empty h, by simp⟩
  · simp only [entryLast, eq_neg_one_iff] at h
    split_ifs at h with h1 h2
    · exact ⟨hp.empty h1, fun y hy => by cases hy; omega⟩
    · omega

theorem neg_one_le_entryLast (hp : StreamOK p) {a : Option Pd} (ha : ∀ x ∈ a, 0 ≤ seqNum x) :
    -1 ≤ entryLast p a := by
  rcases a with _ | x
  · exact hp.last
  · have := ha x rfl
    have := hp.last
    simp only [entryLast]
    split_ifs <;> omega

theorem bufOK_entry (hp : StreamOK p) (a : Option Pd) :
    (Buf.mk (entryLast p a) (pending p)).OK seqNum := by
  refine ⟨hp.bufOK.sorted, fun x hx => ?_⟩
  have hne : p.lastSeqNoSent.toInt ≠ -1 := fun h => by
    have hx : x ∈ pending p := hx
    rw [hp.empty h] at hx
    simp at hx
  have he : entryLast p a = p.lastSeqNoSent.toInt := by
    rcases a with _ | y
    · rfl
    · simp only [entryLast, eq_neg_one_iff, if_neg hne]
  rw [show (Buf.mk (entryLast p a) (pending p)).last = p.lastSeqNoSent.toInt from he]
  exact hp.bufOK.gap x hx

/-- The numbers that the send loop compares do not overflow. -/
theorem comparable_startAt (hp : StreamOK p) {a : Option Pd} (ha : ∀ x ∈ a, 0 ≤ seqNum x)
    {force : Prop} {front s : List Pd} {mid : Buf Pd}
    (hf : Front seqNum force ⟨entryLast p a, pending p⟩ front mid)
    (hs : s.Perm ((a.map copyPd).toList ++ mid.items)) :
    ∀ x ∈ s, Comparable (startAt seqNum (a.map copyPd) mid.last s) x := by
  have hb := bufOK_entry hp a
  have hle := neg_one_le_entryLast hp ha
  have hmid : ∀ x ∈ mid.items, 1 ≤ seqNum x := by
    intro x hx
    have := hb.gap x (hf.mem_items hx)
    dsimp only at this
    omega
  have hnn : ∀ x ∈ s, 0 ≤ seqNum x := by
    intro x hx
    rcases List.mem_append.mp (hs.mem_iff.mp hx) with hx | hx
    · obtain ⟨y, hy, rfl⟩ := mem_copied.mp hx
      exact ha y hy
    · have := hmid x hx; omega
  intro x hx
  rcases a with _ | y
  · rcases s with _ | ⟨z, zs⟩
    · simp at hx
    · have := hmid z (by simpa using hs.mem_iff.mp (List.mem_cons_self ..))
      exact comparable_of_nonneg (by simp only [Option.map_none, startAt]; omega) (hnn x hx)
  · rw [Option.map_some, startAt_some]
    rcases hf.last_eq with rfl | ⟨z, hz, he⟩
    · rcases hle.eq_or_lt with he | hlt
      · obtain ⟨hnil, hy⟩ := entryLast_eq_neg_one hp he.symm
        have hxy : x = copyPd y := by
          have := hs.mem_iff.mp hx
          simpa [hnil] using this
        have := hy y rfl
        rw [hxy]
        exact ⟨by rw [seqNum_copyPd]; omega, by rw [seqNum_copyPd]; dsimp only; omega⟩
      · exact comparable_of_nonneg (by dsimp only; omega) (hnn x hx)
    · have := hb.gap z hz
      dsimp only at this
      exact comparable_of_nonneg (by omega) (hnn x hx)

/-- **What a call does.** `sent` is what is delivered, `stale` what is discarded. -/
structure CallOK (nFuncPd : ℕ) (clock : Clock) (p : NmxpRawStreamData) (a : Option Pd)
    (q : NmxpRawStreamData) (evs : List Event) (sent stale : List Pd) : Prop where
  inv : StreamOK q
  limits : SameLimits p q
  step : Step seqNum (Forced clock p) (a.map copyPd) ⟨entryLast p a, pending p⟩ (toBuf q)
    sent stale
  seen : ∃ freed, Seen nFuncPd evs sent stale freed ∧ freed.Perm (sent ++ stale)

/-- The invariant after a step of the resequencer. -/
theorem inv_of_step (hp : StreamOK p) {a : Option Pd} (ha : ∀ x ∈ a, 0 ≤ seqNum x) {force : Prop}
    {q : NmxpRawStreamData} {sent stale : List Pd} (hq : SameLimits p q) (hh : Holds q (pending q))
    (h : Step seqNum force (a.map copyPd) ⟨entryLast p a, pending p⟩ (toBuf q) sent stale) :
    StreamOK q := by
  have hb := bufOK_entry hp a
  have hle := h.last_le hb
  have hlo := neg_one_le_entryLast hp ha
  refine ⟨by rw [hq.maxPdlistItems]; exact hp.positive,
    by rw [hq.length, hq.maxPdlistItems]; exact hp.capacity, hh, h.ok, ?_, hlo.trans hle, ?_⟩
  · intro x hx
    rcases h.mem_items hx with hx | hx
    · obtain ⟨y, hy, rfl⟩ := mem_copied.mp hx
      exact ha y hy
    · exact hp.nonneg x hx
  · -- nothing was handed in yet: a packet with number 0 would have been sent
    intro hlast
    have hq1 : (toBuf q).last = -1 := hlast
    have hentry : entryLast p a = -1 := by dsimp only at hle; omega
    obtain ⟨hnil, hzero⟩ := entryLast_eq_neg_one hp hentry
    refine List.eq_nil_iff_forall_not_mem.mpr fun x hx => ?_
    have hgap := h.ok.gap x hx
    rcases h.mem_items hx with hx | hx
    · obtain ⟨y, hy, rfl⟩ := mem_copied.mp hx
      have := hzero y hy
      rw [seqNum_copyPd] at hgap
      omega
    · dsimp only at hx
      rw [hnil] at hx
      simp at hx

/-- The state after the part for the first packet. -/
theorem firstTime_ok (clock : Clock) (p : NmxpRawStreamData) {a : Option Pd}
    (ha : ∀ x ∈ a, 0 ≤ seqNum x) : ∃ p1, (a.map copyPd).elim p (firstTime clock p) = p1 ∧
      SameButLast p p1 ∧ p1.lastSeqNoSent.toInt = entryLast p a := by
  rcases a with _ | x
  · exact ⟨p, rfl, .refl p, rfl⟩
  · exact ⟨_, rfl, firstTime_same clock p _, firstTime_last clock p (ha x rfl)⟩

/-- Where something waits, the number to compare with is not negative. -/
theorem comparable_entry (hp : StreamOK p) {a : Option Pd} (ha : ∀ x ∈ a, 0 ≤ seqNum x) {x : Pd}
    (hx : x ∈ pending p) : Comparable (entryLast p a) x := by
  refine comparable_of_nonneg ?_ (hp.nonneg x hx)
  by_contra hneg
  have hle := neg_one_le_entryLast hp ha
  have hnil := (entryLast_eq_neg_one hp (a := a) (by omega)).1
  rw [hnil] at hx
  simp at hx

/-- **One call.** -/
theorem manage_ok (Q : Qsort) (nFuncPd : ℕ) (clock : Clock) (hp : StreamOK p) (a : Option Pd)
    (ha : ∀ x ∈ a, 0 ≤ seqNum x) : ∃ q evs sent stale,
    nmxpRawStreamManage Q nFuncPd clock p a = .ok (q, evs) ∧
      CallOK nFuncPd clock p a q evs sent stale := by
  -- the first packet
  obtain ⟨p1, hp1, hsame, hlast1⟩ := firstTime_ok clock p ha
  have hholds1 : Holds p1 (pending p) := by
    obtain ⟨⟨junk, hj⟩, hc⟩ := hp.holds
    exact ⟨⟨junk, by rw [hsame.pdlist, hj]⟩, by rw [hsame.nPdlist, hc]⟩
  have hforce : MustForce p1 (nmxpDataLatency (clock .decision) (pending p).head?) =
      Forced clock p := by
    simp only [Forced, MustForce, hsame.maxPdlistItems, hsame.maxTolerableLatency,
      hsame.timeoutrecv, hsame.nPdlist]
  have hb := bufOK_entry hp a
  -- the packet is filed
  obtain ⟨p2, evs, base, front, mid, hadd, hlim2, hslots2, hcount2, hseen2, hfront, hmid, hperm2⟩ :=
    addPd_ok nFuncPd clock (nmxpDataLatency (clock .decision) (pending p).head?) (a.map copyPd)
      hholds1 (by rw [hsame.maxPdlistItems]; exact hp.positive)
      (by rw [hsame.pdlist, hsame.maxPdlistItems]; exact hp.capacity)
      (fun x hx => by rw [hlast1]; exact comparable_entry hp ha hx)
      (fun x hx => by rw [hlast1]; exact hb.gap x hx)
  rw [hforce, hlast1] at hfront
  -- sorted, and the walk
  obtain ⟨p3, s, hsort, hlim3, hlast3, hholds3, hperm3, hsorted⟩ :=
    compactAndSort_ok Q hslots2 hcount2
  have hs := hperm3.trans hperm2
  have hcmp := comparable_startAt hp ha hfront hs
  obtain ⟨p4, hrew, hlim4, hholds4, hlast4⟩ :=
    rewind_ok clock (a.map copyPd) hholds3 fun x hx => (hcmp x hx).nonneg
  rw [hlast3, ← hmid] at hlast4
  obtain ⟨p5, evs', freed, hsend, hlim5, hholds5, hlast5, hseen5, hfreed⟩ :=
    sendAndShift_ok nFuncPd clock hholds4 hsorted (by rw [hlast4]; exact hcmp)
      (d := settle seqNum (a.map copyPd) mid.last s) (by rw [hlast4]; rfl)
  have hlim : SameLimits p p5 :=
    ((((⟨hsame.1, hsame.2, hsame.3, by rw [hsame.pdlist]⟩ : SameLimits p p1).trans
      hlim2).trans hlim3).trans hlim4).trans hlim5
  have hstep := hfront.step hs hsorted
  have hbuf : toBuf p5 = ⟨(settle seqNum (a.map copyPd) mid.last s).last,
      (settle seqNum (a.map copyPd) mid.last s).rest⟩ := by
    unfold toBuf
    rw [hholds5.pending_eq, hlast5]
  rw [← hbuf] at hstep
  refine ⟨p5, evs ++ evs', _, _, ?_, inv_of_step hp ha hlim ?_ hstep, hlim, hstep, front ++ freed,
    ?_, ?_⟩
  · unfold nmxpRawStreamManage
    simp only [hp1, firstLatency_ok clock hholds1, ok_bind, hadd, hsort, hrew, hsend, pure_eq_ok]
  · rw [hholds5.pending_eq]; exact hholds5
  · simpa using hseen2.append hseen5
  · rw [List.append_assoc]
    exact hfreed.append_left front

end Nmxptool.RawStream.Manage
