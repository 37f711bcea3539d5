import Nmxptool.RawStream.Model
import Nmxptool.Lib.Drain

/-! # The array manipulations, one at a time

What each part of `nmxp_raw_stream_manage` does to an array whose first slots hold the packets of a
list and whose other slots hold anything: `l.map some ++ junk`.

* `removeNulls_ok`: the compaction keeps the packets in order.
* `sortSlots_ok`: the sort rearranges the packets by sequence number.
* `sendLoop_ok`: the send loop is a `drain`.
* `shiftFree_ok`: the last loop frees the handled packets and moves the others to the front. -/

namespace Nmxptool.RawStream.Slots

open Nmxptool.Data.Process Nmxptool.Lib.Run Nmxptool.Lib.Sorting Nmxptool.Lib.Drain
open Nmxptool.RawStream.Model

/-- The sequence number of a packet as an integer. -/
def seqNum (pd : Pd) : ℤ := pd.seqNo.toInt

/-! ### Single accesses -/

variable {a : Slots} {k : ℕ}

theorem readSlot_ok {v : Option Pd} (h : a[k]? = some v) : readSlot a k = .ok v := by
  obtain ⟨hk, hv⟩ := List.getElem?_eq_some_iff.mp h
  have hc : (0 : ℤ) ≤ k ∧ (k : ℤ).toNat < a.length := ⟨by omega, by simpa using hk⟩
  unfold readSlot
  rw [dif_pos hc]
  simpa using hv

theorem writeSlot_ok (h : k < a.length) (v : Option Pd) :
    writeSlot a k v = .ok (a.set k v) := by
  have hc : (0 : ℤ) ≤ k ∧ (k : ℤ).toNat < a.length := ⟨by omega, by simpa using h⟩
  unfold writeSlot
  rw [if_pos hc]
  simp

theorem derefSlot_ok {x : Pd} (h : a[k]? = some (some x)) : derefSlot a k = .ok x := by
  simp [derefSlot, readSlot_ok h]

theorem writeSlot_error (h : a.length ≤ k) (v : Option Pd) :
    writeSlot a k v = .error .slotOutOfRange := by
  unfold writeSlot
  rw [if_neg (by simpa using h)]

theorem getElem?_map_some {l : List Pd} {junk : Slots} (hk : k < l.length) :
    (l.map some ++ junk)[k]? = some (some l[k]) := by
  rw [List.getElem?_append_left (by simpa using hk)]
  simp [hk]

/-! ### Compaction -/

theorem shiftArray_ok (pre : Slots) : ∀ (v : Option Pd) (mid junk : Slots), ∃ w,
    shiftArray mid.length (pre.length + 1) (pre ++ v :: mid ++ junk) =
      .ok (pre ++ mid ++ w :: junk) := by
  intro v mid
  induction mid generalizing pre v with
  | nil => exact fun junk => ⟨v, by simp [shiftArray]⟩
  | cons m mid ih =>
    intro junk
    obtain ⟨w, hw⟩ := ih (pre ++ [m]) m junk
    refine ⟨w, ?_⟩
    have hr : (pre ++ v :: m :: mid ++ junk)[pre.length + 1]? = some m := by
      simp
    have hi : ((pre.length + 1 : ℕ) : ℤ) - 1 = (pre.length : ℕ) := by push_cast; ring
    have hs : (pre ++ v :: m :: mid ++ junk).set pre.length m = pre ++ m :: m :: mid ++ junk := by
      simp [List.set_append_right]
    simp only [List.length_cons, shiftArray, readSlot_ok hr, ok_bind, hi]
    rw [writeSlot_ok (by simp), ok_bind, hs]
    simpa using hw

/-- **Compaction** removes the NULL slots and keeps the packets in order. -/
theorem removeNulls_ok (pre : List Pd) : ∀ (mid junk : Slots), ∃ count junk',
    removeNulls mid.length pre.length (pre.map some ++ mid ++ junk) =
      .ok (count, (pre ++ mid.filterMap id).map some ++ junk') ∧
    count + (mid.filterMap id).length = mid.length ∧ junk'.length = junk.length + count := by
  intro mid
  induction mid generalizing pre with
  | nil => exact fun junk => ⟨0, junk, by simp [removeNulls], by simp, by simp⟩
  | cons m mid ih =>
    intro junk
    have hr : (pre.map some ++ m :: mid ++ junk)[pre.length]? = some m := by
      rw [List.append_assoc, List.getElem?_append_right (by simp)]
      simp
    rcases m with _ | x
    · obtain ⟨w, hw⟩ := shiftArray_ok (pre.map some) none mid junk
      obtain ⟨count, junk', h1, h2, h3⟩ := ih pre (w :: junk)
      refine ⟨count + 1, junk', ?_, ?_, ?_⟩
      · rw [List.length_map] at hw
        simp only [List.length_cons, removeNulls, readSlot_ok hr, ok_bind, hw, h1, pure_eq_ok]
        simp
      · change count + 1 + (mid.filterMap id).length = mid.length + 1
        omega
      · simp only [List.length_cons] at h3; omega
    · obtain ⟨count, junk', h1, h2, h3⟩ := ih (pre ++ [x]) junk
      refine ⟨count, junk', ?_, ?_, h3⟩
      · simp only [List.length_cons, removeNulls, readSlot_ok hr, ok_bind]
        simpa using h1
      · change count + ((mid.filterMap id).length + 1) = mid.length + 1
        omega

/-! ### Sorting -/

theorem compare_le_iff {x y : Pd} :
    nmxpRawStreamSeqNoCompare (some x) (some y) ≤ 0 ↔ seqNum x ≤ seqNum y := by
  unfold nmxpRawStreamSeqNoCompare seqNum
  simp only [gt_iff_lt, Int32.lt_iff_toInt_lt]
  split_ifs <;> omega

theorem compare_lt_iff {x y : Pd} :
    nmxpRawStreamSeqNoCompare (some x) (some y) < 0 ↔ seqNum x < seqNum y := by
  unfold nmxpRawStreamSeqNoCompare seqNum
  simp only [gt_iff_lt, Int32.lt_iff_toInt_lt]
  split_ifs <;> omega

theorem consistent_compare (l : List Pd) :
    Consistent nmxpRawStreamSeqNoCompare (l.map some) where
  anti := by
    simp only [List.mem_map]
    rintro _ ⟨x, -, rfl⟩ _ ⟨y, -, rfl⟩
    rw [compare_lt_iff, ← not_le, compare_le_iff, not_le]
  trans := by
    simp only [List.mem_map]
    rintro _ ⟨x, -, rfl⟩ _ ⟨y, -, rfl⟩ _ ⟨z, -, rfl⟩
    simp only [compare_le_iff]
    exact le_trans

/-- **The sort.** -/
theorem sortSlots_ok (Q : Qsort) (l : List Pd) (junk : Slots) : ∃ s : List Pd,
    sortSlots Q l.length (l.map some ++ junk) = .ok (s.map some ++ junk) ∧ s.Perm l ∧
      s.Pairwise (seqNum · ≤ seqNum ·) := by
  set t := Q.sort nmxpRawStreamSeqNoCompare (l.map some) with ht
  have hp : t.Perm (l.map some) := Q.perm _ _
  have hts : t = (t.filterMap id).map some := by
    have hall : ∀ v ∈ t, ∃ x, v = some x := fun v hv => by
      obtain ⟨x, -, rfl⟩ := List.mem_map.mp (hp.mem_iff.mp hv)
      exact ⟨x, rfl⟩
    clear_value t
    clear hp ht
    induction t with
    | nil => rfl
    | cons v t ih =>
      obtain ⟨x, rfl⟩ := hall v (List.mem_cons_self ..)
      simp only [List.filterMap_cons, id_eq, List.map_cons, List.cons.injEq, true_and]
      exact ih fun v hv => hall v (List.mem_cons_of_mem _ hv)
  refine ⟨t.filterMap id, ?_, ?_, ?_⟩
  · unfold sortSlots
    rw [if_pos (by simp), ← hts]
    simp [ht]
  · have := hp.filterMap id
    simpa [List.filterMap_map] using this
  · have hs := Q.sorted _ _ (consistent_compare l)
    rw [← ht, hts, List.pairwise_map] at hs
    exact hs.imp fun h => compare_le_iff.mp h

/-! ### The send loop -/

@[simp] theorem handedTo_append (i : ℕ) (e f : List Event) :
    handedTo i (e ++ f) = handedTo i e ++ handedTo i f := by simp [handedTo]
@[simp] theorem sentOf_append (e f : List Event) : sentOf (e ++ f) = sentOf e ++ sentOf f := by
  simp [sentOf]
@[simp] theorem discardedOf_append (e f : List Event) :
    discardedOf (e ++ f) = discardedOf e ++ discardedOf f := by simp [discardedOf]
@[simp] theorem shouldNotOccurOf_append (e f : List Event) :
    shouldNotOccurOf (e ++ f) = shouldNotOccurOf e ++ shouldNotOccurOf f := by
  simp [shouldNotOccurOf]
@[simp] theorem freedOf_append (e f : List Event) : freedOf (e ++ f) = freedOf e ++ freedOf f := by
  simp [freedOf]

/-- What is seen of a call that sends the packets `sent`, finds `stale` ones, frees `freed`. -/
structure Seen (nFuncPd : ℕ) (evs : List Event) (sent stale freed : List Pd) : Prop where
  handed : ∀ i, handedTo i evs = if i < nFuncPd then sent else []
  sent : sentOf evs = sent
  stale : discardedOf evs = stale
  quiet : shouldNotOccurOf evs = []
  freed : freedOf evs = freed

theorem Seen.append {nFuncPd : ℕ} {e f : List Event} {s t u s' t' u' : List Pd}
    (he : Seen nFuncPd e s t u) (hf : Seen nFuncPd f s' t' u') :
    Seen nFuncPd (e ++ f) (s ++ s') (t ++ t') (u ++ u') where
  handed i := by rw [handedTo_append, he.handed, hf.handed]; split_ifs <;> simp
  sent := by rw [sentOf_append, he.sent, hf.sent]
  stale := by rw [discardedOf_append, he.stale, hf.stale]
  quiet := by rw [shouldNotOccurOf_append, he.quiet, hf.quiet]; rfl
  freed := by rw [freedOf_append, he.freed, hf.freed]

theorem seen_nil (nFuncPd : ℕ) : Seen nFuncPd [] [] [] [] :=
  ⟨fun i => by simp [handedTo], rfl, rfl, rfl, rfl⟩

theorem seen_discarded (nFuncPd : ℕ) (pd : Pd) : Seen nFuncPd [.discarded pd] [] [pd] [] :=
  ⟨fun i => by simp [handedTo], rfl, rfl, rfl, rfl⟩

theorem seen_freed (nFuncPd : ℕ) (l : List Pd) : Seen nFuncPd (l.map .freed) [] [] l where
  handed i := by simp [handedTo, List.filterMap_map]
  sent := by simp [sentOf, List.filterMap_map]
  stale := by simp [discardedOf, List.filterMap_map]
  quiet := by simp [shouldNotOccurOf, List.filterMap_map]
  freed := by simp [freedOf, List.filterMap_map]

theorem handedTo_callFuncPd (nFuncPd i : ℕ) (pd : Pd) :
    handedTo i (callFuncPd nFuncPd pd) = if i < nFuncPd then [pd] else [] := by
  induction nFuncPd with
  | zero => simp [handedTo, callFuncPd]
  | succ n ih =>
    have hsucc : callFuncPd (n + 1) pd = callFuncPd n pd ++ [.funcPd n pd] := by
      simp [callFuncPd, List.range_succ]
    rw [hsucc, handedTo_append, ih]
    have hlast : handedTo i [.funcPd n pd] = if n = i then [pd] else [] := by
      by_cases h : n = i <;> simp [handedTo, h]
    rw [hlast]
    split_ifs <;> first | rfl | omega

theorem seen_sent (nFuncPd : ℕ) (pd : Pd) :
    Seen nFuncPd (callFuncPd nFuncPd pd ++ [.sent pd]) [pd] [] [] where
  handed i := by
    rw [handedTo_append, handedTo_callFuncPd]
    simp [handedTo]
  sent := by simp [sentOf, callFuncPd, List.filterMap_map]
  stale := by simp [discardedOf, callFuncPd, List.filterMap_map]
  quiet := by simp [shouldNotOccurOf, callFuncPd, List.filterMap_map]
  freed := by simp [freedOf, callFuncPd, List.filterMap_map]

/-- `q` is `p` but for what is known of the packet sent last. -/
structure SameButLast (p q : NmxpRawStreamData) : Prop where
  maxPdlistItems : q.maxPdlistItems = p.maxPdlistItems
  maxTolerableLatency : q.maxTolerableLatency = p.maxTolerableLatency
  timeoutrecv : q.timeoutrecv = p.timeoutrecv
  nPdlist : q.nPdlist = p.nPdlist
  pdlist : q.pdlist = p.pdlist

theorem SameButLast.refl (p : NmxpRawStreamData) : SameButLast p p := ⟨rfl, rfl, rfl, rfl, rfl⟩

theorem SameButLast.trans {p q r : NmxpRawStreamData} (h : SameButLast p q)
    (h' : SameButLast q r) : SameButLast p r :=
  ⟨h'.1.trans h.1, h'.2.trans h.2, h'.3.trans h.3, h'.4.trans h.4, h'.5.trans h.5⟩

theorem noteSent_same (now : ℤ) (p : NmxpRawStreamData) (pd : Pd) :
    SameButLast p (noteSent now p pd) := ⟨rfl, rfl, rfl, rfl, rfl⟩

/-- The number of a packet can be compared with the last one: their difference does not overflow.
Only the largest number against `last_seq_no_sent = -1` is excluded. -/
structure Comparable (last : ℤ) (x : Pd) : Prop where
  nonneg : 0 ≤ seqNum x
  lt : seqNum x - last < 2 ^ 31

theorem seqNoDiff_eq {x : Pd} {last : Int32} (hx : Comparable last.toInt x) :
    (x.seqNo - last).toInt = seqNum x - last.toInt := by
  have h1 := hx.nonneg
  have h2 := hx.lt
  have h3 := last.toInt_lt
  unfold seqNum at *
  exact toInt_sub_of_range (by omega) (by omega)

/-- **The send loop is a `drain`** of the packets it has still to look at. -/
theorem sendLoop_ok (nFuncPd : ℕ) (clock : Clock) (pre : List Pd) : ∀ (l : List Pd) (junk : Slots)
    (p : NmxpRawStreamData), p.pdlist = (pre ++ l).map some ++ junk →
    (∀ x ∈ l, Comparable p.lastSeqNoSent.toInt x) → ∃ j q evs,
    sendLoop nFuncPd clock l.length pre.length p = .ok (j, q, evs) ∧ SameButLast p q ∧
      j + (drain seqNum p.lastSeqNoSent.toInt l).rest.length = pre.length + l.length ∧
      q.lastSeqNoSent.toInt = (drain seqNum p.lastSeqNoSent.toInt l).last ∧
      Seen nFuncPd evs (drain seqNum p.lastSeqNoSent.toInt l).sent
        (drain seqNum p.lastSeqNoSent.toInt l).stale [] := by
  intro l
  induction l generalizing pre with
  | nil =>
    intro junk p _ _
    exact ⟨pre.length, p, [], by simp [sendLoop], .refl p, by simp [drain], by simp [drain],
      seen_nil _⟩
  | cons x l ih =>
    intro junk p hp hcmp
    have hx := hcmp x (List.mem_cons_self ..)
    have hl : ∀ y ∈ l, Comparable p.lastSeqNoSent.toInt y :=
      fun y hy => hcmp y (List.mem_cons_of_mem _ hy)
    have hd : derefSlot p.pdlist pre.length = .ok x := by
      refine derefSlot_ok ?_
      rw [hp, getElem?_map_some (by simp)]
      simp
    have hdiff := seqNoDiff_eq hx
    have h0 : x.seqNo - p.lastSeqNoSent ≤ 0 ↔ seqNum x ≤ p.lastSeqNoSent.toInt := by
      rw [Int32.le_iff_toInt_le, hdiff, show (0 : Int32).toInt = 0 from rfl]; omega
    have h1 : x.seqNo - p.lastSeqNoSent = 1 ↔ seqNum x = p.lastSeqNoSent.toInt + 1 := by
      rw [← Int32.toInt_inj, hdiff, show (1 : Int32).toInt = 1 from rfl]; omega
    simp only [List.length_cons, sendLoop, hd, ok_bind, h0, h1]
    unfold drain
    split_ifs with hs hn
    · obtain ⟨j, q, evs, he, hsame, hj, hq, hseen⟩ := ih (pre ++ [x]) junk p (by simpa using hp)
        hl
      rw [List.length_append, List.length_singleton] at he hj
      refine ⟨j, q, .discarded x :: evs, by rw [he]; rfl, hsame, by dsimp only; omega, hq, ?_⟩
      exact (seen_discarded nFuncPd x).append hseen
    · have hsame' := noteSent_same (clock (.loop pre.length)) p x
      have hlast : (noteSent (clock (.loop pre.length)) p x).lastSeqNoSent.toInt = seqNum x := rfl
      obtain ⟨j, q, evs, he, hsame, hj, hq, hseen⟩ := ih (pre ++ [x]) junk
        (noteSent (clock (.loop pre.length)) p x) (by rw [hsame'.pdlist]; simpa using hp) (by
          intro y hy
          have := (hl y hy).lt
          exact ⟨(hl y hy).nonneg, by omega⟩)
      rw [List.length_append, List.length_singleton] at he hj
      rw [hlast] at hj hq hseen
      refine ⟨j, q, callFuncPd nFuncPd x ++ .sent x :: evs, by rw [he]; rfl, hsame'.trans hsame,
        by dsimp only; omega, hq, ?_⟩
      have := (seen_sent nFuncPd x).append hseen
      simpa using this
    · exact ⟨pre.length, p, [], rfl, .refl p, by simp, rfl, seen_nil _⟩

/-! ### Shifting and freeing -/

/-- Slot `i` after `k` rounds of the loop that moves the slots from `j` on to the front. -/
def afterRounds (orig : Slots) (j n k i : ℕ) : Option Pd :=
  if i < k then if i + j < n then orig[i + j]?.join else none
  else if j ≤ i ∧ i < k + j ∧ i < n then none
  else orig[i]?.join

/-- The array after `k` rounds. -/
structure Shifted (orig : Slots) (j n k : ℕ) (a : Slots) : Prop where
  length : a.length = orig.length
  get : ∀ i < orig.length, a[i]? = some (afterRounds orig j n k i)

theorem shifted_zero (orig : Slots) {j n : ℕ} : Shifted orig j n 0 orig := by
  refine ⟨rfl, fun i hi => ?_⟩
  have : ¬ (j ≤ i ∧ i < 0 + j ∧ i < n) := by omega
  simp only [afterRounds, Nat.not_lt_zero, if_false, this]
  rw [List.getElem?_eq_getElem hi]
  rfl

/-- A move down: slot `k` takes the contents of slot `k + j`, which is cleared. What slot `k` held
does not matter. -/
theorem shifted_succ {orig a : Slots} {j n k : ℕ} (hj : 0 < j) (hk : k < n)
    (hlen : a.length = orig.length)
    (hget : ∀ i < orig.length, i ≠ k → a[i]? = some (afterRounds orig j n k i)) :
    Shifted orig j n (k + 1)
      (if k + j < n then (a.set k (orig[k + j]?.join)).set (k + j) none else a.set k none) := by
  by_cases hkj : k + j < n
  · rw [if_pos hkj]
    refine ⟨by simp [hlen], fun i hi => ?_⟩
    rw [List.getElem?_set, List.getElem?_set, List.length_set, hlen]
    unfold afterRounds
    by_cases h1 : k + j = i
    · subst h1
      rw [if_pos rfl, if_pos hi, if_neg (by omega), if_pos (by omega)]
    · rw [if_neg h1]
      by_cases h2 : k = i
      · subst h2
        rw [if_pos rfl, if_pos hi, if_pos (by omega), if_pos hkj]
      · rw [if_neg h2, hget i hi (Ne.symm h2)]
        unfold afterRounds
        split_ifs <;> first | rfl | omega
  · rw [if_neg hkj]
    refine ⟨by simp [hlen], fun i hi => ?_⟩
    rw [List.getElem?_set, hlen]
    unfold afterRounds
    by_cases h2 : k = i
    · subst h2
      rw [if_pos rfl, if_pos hi, if_pos (by omega), if_neg hkj]
    · rw [if_neg h2, hget i hi (Ne.symm h2)]
      unfold afterRounds
      split_ifs <;> first | rfl | omega

section shiftFree

variable {h t : List Pd} {junk : Slots}

/-- The packets of an array, with the slots in use. -/
theorem orig_getElem? {i : ℕ} (hi : i < h.length + t.length) :
    ((h ++ t).map some ++ junk)[i]? = some (some ((h ++ t).get ⟨i, by simpa using hi⟩)) :=
  getElem?_map_some (by simpa using hi)

theorem shiftFreeRound_ok {a : Slots} {k : ℕ} (hj : 0 < h.length) (hk : k < h.length + t.length)
    (hs : Shifted ((h ++ t).map some ++ junk) h.length (h.length + t.length) k a) : ∃ a',
    shiftFreeRound h.length (h.length + t.length) a k =
      .ok (a', ((h.drop k).take 1).map .freed) ∧
    Shifted ((h ++ t).map some ++ junk) h.length (h.length + t.length) (k + 1) a' := by
  set orig := (h ++ t).map some ++ junk with horig
  have hn : h.length + t.length ≤ orig.length := by simp [horig]
  have hka : k < a.length := by rw [hs.length]; omega
  -- the slot that moves down is still as it was
  have hsrc : k + h.length < h.length + t.length →
      a[k + h.length]? = some (orig[k + h.length]?.join) := fun hlt => by
    rw [hs.get _ (by omega)]
    unfold afterRounds
    rw [if_neg (by omega), if_neg (by omega)]
  refine ⟨_, ?_, shifted_succ hj hk (a := if k < h.length then a.set k none else a) ?_ ?_⟩
  · unfold shiftFreeRound
    by_cases hkh : k < h.length
    · have hx : a[k]? = some (some h[k]) := by
        rw [hs.get k (by omega)]
        unfold afterRounds
        rw [if_neg (by omega), if_neg (by omega), horig, orig_getElem? hk]
        simp [hkh]
      have htk : (h.drop k).take 1 = [h[k]] := by
        rw [List.drop_eq_getElem_cons hkh, List.take_succ_cons, List.take_zero]
      simp only [if_pos hkh, derefSlot_ok hx, ok_bind, writeSlot_ok hka, pure_eq_ok, htk]
      by_cases hlt : k + h.length < h.length + t.length
      · have hv : (a.set k none)[k + h.length]? = some (orig[k + h.length]?.join) := by
          rw [List.getElem?_set_ne (by omega)]; exact hsrc hlt
        simp only [if_pos hlt, readSlot_ok hv, ok_bind]
        rw [writeSlot_ok (by simpa using hka), ok_bind,
          writeSlot_ok (by simp only [List.length_set, hs.length]; omega)]
        simp
      · simp only [if_neg hlt]
        rw [writeSlot_ok (by simpa using hka)]
        simp
    · have htk : (h.drop k).take 1 = [] := by
        rw [List.drop_of_length_le (by omega)]; rfl
      simp only [if_neg hkh, pure_eq_ok, ok_bind, htk]
      by_cases hlt : k + h.length < h.length + t.length
      · simp only [if_pos hlt, readSlot_ok (hsrc hlt), ok_bind, writeSlot_ok hka]
        rw [writeSlot_ok (by simp only [List.length_set, hs.length]; omega)]
        simp
      · simp only [if_neg hlt, writeSlot_ok hka]
        simp
  · split_ifs <;> simp [hs.length]
  · intro i hi hik
    split_ifs
    · rw [List.getElem?_set_ne (Ne.symm hik), hs.get i hi]
    · exact hs.get i hi

/-- All rounds. -/
theorem shiftFree_rounds (hj : 0 < h.length) : ∀ (left k : ℕ) (a : Slots),
    k + left = h.length + t.length →
    Shifted ((h ++ t).map some ++ junk) h.length (h.length + t.length) k a → ∃ a',
    shiftFree h.length (h.length + t.length) left k a = .ok (a', (h.drop k).map .freed) ∧
    Shifted ((h ++ t).map some ++ junk) h.length (h.length + t.length)
      (h.length + t.length) a' := by
  intro left
  induction left with
  | zero =>
    intro k a hk hs
    obtain rfl : k = h.length + t.length := by omega
    exact ⟨a, by simp [shiftFree], hs⟩
  | succ left ih =>
    intro k a hk hs
    obtain ⟨a1, h1, hs1⟩ := shiftFreeRound_ok hj (by omega) hs
    obtain ⟨a2, h2, hs2⟩ := ih (k + 1) a1 (by omega) hs1
    refine ⟨a2, ?_, hs2⟩
    have happ : (h.drop k).take 1 ++ h.drop (k + 1) = h.drop k := by
      rw [← List.drop_drop, List.take_append_drop]
    simp only [shiftFree, h1, h2, ok_bind, pure_eq_ok, ← List.map_append, happ]

/-- **The last loop** frees the packets `h` and leaves `t` in the first slots. -/
theorem shiftFree_ok (junk : Slots) (hj : 0 < h.length) : ∃ junk',
    shiftFree h.length (h.length + t.length) (h.length + t.length) 0
      ((h ++ t).map some ++ junk) = .ok (t.map some ++ junk', h.map .freed) ∧
    junk'.length = h.length + junk.length := by
  obtain ⟨a, ha, hs⟩ := shiftFree_rounds hj (h.length + t.length) 0 _ (by omega)
    (shifted_zero ((h ++ t).map some ++ junk))
  have hlen := hs.length
  simp only [List.length_append, List.length_map] at hlen
  refine ⟨a.drop t.length, ?_, by simp; omega⟩
  have htake : a.take t.length = t.map some := by
    refine List.ext_getElem? fun i => ?_
    by_cases hi : i < t.length
    · rw [List.getElem?_take_of_lt hi, hs.get i (by simp; omega)]
      unfold afterRounds
      rw [if_pos (by omega), if_pos (by omega), orig_getElem? (by omega)]
      simp [hi, List.getElem_append_right]
    · rw [List.getElem?_eq_none (by simp; omega), List.getElem?_eq_none (by simpa using hi)]
  rw [ha, ← htake, List.take_append_drop]
  simp

end shiftFree

end Nmxptool.RawStream.Slots
