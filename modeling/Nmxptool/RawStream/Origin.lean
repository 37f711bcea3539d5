import Nmxptool.RawStream.Model

/-! # Where the packets of a Raw Stream come from

`nmxp_raw_stream_manage` copies the packet that it is given, and moves pointers to these copies
about in its array. Whatever the numbers of the packets are, and whatever the array holds behind the
slots in use:

* `manage_only`: a call whose packet has a property, in a stream whose packets have it, hands on
  packets with this property.
* `handedTo_origin`: in every run, what is handed on is the copy of a packet of a call. -/

namespace Nmxptool.RawStream.Origin

open Nmxptool.Data.Process Nmxptool.Lib.Run Nmxptool.Lib.Sorting Nmxptool.RawStream.Model

/-- The packets that the array points to have the property `P`. -/
def Only (P : Pd → Prop) (a : Slots) : Prop := ∀ x, some x ∈ a → P x

/-- The packets handed to the functions `p_func_pd` have it. -/
def Hands (P : Pd → Prop) (evs : List Event) : Prop := ∀ i x, Event.funcPd i x ∈ evs → P x

/-- What a part of a call leaves, if it does not fault. -/
abbrev Leaves {α : Type} (R : α → Prop) : Except Fault α → Prop := Ends (fun _ => True) R

variable {P : Pd → Prop} {a : Slots} {evs evs' : List Event}

theorem hands_nil : Hands P [] := fun _ _ h => absurd h List.not_mem_nil

theorem Hands.append (h : Hands P evs) (h' : Hands P evs') : Hands P (evs ++ evs') :=
  fun i x hx => (List.mem_append.mp hx).elim (h i x) (h' i x)

theorem hands_singleton {e : Event} (h : ∀ i x, e ≠ .funcPd i x) : Hands P [e] :=
  fun i x hx => absurd (List.mem_singleton.mp hx).symm (h i x)

theorem hands_callFuncPd {x : Pd} (hx : P x) (nFuncPd : ℕ) : Hands P (callFuncPd nFuncPd x) := by
  intro i y hy
  obtain ⟨j, -, hj⟩ := List.mem_map.mp hy
  obtain ⟨-, rfl⟩ := Event.funcPd.inj hj
  exact hx

/-! ### Single accesses -/

theorem leaves_read (ha : Only P a) (k : ℤ) : Leaves (fun v => ∀ x ∈ v, P x) (readSlot a k) := by
  unfold readSlot
  split_ifs with h
  · rintro x hx
    exact ha x (hx ▸ List.get_mem a ⟨k.toNat, h.2⟩)
  · trivial

theorem leaves_write (ha : Only P a) {v : Option Pd} (hv : ∀ x ∈ v, P x) (k : ℤ) :
    Leaves (Only P) (writeSlot a k v) := by
  unfold writeSlot
  split_ifs
  · intro x hx
    rcases List.mem_or_eq_of_mem_set hx with hx | hx
    · exact ha x hx
    · exact hv x hx.symm
  · trivial

theorem leaves_deref (ha : Only P a) (k : ℤ) : Leaves P (derefSlot a k) := by
  refine (leaves_read ha k).bind fun v hv => ?_
  cases v with
  | none => trivial
  | some x => exact hv x rfl

/-! ### The parts of a call -/

theorem leaves_forceFirst (nFuncPd : ℕ) (clock : Clock) {p : NmxpRawStreamData}
    (hp : Only P p.pdlist) {pd : Option Pd} (hpd : ∀ x ∈ pd, P x) :
    Leaves (fun r => Only P r.1.pdlist ∧ Hands P r.2) (forceFirst nFuncPd clock p pd) := by
  unfold forceFirst
  split_ifs with h0
  · refine (leaves_deref hp 0).bind fun first hfirst => ?_
    have hfreed : Hands P [Event.freed first] := hands_singleton fun _ _ => Event.noConfusion
    dsimp only
    split_ifs
    · have hsent : Hands P (callFuncPd nFuncPd first ++ [Event.sent first]) :=
        (hands_callFuncPd hfirst nFuncPd).append (hands_singleton fun _ _ => Event.noConfusion)
      exact (leaves_write hp hpd 0).bind fun slots hslots => ⟨hslots, hsent.append hfreed⟩
    · have hquiet : Hands P [Event.shouldNotOccur first] :=
        hands_singleton fun _ _ => Event.noConfusion
      exact (leaves_write hp hpd 0).bind fun slots hslots => ⟨hslots, hquiet.append hfreed⟩
  · cases pd with
    | none => exact ⟨hp, hands_nil⟩
    | some x => exact (leaves_write hp hpd 0).bind fun slots hslots => ⟨hslots, hands_nil⟩

theorem leaves_appendPd {p : NmxpRawStreamData} (hp : Only P p.pdlist) {pd : Option Pd}
    (hpd : ∀ x ∈ pd, P x) : Leaves (fun q => Only P q.pdlist) (appendPd p pd) := by
  cases pd with
  | none => exact hp
  | some x => exact (leaves_write hp hpd _).bind fun slots hslots => hslots

theorem leaves_shiftArray : ∀ (count w : ℕ) {a : Slots}, Only P a →
    Leaves (Only P) (shiftArray count w a)
  | 0, _, _, ha => ha
  | count + 1, w, _, ha => (leaves_read ha _).bind fun _ hv =>
      (leaves_write ha hv _).bind fun _ ha' => leaves_shiftArray count (w + 1) ha'

theorem leaves_removeNulls : ∀ (left y : ℕ) {a : Slots}, Only P a →
    Leaves (fun r => Only P r.2) (removeNulls left y a) := by
  intro left
  induction left with
  | zero => exact fun _ _ ha => ha
  | succ left ih =>
    intro y a ha
    refine (leaves_read ha y).bind fun v _ => ?_
    cases v with
    | none =>
      exact (leaves_shiftArray left (y + 1) ha).bind fun a' ha' =>
        (ih y ha').bind fun r hr => hr
    | some x => exact ih (y + 1) ha

theorem leaves_compactAndSort (Q : Qsort) {p : NmxpRawStreamData} (hp : Only P p.pdlist) :
    Leaves (fun q => Only P q.pdlist) (compactAndSort Q p) := by
  refine (leaves_removeNulls _ 0 hp).bind fun r hr => ?_
  have hsort : Leaves (Only P) (sortSlots Q (p.nPdlist - r.1) r.2) := by
    unfold sortSlots
    split_ifs
    · -- the sort rearranges the slots in use
      intro x hx
      rcases List.mem_append.mp hx with hx | hx
      · exact hr x (List.mem_of_mem_take ((Q.perm _ _).mem_iff.mp hx))
      · exact hr x (List.mem_of_mem_drop hx)
    · trivial
  exact hsort.bind fun slots hslots => hslots

theorem leaves_sendLoop (nFuncPd : ℕ) (clock : Clock) : ∀ (left j : ℕ) {p : NmxpRawStreamData},
    Only P p.pdlist → Leaves (fun r => Only P r.2.1.pdlist ∧ Hands P r.2.2)
      (sendLoop nFuncPd clock left j p) := by
  intro left
  induction left with
  | zero => exact fun _ _ hp => ⟨hp, hands_nil⟩
  | succ left ih =>
    intro j p hp
    refine (leaves_deref hp j).bind fun x hx => ?_
    dsimp only
    split_ifs
    · refine (ih (j + 1) hp).bind fun r hr => ⟨hr.1, ?_⟩
      exact (hands_singleton fun _ _ => Event.noConfusion).append hr.2
    · have hnote : Only P (noteSent (clock (.loop j)) p x).pdlist := hp
      refine (ih (j + 1) hnote).bind fun r hr => ⟨hr.1, ?_⟩
      refine (hands_callFuncPd hx nFuncPd).append ?_
      exact (hands_singleton fun _ _ => Event.noConfusion).append hr.2
    · exact ⟨hp, hands_nil⟩

theorem leaves_shiftFreeRound (j n k : ℕ) (ha : Only P a) :
    Leaves (fun r => Only P r.1 ∧ Hands P r.2) (shiftFreeRound j n a k) := by
  have hnone : ∀ x ∈ (none : Option Pd), P x := fun x hx => absurd hx (Option.not_mem_none x)
  -- the second half of the round, after the handled element is freed
  have hmove : ∀ (a : Slots) (evs : List Event), Only P a → Hands P evs →
      Leaves (fun r => Only P r.1 ∧ Hands P r.2) (if k + j < n then do
        let v ← readSlot a ((k + j : ℕ) : ℤ)
        let a ← writeSlot a k v
        let a ← writeSlot a ((k + j : ℕ) : ℤ) none
        return (a, evs)
      else do
        let a ← writeSlot a k none
        return (a, evs)) := by
    intro a evs ha hevs
    split_ifs
    · exact (leaves_read ha _).bind fun v hv => (leaves_write ha hv k).bind fun a' ha' =>
        (leaves_write ha' hnone _).bind fun a'' ha'' => ⟨ha'', hevs⟩
    · exact (leaves_write ha hnone k).bind fun a' ha' => ⟨ha', hevs⟩
  unfold shiftFreeRound
  by_cases hk : k < j
  · rw [if_pos hk]
    exact (leaves_deref ha k).bind fun x _ => (leaves_write ha hnone k).bind fun a' ha' =>
      hmove a' _ ha' (hands_singleton fun _ _ => Event.noConfusion)
  · rw [if_neg hk]
    exact hmove a _ ha hands_nil

theorem leaves_shiftFree (j n : ℕ) : ∀ (left k : ℕ) {a : Slots}, Only P a →
    Leaves (fun r => Only P r.1 ∧ Hands P r.2) (shiftFree j n left k a) := by
  intro left
  induction left with
  | zero => exact fun _ _ ha => ⟨ha, hands_nil⟩
  | succ left ih =>
    intro k a ha
    exact (leaves_shiftFreeRound j n k ha).bind fun r hr =>
      (ih (k + 1) hr.1).bind fun r' hr' => ⟨hr'.1, hr.2.append hr'.2⟩

theorem leaves_sendAndShift (nFuncPd : ℕ) (clock : Clock) {p : NmxpRawStreamData}
    (hp : Only P p.pdlist) :
    Leaves (fun r => Only P r.1.pdlist ∧ Hands P r.2) (sendAndShift nFuncPd clock p) := by
  refine (leaves_sendLoop nFuncPd clock _ 0 hp).bind fun r hr => ?_
  dsimp only
  split_ifs
  · exact (leaves_shiftFree _ _ _ 0 hr.1).bind fun r' hr' => ⟨hr'.1, hr.2.append hr'.2⟩
  · exact hr

/-! ### Calls and runs -/

theorem pdlist_firstTime (clock : Clock) (p : NmxpRawStreamData) (x : Pd) :
    (firstTime clock p x).pdlist = p.pdlist := by
  unfold firstTime
  split_ifs <;> rfl

/-- **One call** puts its packet beside those of the stream, and hands on some of them. -/
theorem manage_only (Q : Qsort) (nFuncPd : ℕ) (clock : Clock) {p : NmxpRawStreamData}
    (hp : Only P p.pdlist) {a_pd : Option Pd} (hpd : ∀ x ∈ a_pd, P (copyPd x)) :
    Leaves (fun r => Only P r.1.pdlist ∧ Hands P r.2)
      (nmxpRawStreamManage Q nFuncPd clock p a_pd) := by
  have hcopy : ∀ x ∈ a_pd.map copyPd, P x := by
    rintro x hx
    obtain ⟨y, hy, rfl⟩ := Option.mem_map.mp hx
    exact hpd y hy
  have hentry : Only P ((a_pd.map copyPd).elim p (firstTime clock p)).pdlist := by
    cases a_pd with
    | none => exact hp
    | some x =>
      show Only P (firstTime clock p (copyPd x)).pdlist
      rw [pdlist_firstTime]
      exact hp
  unfold nmxpRawStreamManage
  refine Ends.bind (P := fun _ => True) ?_ fun latency _ => ?_
  · cases firstLatency clock _ <;> trivial
  have hadd : Leaves (fun r => Only P r.1.pdlist ∧ Hands P r.2)
      (addPd nFuncPd clock latency ((a_pd.map copyPd).elim p (firstTime clock p))
        (a_pd.map copyPd)) := by
    unfold addPd
    split_ifs
    · exact leaves_forceFirst nFuncPd clock hentry hcopy
    · exact (leaves_appendPd hentry hcopy).bind fun q hq => ⟨hq, hands_nil⟩
  refine hadd.bind fun r hr => (leaves_compactAndSort Q hr.1).bind fun q hq => ?_
  have hrewind : Leaves (fun q => Only P q.pdlist) (rewind clock q (a_pd.map copyPd)) := by
    unfold rewind
    split_ifs
    · exact (leaves_deref hq 0).bind fun _ _ => hq
    · exact hq
  exact hrewind.bind fun q' hq' => (leaves_sendAndShift nFuncPd clock hq').bind fun r' hr' =>
    ⟨hr'.1, hr.2.append hr'.2⟩

/-- **What a run hands on** is the copy of a packet of one of its calls. -/
theorem handedTo_origin {Q : Qsort} {nFuncPd : ℕ} {maxTolerableLatency timeoutrecv : Int32}
    {calls : List Call} {p : NmxpRawStreamData}
    (hrun : manageAll Q nFuncPd (nmxpRawStreamInit maxTolerableLatency timeoutrecv) calls =
      .ok (p, evs)) {i : ℕ} {x : Pd} (hx : x ∈ handedTo i evs) :
    ∃ c ∈ calls, ∃ pd, c.pd = some pd ∧ x = copyPd pd := by
  let P : Pd → Prop := fun x => ∃ c ∈ calls, ∃ pd, c.pd = some pd ∧ x = copyPd pd
  have hinv : Only P p.pdlist ∧ Hands P evs := by
    refine run_inv (C := fun _ c => c ∈ calls) (fun s _ tr => Only P s.pdlist ∧ Hands P tr) ?_
      [] [] ⟨?_, hands_nil⟩ (allSteps_of_forall (fun _ c hc => hc) _) hrun
    · rintro s done tr c s' o ⟨hs, htr⟩ hc h
      have hcall : Leaves (fun r => Only P r.1.pdlist ∧ Hands P r.2)
          (callStep Q nFuncPd s c) :=
        manage_only Q nFuncPd c.clock hs fun x hx => ⟨c, hc, x, hx, rfl⟩
      rw [h] at hcall
      exact ⟨hcall.1, htr.append hcall.2⟩
    · intro x hx
      exact absurd (List.eq_of_mem_replicate hx) (by simp)
  obtain ⟨e, he, hex⟩ := List.mem_filterMap.mp hx
  cases e with
  | funcPd j y =>
    dsimp only at hex
    split_ifs at hex
    obtain rfl := Option.some.inj hex
    exact hinv.2 j y he
  | sent y => exact absurd hex (by simp)
  | discarded y => exact absurd hex (by simp)
  | shouldNotOccur y => exact absurd hex (by simp)
  | freed y => exact absurd hex (by simp)

end Nmxptool.RawStream.Origin
