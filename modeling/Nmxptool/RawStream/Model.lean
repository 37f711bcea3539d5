import Nmxptool.Data.Process
import Nmxptool.Lib.Run
import Nmxptool.Lib.Sorting

/-! # The Raw Stream buffer

The embedding of `nmxp_raw_stream_init` and `nmxp_raw_stream_manage`, slot by slot: `pdlist` is an
array of `max_pdlist_items` pointers, each NULL or a packet, and `n_pdlist` of them are in use. An
access outside the array, or through a NULL pointer, is a `Fault`. What the function does to the
outside is a list of `Event`s: calls of the functions `p_func_pd`, discarded packets, freed packets.

The clock is read at several points of one call; `clock` gives the reading at each of them. Times
are exact rationals; the end of a packet whose sampling rate is zero, and with it its latency, is an
infinity or NaN. The allocations succeed, and log lines are left out. -/

namespace Nmxptool.RawStream.Model

open Nmxptool.Data.Process Nmxptool.Lib.Floating Nmxptool.Lib.Run Nmxptool.Lib.Sorting

/-- The packets of a Raw Stream. -/
abbrev Pd := NmxpDataProcess ℚ

/-- What would be undefined behaviour. -/
inductive Fault
  | slotOutOfRange
  | nullPacket
  deriving DecidableEq

/-- What a call does to the outside. `sent` marks a packet for which the loop over `p_func_pd` was
run; `shouldNotOccur` is the branch with that text. -/
inductive Event
  | funcPd (i : ℕ) (pd : Pd)
  | sent (pd : Pd)
  | discarded (pd : Pd)
  | shouldNotOccur (pd : Pd)
  | freed (pd : Pd)
  deriving DecidableEq

/-- The points of a call at which the clock is read into the state or into a test. -/
inductive ClockSite
  | firstTime
  | decision
  | forced
  | timeout
  | loop (j : ℕ)

/-- The clock readings of one call. -/
abbrev Clock := ClockSite → ℤ

/-- The array of pointers. -/
abbrev Slots := List (Option Pd)

/-- `NMXP_RAW_STREAM_DATA`. -/
structure NmxpRawStreamData where
  lastSeqNoSent : Int32
  lastSampleTime : Double
  lastLatency : Double
  maxPdlistItems : Int32
  maxTolerableLatency : ℚ
  timeoutrecv : Int32
  nPdlist : ℤ
  pdlist : Slots
  deriving DecidableEq

/-! ### Access to the array -/

/-- Read slot `k`. -/
def readSlot (a : Slots) (k : ℤ) : Except Fault (Option Pd) :=
  if h : 0 ≤ k ∧ k.toNat < a.length then .ok (a.get ⟨k.toNat, h.2⟩) else .error .slotOutOfRange

/-- Overwrite slot `k`. -/
def writeSlot (a : Slots) (k : ℤ) (v : Option Pd) : Except Fault Slots :=
  if 0 ≤ k ∧ k.toNat < a.length then .ok (a.set k.toNat v) else .error .slotOutOfRange

/-- Follow the pointer in slot `k`. -/
def derefSlot (a : Slots) (k : ℤ) : Except Fault Pd := do
  match ← readSlot a k with
  | some pd => return pd
  | none => .error .nullPacket

/-! ### Initialisation and comparison -/

/-- `nmxp_raw_stream_init`. The size of the array is computed in `int32_t`. -/
def nmxpRawStreamInit (maxTolerableLatency timeoutrecv : Int32) : NmxpRawStreamData where
  lastSeqNoSent := -1
  lastSampleTime := .finite (-1)
  lastLatency := .finite 0
  maxPdlistItems := maxTolerableLatency * 4
  maxTolerableLatency := maxTolerableLatency.toInt
  timeoutrecv := timeoutrecv
  nPdlist := 0
  pdlist := List.replicate (maxTolerableLatency * 4).toInt.toNat none

/-- `nmxp_raw_stream_seq_no_compare`. -/
def nmxpRawStreamSeqNoCompare : Option Pd → Option Pd → ℤ
  | some pa, some pb =>
    if pa.seqNo > pb.seqNo then 1
    else if pa.seqNo < pb.seqNo then -1
    else 0
  | _, _ => 0

/-! ### The parts of `nmxp_raw_stream_manage` -/

/-- The copy of the packet handed in: `nSamp` samples of its array, if there are any. -/
def copyPd (a : Pd) : Pd :=
  { a with pDataPtr := if a.nSamp ≠ 0 then some a.samples else none }

/-- The calls of the functions `p_func_pd` on a packet. -/
def callFuncPd (nFuncPd : ℕ) (pd : Pd) : List Event :=
  (List.range nFuncPd).map fun i => Event.funcPd i pd

/-- *First time*. -/
def firstTime (clock : Clock) (p : NmxpRawStreamData) (pd : Pd) : NmxpRawStreamData :=
  if p.lastSeqNoSent = -1 then
    if p.timeoutrecv = 0 then
      { p with
        lastSeqNoSent := pd.seqNo - 1
        lastSampleTime := .finite pd.time
        lastLatency := nmxpDataLatency (clock .firstTime) (some pd) }
    else
      { p with lastSeqNoSent := 0, lastSampleTime := .finite 0, lastLatency := .finite 0 }
  else p

/-- The test for handling the first item whatever its number. -/
def MustForce (p : NmxpRawStreamData) (latency : Double) : Prop :=
  ((p.maxPdlistItems.toInt ≤ p.nPdlist ∨ .finite p.maxTolerableLatency ≤ latency) ∧
      p.timeoutrecv ≤ 0) ∨
    (p.maxPdlistItems.toInt ≤ p.nPdlist ∧ 0 < p.timeoutrecv)

instance (p : NmxpRawStreamData) (latency : Double) : Decidable (MustForce p latency) := by
  unfold MustForce; infer_instance

/-- A packet has been handled: it is the last one sent. -/
def noteSent (now : ℤ) (p : NmxpRawStreamData) (pd : Pd) : NmxpRawStreamData :=
  { p with
    lastSeqNoSent := pd.seqNo
    lastSampleTime := pd.endTime
    lastLatency := nmxpDataLatency now (some pd) }

/-- Handle the first item and overwrite it. -/
def forceFirst (nFuncPd : ℕ) (clock : Clock) (p : NmxpRawStreamData) (pd : Option Pd) :
    Except Fault (NmxpRawStreamData × List Event) :=
  if 0 < p.nPdlist then do
    let first ← derefSlot p.pdlist 0
    let (q, evs) :=
      if 0 < first.seqNo - p.lastSeqNoSent then
        (noteSent (clock .forced) p first, callFuncPd nFuncPd first ++ [.sent first])
      else (p, [.shouldNotOccur first])
    let slots ← writeSlot p.pdlist 0 pd
    return ({ q with pdlist := slots }, evs ++ [.freed first])
  else
    match pd with
    | some pd => do
      let slots ← writeSlot p.pdlist 0 (some pd)
      return ({ p with nPdlist := 1, pdlist := slots }, [])
    | none => return (p, [])

/-- Put the packet into the first free slot. -/
def appendPd (p : NmxpRawStreamData) : Option Pd → Except Fault NmxpRawStreamData
  | some pd => do
    let slots ← writeSlot p.pdlist p.nPdlist (some pd)
    return { p with nPdlist := p.nPdlist + 1, pdlist := slots }
  | none => return p

/-- `for(w = y + 1; w < n; w++) pdlist[w - 1] = pdlist[w]`, in `count` rounds from `w`. -/
def shiftArray : ℕ → ℕ → Slots → Except Fault Slots
  | 0, _, a => return a
  | count + 1, w, a => do
    let v ← readSlot a w
    let a ← writeSlot a (w - 1) v
    shiftArray count (w + 1) a

/-- The removal of NULL elements. `left` is `n_pdlist - y`, which every round makes smaller by one;
the result is `count_null_element` and the array. -/
def removeNulls : ℕ → ℕ → Slots → Except Fault (ℕ × Slots)
  | 0, _, a => return (0, a)
  | left + 1, y, a => do
    match ← readSlot a y with
    | none =>
      let a ← shiftArray left (y + 1) a
      let (count, a) ← removeNulls left y a
      return (count + 1, a)
    | some _ => removeNulls left (y + 1) a

/-- `qsort` of the first `n` slots. -/
def sortSlots (Q : Qsort) (n : ℤ) (a : Slots) : Except Fault Slots :=
  if n ≤ a.length then
    return Q.sort nmxpRawStreamSeqNoCompare (a.take n.toNat) ++ a.drop n.toNat
  else .error .slotOutOfRange

/-- *Condition for time-out (pd is NULL)*: start again just before the first item. -/
def rewind (clock : Clock) (p : NmxpRawStreamData) (pd : Option Pd) :
    Except Fault NmxpRawStreamData :=
  if pd.isNone ∧ 0 < p.nPdlist then do
    let first ← derefSlot p.pdlist 0
    return { p with
      lastSeqNoSent := first.seqNo - 1
      lastSampleTime := .finite first.time
      lastLatency := nmxpDataLatency (clock .timeout) (some first) }
  else return p

/-- The send loop, at item `j` with `left` items from there on. -/
def sendLoop (nFuncPd : ℕ) (clock : Clock) :
    ℕ → ℕ → NmxpRawStreamData → Except Fault (ℕ × NmxpRawStreamData × List Event)
  | 0, j, p => return (j, p, [])
  | left + 1, j, p => do
    let pd ← derefSlot p.pdlist j
    let seqNoDiff := pd.seqNo - p.lastSeqNoSent
    if seqNoDiff ≤ 0 then
      let (j', q, evs) ← sendLoop nFuncPd clock left (j + 1) p
      return (j', q, .discarded pd :: evs)
    else if seqNoDiff = 1 then
      let (j', q, evs) ← sendLoop nFuncPd clock left (j + 1) (noteSent (clock (.loop j)) p pd)
      return (j', q, callFuncPd nFuncPd pd ++ .sent pd :: evs)
    else return (j, p, [])

/-- One round of the loop that shifts the array and frees the `j` handled elements. -/
def shiftFreeRound (j n : ℕ) (a : Slots) (k : ℕ) : Except Fault (Slots × List Event) := do
  let (a, evs) ←
    if k < j then do
      let pd ← derefSlot a k
      let a ← writeSlot a k none
      pure (a, [Event.freed pd])
    else pure (a, [])
  if k + j < n then
    let v ← readSlot a ((k + j : ℕ) : ℤ)
    let a ← writeSlot a k v
    let a ← writeSlot a ((k + j : ℕ) : ℤ) none
    return (a, evs)
  else
    let a ← writeSlot a k none
    return (a, evs)

/-- That loop, in `left` rounds from `k`. -/
def shiftFree (j n : ℕ) : ℕ → ℕ → Slots → Except Fault (Slots × List Event)
  | 0, _, a => return (a, [])
  | left + 1, k, a => do
    let (a, evs) ← shiftFreeRound j n a k
    let (a, evs') ← shiftFree j n left (k + 1) a
    return (a, evs ++ evs')

/-- The latency of the first item. -/
def firstLatency (clock : Clock) (p : NmxpRawStreamData) : Except Fault Double :=
  if 0 < p.nPdlist then do
    let first ← derefSlot p.pdlist 0
    return nmxpDataLatency (clock .decision) (some first)
  else return .finite 0

/-- *Add pd and sort array, in case handle the first item*: the part before the sort. -/
def addPd (nFuncPd : ℕ) (clock : Clock) (latency : Double) (p : NmxpRawStreamData)
    (pd : Option Pd) : Except Fault (NmxpRawStreamData × List Event) :=
  if MustForce p latency then forceFirst nFuncPd clock p pd
  else do
    let p ← appendPd p pd
    return (p, [])

/-- The removal of NULL elements, and the sort. -/
def compactAndSort (Q : Qsort) (p : NmxpRawStreamData) : Except Fault NmxpRawStreamData := do
  let (count, slots) ← removeNulls p.nPdlist.toNat 0 p.pdlist
  let slots ← sortSlots Q (p.nPdlist - count) slots
  return { p with nPdlist := p.nPdlist - count, pdlist := slots }

/-- *Manage array and execute func_pd()*, then *shift and free j handled elements*. -/
def sendAndShift (nFuncPd : ℕ) (clock : Clock) (p : NmxpRawStreamData) :
    Except Fault (NmxpRawStreamData × List Event) := do
  let (j, p, evs) ← sendLoop nFuncPd clock p.nPdlist.toNat 0 p
  if 0 < j then
    let (slots, evs') ← shiftFree j p.nPdlist.toNat p.nPdlist.toNat 0 p.pdlist
    return ({ p with nPdlist := p.nPdlist - j, pdlist := slots }, evs ++ evs')
  else return (p, evs)

/-- **`nmxp_raw_stream_manage`.** `a_pd` is `none` for a NULL packet. -/
def nmxpRawStreamManage (Q : Qsort) (nFuncPd : ℕ) (clock : Clock) (p : NmxpRawStreamData)
    (a_pd : Option Pd) : Except Fault (NmxpRawStreamData × List Event) := do
  let pd := a_pd.map copyPd
  let p := pd.elim p (firstTime clock p)
  let latency ← firstLatency clock p
  let (p, evs) ← addPd nFuncPd clock latency p pd
  let p ← compactAndSort Q p
  let p ← rewind clock p pd
  let (p, evs') ← sendAndShift nFuncPd clock p
  return (p, evs ++ evs')

/-! ### What is seen of a call -/

/-- The packets handed to `p_func_pd[i]`, in order. -/
def handedTo (i : ℕ) (evs : List Event) : List Pd := evs.filterMap fun
  | .funcPd j pd => if j = i then some pd else none
  | _ => none

/-- The packets sent. -/
def sentOf (evs : List Event) : List Pd := evs.filterMap fun
  | .sent pd => some pd
  | _ => none

/-- The packets discarded as stale. -/
def discardedOf (evs : List Event) : List Pd := evs.filterMap fun
  | .discarded pd => some pd
  | _ => none

/-- The packets discarded by the branch that should not occur. -/
def shouldNotOccurOf (evs : List Event) : List Pd := evs.filterMap fun
  | .shouldNotOccur pd => some pd
  | _ => none

/-- The packets whose memory was freed. -/
def freedOf (evs : List Event) : List Pd := evs.filterMap fun
  | .freed pd => some pd
  | _ => none

/-- The packets in the buffer: the pointers of the slots in use that are not NULL. -/
def pending (p : NmxpRawStreamData) : List Pd :=
  (p.pdlist.take p.nPdlist.toNat).filterMap id

/-- One call of a run: the packet handed in, or NULL, and the clock readings. -/
structure Call where
  pd : Option Pd
  clock : Clock

/-- A call as a step. -/
def callStep (Q : Qsort) (nFuncPd : ℕ) (p : NmxpRawStreamData) (c : Call) :
    Except Fault (NmxpRawStreamData × List Event) :=
  nmxpRawStreamManage Q nFuncPd c.clock p c.pd

/-- A sequence of calls. -/
def manageAll (Q : Qsort) (nFuncPd : ℕ) :
    NmxpRawStreamData → List Call → Except Fault (NmxpRawStreamData × List Event) :=
  run (callStep Q nFuncPd)

end Nmxptool.RawStream.Model
