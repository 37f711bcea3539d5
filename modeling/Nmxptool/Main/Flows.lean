import Nmxptool.Dap.Schedule
import Nmxptool.Lib.Run

/-! # Connecting over and over

Until it is told to end, `main` gets the list of the channels, runs one or two flows, pauses and
begins again. With a state file the first flow is a DAP flow that catches up with what was missed,
and the second one is a PDS flow. What a flow leaves in `params` decides on where the next list
comes from.

* `flow`, `flowLoop`: a flow, and the loop over `times_flow`.
* `connect`, `mainRound`: what is done for one connection.
* `flowLoop_catchesUp`: the flows of a connection, with a state file.
* `main_sources`: a DAP flow that is cut off makes the next connection the last. -/

namespace Nmxptool.Main.Flows

open Nmxptool.Lib.Rounds Nmxptool.Lib.Run Nmxptool.Params.Parameters
open Nmxptool.Dap.Flow Nmxptool.Dap.Schedule

def TIMES_FLOW_EXIT : ℕ := 100

/-! ### A flow -/

/-- Why a connection does not come to its end. -/
inductive Stop
  | returns (code : ℤ)
  /-- A DAP flow goes on after all rounds that are looked at. -/
  | pending

/-- What comes from outside during a flow: the states of the channels, by their index, the rounds
of the DAP loop that are looked at beyond two, and the `recv_errno` of the last receive. -/
structure Course where
  afterStartTime : ℕ → ℚ
  rounds : ℕ
  recvErrno : Int32

/-- A flow, a DAP flow with the window that it begins with. -/
inductive FlowRecord
  | dap (startTime endTime : ℚ)
  | pds
  deriving DecidableEq

structure FlowState where
  params : NmxptoolParams
  timesFlow : ℕ
  recvErrno : Int32
  /-- `ew_check_flag_terminate` -/
  flagTerminate : Bool
  world : World

/-- The channels of the subset, with the states that have been loaded. -/
def loaded (keys : List Int32) (afterStartTime : ℕ → ℚ) : List SubsetChannel :=
  keys.mapIdx fun i key => ⟨key, afterStartTime i⟩

/-- What the DAP loop leaves: whether `main` returned from it, or was asked to terminate. -/
structure DapEnd where
  returned : Bool
  flagTerminate : Bool
  state : DapState

/-- The DAP loop, if it takes fewer rounds than `k`. -/
def dapLoop (p : NmxptoolParams) (channels : List SubsetChannel) (defaultStart : ℚ) :
    ℕ → DapState → Option DapEnd
  | 0, _ => none
  | k + 1, s =>
    match dapRound p channels defaultStart s with
    | none => some ⟨false, false, s⟩
    | some (_, s') =>
      let r := requestLoop p defaultStart s.endTime channels s.startTime s.world
      if p.delay.toInt > 0 ∧
          (pause (timeToSleep p r.startTime s.endTime r.world.now).toInt r.world).returned then
        some ⟨true, !r.exitdapcondition, s'⟩
      -- asked to terminate, and `exitdapcondition` is 0
      else if !r.exitdapcondition then some ⟨false, true, s'⟩
      else dapLoop p channels defaultStart k s'

/-- **A DAP flow.** -/
def dapFlowOf (keys : List Int32) (c : Course) (s : FlowState) :
    Except Stop (FlowRecord × FlowState) :=
  let window := firstWindow s.params s.world.now
  let p := { s.params with startTime := window.1, endTime := window.2 }
  -- steps 1 to 4
  if s.world.future.head.ok then
    let w := s.world.call 0
    let channels := loaded keys c.afterStartTime
    let defaultStart := defaultStartTime p window.1 w.now
    match dapLoop p channels defaultStart (c.rounds + 2) ⟨window.1, window.2, true, w⟩ with
    | none => .error .pending
    | some e =>
      if e.returned then .error (.returns 1)
      else
        .ok (.dap window.1 window.2,
          { s with
            params := { p with startTime := e.state.startTime, endTime := e.state.endTime }
            recvErrno := c.recvErrno
            flagTerminate := e.flagTerminate
            world := e.state.world })
  else .error (.returns 1)

/-- **A PDS flow.** Its loop ends for reasons that are not looked at here. -/
def pdsFlowOf (c : Course) (s : FlowState) : Except Stop (FlowRecord × FlowState) :=
  -- steps 1 to 3
  if s.world.future.head.ok then
    let w := s.world.call 0
    .ok (.pds,
      { s with
        recvErrno := c.recvErrno
        flagTerminate := s.params.ewConfigurationFile ≠ none ∧ w.future.head.flagTerminate
        world := w.call 0 })
  else .error (.returns 1)

/-- `DAP_CONDITION` -/
def DAP_CONDITION (p : NmxptoolParams) : Prop := p.startTime ≠ 0 ∨ p.delay.toInt > 0

instance (p : NmxptoolParams) : Decidable (DAP_CONDITION p) := inferInstanceAs (Decidable (_ ∨ _))

/-- The parameters as they are changed before a flow. -/
def flowParams (timesFlow : ℕ) (p : NmxptoolParams) : NmxptoolParams :=
  if timesFlow = 0 then if p.statefile ≠ none then { p with interval := 0 } else p
  else if timesFlow = 1 then { p with startTime := 0, endTime := 0, interval := -1 }
  else p

/-- The condition for starting DAP or PDS, and the flow. -/
def dapOrPds (keys : List Int32) (c : Course) (s : FlowState) :
    Except Stop (FlowRecord × FlowState) :=
  if DAP_CONDITION s.params ∨ (s.timesFlow = 0 ∧ s.params.statefile ≠ none ∧
      s.params.maxDataToRetrieve.toInt > 0 ∧
      s.params.interval.toInt = DEFAULT_INTERVAL_INFINITE) then
    dapFlowOf keys c s
  else pdsFlowOf c s

/-- `times_flow` after a flow. -/
def nextTimes (s : FlowState) : ℕ :=
  if !s.flagTerminate ∧ s.params.interval.toInt = DEFAULT_INTERVAL_INFINITE then s.timesFlow + 1
  else TIMES_FLOW_EXIT

/-- **A flow**, and `times_flow` after it. -/
def flow (keys : List Int32) (c : Course) (s : FlowState) :
    Except Stop (FlowRecord × FlowState) := do
  let (o, s') ← dapOrPds keys c { s with params := flowParams s.timesFlow s.params }
  return (o, { s' with timesFlow := nextTimes s' })

/-- **The loop over `times_flow`**, with one course for each of its rounds. -/
def flowLoop (keys : List Int32) : List Course → FlowState →
    Except Stop (List FlowRecord × FlowState)
  | [], s => .ok ([], s)
  | c :: cs, s =>
    if s.timesFlow < 2 ∧ s.recvErrno = 0 ∧ !s.world.sigcondition ∧ !s.world.errGeneral then do
      let (o, s') ← flow keys c s
      let (os, s'') ← flowLoop keys cs s'
      return (o :: os, s'')
    else .ok ([], s)

/-! ### A connection -/

/-- What comes from outside for one connection: the keys of the channels of the subset, and the
courses of the flows. -/
structure Connection where
  keys : List Int32
  first : Course
  second : Course

inductive ListSource
  | dataServer
  | naqsServer
  deriving DecidableEq

/-- What is done for one connection. -/
structure Connected where
  source : ListSource
  flows : List FlowRecord
  /-- Whether it pauses in order to begin again. -/
  slept : Bool
  deriving DecidableEq

structure MainState where
  params : NmxptoolParams
  /-- `if_dap_condition_only_one_time` -/
  onlyOneTime : Bool
  /-- `ew_check_flag_terminate` -/
  flagTerminate : Bool
  world : World
  connections : Stream' Connection

/-- `EXIT_CONDITION`, which is the condition for going on. -/
def EXIT_CONDITION (s : MainState) : Bool :=
  !s.world.sigcondition && !s.flagTerminate && !s.onlyOneTime && !s.world.errGeneral

def listSource (p : NmxptoolParams) : ListSource :=
  if DAP_CONDITION p then .dataServer else .naqsServer

/-- What `main` returns without a list. -/
def noListCode : ListSource → ℤ
  | .dataServer => -1
  | .naqsServer => 1

/-- The flows of a connection. -/
def connectionFlows (s : MainState) : Except Stop (List FlowRecord × FlowState) :=
  let c := s.connections.head
  flowLoop c.keys [c.first, c.second] ⟨s.params, 0, 0, false, s.world.call 0⟩

/-- The state when they are over. -/
def afterFlows (s : MainState) (f : FlowState) : MainState where
  params := f.params
  onlyOneTime := s.onlyOneTime || listSource s.params = .dataServer
  flagTerminate := f.flagTerminate
  world := f.world
  connections := s.connections.tail

def sleepBeforeReconnect (s : MainState) : MainState :=
  if EXIT_CONDITION s then { s with world := s.world.call s.params.networkdelay.toInt.toNat } else s

/-- **The body of the loop 'exit only on request'.** -/
def connect (s : MainState) : Except Stop (Connected × MainState) :=
  let source := listSource s.params
  if !s.world.future.head.ok then .error (.returns (noListCode source))
  else if s.connections.head.keys = [] then .error (.returns 1)
  else do
    let (flows, f) ← connectionFlows s
    let s' := afterFlows s f
    return (⟨source, flows, EXIT_CONDITION s'⟩, sleepBeforeReconnect s')

/-- **A round of the loop**, unless the loop ends or `main` returns from it. -/
def mainRound (s : MainState) : Option (Connected × MainState) :=
  if EXIT_CONDITION s then
    match connect s with
    | .ok r => some r
    | .error _ => none
  else none

/-! ### What every flow keeps -/

section Keeps

variable {keys : List Int32} {c : Course} {p : NmxptoolParams} {s s' : FlowState} {o : FlowRecord}
  {channels : List SubsetChannel} {defaultStart : ℚ}

/-- All that a flow changes in the parameters. -/
def KeepsParams (p q : NmxptoolParams) : Prop :=
  q = { p with startTime := q.startTime, endTime := q.endTime, interval := q.interval }

theorem keepsParams_flowParams (n : ℕ) (p : NmxptoolParams) : KeepsParams p (flowParams n p) := by
  unfold flowParams
  split_ifs <;> rfl

theorem KeepsParams.trans {p q r : NmxptoolParams} (h1 : KeepsParams p q) (h2 : KeepsParams q r) :
    KeepsParams p r := by
  unfold KeepsParams at h1 h2 ⊢
  rw [h2, h1]

theorem now_dapRound {d d' : DapState} {r : Round}
    (h : dapRound p channels defaultStart d = some (r, d')) : d.world.now ≤ d'.world.now := by
  unfold dapRound at h
  dsimp only at h
  split_ifs at h with hgo hdelay
  · obtain ⟨rfl, rfl⟩ := Prod.mk.inj (Option.some.inj h)
    exact now_requestLoop.trans (now_pause _ _)
  · obtain ⟨rfl, rfl⟩ := Prod.mk.inj (Option.some.inj h)
    exact now_requestLoop

theorem now_dapLoop {k : ℕ} {d : DapState} {e : DapEnd}
    (h : dapLoop p channels defaultStart k d = some e) : d.world.now ≤ e.state.world.now := by
  induction k generalizing d with
  | zero => exact absurd h (by simp [dapLoop])
  | succ k ih =>
    unfold dapLoop at h
    split at h
    · obtain rfl := Option.some.inj h
      exact le_rfl
    · next r d' hround =>
      dsimp only at h
      have hnow := now_dapRound hround
      split_ifs at h
      · obtain rfl := Option.some.inj h
        exact hnow
      · obtain rfl := Option.some.inj h
        exact hnow
      · exact hnow.trans (ih h)

/-- **What a DAP flow does**, if `main` goes on after it. -/
theorem dapFlowOf_eq_ok (h : dapFlowOf keys c s = .ok (o, s')) :
    s.world.future.head.ok = true ∧ ∃ window, window = firstWindow s.params s.world.now ∧
      ∃ p, p = { s.params with startTime := window.1, endTime := window.2 } ∧
      ∃ e, dapLoop p (loaded keys c.afterStartTime)
          (defaultStartTime p window.1 (s.world.call 0).now) (c.rounds + 2)
          ⟨window.1, window.2, true, s.world.call 0⟩ = some e ∧ e.returned = false ∧
        o = .dap window.1 window.2 ∧
        s' = { s with
          params := { p with startTime := e.state.startTime, endTime := e.state.endTime }
          recvErrno := c.recvErrno
          flagTerminate := e.flagTerminate
          world := e.state.world } := by
  unfold dapFlowOf at h
  dsimp only at h
  split_ifs at h with hok
  split at h
  · exact absurd h (by simp)
  · next e he =>
    split_ifs at h with hret
    obtain ⟨rfl, rfl⟩ := Prod.mk.inj (Except.ok.inj h)
    exact ⟨hok, _, rfl, _, rfl, e, he, by simpa using hret, rfl, rfl⟩

theorem pdsFlowOf_eq_ok (h : pdsFlowOf c s = .ok (o, s')) :
    s.world.future.head.ok = true ∧ o = .pds ∧ s' = { s with
      recvErrno := c.recvErrno
      flagTerminate :=
        s.params.ewConfigurationFile ≠ none ∧ (s.world.call 0).future.head.flagTerminate
      world := (s.world.call 0).call 0 } := by
  unfold pdsFlowOf at h
  split_ifs at h with hok
  obtain ⟨rfl, rfl⟩ := Prod.mk.inj (Except.ok.inj h)
  exact ⟨hok, rfl, rfl⟩

/-- **What every flow keeps.** The clock does not go back. -/
theorem dapOrPds_keeps (h : dapOrPds keys c s = .ok (o, s')) :
    KeepsParams s.params s'.params ∧ s.world.now ≤ s'.world.now := by
  unfold dapOrPds at h
  split_ifs at h
  · obtain ⟨-, _, -, _, rfl, e, he, -, -, rfl⟩ := dapFlowOf_eq_ok h
    exact ⟨rfl, s.world.now_le_call.trans (now_dapLoop he)⟩
  · obtain ⟨-, -, rfl⟩ := pdsFlowOf_eq_ok h
    exact ⟨rfl, s.world.now_le_call.trans (World.now_le_call _)⟩

theorem flow_eq_ok (h : flow keys c s = .ok (o, s')) :
    ∃ s₁, dapOrPds keys c { s with params := flowParams s.timesFlow s.params } = .ok (o, s₁) ∧
      s' = { s₁ with timesFlow := nextTimes s₁ } := by
  unfold flow at h
  obtain ⟨⟨o₁, s₁⟩, h₁, h₂⟩ := bind_eq_ok.mp h
  obtain ⟨rfl, rfl⟩ := Prod.mk.inj (Except.ok.inj h₂)
  exact ⟨s₁, h₁, rfl⟩

theorem flow_keeps (h : flow keys c s = .ok (o, s')) :
    KeepsParams s.params s'.params ∧ s.world.now ≤ s'.world.now := by
  obtain ⟨s₁, h₁, rfl⟩ := flow_eq_ok h
  obtain ⟨hparams, hnow⟩ := dapOrPds_keeps h₁
  exact ⟨(keepsParams_flowParams _ _).trans hparams, hnow⟩

end Keeps

/-! ### A DAP flow without a delay -/

section NoDelay

variable {p : NmxptoolParams} {channels : List SubsetChannel} {defaultStart endTime startTime : ℚ}
  {w : World}

/-- It takes one round. -/
theorem dapLoop_of_delay (hdelay : p.delay.toInt ≤ 0) (k : ℕ) :
    dapLoop p channels defaultStart (k + 2) ⟨startTime, endTime, true, w⟩ =
      if w.sigcondition ∨ w.errGeneral then some ⟨false, false, ⟨startTime, endTime, true, w⟩⟩
      else
        let r := requestLoop p defaultStart endTime channels startTime w
        some ⟨false, !r.exitdapcondition, ⟨r.startTime, endTime, false, r.world⟩⟩ := by
  have hround : dapRound p channels defaultStart ⟨startTime, endTime, true, w⟩ =
      if w.sigcondition ∨ w.errGeneral then none
      else
        let r := requestLoop p defaultStart endTime channels startTime w
        some (⟨startTime, endTime, r.requests, []⟩, ⟨r.startTime, endTime, false, r.world⟩) := by
    unfold dapRound
    simp only [if_neg hdelay.not_gt]
    cases w.sigcondition <;> cases w.errGeneral <;> rfl
  have hend : ∀ a b (w' : World), dapRound p channels defaultStart ⟨a, b, false, w'⟩ = none :=
    fun a b w' => if_neg fun h => absurd h.1 (by simp)
  by_cases hstop : (w.sigcondition : Prop) ∨ w.errGeneral
  · rw [dapLoop, hround, if_pos hstop, if_pos hstop]
  · rw [dapLoop, hround, if_neg hstop, if_neg hstop]
    simp only [hdelay.not_gt, false_and, if_false]
    cases (requestLoop p defaultStart endTime channels startTime w).exitdapcondition with
    | true =>
      rw [if_neg (by simp), dapLoop, hend]
      rfl
    | false => rfl

/-- With a state file no channel is asked for from the time 0 on. -/
theorem startTimeOf_pos (hstate : p.statefile ≠ none) (hdefault : 0 < defaultStart)
    (hend : (p.maxDataToRetrieve.toInt : ℚ) < endTime) (startTime : ℚ) (ch : SubsetChannel) :
    0 < startTimeOf p defaultStart endTime startTime ch := by
  unfold startTimeOf
  rw [if_pos hstate]
  split_ifs with hafter hlong
  · exact sub_pos.mpr hend
  · exact hafter
  · exact hdefault

theorem startTime_requestLoop_pos (hstate : p.statefile ≠ none) (hdefault : 0 < defaultStart)
    (hend : (p.maxDataToRetrieve.toInt : ℚ) < endTime) (hstart : 0 < startTime) :
    0 < (requestLoop p defaultStart endTime channels startTime w).startTime := by
  induction channels generalizing startTime w with
  | nil => exact hstart
  | cons ch channels ih =>
    have hpos := startTimeOf_pos hstate hdefault hend startTime ch
    unfold requestLoop
    dsimp only
    split_ifs
    · exact hstart
    · exact ih hpos
    · exact hpos

/-- **What the requests leave in `start_time`**, once one of them has been made. -/
theorem startTime_requestLoop_ne (hstate : p.statefile ≠ none) (hdefault : 0 < defaultStart)
    (hend : (p.maxDataToRetrieve.toInt : ℚ) < endTime) (hchannels : channels ≠ [])
    (hgo : ¬((w.sigcondition : Prop) ∨ w.errGeneral)) :
    0 < (requestLoop p defaultStart endTime channels startTime w).startTime := by
  cases channels with
  | nil => exact absurd rfl hchannels
  | cons ch channels =>
    have hpos := startTimeOf_pos hstate hdefault hend startTime ch
    unfold requestLoop
    dsimp only
    rw [if_neg hgo]
    split_ifs
    · exact startTime_requestLoop_pos hstate hdefault hend hpos
    · exact hpos

end NoDelay

/-! ### The flows with a state file -/

/-- **Catching up from a state file**: what a flow does not change, and a clock beyond all that may
be retrieved. -/
structure CatchesUp (p : NmxptoolParams) (now : ℤ) : Prop where
  statefile : p.statefile ≠ none
  retrieves : 0 < p.maxDataToRetrieve.toInt
  noDelay : p.delay.toInt ≤ 0
  clock : p.maxDataToRetrieve.toInt < now

theorem CatchesUp.keeps {p q : NmxptoolParams} {now now' : ℤ} (h : CatchesUp p now)
    (hkeeps : KeepsParams p q) (hnow : now ≤ now') : CatchesUp q now' := by
  rw [hkeeps]
  exact ⟨h.statefile, h.retrieves, h.noDelay, h.clock.trans_le hnow⟩

section Flows

variable {keys : List Int32} {c c₁ c₂ : Course} {s s' f : FlowState} {o : FlowRecord}
  {os : List FlowRecord}

/-- Nothing asks `main` to end. -/
def FlowState.Goes (s : FlowState) : Prop :=
  s.world.sigcondition = false ∧ s.world.errGeneral = false ∧ s.flagTerminate = false

theorem nextTimes_infinite (hinterval : s.params.interval.toInt = DEFAULT_INTERVAL_INFINITE) :
    nextTimes s = if s.flagTerminate then TIMES_FLOW_EXIT else s.timesFlow + 1 := by
  unfold nextTimes
  cases s.flagTerminate with
  | true => rfl
  | false => exact if_pos ⟨rfl, hinterval⟩

/-- **The first flow** is a DAP flow. -/
theorem flow_first (hs : CatchesUp s.params s.world.now) (hkeys : keys ≠ [])
    (htimes : s.timesFlow = 0) (h : flow keys c s = .ok (o, s')) :
    (∃ a b, o = .dap a b) ∧ s'.recvErrno = c.recvErrno ∧
      s'.timesFlow = (if s'.flagTerminate then TIMES_FLOW_EXIT else 1) ∧
      (s'.Goes → 0 < s'.params.startTime) := by
  obtain ⟨s₁, h₁, rfl⟩ := flow_eq_ok h
  have hparams : flowParams s.timesFlow s.params = { s.params with interval := 0 } := by
    rw [htimes]
    exact if_pos hs.statefile
  rw [hparams, dapOrPds, if_pos (Or.inr ⟨htimes, hs.statefile, hs.retrieves, rfl⟩)] at h₁
  obtain ⟨-, window, hwindow, p, hp, e, he, -, rfl, hs₁⟩ := dapFlowOf_eq_ok h₁
  obtain rfl : window = (s.params.startTime, (s.world.now : ℚ)) := hwindow
  have hdelay : p.delay.toInt ≤ 0 := by
    rw [hp]
    exact hs.noDelay
  have hclock : (s.params.maxDataToRetrieve.toInt : ℚ) < s.world.now := by exact_mod_cast hs.clock
  have hdefault : 0 < defaultStartTime p s.params.startTime (s.world.call 0).now := by
    unfold defaultStartTime
    split_ifs with hstart
    · exact hstart
    · have := hs.clock.trans_le s.world.now_le_call
      rw [hp]
      exact_mod_cast sub_pos.mpr this
  have hchannels : loaded keys c.afterStartTime ≠ [] := by
    rw [loaded, Ne, List.mapIdx_eq_nil_iff]
    exact hkeys
  rw [dapLoop_of_delay hdelay] at he
  have hnext : nextTimes s₁ = if s₁.flagTerminate then TIMES_FLOW_EXIT else 1 := by
    have htimes₁ : s₁.timesFlow + 1 = 1 := by rw [hs₁, htimes]
    rw [nextTimes_infinite (by rw [hs₁, hp]; rfl), htimes₁]
  refine ⟨⟨_, _, rfl⟩, by rw [hs₁], hnext, fun hgoes => ?_⟩
  rw [hs₁] at hgoes ⊢
  split_ifs at he with hstop
  · obtain rfl := Option.some.inj he
    have hgo : (s.world.call 0).sigcondition = false ∧ (s.world.call 0).errGeneral = false :=
      ⟨hgoes.1, hgoes.2.1⟩
    rw [hgo.1, hgo.2] at hstop
    exact absurd hstop (by simp)
  · obtain rfl := Option.some.inj he
    exact startTime_requestLoop_ne (by rw [hp]; exact hs.statefile) hdefault
      (by rw [hp]; exact hclock) hchannels hstop

/-- **The second flow** is a PDS flow, and nothing is left in `start_time`. -/
theorem flow_second (hdelay : s.params.delay.toInt ≤ 0) (htimes : s.timesFlow = 1)
    (h : flow keys c s = .ok (o, s')) : o = .pds ∧ s'.params.startTime = 0 := by
  obtain ⟨s₁, h₁, rfl⟩ := flow_eq_ok h
  have hparams : flowParams s.timesFlow s.params =
      { s.params with startTime := 0, endTime := 0, interval := -1 } := by
    rw [htimes]
    rfl
  have hpds : ¬(DAP_CONDITION { s.params with startTime := 0, endTime := 0, interval := -1 } ∨
      (s.timesFlow = 0 ∧ s.params.statefile ≠ none ∧ s.params.maxDataToRetrieve.toInt > 0 ∧
        (-1 : Int32).toInt = DEFAULT_INTERVAL_INFINITE)) := by
    rintro ((hstart | hpos) | ⟨htimes0, -⟩)
    · exact hstart rfl
    · exact hdelay.not_gt hpos
    · exact absurd (htimes.symm.trans htimes0) (by simp)
  rw [hparams, dapOrPds, if_neg hpds] at h₁
  obtain ⟨-, rfl, rfl⟩ := pdsFlowOf_eq_ok h₁
  exact ⟨rfl, rfl⟩

theorem flowLoop_cons_eq_ok {cs : List Course} (h : flowLoop keys (c :: cs) s = .ok (os, f))
    (hgo : s.timesFlow < 2 ∧ s.recvErrno = 0 ∧ !s.world.sigcondition ∧ !s.world.errGeneral) :
    ∃ o s' os', flow keys c s = .ok (o, s') ∧ flowLoop keys cs s' = .ok (os', f) ∧
      os = o :: os' := by
  rw [flowLoop, if_pos hgo] at h
  obtain ⟨⟨o, s'⟩, h₁, h⟩ := bind_eq_ok.mp h
  obtain ⟨⟨os', f'⟩, h₂, h⟩ := bind_eq_ok.mp h
  obtain ⟨rfl, rfl⟩ := Prod.mk.inj (Except.ok.inj h)
  exact ⟨o, s', os', h₁, h₂, rfl⟩

theorem flowLoop_stop {cs : List Course}
    (hstop : ¬(s.timesFlow < 2 ∧ s.recvErrno = 0 ∧ !s.world.sigcondition ∧ !s.world.errGeneral)) :
    flowLoop keys cs s = .ok ([], s) := by
  cases cs with
  | nil => rfl
  | cons c cs => exact if_neg hstop

/-- **The flows of a connection**, with a state file, and what they leave in `start_time`. -/
theorem flowLoop_catchesUp (hs : CatchesUp s.params s.world.now) (hkeys : keys ≠ [])
    (hstart : s.timesFlow = 0 ∧ s.recvErrno = 0) (h : flowLoop keys [c₁, c₂] s = .ok (os, f))
    (hgoes : f.Goes) :
    ∃ a b, if c₁.recvErrno = 0 then os = [.dap a b, .pds] ∧ f.params.startTime = 0
      else os = [.dap a b] ∧ 0 < f.params.startTime := by
  by_cases hgo : s.timesFlow < 2 ∧ s.recvErrno = 0 ∧ !s.world.sigcondition ∧ !s.world.errGeneral
  · obtain ⟨o, s', os', hfirst, hrest, rfl⟩ := flowLoop_cons_eq_ok h hgo
    obtain ⟨⟨a, b, rfl⟩, herrno, htimes, hpos⟩ := flow_first hs hkeys hstart.1 hfirst
    obtain ⟨hparams, hnow⟩ := flow_keeps hfirst
    have hs' := hs.keeps hparams hnow
    refine ⟨a, b, ?_⟩
    by_cases hgo' : s'.timesFlow < 2 ∧ s'.recvErrno = 0 ∧ !s'.world.sigcondition ∧
        !s'.world.errGeneral
    · have hzero : c₁.recvErrno = 0 := herrno.symm.trans hgo'.2.1
      obtain ⟨o', s'', os'', hsecond, hend, rfl⟩ := flowLoop_cons_eq_ok hrest hgo'
      obtain ⟨rfl, rfl⟩ := Prod.mk.inj (Except.ok.inj hend)
      have hflag : s'.flagTerminate = false := by
        refine Bool.eq_false_iff.mpr fun hflag => hgo'.1.not_ge ?_
        rw [htimes, if_pos hflag]
        decide
      have hone : s'.timesFlow = 1 := by rw [htimes, hflag]; rfl
      obtain ⟨rfl, hnothing⟩ := flow_second hs'.noDelay hone hsecond
      rw [if_pos hzero]
      exact ⟨rfl, hnothing⟩
    · rw [flowLoop_stop hgo'] at hrest
      obtain ⟨rfl, rfl⟩ := Prod.mk.inj (Except.ok.inj hrest)
      have hne : c₁.recvErrno ≠ 0 := fun hzero => hgo' ⟨by rw [htimes, hgoes.2.2]; decide,
        herrno.trans hzero, by rw [hgoes.1]; rfl, by rw [hgoes.2.1]; rfl⟩
      rw [if_neg hne]
      exact ⟨rfl, hpos hgoes⟩
  · rw [flowLoop_stop hgo] at h
    obtain ⟨rfl, rfl⟩ := Prod.mk.inj (Except.ok.inj h)
    refine absurd ⟨by rw [hstart.1]; decide, hstart.2, ?_, ?_⟩ hgo
    · rw [hgoes.1]; rfl
    · rw [hgoes.2.1]; rfl

theorem flowLoop_keeps {cs : List Course} (h : flowLoop keys cs s = .ok (os, f)) :
    KeepsParams s.params f.params ∧ s.world.now ≤ f.world.now := by
  induction cs generalizing s os with
  | nil =>
    obtain ⟨rfl, rfl⟩ := Prod.mk.inj (Except.ok.inj h)
    exact ⟨rfl, le_rfl⟩
  | cons c cs ih =>
    by_cases hgo : s.timesFlow < 2 ∧ s.recvErrno = 0 ∧ !s.world.sigcondition ∧ !s.world.errGeneral
    · obtain ⟨o, s', os', hflow, hrest, rfl⟩ := flowLoop_cons_eq_ok h hgo
      obtain ⟨hparams, hnow⟩ := flow_keeps hflow
      obtain ⟨hparams', hnow'⟩ := ih hrest
      exact ⟨hparams.trans hparams', hnow.trans hnow'⟩
    · rw [flowLoop_stop hgo] at h
      obtain ⟨rfl, rfl⟩ := Prod.mk.inj (Except.ok.inj h)
      exact ⟨rfl, le_rfl⟩

end Flows

/-! ### Connections -/

section Connections

variable {s s' s'' : MainState} {o o' : Connected}

/-- **What a round does.** -/
theorem mainRound_eq_some : mainRound s = some (o, s') ↔
    EXIT_CONDITION s = true ∧ s.world.future.head.ok = true ∧ s.connections.head.keys ≠ [] ∧
      ∃ flows f, connectionFlows s = .ok (flows, f) ∧
        o = ⟨listSource s.params, flows, EXIT_CONDITION (afterFlows s f)⟩ ∧
        s' = sleepBeforeReconnect (afterFlows s f) := by
  unfold mainRound connect
  constructor
  · intro h
    split_ifs at h with hexit hlist hkeys
    split at h
    · next r hr =>
      obtain rfl := Option.some.inj h
      obtain ⟨⟨flows, f⟩, hflows, hr⟩ := bind_eq_ok.mp hr
      obtain ⟨rfl, rfl⟩ := Prod.mk.inj (Except.ok.inj hr)
      exact ⟨hexit, by simpa using hlist, hkeys, flows, f, hflows, rfl, rfl⟩
    · exact absurd h (by simp)
  · rintro ⟨hexit, hlist, hkeys, flows, f, hflows, rfl, rfl⟩
    rw [if_pos hexit, if_neg (by rw [hlist]; simp), if_neg hkeys]
    simp only [hflows, ok_bind, pure_eq_ok]

theorem sleepBeforeReconnect_keeps (s : MainState) :
    sleepBeforeReconnect s = { s with world := (sleepBeforeReconnect s).world } ∧
      s.world.now ≤ (sleepBeforeReconnect s).world.now := by
  unfold sleepBeforeReconnect
  split_ifs
  · exact ⟨rfl, (le_add_of_nonneg_right (Int.natCast_nonneg _)).trans (s.world.now_call _)⟩
  · exact ⟨rfl, le_rfl⟩

/-- Whoever goes on after the pause went on before it. -/
theorem exitCondition_of_sleep (h : EXIT_CONDITION (sleepBeforeReconnect s) = true) :
    EXIT_CONDITION s = true := by
  by_contra hno
  rw [sleepBeforeReconnect, if_neg hno] at h
  exact hno h

theorem exitCondition_afterFlows {f : FlowState} :
    EXIT_CONDITION (afterFlows s f) = true ↔
      f.Goes ∧ s.onlyOneTime = false ∧ listSource s.params = .naqsServer := by
  have hsource : listSource s.params = .naqsServer ↔ ¬listSource s.params = .dataServer := by
    cases listSource s.params <;> simp
  rw [hsource]
  unfold EXIT_CONDITION afterFlows FlowState.Goes
  cases f.world.sigcondition <;> cases f.flagTerminate <;> cases s.onlyOneTime <;>
    cases f.world.errGeneral <;> simp

theorem listSource_eq_naqsServer {p : NmxptoolParams} (hdelay : p.delay.toInt ≤ 0) :
    listSource p = .naqsServer ↔ p.startTime = 0 := by
  unfold listSource
  split_ifs with h
  · rcases h with h | h
    · exact iff_of_false (by simp) h
    · exact absurd h hdelay.not_gt
  · exact iff_of_true rfl (by simpa using fun hne => h (Or.inl hne))

/-- **A round with a state file.** If another one follows, the list came from the NaqsServer, and
whether the DAP flow was cut off decides on the next source. -/
theorem mainRound_catchesUp (hs : CatchesUp s.params s.world.now)
    (h : mainRound s = some (o, s')) :
    CatchesUp s'.params s'.world.now ∧ (EXIT_CONDITION s' = true →
      o.source = .naqsServer ∧ ∃ a b,
        if s.connections.head.first.recvErrno = 0 then
          o.flows = [.dap a b, .pds] ∧ listSource s'.params = .naqsServer
        else o.flows = [.dap a b] ∧ listSource s'.params = .dataServer) := by
  obtain ⟨-, -, hkeys, flows, f, hflows, rfl, rfl⟩ := mainRound_eq_some.mp h
  obtain ⟨hparams, hnow⟩ := flowLoop_keeps hflows
  obtain ⟨hsame, hlater⟩ := sleepBeforeReconnect_keeps (afterFlows s f)
  have hs₀ : CatchesUp s.params (s.world.call 0).now :=
    hs.keeps rfl s.world.now_le_call
  have hs' := hs₀.keeps hparams (hnow.trans hlater)
  have hparams' : (sleepBeforeReconnect (afterFlows s f)).params = f.params := by rw [hsame]; rfl
  rw [hparams']
  refine ⟨hs', fun hexit => ?_⟩
  obtain ⟨hgoes, -, hsource⟩ := exitCondition_afterFlows.mp (exitCondition_of_sleep hexit)
  obtain ⟨a, b, hflow⟩ := flowLoop_catchesUp hs₀ hkeys ⟨rfl, rfl⟩ hflows hgoes
  refine ⟨hsource, a, b, ?_⟩
  have hnext := listSource_eq_naqsServer (p := f.params) hs'.noDelay
  split_ifs at hflow ⊢
  · exact ⟨hflow.1, hnext.mpr hflow.2⟩
  · refine ⟨hflow.1, ?_⟩
    have hne : listSource f.params ≠ .naqsServer := fun heq => hflow.2.ne' (hnext.mp heq)
    cases hcase : listSource f.params with
    | dataServer => rfl
    | naqsServer => exact absurd hcase hne

/-- What two connections that follow one another have to do with each other: the first one has its
list from the NaqsServer. The second one has it from there as well if the first one came to its PDS
flow, and from the DataServer if the DAP flow of the first one was cut off. -/
def Follows (o o' : Connected) : Prop :=
  o.source = .naqsServer ∧ ∃ a b,
    o'.source = .naqsServer ∧ o.flows = [.dap a b, .pds] ∨
      o'.source = .dataServer ∧ o.flows = [.dap a b]

/-- **Where the lists come from**, with a state file. In particular a list from the DataServer is
the last one. -/
theorem main_sources (hs : CatchesUp s.params s.world.now) (k : ℕ) :
    (rounds mainRound k s).IsChain Follows := by
  refine isChain_rounds (fun s => CatchesUp s.params s.world.now)
    (fun s o s' hs h => (mainRound_catchesUp hs h).1) (fun s o s' o' s'' hs h h' => ?_) hs k
  obtain ⟨hexit, -, -, _, _, -, rfl, -⟩ := mainRound_eq_some.mp h'
  obtain ⟨hsource, a, b, hflow⟩ := (mainRound_catchesUp hs h).2 hexit
  refine ⟨hsource, a, b, ?_⟩
  split_ifs at hflow
  · exact Or.inl hflow.symm
  · exact Or.inr hflow.symm

/-- A client that catches up one minute. -/
def minuteParams : NmxptoolParams :=
  { NMXPTOOL_PARAMS_DEFAULT with statefile := some "state".toList, maxDataToRetrieve := 60 }

def quietMoment : Moment := ⟨0, true, false, false, false⟩

/-- One channel, and DAP flows that all end with the same `recv_errno`. -/
def minuteState (recvErrno : Int32) : MainState where
  params := minuteParams
  onlyOneTime := false
  flagTerminate := false
  world := ⟨1000, false, false, Stream'.const quietMoment⟩
  connections := Stream'.const ⟨[0x100], ⟨fun _ => 0, 0, recvErrno⟩, ⟨fun _ => 0, 0, 104⟩⟩

theorem catchesUp_minuteParams : CatchesUp minuteParams 1000 :=
  ⟨by simp [minuteParams], by decide, by decide, by decide⟩

/-- After the cut the next connection is the last. -/
theorem main_sources_cutOff :
    (rounds mainRound 5 (minuteState 104)).map (·.source) = [.naqsServer, .dataServer] ∧
      (rounds mainRound 5 (minuteState 104)).IsChain Follows :=
  ⟨by decide, main_sources catchesUp_minuteParams 5⟩

end Connections

end Nmxptool.Main.Flows
