import Mathlib.Data.Stream.Init
import Nmxptool.Lib.Rounds
import Nmxptool.Params.Parameters
import Nmxptool.Pds.Clip

/-! # The DAP flow

The loop of `main` that requests data from the past. A round requests one time window for every
channel. With a delay, the loop then pauses until the next window is old enough, in slices after
which it sends a RequestPending; without one it ends.

* `firstWindow`: the window that the flow begins with.
* `requestLoop`, `waitingLoop`: the requests and the pause of a round.
* `dapRound`, `dapFlow`: a round, and the first rounds. -/

namespace Nmxptool.Dap.Flow

open Nmxptool.Lib.Rounds Nmxptool.Params.Parameters
open Nmxptool.Pds.Clip (truncate)

/-! ### The outside -/

/-- What becomes of a call: how many seconds it takes beyond the least it can take, whether it
returns `NMXP_SOCKET_OK`, and what happens meanwhile. -/
structure Moment where
  lag : ℕ
  ok : Bool
  sig : Bool
  errGeneral : Bool
  flagTerminate : Bool

/-- The clock in whole seconds, the conditions that other code sets and never resets, and all that
is to come. -/
structure World where
  now : ℤ
  sigcondition : Bool
  errGeneral : Bool
  future : Stream' Moment

/-- A call that takes at least some seconds. -/
def World.call (w : World) (seconds : ℤ) : World where
  now := w.now + seconds + w.future.head.lag
  sigcondition := w.sigcondition || w.future.head.sig
  errGeneral := w.errGeneral || w.future.head.errGeneral
  future := w.future.tail

theorem World.now_call (w : World) (seconds : ℤ) : w.now + seconds ≤ (w.call seconds).now :=
  le_add_of_nonneg_right (Int.natCast_nonneg _)

theorem World.now_le_call (w : World) : w.now ≤ (w.call 0).now := by
  simpa using w.now_call 0

/-! ### The first window -/

/-- `DAP_CONDITION`, or a state file to catch up from. -/
def DapCondition (p : NmxptoolParams) : Prop :=
  (p.startTime ≠ 0 ∨ p.delay.toInt > 0) ∨
    (p.statefile ≠ none ∧ p.maxDataToRetrieve.toInt > 0 ∧
      p.interval.toInt = DEFAULT_INTERVAL_INFINITE)

instance (p : NmxptoolParams) : Decidable (DapCondition p) := inferInstanceAs (Decidable (_ ∨ _))

/-- `start_time` and `end_time`, as they are when the flow begins. -/
def firstWindow (p : NmxptoolParams) (now : ℤ) : ℚ × ℚ :=
  if p.interval.toInt > 0 ∨ p.interval.toInt = DEFAULT_INTERVAL_INFINITE then
    (p.startTime, if p.interval.toInt > 0 then p.startTime + p.interval.toInt else now)
  else if p.delay.toInt > 0 then
    let startTime : ℚ := ((now - p.delay.toInt - p.spanData.toInt : ℤ) : ℚ) / 10 * 10
    (startTime, startTime + p.spanData.toInt)
  else (p.startTime, p.endTime)

/-- `default_start_time`. -/
def defaultStartTime (p : NmxptoolParams) (startTime : ℚ) (now : ℤ) : ℚ :=
  if startTime > 0 then startTime else (now - p.maxDataToRetrieve.toInt : ℤ)

/-! ### The requests of a round -/

/-- A channel of the subset, and its `after_start_time`. -/
structure SubsetChannel where
  key : Int32
  afterStartTime : ℚ

/-- A call of `nmxp_sendDataRequest`, and when it is made. -/
structure DataRequest where
  time : ℤ
  key : Int32
  startTime : Int32
  endTime : Int32
  deriving DecidableEq

/-- `params.start_time` for a channel: with a state file, the time to resume at. -/
def startTimeOf (p : NmxptoolParams) (defaultStart endTime startTime : ℚ) (ch : SubsetChannel) :
    ℚ :=
  if p.statefile ≠ none then
    if ch.afterStartTime > 0 then
      if endTime - ch.afterStartTime > p.maxDataToRetrieve.toInt then
        endTime - p.maxDataToRetrieve.toInt
      else ch.afterStartTime
    else defaultStart
  else startTime

/-- What the inner loop leaves. -/
structure Requested where
  requests : List DataRequest
  startTime : ℚ
  exitdapcondition : Bool
  world : World

/-- The inner loop, over the channels. The data is received within the call. -/
def requestLoop (p : NmxptoolParams) (defaultStart endTime : ℚ) :
    List SubsetChannel → ℚ → World → Requested
  | [], startTime, w => ⟨[], startTime, true, w⟩
  | ch :: channels, startTime, w =>
    if w.sigcondition ∨ w.errGeneral then ⟨[], startTime, true, w⟩
    else
      let startTime := startTimeOf p defaultStart endTime startTime ch
      let request : DataRequest := ⟨w.now, ch.key, truncate startTime, truncate (endTime + 1)⟩
      let exitdapcondition : Bool :=
        ¬(p.ewConfigurationFile ≠ none ∧ w.future.head.flagTerminate)
      if w.future.head.ok ∧ exitdapcondition then
        let r := requestLoop p defaultStart endTime channels startTime (w.call 0)
        { r with requests := request :: r.requests }
      else ⟨[request], startTime, exitdapcondition, w.call 0⟩

/-! ### The pause of a round -/

/-- The calls of a pause. -/
inductive Call
  | nmxpSleep (seconds : ℤ)
  | nmxpSendRequestPending
  | nmxpWaitReady
  deriving DecidableEq

/-- The calls of a pause, whether `main` returned from it, and the world after it. -/
structure Paused where
  calls : List Call
  returned : Bool
  world : World

/-- A pause that begins with some other calls. -/
def Paused.after (r : Paused) (calls : List Call) : Paused := { r with calls := calls ++ r.calls }

/-- `time_to_sleep`. -/
def timeToSleep (p : NmxptoolParams) (startTime endTime : ℚ) (now : ℤ) : Int32 :=
  truncate ((endTime - startTime) - (now - (startTime + p.delay.toInt + p.spanData.toInt)))

/-- A slice after which the server is told that there is still somebody there. -/
def keepAlive : List Call :=
  [.nmxpSleep NMXP_DAP_TIMEOUT_KEEPALIVE, .nmxpSendRequestPending, .nmxpWaitReady]

/-- **The waiting loop.** -/
def waitingLoop (timeToSleep : ℤ) (w : World) : Paused :=
  if 0 < timeToSleep ∧ ¬w.sigcondition then
    if timeToSleep ≥ NMXP_DAP_TIMEOUT_KEEPALIVE then
      let waiting := (w.call NMXP_DAP_TIMEOUT_KEEPALIVE).call 0
      if waiting.future.head.ok then
        (waitingLoop (timeToSleep - NMXP_DAP_TIMEOUT_KEEPALIVE) (waiting.call 0)).after keepAlive
      else ⟨keepAlive, true, waiting.call 0⟩
    else
      (waitingLoop (timeToSleep - NMXP_DAP_TIMEOUT_KEEPALIVE) (w.call timeToSleep)).after
        [.nmxpSleep timeToSleep]
  else ⟨[], false, w⟩
termination_by timeToSleep.toNat
decreasing_by all_goals unfold NMXP_DAP_TIMEOUT_KEEPALIVE; omega

/-- The pause, or the short one of a loop that is late. -/
def pause (timeToSleep : ℤ) (w : World) : Paused :=
  if timeToSleep ≥ 0 then waitingLoop timeToSleep w else ⟨[.nmxpSleep 3], false, w.call 3⟩

/-! ### The loop -/

/-- A round: its window, the requests, and the calls of the pause. -/
structure Round where
  startTime : ℚ
  endTime : ℚ
  requests : List DataRequest
  calls : List Call

structure DapState where
  startTime : ℚ
  endTime : ℚ
  exitdapcondition : Bool
  world : World

/-- **A round of the DAP loop**, unless the loop ends. -/
def dapRound (p : NmxptoolParams) (channels : List SubsetChannel) (defaultStart : ℚ)
    (s : DapState) : Option (Round × DapState) :=
  if s.exitdapcondition ∧ ¬s.world.sigcondition ∧ ¬s.world.errGeneral then
    let r := requestLoop p defaultStart s.endTime channels s.startTime s.world
    if p.delay.toInt > 0 then
      let q := pause (timeToSleep p r.startTime s.endTime r.world.now).toInt r.world
      some (⟨s.startTime, s.endTime, r.requests, q.calls⟩,
        -- after a return of `main` there is no further round either
        ⟨s.endTime, s.endTime + p.spanData.toInt, r.exitdapcondition ∧ ¬q.returned, q.world⟩)
    else
      some (⟨s.startTime, s.endTime, r.requests, []⟩, ⟨r.startTime, s.endTime, false, r.world⟩)
  else none

/-- **The first `k` rounds of the DAP flow.** -/
def dapFlow (p : NmxptoolParams) (channels : List SubsetChannel) (w : World) (k : ℕ) :
    List Round :=
  -- a state file replaces the interval
  let p := if p.statefile ≠ none then { p with interval := 0 } else p
  if DapCondition p then
    let window := firstWindow p w.now
    -- steps 1 to 4: connecting, and waiting for Ready
    if w.future.head.ok then
      rounds (dapRound p channels (defaultStartTime p window.1 (w.call 0).now)) k
        ⟨window.1, window.2, true, w.call 0⟩
    else []
  else []

end Nmxptool.Dap.Flow
