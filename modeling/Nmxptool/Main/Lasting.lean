import Nmxptool.Main.Flows

/-! # How long the client goes on

When all is well, `main` connects over and over for ever. There is one exception, and it takes no
failure but a lost connection: a DAP flow that is cut off while it catches up from a state file.

* `Calm.flow`, `Calm.flowLoop`: no flow ends before its time.
* `mainRound_live`: one connection.
* `main_lasts_iff`: for how long. -/

namespace Nmxptool.Main.Lasting

open Nmxptool.Lib.Rounds Nmxptool.Lib.Run Nmxptool.Params.Parameters
open Nmxptool.Dap.Flow Nmxptool.Main.Flows

/-! ### Nothing goes wrong -/

/-- A call that ends well, during which nothing happens. -/
structure Quiet (m : Moment) : Prop where
  ok : m.ok = true
  sig : m.sig = false
  errGeneral : m.errGeneral = false
  flagTerminate : m.flagTerminate = false

structure Calm (w : World) : Prop where
  sigcondition : w.sigcondition = false
  errGeneral : w.errGeneral = false
  future : ∀ n, Quiet (w.future.get n)

theorem Calm.call {w : World} (h : Calm w) (seconds : ℤ) : Calm (w.call seconds) where
  sigcondition := by
    have := (h.future 0).sig
    simp [World.call, h.sigcondition, Stream'.head, this]
  errGeneral := by
    have := (h.future 0).errGeneral
    simp [World.call, h.errGeneral, Stream'.head, this]
  future n := h.future (n + 1)

theorem Calm.requestLoop {p : NmxptoolParams} {defaultStart endTime : ℚ} {w : World} (h : Calm w)
    (channels : List SubsetChannel) (startTime : ℚ) :
    (requestLoop p defaultStart endTime channels startTime w).exitdapcondition = true ∧
      Calm (requestLoop p defaultStart endTime channels startTime w).world := by
  induction channels generalizing startTime w with
  | nil => exact ⟨rfl, h⟩
  | cons ch channels ih =>
    have hok : w.future.head.ok = true := (h.future 0).ok
    have hflag : w.future.head.flagTerminate = false := (h.future 0).flagTerminate
    unfold Dap.Flow.requestLoop
    dsimp only
    rw [if_neg (by simp [h.sigcondition, h.errGeneral]), if_pos (by simp [hok, hflag])]
    exact ih (h.call 0) _

section Calm

variable (keys : List Int32) (c : Course) {s : FlowState}

theorem Calm.dapFlowOf (h : Calm s.world) (hdelay : s.params.delay.toInt ≤ 0) :
    ∃ o s', dapFlowOf keys c s = .ok (o, s') ∧ Calm s'.world ∧ s'.flagTerminate = false := by
  have hok : s.world.future.head.ok = true := (h.future 0).ok
  have hw := h.call 0
  have hdelay' : ({ s.params with
      startTime := (firstWindow s.params s.world.now).1
      endTime := (firstWindow s.params s.world.now).2 } : NmxptoolParams).delay.toInt ≤ 0 := hdelay
  unfold Flows.dapFlowOf
  dsimp only
  rw [if_pos hok, dapLoop_of_delay hdelay', if_neg (by simp [hw.sigcondition, hw.errGeneral])]
  obtain ⟨hgo, hcalm⟩ := hw.requestLoop (loaded keys c.afterStartTime) _
  exact ⟨_, _, rfl, hcalm, by simp [hgo]⟩

theorem Calm.pdsFlowOf (h : Calm s.world) :
    ∃ o s', pdsFlowOf c s = .ok (o, s') ∧ Calm s'.world ∧ s'.flagTerminate = false := by
  have hok : s.world.future.head.ok = true := (h.future 0).ok
  have hflag : (s.world.call 0).future.head.flagTerminate = false :=
    ((h.call 0).future 0).flagTerminate
  unfold Flows.pdsFlowOf
  rw [if_pos hok]
  exact ⟨_, _, rfl, (h.call 0).call 0, by simp [hflag]⟩

theorem Calm.flow (h : Calm s.world) (hdelay : s.params.delay.toInt ≤ 0) :
    ∃ o s', flow keys c s = .ok (o, s') ∧ Calm s'.world ∧ s'.flagTerminate = false := by
  have hdelay' : (flowParams s.timesFlow s.params).delay.toInt ≤ 0 := by
    rw [keepsParams_flowParams s.timesFlow s.params]
    exact hdelay
  obtain ⟨o, s₁, h₁, hcalm, hflag⟩ : ∃ o s₁,
      dapOrPds keys c { s with params := flowParams s.timesFlow s.params } = .ok (o, s₁) ∧
        Calm s₁.world ∧ s₁.flagTerminate = false := by
    unfold dapOrPds
    split_ifs
    · exact Calm.dapFlowOf keys c h hdelay'
    · exact Calm.pdsFlowOf c h
  exact ⟨o, { s₁ with timesFlow := nextTimes s₁ }, by rw [Flows.flow, h₁]; rfl, hcalm, hflag⟩

theorem Calm.flowLoop (cs : List Course) (h : Calm s.world) (hdelay : s.params.delay.toInt ≤ 0)
    (hflag : s.flagTerminate = false) :
    ∃ os f, flowLoop keys cs s = .ok (os, f) ∧ Calm f.world ∧ f.flagTerminate = false := by
  induction cs generalizing s with
  | nil => exact ⟨[], s, rfl, h, hflag⟩
  | cons c cs ih =>
    by_cases hgo : s.timesFlow < 2 ∧ s.recvErrno = 0 ∧ !s.world.sigcondition ∧ !s.world.errGeneral
    · obtain ⟨o, s', hflow, hcalm, hflag'⟩ := Calm.flow keys c h hdelay
      have hdelay' : s'.params.delay.toInt ≤ 0 := by
        rw [(flow_keeps hflow).1]
        exact hdelay
      obtain ⟨os, f, hrest, hend⟩ := ih hcalm hdelay' hflag'
      refine ⟨o :: os, f, ?_, hend⟩
      rw [Flows.flowLoop, if_pos hgo]
      simp only [hflow, hrest, ok_bind, pure_eq_ok]
    · exact ⟨[], s, flowLoop_stop hgo, h, hflag⟩

end Calm

section Live

variable {s s' : MainState} {o : Connected}

/-- **Everything is well**: nothing is asked for from the past, nothing asks `main` to end and
nothing is going to, no call fails, and no subset is empty. -/
structure Live (s : MainState) : Prop where
  world : Calm s.world
  flagTerminate : s.flagTerminate = false
  onlyOneTime : s.onlyOneTime = false
  noDelay : s.params.delay.toInt ≤ 0
  startTime : s.params.startTime = 0
  clock : s.params.maxDataToRetrieve.toInt < s.world.now
  keys : ∀ n, (s.connections.get n).keys ≠ []

/-- **A DAP flow is cut off.** -/
def CutOff (p : NmxptoolParams) (c : Connection) : Prop :=
  p.statefile ≠ none ∧ 0 < p.maxDataToRetrieve.toInt ∧ c.first.recvErrno ≠ 0

theorem Calm.sleepBeforeReconnect (h : Calm s.world) : Calm (sleepBeforeReconnect s).world := by
  unfold Flows.sleepBeforeReconnect
  split_ifs
  · exact h.call _
  · exact h

theorem Live.exitCondition (h : Live s) : EXIT_CONDITION s = true := by
  simp [EXIT_CONDITION, h.world.sigcondition, h.world.errGeneral, h.flagTerminate, h.onlyOneTime]

/-- Without a DAP flow, nothing comes into `start_time`. -/
theorem startTime_flowLoop {keys : List Int32} {cs : List Course} {os : List FlowRecord}
    {s f : FlowState} (hdelay : s.params.delay.toInt ≤ 0) (hstart : s.params.startTime = 0)
    (hpds : ¬(s.params.statefile ≠ none ∧ 0 < s.params.maxDataToRetrieve.toInt))
    (h : flowLoop keys cs s = .ok (os, f)) : f.params.startTime = 0 := by
  induction cs generalizing s os with
  | nil =>
    obtain ⟨rfl, rfl⟩ := Prod.mk.inj (Except.ok.inj h)
    exact hstart
  | cons c cs ih =>
    by_cases hgo : s.timesFlow < 2 ∧ s.recvErrno = 0 ∧ !s.world.sigcondition ∧ !s.world.errGeneral
    · obtain ⟨o, s', os', hflow, hrest, rfl⟩ := flowLoop_cons_eq_ok h hgo
      have hkeeps := (flow_keeps hflow).1
      have hstart' : s'.params.startTime = 0 := by
        obtain ⟨s₁, h₁, rfl⟩ := flow_eq_ok hflow
        have hparams := keepsParams_flowParams s.timesFlow s.params
        have hzero : (flowParams s.timesFlow s.params).startTime = 0 := by
          unfold flowParams
          split_ifs <;> first | exact hstart | rfl
        rw [dapOrPds, if_neg] at h₁
        · obtain ⟨-, -, rfl⟩ := pdsFlowOf_eq_ok h₁
          exact hzero
        · dsimp only
          rintro ((hne | hpos) | ⟨-, hstate, hmax, -⟩)
          · exact hne hzero
          · rw [hparams] at hpos
            exact hdelay.not_gt hpos
          · rw [hparams] at hstate hmax
            exact hpds ⟨hstate, hmax⟩
      exact ih (by rw [hkeeps]; exact hdelay) hstart' (by rw [hkeeps]; exact hpds) hrest
    · rw [flowLoop_stop hgo] at h
      obtain ⟨rfl, rfl⟩ := Prod.mk.inj (Except.ok.inj h)
      exact hstart

/-- **A round when everything is well**, unless the DAP flow is cut off. -/
theorem mainRound_live (h : Live s) : ∃ o s', mainRound s = some (o, s') ∧
    s'.connections = s.connections.tail ∧ KeepsParams s.params s'.params ∧
    (CutOff s.params s.connections.head → listSource s'.params = .dataServer) ∧
    (¬CutOff s.params s.connections.head → Live s') := by
  have hok : s.world.future.head.ok = true := (h.world.future 0).ok
  obtain ⟨flows, f, hflows, hcalm, hflag⟩ := Calm.flowLoop s.connections.head.keys
    [s.connections.head.first, s.connections.head.second]
    (s := ⟨s.params, 0, 0, false, s.world.call 0⟩) (h.world.call 0) h.noDelay rfl
  have hround := mainRound_eq_some.mpr
    ⟨h.exitCondition, hok, h.keys 0, flows, f, hflows, rfl, rfl⟩
  obtain ⟨hparams, hnow⟩ := flowLoop_keeps hflows
  obtain ⟨hsame, hlater⟩ := sleepBeforeReconnect_keeps (afterFlows s f)
  have hparams' : (sleepBeforeReconnect (afterFlows s f)).params = f.params := by rw [hsame]; rfl
  have hdelay : f.params.delay.toInt ≤ 0 := by
    rw [hparams]
    exact h.noDelay
  have hclock := h.clock.trans_le s.world.now_le_call
  have hgoes : f.Goes := ⟨hcalm.sigcondition, hcalm.errGeneral, hflag⟩
  have hcatch (hstate : s.params.statefile ≠ none) (hmax : 0 < s.params.maxDataToRetrieve.toInt) :=
    flowLoop_catchesUp (s := ⟨s.params, 0, 0, false, s.world.call 0⟩)
      ⟨hstate, hmax, h.noDelay, hclock⟩ (h.keys 0) ⟨rfl, rfl⟩ hflows hgoes
  refine ⟨_, _, hround, by rw [hsame]; rfl, by rw [hparams']; exact hparams, fun hcut => ?_,
    fun hwhole => ?_⟩
  · obtain ⟨a, b, hflow⟩ := hcatch hcut.1 hcut.2.1
    rw [if_neg hcut.2.2] at hflow
    rw [hparams']
    exact if_pos (Or.inl hflow.2.ne')
  · have hstart : f.params.startTime = 0 := by
      by_cases hpast : s.params.statefile ≠ none ∧ 0 < s.params.maxDataToRetrieve.toInt
      · obtain ⟨a, b, hflow⟩ := hcatch hpast.1 hpast.2
        have hzero : s.connections.head.first.recvErrno = 0 :=
          not_not.mp fun hne => hwhole ⟨hpast.1, hpast.2, hne⟩
        rw [if_pos hzero] at hflow
        exact hflow.2
      · exact startTime_flowLoop (s := ⟨s.params, 0, 0, false, s.world.call 0⟩) h.noDelay
          h.startTime hpast hflows
    have hsource : listSource s.params = .naqsServer :=
      (listSource_eq_naqsServer h.noDelay).mpr h.startTime
    have hworld : Calm (sleepBeforeReconnect (afterFlows s f)).world :=
      Calm.sleepBeforeReconnect (s := afterFlows s f) hcalm
    have hnow' := hclock.trans_le (hnow.trans hlater)
    rw [hsame]
    refine ⟨hworld, hflag, ?_, hdelay, hstart, ?_, fun n => h.keys (n + 1)⟩
    · simp [afterFlows, hsource, h.onlyOneTime]
    · have hmax : f.params.maxDataToRetrieve = s.params.maxDataToRetrieve := by rw [hparams]
      exact hmax ▸ hnow'

/-- What goes on for ever: all is well, and no DAP flow is ever cut off. -/
def NeverCutOff (s : MainState) : Prop :=
  Live s ∧ ∀ n, ¬CutOff s.params (s.connections.get n)

theorem NeverCutOff.mainRound (hs : NeverCutOff s) (h : mainRound s = some (o, s')) :
    NeverCutOff s' := by
  obtain ⟨o₁, s₁, h₁, hconnections, hparams, -, hlive⟩ := mainRound_live hs.1
  obtain ⟨-, rfl⟩ := Prod.mk.inj (Option.some.inj (h₁.symm.trans h))
  refine ⟨hlive (hs.2 0), fun n => ?_⟩
  rw [hparams, hconnections]
  exact hs.2 (n + 1)

/-- A list from the DataServer is the last one. -/
theorem not_lasts_of_dataServer (h : listSource s.params = .dataServer) : ¬Lasts mainRound s := by
  intro hlasts
  obtain ⟨o, s', hround, hlasts'⟩ := lasts_iff.mp hlasts
  obtain ⟨o', s'', hround', -⟩ := lasts_iff.mp hlasts'
  obtain ⟨-, -, -, flows, f, -, -, rfl⟩ := mainRound_eq_some.mp hround
  have hexit := (mainRound_eq_some.mp hround').1
  obtain ⟨-, -, hsource⟩ := exitCondition_afterFlows.mp (exitCondition_of_sleep hexit)
  rw [h] at hsource
  exact absurd hsource (by simp)

/-- **How long `main` goes on** when everything is well: for ever, unless it catches up from a state
file and the DAP flow of some connection is cut off. -/
theorem main_lasts_iff (h : Live s) :
    Lasts mainRound s ↔ ∀ n, ¬CutOff s.params (s.connections.get n) := by
  constructor
  · intro hlasts n
    induction n generalizing s with
    | zero =>
      intro hcut
      obtain ⟨o, s', hround, -, -, hsource, -⟩ := mainRound_live h
      obtain ⟨o', s₁, hround', hlasts'⟩ := lasts_iff.mp hlasts
      obtain ⟨-, rfl⟩ := Prod.mk.inj (Option.some.inj (hround.symm.trans hround'))
      exact not_lasts_of_dataServer (hsource hcut) hlasts'
    | succ n ih =>
      obtain ⟨o, s', hround, hconnections, hparams, hsource, hlive⟩ := mainRound_live h
      obtain ⟨o', s₁, hround', hlasts'⟩ := lasts_iff.mp hlasts
      obtain ⟨-, rfl⟩ := Prod.mk.inj (Option.some.inj (hround.symm.trans hround'))
      have hwhole : ¬CutOff s.params s.connections.head := fun hcut =>
        not_lasts_of_dataServer (hsource hcut) hlasts'
      have hnext := ih (hlive hwhole) hlasts'
      rw [hparams, hconnections] at hnext
      exact hnext
  · intro hwhole k
    refine length_rounds NeverCutOff (fun s o s' hs hround => hs.mainRound hround)
      (fun s hs hnone => ?_) ⟨h, hwhole⟩ k
    obtain ⟨o, s', hround, -⟩ := mainRound_live hs.1
    rw [hnone] at hround
    exact absurd hround (by simp)

theorem quiet_quietMoment : Quiet quietMoment := ⟨rfl, rfl, rfl, rfl⟩

theorem live_minuteState (recvErrno : Int32) : Live (minuteState recvErrno) where
  world := ⟨rfl, rfl, fun _ => quiet_quietMoment⟩
  flagTerminate := rfl
  onlyOneTime := rfl
  noDelay := catchesUp_minuteParams.noDelay
  startTime := rfl
  clock := catchesUp_minuteParams.clock
  keys _ := by simp [minuteState, Stream'.get_const]

theorem main_lasts_iff_minute :
    Lasts mainRound (minuteState 0) ∧ ¬Lasts mainRound (minuteState 104) := by
  refine ⟨(main_lasts_iff (live_minuteState 0)).mpr fun n hcut => hcut.2.2 rfl, fun hlasts => ?_⟩
  have hstate : minuteParams.statefile ≠ none := catchesUp_minuteParams.statefile
  exact (main_lasts_iff (live_minuteState 104)).mp hlasts 0
    ⟨hstate, catchesUp_minuteParams.retrieves, by simp [minuteState, Stream'.get_const]⟩

end Live

end Nmxptool.Main.Lasting
