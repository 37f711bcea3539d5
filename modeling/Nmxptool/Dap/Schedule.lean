import Nmxptool.Dap.Flow

/-! # Requesting with a fixed delay

With a delay, the DAP loop requests one time window after the other. It computes from the clock how
long to pause until the next one is old enough. A round that is late must not make the next one
early.

* `now_waitingLoop`: the slices last at least as long as the pause.
* `onTime_dapRound`: at the top of the loop the window is old enough.
* `length_dapFlow`: while nothing stops the loop, no round is missing, and none leaves out a
  channel.
* `schedule_tiles`: the windows of all rounds follow one another, and none is requested early. -/

namespace Nmxptool.Dap.Schedule

open Nmxptool.Lib.Rounds Nmxptool.Params.Parameters Nmxptool.Dap.Flow
open Nmxptool.Data.Process (toInt_ofInt_of_range)
open Nmxptool.Pds.Clip (truncate)

/-! ### What a round promises -/

/-- The window that a request is for, in the whole seconds of the message. -/
def Asks (startTime endTime : ℚ) (q : DataRequest) : Prop :=
  q.startTime = truncate startTime ∧ q.endTime = truncate (endTime + 1)

/-- No sleep is longer than the server waits, and after one that is as long a RequestPending is
sent. -/
def KeptAlive (calls : List Call) : Prop :=
  ∀ i n, calls[i]? = some (.nmxpSleep n) → n ≤ NMXP_DAP_TIMEOUT_KEEPALIVE ∧
    (n = NMXP_DAP_TIMEOUT_KEEPALIVE → calls[i + 1]? = some .nmxpSendRequestPending)

/-- **What a round with a delay promises.** -/
structure OnSchedule (p : NmxptoolParams) (channels : List SubsetChannel) (r : Round) : Prop where
  /-- The window has the length of the span. -/
  span : r.endTime - r.startTime = p.spanData.toInt
  /-- The channels are requested in order, from the first one on. -/
  keys : r.requests.map (·.key) <+: channels.map (·.key)
  requested : channels ≠ [] → r.requests ≠ []
  /-- They are requested for the window. -/
  window : ∀ q ∈ r.requests, Asks r.startTime r.endTime q
  /-- And not before it is old enough. -/
  age : ∀ q ∈ r.requests, r.endTime + p.delay.toInt ≤ q.time
  keptAlive : KeptAlive r.calls

/-! ### Requests -/

section

variable {p : NmxptoolParams} {defaultStart endTime startTime : ℚ} {channels : List SubsetChannel}
  {w : World}

theorem now_requestLoop :
    w.now ≤ (requestLoop p defaultStart endTime channels startTime w).world.now := by
  induction channels generalizing startTime w with
  | nil => exact le_rfl
  | cons ch channels ih =>
    unfold requestLoop
    dsimp only
    split_ifs
    · exact le_rfl
    · exact w.now_le_call.trans ih
    · exact w.now_le_call

theorem keys_requestLoop :
    (requestLoop p defaultStart endTime channels startTime w).requests.map (·.key) <+:
      channels.map (·.key) := by
  induction channels generalizing startTime w with
  | nil => exact List.prefix_rfl
  | cons ch channels ih =>
    unfold requestLoop
    dsimp only
    split_ifs
    · exact List.nil_prefix
    · exact List.cons_prefix_cons.mpr ⟨rfl, ih⟩
    · exact List.cons_prefix_cons.mpr ⟨rfl, List.nil_prefix⟩

/-- The first channel is requested in any case. -/
theorem requestLoop_ne_nil (hsig : w.sigcondition = false) (herr : w.errGeneral = false)
    (hchannels : channels ≠ []) :
    (requestLoop p defaultStart endTime channels startTime w).requests ≠ [] := by
  obtain ⟨ch, channels, rfl⟩ := List.exists_cons_of_ne_nil hchannels
  unfold requestLoop
  rw [if_neg (by simp [hsig, herr])]
  dsimp only
  split_ifs <;> exact List.cons_ne_nil _ _

variable (hstate : p.statefile = none)
include hstate

theorem startTimeOf_eq {ch : SubsetChannel} :
    startTimeOf p defaultStart endTime startTime ch = startTime := by
  simp [startTimeOf, hstate]

theorem startTime_requestLoop :
    (requestLoop p defaultStart endTime channels startTime w).startTime = startTime := by
  induction channels generalizing w with
  | nil => rfl
  | cons ch channels ih =>
    unfold requestLoop
    dsimp only
    rw [startTimeOf_eq hstate]
    split_ifs
    · rfl
    · exact ih
    · rfl

/-- All channels are requested for the same window, after the loop began. -/
theorem asks_requestLoop :
    ∀ q ∈ (requestLoop p defaultStart endTime channels startTime w).requests,
      Asks startTime endTime q ∧ w.now ≤ q.time := by
  induction channels generalizing w with
  | nil => exact fun q hq => absurd hq List.not_mem_nil
  | cons ch channels ih =>
    unfold requestLoop
    dsimp only
    rw [startTimeOf_eq hstate]
    split_ifs
    · exact fun q hq => absurd hq List.not_mem_nil
    · intro q hq
      rcases List.mem_cons.mp hq with rfl | hq
      · exact ⟨⟨rfl, rfl⟩, le_rfl⟩
      · exact ⟨(ih q hq).1, w.now_le_call.trans (ih q hq).2⟩
    · intro q hq
      obtain rfl := List.mem_singleton.mp hq
      exact ⟨⟨rfl, rfl⟩, le_rfl⟩

end

/-! ### The pause -/

/-- **The slices last at least as long as the pause**, unless a signal or an error ends it. -/
theorem now_waitingLoop (t : ℤ) (w : World) :
    w.now ≤ (waitingLoop t w).world.now ∧
      ((waitingLoop t w).returned = false → (waitingLoop t w).world.sigcondition = false →
        w.now + t ≤ (waitingLoop t w).world.now) := by
  fun_induction waitingLoop t w with
  | case1 t w ht hlong waiting hok ih =>
    have h1 := w.now_call NMXP_DAP_TIMEOUT_KEEPALIVE
    have h2 := (w.call NMXP_DAP_TIMEOUT_KEEPALIVE).now_call 0
    have h3 := waiting.now_call 0
    simp only [waiting, Paused.after, NMXP_DAP_TIMEOUT_KEEPALIVE] at *
    exact ⟨by omega, fun hret hsig => by have := ih.2 hret hsig; omega⟩
  | case2 t w ht hlong waiting hfail =>
    have h1 := w.now_call NMXP_DAP_TIMEOUT_KEEPALIVE
    have h2 := (w.call NMXP_DAP_TIMEOUT_KEEPALIVE).now_call 0
    have h3 := waiting.now_call 0
    simp only [waiting, NMXP_DAP_TIMEOUT_KEEPALIVE] at *
    exact ⟨by omega, fun hret => absurd hret (by simp)⟩
  | case3 t w ht hshort ih =>
    have h1 := w.now_call t
    simp only [Paused.after] at *
    refine ⟨by omega, fun hret hsig => ?_⟩
    exact h1.trans ih.1
  | case4 t w hend =>
    refine ⟨le_rfl, fun _ (hsig : w.sigcondition = false) => ?_⟩
    have ht : t ≤ 0 := not_lt.mp fun ht => hend ⟨ht, by simp [hsig]⟩
    exact add_le_of_nonpos_right ht

theorem now_pause (t : ℤ) (w : World) : w.now ≤ (pause t w).world.now := by
  unfold pause
  split_ifs
  · exact (now_waitingLoop t w).1
  · exact (le_add_of_nonneg_right (by decide)).trans (w.now_call 3)

theorem keptAlive_nil : KeptAlive [] := fun i n h => absurd h (by simp)

/-- A sleep that is not as long as the server waits. -/
theorem KeptAlive.sleep {calls : List Call} (h : KeptAlive calls) {n : ℤ}
    (hn : n < NMXP_DAP_TIMEOUT_KEEPALIVE) : KeptAlive (.nmxpSleep n :: calls) := by
  rintro (_ | i) m hm
  · obtain rfl : n = m := by simpa using hm
    exact ⟨hn.le, fun heq => absurd heq hn.ne⟩
  · exact h i m hm

theorem KeptAlive.slice {calls : List Call} (h : KeptAlive calls) :
    KeptAlive (keepAlive ++ calls) := by
  rintro (_ | _ | _ | i) m hm
  · obtain rfl : NMXP_DAP_TIMEOUT_KEEPALIVE = m := by simpa [keepAlive] using hm
    exact ⟨le_rfl, fun _ => rfl⟩
  · exact absurd hm (by simp [keepAlive])
  · exact absurd hm (by simp [keepAlive])
  · exact h i m hm

theorem keptAlive_waitingLoop (t : ℤ) (w : World) : KeptAlive (waitingLoop t w).calls := by
  fun_induction waitingLoop t w with
  | case1 t w ht hlong waiting hok ih => exact ih.slice
  | case2 t w ht hlong waiting hfail => exact keptAlive_nil.slice
  | case3 t w ht hshort ih => exact ih.sleep (not_le.mp hshort)
  | case4 t w hend => exact keptAlive_nil

theorem keptAlive_pause (t : ℤ) (w : World) : KeptAlive (pause t w).calls := by
  unfold pause
  split_ifs
  · exact keptAlive_waitingLoop t w
  · exact keptAlive_nil.sleep (by decide)

/-! ### Rounds -/

section

variable {p : NmxptoolParams} {defaultStart : ℚ} {channels : List SubsetChannel}
  {s s' : DapState} {r : Round}

theorem truncate_intCast (n : ℤ) : truncate n = Int32.ofInt n := by
  simp [truncate]

/-- The pause is what the next window lacks in age, if it lacks any. -/
theorem toInt_timeToSleep {a now : ℤ} (hold : a + p.spanData.toInt + p.delay.toInt ≤ now)
    (hpause : now ≤ a + 2 * p.spanData.toInt + p.delay.toInt) :
    (timeToSleep p a (a + p.spanData.toInt) now).toInt =
      a + 2 * p.spanData.toInt + p.delay.toInt - now := by
  have hspan := p.spanData.toInt_lt
  have hvalue : (a + p.spanData.toInt - a : ℚ) - (now - (a + p.delay.toInt + p.spanData.toInt)) =
      (a + 2 * p.spanData.toInt + p.delay.toInt - now : ℤ) := by
    push_cast
    ring
  rw [timeToSleep, hvalue, truncate_intCast]
  exact toInt_ofInt_of_range (by omega) (by omega)

/-- **The invariant of the loop**: the window is whole, has its length and, if the loop goes on, is
old enough. -/
structure OnTime (p : NmxptoolParams) (s : DapState) : Prop where
  whole : ∃ a : ℤ, s.startTime = a
  span : s.endTime = s.startTime + p.spanData.toInt
  age : s.exitdapcondition = true → s.world.sigcondition = false →
    s.endTime + p.delay.toInt ≤ s.world.now

variable (hdelay : p.delay.toInt > 0)
include hdelay

/-- **What a round does.** -/
theorem dapRound_eq_some (h : dapRound p channels defaultStart s = some (r, s')) :
    (s.exitdapcondition = true ∧ s.world.sigcondition = false ∧ s.world.errGeneral = false) ∧
      ∃ rq, rq = requestLoop p defaultStart s.endTime channels s.startTime s.world ∧
        ∃ q, q = pause (timeToSleep p rq.startTime s.endTime rq.world.now).toInt rq.world ∧
          r = ⟨s.startTime, s.endTime, rq.requests, q.calls⟩ ∧
          s' = ⟨s.endTime, s.endTime + p.spanData.toInt,
            rq.exitdapcondition ∧ ¬q.returned, q.world⟩ := by
  unfold dapRound at h
  rw [if_pos hdelay] at h
  split_ifs at h with hcond
  simp only [Option.some.injEq, Prod.mk.injEq] at h
  exact ⟨by simpa using hcond, _, rfl, _, rfl, h.1.symm, h.2.symm⟩

/-- The next window begins where this one ends. -/
theorem next_dapRound {s'' : DapState} {r' : Round}
    (h : dapRound p channels defaultStart s = some (r, s'))
    (h' : dapRound p channels defaultStart s' = some (r', s'')) : r'.startTime = r.endTime := by
  obtain ⟨-, _, -, _, -, hr, hs'⟩ := dapRound_eq_some hdelay h
  obtain ⟨-, _, -, _, -, hr', -⟩ := dapRound_eq_some hdelay h'
  rw [hr', hr, hs']

variable (hstate : p.statefile = none)
include hstate

/-- **A round keeps the invariant.** -/
theorem onTime_dapRound (hs : OnTime p s)
    (h : dapRound p channels defaultStart s = some (r, s')) : OnTime p s' := by
  obtain ⟨⟨hexit, hsig, -⟩, rq, hrq, q, hq, -, rfl⟩ := dapRound_eq_some hdelay h
  obtain ⟨a, ha⟩ := hs.whole
  have hend := hs.span
  have hnow : s.world.now ≤ rq.world.now := by
    rw [hrq]
    exact now_requestLoop
  have hstart : rq.startTime = s.startTime := by
    rw [hrq]
    exact startTime_requestLoop hstate
  have hold : a + p.spanData.toInt + p.delay.toInt ≤ s.world.now := by
    have := hs.age hexit hsig
    rw [hend, ha] at this
    exact_mod_cast this
  rw [hstart, hend, ha] at hq
  refine ⟨⟨a + p.spanData.toInt, by rw [hend, ha]; push_cast; rfl⟩, rfl, fun hgo hsig' => ?_⟩
  have hreturned : q.returned = false := (by simpa using hgo : _ ∧ _).2
  have hdue : a + 2 * p.spanData.toInt + p.delay.toInt ≤ q.world.now := by
    by_cases hpause : rq.world.now ≤ a + 2 * p.spanData.toInt + p.delay.toInt
    · rw [toInt_timeToSleep (hold.trans hnow) hpause, pause, if_pos (by omega)] at hq
      rw [hq] at hreturned hsig' ⊢
      have := (now_waitingLoop _ rq.world).2 hreturned hsig'
      omega
    · -- the loop is late, and no pause makes it early
      have hlate := now_pause (timeToSleep p a (a + p.spanData.toInt) rq.world.now).toInt rq.world
      rw [← hq] at hlate
      omega
  calc s.endTime + p.spanData.toInt + p.delay.toInt
      = ((a + 2 * p.spanData.toInt + p.delay.toInt : ℤ) : ℚ) := by
        rw [hend, ha]
        push_cast
        ring
    _ ≤ q.world.now := by exact_mod_cast hdue

/-- **A round from the invariant keeps its promises.** -/
theorem onSchedule_dapRound (hs : OnTime p s)
    (h : dapRound p channels defaultStart s = some (r, s')) : OnSchedule p channels r := by
  obtain ⟨⟨hexit, hsig, herr⟩, rq, rfl, q, rfl, rfl, -⟩ := dapRound_eq_some hdelay h
  have hage := hs.age hexit hsig
  refine ⟨by rw [hs.span]; ring, keys_requestLoop, requestLoop_ne_nil hsig herr,
    fun q hq => (asks_requestLoop hstate q hq).1, fun q hq => ?_, keptAlive_pause _ _⟩
  have htime := (asks_requestLoop hstate q hq).2
  exact hage.trans (by exact_mod_cast htime)

end

/-! ### The flow -/

/-- The state that the loop begins in. -/
def firstState (p : NmxptoolParams) (w : World) : DapState :=
  ⟨(firstWindow p w.now).1, (firstWindow p w.now).2, true, w.call 0⟩

section

variable {p : NmxptoolParams} (hdelay : p.delay.toInt > 0)
include hdelay

theorem dapFlow_eq (hstate : p.statefile = none) (channels : List SubsetChannel) (w : World)
    (k : ℕ) : dapFlow p channels w k =
      if w.future.head.ok then
        rounds (dapRound p channels (defaultStartTime p (firstWindow p w.now).1 (w.call 0).now)) k
          (firstState p w)
      else [] := by
  have hcond : DapCondition p := Or.inl (Or.inr hdelay)
  unfold dapFlow firstState
  simp only [hstate, ne_eq, not_true_eq_false, if_false, hcond, if_true]

variable (hinterval : p.interval.toInt = DEFAULT_INTERVAL_NO_VALUE)
include hinterval

/-- The first window ends just the delay ago. -/
theorem firstWindow_eq (now : ℤ) : firstWindow p now =
    (((now - p.delay.toInt - p.spanData.toInt : ℤ) : ℚ), ((now - p.delay.toInt : ℤ) : ℚ)) := by
  unfold firstWindow
  rw [if_neg (by rw [hinterval]; decide), if_pos hdelay]
  refine Prod.ext ?_ ?_
  · exact div_mul_cancel₀ _ (by norm_num)
  · push_cast
    ring

theorem onTime_firstState (w : World) : OnTime p (firstState p w) := by
  unfold firstState
  rw [firstWindow_eq hdelay hinterval]
  refine ⟨⟨_, rfl⟩, ?_, fun _ _ => ?_⟩
  · push_cast
    ring
  · have hcall := w.now_le_call
    have : w.now - p.delay.toInt + p.delay.toInt ≤ (w.call 0).now := by omega
    dsimp only
    exact_mod_cast this

end

/-! ### Nothing stops the loop -/

/-- Every call succeeds, and no signal, error or request to terminate comes. -/
structure Calm (w : World) : Prop where
  sigcondition : w.sigcondition = false
  errGeneral : w.errGeneral = false
  future : w.future.All fun m =>
    m.ok = true ∧ m.sig = false ∧ m.errGeneral = false ∧ m.flagTerminate = false

theorem Calm.call {w : World} (h : Calm w) (seconds : ℤ) : Calm (w.call seconds) := by
  obtain ⟨-, hsig, herr, -⟩ := h.future 0
  refine ⟨?_, ?_, fun n => h.future (n + 1)⟩
  · exact Bool.or_eq_false_iff.mpr ⟨h.sigcondition, hsig⟩
  · exact Bool.or_eq_false_iff.mpr ⟨h.errGeneral, herr⟩

section

variable {p : NmxptoolParams} {defaultStart : ℚ} {channels : List SubsetChannel} {w : World}

theorem calm_requestLoop (hcalm : Calm w) (endTime startTime : ℚ) :
    Calm (requestLoop p defaultStart endTime channels startTime w).world ∧
      (requestLoop p defaultStart endTime channels startTime w).exitdapcondition = true ∧
      (requestLoop p defaultStart endTime channels startTime w).requests.map (·.key) =
        channels.map (·.key) := by
  induction channels generalizing startTime w with
  | nil => exact ⟨hcalm, rfl, rfl⟩
  | cons ch channels ih =>
    obtain ⟨hok, -, -, hterm⟩ := hcalm.future 0
    have hhead : w.future.head.ok = true ∧ w.future.head.flagTerminate = false := ⟨hok, hterm⟩
    obtain ⟨h1, h2, h3⟩ := ih (hcalm.call 0) (startTimeOf p defaultStart endTime startTime ch)
    unfold requestLoop
    rw [if_neg (by simp [hcalm.sigcondition, hcalm.errGeneral])]
    simp only [hhead, Bool.false_eq_true, and_false, not_false_eq_true, decide_true, and_true,
      if_true]
    exact ⟨h1, h2, by rw [List.map_cons, List.map_cons, h3]⟩

theorem calm_waitingLoop (t : ℤ) (hcalm : Calm w) :
    Calm (waitingLoop t w).world ∧ (waitingLoop t w).returned = false := by
  fun_induction waitingLoop t w with
  | case1 t w ht hlong waiting hok ih =>
    exact ih (((hcalm.call _).call 0).call 0)
  | case2 t w ht hlong waiting hfail =>
    exact absurd (((hcalm.call _).call 0).future 0).1 hfail
  | case3 t w ht hshort ih => exact ih (hcalm.call t)
  | case4 t w hend => exact ⟨hcalm, rfl⟩

theorem calm_pause (t : ℤ) (hcalm : Calm w) :
    Calm (pause t w).world ∧ (pause t w).returned = false := by
  unfold pause
  split_ifs
  · exact calm_waitingLoop t hcalm
  · exact ⟨hcalm.call 3, rfl⟩

variable (hdelay : p.delay.toInt > 0)
include hdelay

/-- The loop goes on, and stays undisturbed. -/
theorem calm_dapRound {s : DapState} (hexit : s.exitdapcondition = true) (hcalm : Calm s.world) :
    ∃ r s', dapRound p channels defaultStart s = some (r, s') ∧
      (s'.exitdapcondition = true ∧ Calm s'.world) ∧
      r.requests.map (·.key) = channels.map (·.key) := by
  obtain ⟨hrequests, hgo, hkeys⟩ :=
    @calm_requestLoop p defaultStart channels s.world hcalm s.endTime s.startTime
  generalize hrq : requestLoop p defaultStart s.endTime channels s.startTime s.world = rq at *
  obtain ⟨hpause, hreturned⟩ :=
    calm_pause (timeToSleep p rq.startTime s.endTime rq.world.now).toInt hrequests
  generalize hq : pause (timeToSleep p rq.startTime s.endTime rq.world.now).toInt rq.world = q at *
  have hround : dapRound p channels defaultStart s =
      some (⟨s.startTime, s.endTime, rq.requests, q.calls⟩,
        ⟨s.endTime, s.endTime + p.spanData.toInt, rq.exitdapcondition ∧ ¬q.returned, q.world⟩) := by
    unfold dapRound
    rw [if_pos (by simp [hexit, hcalm.sigcondition, hcalm.errGeneral]), if_pos hdelay, hrq]
    rw [← hq]
  exact ⟨_, _, hround, ⟨by simp [hgo, hreturned], hpause⟩, hkeys⟩

/-- While nothing stops the loop, no round is missing, and none leaves out a channel. -/
theorem length_dapFlow (hstate : p.statefile = none) (hcalm : Calm w) (k : ℕ) :
    (dapFlow p channels w k).length = k ∧
      ∀ r ∈ dapFlow p channels w k, r.requests.map (·.key) = channels.map (·.key) := by
  rw [dapFlow_eq hdelay hstate, if_pos (hcalm.future 0).1]
  generalize defaultStartTime p _ _ = defaultStart
  have hkeep : ∀ s o s', (s.exitdapcondition = true ∧ Calm s.world) →
      dapRound p channels defaultStart s = some (o, s') →
      s'.exitdapcondition = true ∧ Calm s'.world := by
    intro s o s' hs h
    obtain ⟨r, s1, h1, hs1, -⟩ :=
      @calm_dapRound p defaultStart channels hdelay s hs.1 hs.2
    rw [h1] at h
    cases h
    exact hs1
  have hfirst : (firstState p w).exitdapcondition = true ∧ Calm (firstState p w).world :=
    ⟨rfl, hcalm.call 0⟩
  refine ⟨length_rounds _ hkeep (fun s hs => ?_) hfirst k,
    forall_rounds _ hkeep (fun s o s' hs h => ?_) hfirst k⟩
  · obtain ⟨r, s1, h1, -, -⟩ := @calm_dapRound p defaultStart channels hdelay s hs.1 hs.2
    simp [h1]
  · obtain ⟨r, s1, h1, -, hkeys⟩ := @calm_dapRound p defaultStart channels hdelay s hs.1 hs.2
    rw [h1] at h
    cases h
    exact hkeys

end

/-- **The windows of all rounds follow one another, and each round keeps its promises.** While
nothing stops the loop, no round is missing, and none leaves out a channel. -/
theorem schedule_tiles {p : NmxptoolParams} (hdelay : p.delay.toInt > 0)
    (hinterval : p.interval.toInt = DEFAULT_INTERVAL_NO_VALUE) (hstate : p.statefile = none)
    (channels : List SubsetChannel) (w : World) (k : ℕ) :
    (dapFlow p channels w k).IsChain (fun r r' => r'.startTime = r.endTime) ∧
      (∀ r ∈ dapFlow p channels w k, OnSchedule p channels r) ∧
      (Calm w → (dapFlow p channels w k).length = k ∧
        ∀ r ∈ dapFlow p channels w k, r.requests.map (·.key) = channels.map (·.key)) := by
  have hfirst := onTime_firstState hdelay hinterval w
  refine ⟨?_, ?_, fun hcalm => length_dapFlow hdelay hstate hcalm k⟩
  · rw [dapFlow_eq hdelay hstate]
    split_ifs with hok
    · exact isChain_rounds (OnTime p) (fun _ _ _ => onTime_dapRound hdelay hstate)
        (fun _ _ _ _ _ _ => next_dapRound hdelay) hfirst k
    · exact List.isChain_nil
  · rw [dapFlow_eq hdelay hstate]
    split_ifs with hok
    · exact forall_rounds (OnTime p) (fun _ _ _ => onTime_dapRound hdelay hstate)
        (fun _ _ _ => onSchedule_dapRound hdelay hstate) hfirst k
    · exact fun r hr => absurd hr List.not_mem_nil

/-- A delay of a minute, and windows of half a minute. -/
def minuteDelay : NmxptoolParams :=
  { NMXPTOOL_PARAMS_DEFAULT with
    hostname := some "naqs".toList
    channels := some "STA.HHZ".toList
    delay := 60
    spanData := 30 }

/-- A server that answers everything after two seconds. -/
def quietWorld : World := ⟨1000000, false, false, Stream'.const ⟨2, true, false, false, false⟩⟩

theorem calm_quietWorld : Calm quietWorld := ⟨rfl, rfl, fun _ => ⟨rfl, rfl, rfl, rfl⟩⟩

theorem schedule_tiles_minuteDelay :
    (nmxptoolCheckParams seedBuild minuteDelay).ret = 0 ∧
      (minuteDelay.delay.toInt > 0 ∧
        minuteDelay.interval.toInt = DEFAULT_INTERVAL_NO_VALUE ∧ minuteDelay.statefile = none) ∧
      (dapFlow minuteDelay [⟨1, 0⟩, ⟨2, 0⟩] quietWorld 5).IsChain
        (fun r r' => r'.startTime = r.endTime) ∧
      (∀ r ∈ dapFlow minuteDelay [⟨1, 0⟩, ⟨2, 0⟩] quietWorld 5,
        OnSchedule minuteDelay [⟨1, 0⟩, ⟨2, 0⟩] r) ∧
      (dapFlow minuteDelay [⟨1, 0⟩, ⟨2, 0⟩] quietWorld 5).length = 5 := by
  have h := schedule_tiles (p := minuteDelay) (by decide) (by decide) (by decide) [⟨1, 0⟩, ⟨2, 0⟩]
    quietWorld 5
  exact ⟨by decide, by decide, h.1, h.2.1, (h.2.2 calm_quietWorld).1⟩

end Nmxptool.Dap.Schedule
