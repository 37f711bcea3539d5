import Nmxptool.Listen.Model

/-! # When a monitoring client fails

Everything that is sent to a monitoring client goes through `nmxptool_send_ctrl`. If `send` fails,
it unlocks `mutex_occ`, removes the client and ends the thread that called it: whichever thread that
is, and whatever else it holds.

* `print_iff`: the acquisition thread survives its line iff it is sent to no client that fails.
* `contained_iff`: a failure within a command leaves nothing behind iff there is none.
* `failure_iff`: both, for every table of clients.
* `fdCommand_leaves`: what a failure within `raw` or `params` leaves behind, and what that does to
  the next thread that logs a line. -/

namespace Nmxptool.Listen.Failure

open Nmxptool.Lib.Thread Nmxptool.Listen.Clients Nmxptool.Listen.Model

/-! ### What a failure should leave -/

abbrev ThreadState : Type := State Process Mutex Output

/-- Some `send` failed. -/
def SendFailed (s : ThreadState) : Prop := ∃ fd msg, Event.output (.send fd msg false) ∈ s.trace

/-- Nothing is left locked or registered, and `mutex_occ` was unlocked by its holder. -/
structure Clean (s : ThreadState) : Prop where
  unlocks : UnlocksHeld .mutexOcc s.trace
  held : ∀ m, s.held m = false
  curFd : s.shared.curFd = 0
  funcLog : .nmxpLogSendSocket ∉ s.shared.funcLog
  funcLogErr : .nmxpLogSendSocket ∉ s.shared.funcLogErr

/-- **A failure within a command leaves nothing behind.** -/
def FailureContained (env : Env) (p : Process) (newFd command : Int32) : Prop :=
  ∀ s', Final (nmxptoolFdCommand env newFd command (start p)) s' → SendFailed s' → Clean s'

/-- **The line reaches every client in print mode that does not fail**, and its thread goes on. -/
def PrintReturns (env : Env) (p : Process) (msg : String) : Prop :=
  ∃ s', nmxptoolListenPrintSeqNo env msg (start p) = .ok (0, s') ∧
    ∀ fd ∈ p.table.printMode, env.sendFails fd = false →
      Event.output (.send fd msg true) ∈ s'.trace

/-- The command sends something. -/
def Sends (env : Env) (newFd command : Int32) : Prop :=
  if command = COMMAND_RAW then newFd ≠ 0 ∧ env.rawStreamLines ≠ []
  else if command = COMMAND_PARAMS then newFd ≠ 0 ∧ env.paramsLines ≠ []
  else command ≠ COMMAND_LIST ∧ command ≠ COMMAND_NULL

instance (env : Env) (newFd command : Int32) : Decidable (Sends env newFd command) :=
  inferInstanceAs (Decidable (ite _ _ (ite _ _ _)))

/-! ### A failing client -/

/-- What `nmxptool_send_ctrl` leaves of a state when it ends the thread. -/
structure Dropped (s s' : ThreadState) : Prop where
  failed : SendFailed s'
  unlock : Event.unlock .mutexOcc (s.held .mutexOcc) ∈ s'.trace
  mutexCurFd : s'.held .mutexCurFd = s.held .mutexCurFd
  curFd : s'.shared.curFd = s.shared.curFd
  funcLog : s'.shared.funcLog = s.shared.funcLog
  funcLogErr : s'.shared.funcLogErr = s.shared.funcLogErr
  room : s'.shared.table.occ < MAX_OCC

theorem Dropped.of_puts {s s' : ThreadState} {os : List Output} (h : Dropped (s.puts os) s') :
    Dropped s s' :=
  ⟨h.failed, h.unlock, h.mutexCurFd, h.curFd, h.funcLog, h.funcLogErr, h.room⟩

section

variable {env : Env} {fd : Int32} {s : ThreadState}

theorem sendCtrl_of_ok (h : env.sendFails fd = false) (msg : String) :
    nmxptoolSendCtrl env fd msg = output (.send fd msg true) := by
  simp [nmxptoolSendCtrl, h]

/-- The table is changed under `mutex_occ`. -/
def within (s : ThreadState) (t : Table) : ThreadState :=
  State.unlock { s.lock .mutexOcc with shared := { s.shared with table := t } } .mutexOcc

theorem fdRem_ok {retOcc : ℤ} {t' : Table} (hrem : s.shared.table.rem fd = some (retOcc, t'))
    (hheld : s.held .mutexOcc = false) : nmxptoolFdRem fd s = .ok (retOcc, within s t') := by
  unfold nmxptoolFdRem
  rw [bind_ok (lock_of_free hheld), bind_ok (access_of_eq (by simp only [State.lock, hrem]; rfl))]
  rfl

theorem fdCommand_ok {command : Int32} {ret : ℤ} {t : Table}
    (hcommand : s.shared.table.command fd command = some (ret, t))
    (hfree : s.held .mutexOcc = false) : nmxptoolFdCommand env fd command s =
      (answer env fd command >>= fun _ => (pure ret : Act ℤ)) (within s t) := by
  unfold nmxptoolFdCommand
  rw [bind_ok (lock_of_free hfree),
    bind_ok (access_of_eq (by simp only [State.lock, hcommand]; rfl))]
  rfl

/-- **A failing client ends the thread.** -/
theorem sendCtrl_fails (hfails : env.sendFails fd = true)
    (hclient : fd ∈ s.shared.table.fds ∨ s.shared.table.occ < MAX_OCC) (msg : String) :
    Exits (Dropped s) (nmxptoolSendCtrl env fd msg) s := by
  obtain ⟨retOcc, t', hrem⟩ := rem_ok hclient
  have hrun := fdRem_ok (s := (s.puts [.send fd msg false]).unlock .mutexOcc) hrem
    (by simp [State.unlock])
  unfold nmxptoolSendCtrl
  rw [if_pos hfails]
  refine Exits.of_ok rfl (Exits.of_ok rfl (Exits.of_ok hrun (Exits.of_ok rfl ⟨_, rfl, ?_⟩)))
  refine ⟨⟨fd, msg, ?_⟩, ?_, ?_, rfl, rfl, rfl, room_of_rem hrem⟩
  · simp [within, State.puts, State.lock, State.unlock]
  · simp [within, State.puts, State.lock, State.unlock]
  · simp [within, State.lock, State.unlock]

end

/-! ### The line about a packet -/

theorem client_of_lt {t : Table} {i : ℕ} (h : i < t.occ) :
    ∃ c, t.client i = some c ∧ t.clients.drop i = c :: t.clients.drop (i + 1) ∧ c.1 ∈ t.fds := by
  have hocc := Nat.lt_of_lt_of_le h t.occ_le
  have hmin : i < min t.occ MAX_OCC := Nat.lt_min.mpr ⟨h, hocc⟩
  have hlen : i < t.clients.length := by simpa [Table.clients] using hmin
  refine ⟨(t.vNewFd[i], t.lastCommand[i]), ?_, ?_, ?_⟩
  · simp [Table.client, hocc]
  · rw [List.drop_eq_getElem_cons hlen]
    simp [Table.clients]
  · exact List.mem_take_iff_getElem.mpr ⟨i, by simpa using hmin, by simp⟩

section

variable {env : Env} (msg : String) {s : ThreadState} {left i : ℕ}

/-- A round of the loop. -/
theorem printLoop_succ {c : Int32 × Int32} (hc : s.shared.table.client i = some c) :
    printLoop env msg (left + 1) i s =
      ((if c.2 = COMMAND_PRINT then nmxptoolSendCtrl env c.1 msg else pure ()) >>=
        fun _ => printLoop env msg left (i + 1)) s := by
  rw [printLoop, bind_ok (access_of_eq (by rw [hc]; rfl))]
  split_ifs <;> rfl

/-- **No client in print mode fails**: the line is sent to each from `i` on. -/
theorem printLoop_ok (hleft : i + left = s.shared.table.occ)
    (hlive : ∀ c ∈ s.shared.table.clients.drop i, c.2 = COMMAND_PRINT → env.sendFails c.1 = false) :
    ∃ os, printLoop env msg left i s = .ok ((), s.puts os) ∧
      ∀ c ∈ s.shared.table.clients.drop i, c.2 = COMMAND_PRINT → .send c.1 msg true ∈ os := by
  induction left generalizing i s with
  | zero =>
    refine ⟨[], by rw [s.puts_nil]; rfl, fun c hc => absurd hc ?_⟩
    rw [List.drop_of_length_le (by simp [Table.clients]; omega)]
    exact List.not_mem_nil
  | succ left ih =>
    obtain ⟨c, hc, hdrop, -⟩ := client_of_lt (t := s.shared.table) (i := i) (by omega)
    rw [hdrop] at hlive ⊢
    have hround : ∃ os, (if c.2 = COMMAND_PRINT then nmxptoolSendCtrl env c.1 msg else pure ()) s =
        .ok ((), s.puts os) ∧ (c.2 = COMMAND_PRINT → .send c.1 msg true ∈ os) := by
      by_cases hprint : c.2 = COMMAND_PRINT
      · refine ⟨[.send c.1 msg true], ?_, fun _ => List.mem_singleton_self _⟩
        rw [if_pos hprint, sendCtrl_of_ok (hlive c List.mem_cons_self hprint)]
        rfl
      · refine ⟨[], ?_, fun h => absurd h hprint⟩
        rw [if_neg hprint, s.puts_nil]
        rfl
    obtain ⟨os, hos, hsent⟩ := hround
    obtain ⟨os', hos', hsent'⟩ := ih (s := s.puts os) (i := i + 1) (by simp; omega)
      (fun d hd => hlive d (List.mem_cons_of_mem _ hd))
    refine ⟨os ++ os', ?_, fun d hd hprint => List.mem_append.mpr ?_⟩
    · rw [printLoop_succ msg hc, bind_ok hos, hos', s.puts_puts]
    · rcases List.mem_cons.mp hd with rfl | hd
      · exact Or.inl (hsent hprint)
      · exact Or.inr (hsent' d hd hprint)

/-- **One that fails ends the thread**, wherever it stands in the table. -/
theorem printLoop_fails (hleft : i + left = s.shared.table.occ)
    (hfails : ∃ c ∈ s.shared.table.clients.drop i, c.2 = COMMAND_PRINT ∧ env.sendFails c.1 = true) :
    Exits (fun _ => True) (printLoop env msg left i) s := by
  induction left generalizing i s with
  | zero =>
    obtain ⟨c, hc, -⟩ := hfails
    rw [List.drop_of_length_le (by simp [Table.clients]; omega)] at hc
    exact absurd hc List.not_mem_nil
  | succ left ih =>
    obtain ⟨c, hc, hdrop, hmem⟩ := client_of_lt (t := s.shared.table) (i := i) (by omega)
    unfold Exits
    rw [printLoop_succ msg hc]
    by_cases hfirst : c.2 = COMMAND_PRINT ∧ env.sendFails c.1 = true
    · rw [if_pos hfirst.1]
      exact ((sendCtrl_fails hfirst.2 (Or.inl hmem) msg).mono fun _ _ => trivial).bind _
    · have hrest : ∃ d ∈ s.shared.table.clients.drop (i + 1),
          d.2 = COMMAND_PRINT ∧ env.sendFails d.1 = true := by
        obtain ⟨d, hd, hprint, hfails⟩ := hfails
        rw [hdrop, List.mem_cons] at hd
        rcases hd with rfl | hd
        · exact absurd ⟨hprint, hfails⟩ hfirst
        · exact ⟨d, hd, hprint, hfails⟩
      by_cases hprint : c.2 = COMMAND_PRINT
      · have hok : env.sendFails c.1 = false := by simpa [hprint] using hfirst
        rw [if_pos hprint, sendCtrl_of_ok hok]
        exact Exits.of_ok rfl (ih (by simp; omega) hrest)
      · rw [if_neg hprint]
        exact Exits.of_ok rfl (ih (by omega) hrest)

end

theorem mem_printMode {t : Table} {fd : Int32} :
    fd ∈ t.printMode ↔ ∃ c ∈ t.clients, c.2 = COMMAND_PRINT ∧ c.1 = fd := by
  simp only [Table.printMode, List.mem_map, List.mem_filter, decide_eq_true_eq, and_assoc]

/-- **When the line about a packet does no harm.** -/
theorem print_iff (env : Env) (p : Process) (msg : String) :
    PrintReturns env p msg ↔ ∀ fd ∈ p.table.printMode, env.sendFails fd = false := by
  have hrun : nmxptoolListenPrintSeqNo env msg (start p) =
      (printLoop env msg p.table.occ 0 >>= fun _ => unlock .mutexOcc >>= fun _ => (pure 0 : Act ℤ))
        ((start p).lock .mutexOcc) := rfl
  have hocc : 0 + p.table.occ = ((start p : ThreadState).lock .mutexOcc).shared.table.occ :=
    Nat.zero_add _
  unfold PrintReturns
  rw [hrun]
  constructor
  · rintro ⟨s', hs', -⟩ fd hfd
    obtain ⟨c, hc, hprint, rfl⟩ := mem_printMode.mp hfd
    by_contra hfails
    obtain ⟨s'', hexit, -⟩ := (printLoop_fails msg hocc
      ⟨c, hc, hprint, by simpa using hfails⟩).bind
        fun _ => unlock .mutexOcc >>= fun _ => (pure 0 : Act ℤ)
    rw [hexit] at hs'
    exact absurd hs' (by simp)
  · intro hlive
    obtain ⟨os, hos, hsent⟩ := printLoop_ok msg hocc fun c hc hprint =>
      hlive c.1 (mem_printMode.mpr ⟨c, hc, hprint, rfl⟩)
    refine ⟨_, bind_ok hos, fun fd hfd _ => ?_⟩
    obtain ⟨c, hc, hprint, rfl⟩ := mem_printMode.mp hfd
    have := hsent c hc hprint
    simp [State.unlock, State.puts, this]

/-! ### Commands that fail -/

/-- A state in which the lines of a command are printed. -/
def printing (s : ThreadState) (newFd : Int32) : ThreadState :=
  { s.lock .mutexCurFd with
    shared := nmxpLogAdd (some .nmxpLogSendSocket) (some .nmxpLogSendSocket)
      { s.shared with curFd := newFd } }

theorem mem_add (fs : List LogFunc) : .nmxpLogSendSocket ∈ fs ++ [.nmxpLogSendSocket] :=
  List.mem_append_right _ (List.mem_singleton_self _)

theorem printLines_eq (env : Env) (lines : List String) {s : ThreadState} {newFd : Int32}
    (hfree : s.held .mutexCurFd = false) : printLines env newFd lines s =
      (lines.forM (nmxpLog env .normNo) >>= fun _ =>
        setShared (fun p =>
          { nmxpLogRem (some .nmxpLogSendSocket) (some .nmxpLogSendSocket) p with curFd := 0 }) >>=
        fun _ => unlock .mutexCurFd) (printing s newFd) := by
  unfold printLines
  rw [bind_ok (lock_of_free hfree)]
  rfl

section

variable {env : Env} {s : ThreadState} (hcur : s.shared.curFd ≠ 0)
  (hfails : env.sendFails s.shared.curFd = true)
  (hclient : s.shared.curFd ∈ s.shared.table.fds ∨ s.shared.table.occ < MAX_OCC)
include hcur hfails hclient

theorem logSendSocket_fails (message : String) :
    Exits (Dropped s) (nmxpLogSendSocket env message) s := by
  refine Exits.of_ok (x := shared) rfl ?_
  rw [if_pos hcur]
  exact sendCtrl_fails hfails hclient message

theorem forM_callLog_fails (message : String) {fs : List LogFunc}
    (hfs : .nmxpLogSendSocket ∈ fs) : Exits (Dropped s) (fs.forM (callLog env message)) s := by
  induction fs generalizing s with
  | nil => exact absurd hfs List.not_mem_nil
  | cons f fs ih =>
    rw [List.forM_eq_forM, List.forM_cons]
    cases f with
    | nmxpLogSendSocket => exact (logSendSocket_fails hcur hfails hclient message).bind _
    | stream i =>
      have hrest : .nmxpLogSendSocket ∈ fs := by simpa using hfs
      exact Exits.of_ok rfl ((ih (s := s.puts [.write i message]) hcur hfails hclient hrest).mono
        fun _ => Dropped.of_puts)

/-- **A log line ends the thread**, whatever its level. -/
theorem log_fails (level : Level) (message : String) (hlog : .nmxpLogSendSocket ∈ s.shared.funcLog)
    (hlogErr : .nmxpLogSendSocket ∈ s.shared.funcLogErr) :
    Exits (Dropped s) (nmxpLog env level message) s := by
  refine Exits.of_ok (x := shared) rfl ?_
  have hall : .nmxpLogSendSocket ∈
      (if level = .err then s.shared.funcLogErr else s.shared.funcLog) := by
    split_ifs
    · exact hlogErr
    · exact hlog
  unfold nmxpLogPrintAll
  rw [if_pos (List.ne_nil_of_mem hall)]
  exact forM_callLog_fails hcur hfails hclient message hall

end

section

variable {env : Env} {s : ThreadState} {newFd : Int32}

theorem printLines_fails (hfails : env.sendFails newFd = true) (hmem : newFd ∈ s.shared.table.fds)
    (hfree : s.held .mutexCurFd = false) (lines : List String)
    (hsends : newFd ≠ 0 ∧ lines ≠ []) :
    Exits (Dropped (printing s newFd)) (printLines env newFd lines) s := by
  obtain ⟨line, lines, rfl⟩ := List.exists_cons_of_ne_nil hsends.2
  have hlog : Exits (Dropped (printing s newFd)) (nmxpLog env .normNo line) (printing s newFd) :=
    log_fails hsends.1 hfails (Or.inl hmem) .normNo line (mem_add _) (mem_add _)
  unfold Exits
  rw [printLines_eq env _ hfree, List.forM_eq_forM, List.forM_cons]
  exact (hlog.bind _).bind _

theorem help_fails (hfails : env.sendFails newFd = true) (hmem : newFd ∈ s.shared.table.fds)
    {items : List CommandItem} (hitems : ∃ item ∈ items, item.command ≠ COMMAND_NULL) :
    Exits (Dropped s) (items.forM fun item =>
      if item.command ≠ COMMAND_NULL then nmxptoolSendCtrl env newFd (helpLine item)
      else pure ()) s := by
  induction items with
  | nil => exact absurd hitems (by simp)
  | cons item items ih =>
    rw [List.forM_eq_forM, List.forM_cons]
    by_cases hnull : item.command = COMMAND_NULL
    · rw [if_neg (not_not.mpr hnull)]
      refine Exits.of_ok rfl (ih ?_)
      simpa [hnull] using hitems
    · rw [if_pos hnull]
      exact (sendCtrl_fails hfails (Or.inl hmem) _).bind _

/-- **A command that sends to a failing client ends its thread**, and unlocks `mutex_occ`, which
the thread does not hold. -/
theorem answer_fails {command : Int32} (hfails : env.sendFails newFd = true)
    (hmem : newFd ∈ s.shared.table.fds) (hocc : s.held .mutexOcc = false)
    (hfree : s.held .mutexCurFd = false) (hsends : Sends env newFd command) :
    Exits (fun s' => SendFailed s' ∧ Event.unlock .mutexOcc false ∈ s'.trace)
      (answer env newFd command) s := by
  have hdropped : ∀ s', Dropped s s' → SendFailed s' ∧ Event.unlock .mutexOcc false ∈ s'.trace :=
    fun s' h => ⟨h.failed, hocc ▸ h.unlock⟩
  have hprinting : ∀ s', Dropped (printing s newFd) s' →
      SendFailed s' ∧ Event.unlock .mutexOcc false ∈ s'.trace :=
    fun s' h => ⟨h.failed, hocc ▸ h.unlock⟩
  unfold answer
  unfold Sends at hsends
  split_ifs with hmem' hlist hraw hparams hhelp hnull
  · exact (sendCtrl_fails hfails (Or.inl hmem) _).mono hdropped
  · simp [hlist, COMMAND_LIST, COMMAND_RAW, COMMAND_PARAMS] at hsends
  · rw [if_pos hraw] at hsends
    exact (printLines_fails hfails hmem hfree _ hsends).mono hprinting
  · rw [if_neg hraw, if_pos hparams] at hsends
    exact (printLines_fails hfails hmem hfree _ hsends).mono hprinting
  · exact (help_fails hfails hmem (by decide)).mono hdropped
  · simp [hnull, COMMAND_NULL, COMMAND_LIST, COMMAND_RAW, COMMAND_PARAMS] at hsends
  · exact (sendCtrl_fails hfails (Or.inl hmem) _).mono hdropped

end

/-! ### Commands that do not -/

/-- No failed `send`. -/
def Harmless : Output → Prop
  | .send _ _ ok => ok = true
  | _ => True

theorem sendFailed_puts {s : ThreadState} {os : List Output} (hos : ∀ o ∈ os, Harmless o) :
    SendFailed (s.puts os) ↔ SendFailed s := by
  constructor
  · rintro ⟨fd, msg, h⟩
    rcases List.mem_append.mp h with h | h
    · exact ⟨fd, msg, h⟩
    · obtain ⟨o, ho, heq⟩ := List.mem_map.mp h
      cases heq
      exact absurd (hos _ ho) (by simp [Harmless])
  · rintro ⟨fd, msg, h⟩
    exact ⟨fd, msg, List.mem_append_left _ h⟩

section

variable {env : Env} {s : ThreadState}

theorem puts_sendCtrl {fd : Int32} (h : env.sendFails fd = false) (msg : String) :
    Puts Harmless (nmxptoolSendCtrl env fd msg) s := by
  rw [sendCtrl_of_ok h]
  exact Puts.output rfl

theorem puts_callLog (h : s.shared.curFd = 0 ∨ env.sendFails s.shared.curFd = false)
    (message : String) (f : LogFunc) : Puts Harmless (callLog env message f) s := by
  cases f with
  | stream i => exact Puts.output trivial
  | nmxpLogSendSocket =>
    refine Puts.of_shared ?_
    split_ifs with hzero
    · exact puts_sendCtrl (h.resolve_left hzero) message
    · exact Puts.pure

theorem puts_log (h : s.shared.curFd = 0 ∨ env.sendFails s.shared.curFd = false) (level : Level)
    (message : String) : Puts Harmless (nmxpLog env level message) s := by
  refine Puts.of_shared ?_
  unfold nmxpLogPrintAll
  generalize (if level = .err then s.shared.funcLogErr else s.shared.funcLog) = fs
  split_ifs
  · exact Puts.forM fun f _ os => puts_callLog (s := s.puts os) h message f
  · exact Puts.output trivial

/-- A computation that returns, without any `send` failing. -/
def Returns (x : Act Unit) (s : ThreadState) : Prop :=
  ∃ s', x s = .ok ((), s') ∧ (SendFailed s' → SendFailed s)

theorem Returns.of_puts {x : Act Unit} (h : Puts Harmless x s) : Returns x s := by
  obtain ⟨os, hos, hrun⟩ := h
  exact ⟨_, hrun, (sendFailed_puts hos).mp⟩

theorem printLines_returns {newFd : Int32} {lines : List String}
    (h : Puts Harmless (lines.forM (nmxpLog env .normNo)) (printing s newFd))
    (hfree : s.held .mutexCurFd = false) : Returns (printLines env newFd lines) s := by
  obtain ⟨os, hos, hrun⟩ := h
  refine ⟨_, (printLines_eq env lines hfree).trans (bind_ok hrun), ?_⟩
  rintro ⟨fd, msg, hsend⟩
  have hputs : SendFailed ((printing s newFd).puts os) :=
    ⟨fd, msg, by simpa [State.unlock] using hsend⟩
  obtain ⟨fd, msg, h⟩ := (sendFailed_puts hos).mp hputs
  exact ⟨fd, msg, by simpa [printing, State.lock] using h⟩

variable (s) in
/-- **A command that sends nothing, or to a client that does not fail**, sends some texts, or prints
some lines. -/
theorem answer_quiet {newFd command : Int32}
    (h : ¬(env.sendFails newFd = true ∧ Sends env newFd command)) :
    Puts Harmless (answer env newFd command) s ∨ ∃ lines,
      answer env newFd command = printLines env newFd lines ∧
      Puts Harmless (lines.forM (nmxpLog env .normNo)) (printing s newFd) := by
  have hquiet : ¬Sends env newFd command ∨ env.sendFails newFd = false := by
    rw [not_and_or, Bool.not_eq_true] at h
    exact h.symm
  have hsend : ∀ msg, Sends env newFd command →
      Puts Harmless (nmxptoolSendCtrl env newFd msg) s := fun msg hsends =>
    puts_sendCtrl (hquiet.resolve_left (not_not.mpr hsends)) msg
  have hlines : ∀ lines : List String, (Sends env newFd command ↔ newFd ≠ 0 ∧ lines ≠ []) →
      Puts Harmless (lines.forM (nmxpLog env .normNo)) (printing s newFd) := by
    intro lines hiff
    rw [hiff] at hquiet
    refine Puts.forM fun line hline os => puts_log (s := (printing s newFd).puts os) ?_ .normNo line
    by_contra hno
    rw [not_or] at hno
    exact hquiet.elim (fun hs => hs ⟨hno.1, List.ne_nil_of_mem hline⟩) hno.2
  unfold answer
  split_ifs with hmem hlist hraw hparams hhelp hnull
  · exact .inl (hsend _ (by simp [Sends, hmem, COMMAND_MEM, COMMAND_RAW, COMMAND_PARAMS,
      COMMAND_LIST, COMMAND_NULL]))
  · exact .inl Puts.pure
  · exact .inr ⟨_, rfl, hlines _ (by simp [Sends, hraw])⟩
  · exact .inr ⟨_, rfl, hlines _ (by unfold Sends; rw [if_neg hraw, if_pos hparams])⟩
  · have hsends : Sends env newFd command := by
      simp [Sends, hhelp, COMMAND_HELP, COMMAND_RAW, COMMAND_PARAMS, COMMAND_LIST, COMMAND_NULL]
    refine .inl (Puts.forM fun item _ os => ?_)
    split_ifs
    · exact puts_sendCtrl (hquiet.resolve_left (not_not.mpr hsends)) _
    · exact Puts.pure
  · exact .inl Puts.pure
  · exact .inl (hsend _ (by simp [Sends, hraw, hparams, hlist, hnull]))

theorem answer_returns {newFd command : Int32} (hfree : s.held .mutexCurFd = false)
    (h : ¬(env.sendFails newFd = true ∧ Sends env newFd command)) :
    Returns (answer env newFd command) s := by
  rcases answer_quiet s h with hputs | ⟨lines, heq, hputs⟩
  · exact Returns.of_puts hputs
  · rw [heq]
    exact printLines_returns hputs hfree

end

/-! ### Within a command -/

/-- The state in which the command is answered. -/
def answering (p : Process) (t' : Table) : ThreadState :=
  State.unlock { (start p).lock .mutexOcc with shared := { p with table := t' } } .mutexOcc

theorem fdCommand_eq (env : Env) {p : Process} {newFd : Int32} (command : Int32)
    (hclient : newFd ∈ p.table.fds) : ∃ (retOcc : ℤ) (t' : Table), t'.fds = p.table.fds ∧
      nmxptoolFdCommand env newFd command (start p) =
        (answer env newFd command >>= fun _ => (pure retOcc : Act ℤ)) (answering p t') := by
  obtain ⟨retOcc, t', hcommand, hfds⟩ := command_of_mem hclient command
  exact ⟨retOcc, t', hfds, fdCommand_ok hcommand rfl⟩

/-- **When a failure within a command leaves nothing behind**: when there is none. -/
theorem contained_iff (env : Env) {p : Process} {newFd : Int32} (command : Int32)
    (hclient : newFd ∈ p.table.fds) : FailureContained env p newFd command ↔
      ¬(env.sendFails newFd = true ∧ Sends env newFd command) := by
  obtain ⟨retOcc, t', hfds, hrun⟩ := fdCommand_eq env command hclient
  unfold FailureContained
  rw [hrun]
  constructor
  · rintro hcontained ⟨hfails, hsends⟩
    have hmem : newFd ∈ (answering p t').shared.table.fds := hfds ▸ hclient
    obtain ⟨s', hexit, hfailed, hunlock⟩ :=
      (answer_fails hfails hmem rfl rfl hsends).bind fun _ => (pure retOcc : Act ℤ)
    have hclean := hcontained s' (Or.inr hexit) hfailed
    exact absurd (hclean.unlocks false hunlock) (by simp)
  · intro hquiet s' hfinal hfailed
    obtain ⟨s'', hreturn, hnone⟩ := answer_returns (s := answering p t') rfl hquiet
    rw [bind_ok hreturn] at hfinal
    have hs' : s' = s'' := by
      rcases hfinal with ⟨a, h⟩ | h
      · cases h
        rfl
      · cases h
    obtain ⟨fd, msg, h⟩ := hnone (hs' ▸ hfailed)
    exact absurd h (by simp [answering, State.unlock, State.lock, start])

/-- **When a failing client does no harm**, for every table of clients and every set of them that
fail. -/
theorem failure_iff (env : Env) (p : Process) (msg : String) {newFd : Int32} (command : Int32)
    (hclient : newFd ∈ p.table.fds) :
    (PrintReturns env p msg ↔ ∀ fd ∈ p.table.printMode, env.sendFails fd = false) ∧
      (FailureContained env p newFd command ↔
        ¬(env.sendFails newFd = true ∧ Sends env newFd command)) :=
  ⟨print_iff env p msg, contained_iff env command hclient⟩

/-- A client that has gone away, alone in the table. -/
def goneClient (command : Int32) : Process where
  table := {
    vNewFd := (Vector.replicate MAX_OCC 0).set 0 5
    lastCommand := (Vector.replicate MAX_OCC 0).set 0 command
    occ := 1
    occ_le := by decide }
  curFd := 0
  funcLog := [.stream 1]
  funcLogErr := [.stream 2]

/-- Every `send` fails. -/
def allGone : Env := ⟨fun _ => true, 0, [], []⟩

/-- Its line ends the acquisition thread, and its command unlocks a mutex that it does not hold. -/
theorem failure_goneClient : (¬∀ env p msg, PrintReturns env p msg) ∧
    ¬∀ (env : Env) (p : Process) (newFd command : Int32), newFd ∈ p.table.fds →
      FailureContained env p newFd command := by
  constructor
  · intro hclaim
    have hlive := (print_iff _ _ _).mp (hclaim allGone (goneClient COMMAND_PRINT) "") 5 (by decide)
    exact absurd hlive (by decide)
  · intro hclaim
    have hmem : 5 ∈ (goneClient COMMAND_NULL).table.fds := by decide
    have hquiet := (contained_iff _ _ hmem).mp (hclaim allGone _ 5 COMMAND_MEM hmem)
    exact hquiet ⟨rfl, by decide, by decide⟩

/-- A client that is not in print mode, and is sent nothing, may be gone. -/
theorem failure_iff_goneClient : PrintReturns allGone (goneClient COMMAND_NULL) "" ∧
    FailureContained allGone (goneClient COMMAND_NULL) 5 COMMAND_LIST := by
  have hclient : 5 ∈ (goneClient COMMAND_NULL).table.fds := by decide
  have hnone : (goneClient COMMAND_NULL).table.printMode = [] := by decide
  obtain ⟨hprint, hcontained⟩ :=
    failure_iff allGone (goneClient COMMAND_NULL) "" COMMAND_LIST hclient
  exact ⟨hprint.mpr (by simp [hnone]), hcontained.mpr fun h => absurd h.2 (by decide)⟩

/-! ### What is left behind -/

/-- **After a failure within `raw` or `params`** the mutex stays locked, and the next thread that
logs a line ends. -/
theorem fdCommand_leaves {env : Env} {p : Process} {newFd command : Int32}
    (hclient : newFd ∈ p.table.fds) (hfails : env.sendFails newFd = true)
    (hcommand : command = COMMAND_RAW ∨ command = COMMAND_PARAMS)
    (hsends : Sends env newFd command) :
    Exits (fun s' => s'.held .mutexCurFd = true ∧ ∀ level message,
        Exits (fun _ => True) (nmxpLog env level message) (start s'.shared))
      (nmxptoolFdCommand env newFd command) (start p) := by
  obtain ⟨retOcc, t', hfds, hrun⟩ := fdCommand_eq env command hclient
  have hmem : newFd ∈ (answering p t').shared.table.fds := hfds ▸ hclient
  have hzero : newFd ≠ 0 := by
    rcases hcommand with rfl | rfl <;> exact hsends.1
  have hanswer : Exits (Dropped (printing (answering p t') newFd)) (answer env newFd command)
      (answering p t') := by
    rcases hcommand with rfl | rfl <;> exact printLines_fails hfails hmem rfl _ hsends
  unfold Exits
  rw [hrun]
  refine Exits.bind (hanswer.mono fun s' h => ⟨?_, fun level message => ?_⟩) _
  · rw [h.mutexCurFd]
    rfl
  have hcur : (start s'.shared : ThreadState).shared.curFd = newFd := h.curFd
  exact (log_fails (s := start s'.shared) (hcur ▸ hzero) (hcur ▸ hfails) (Or.inr h.room) level
    message (h.funcLog ▸ mem_add _) (h.funcLogErr ▸ mem_add _)).mono fun _ _ => trivial

end Nmxptool.Listen.Failure
