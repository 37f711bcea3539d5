import Nmxptool.Data.Process
import Nmxptool.Listen.Failure
import Nmxptool.Listen.Tracking
import Mathlib.Data.List.DropRight

/-! # The thread of a monitoring client

A client that connects gets a thread of its own. It is entered in the table, greeted, and then gives
one command after the other, until it gives `exit` or a `send` fails. Here the thread runs without
others in between.

* `nmxptoolCommand`: which command a text is.
* `answer_kept`: the answer to a command leaves everything shared as it was, if it can be sent.
* `outcome`: what becomes of the thread, for what the client gives and when it goes away.
* `clientThread_ends`: the thread ends so; only if it ends in the middle of an answer it leaves
  something behind. -/

namespace Nmxptool.Listen.Session

open Nmxptool.Data.Process (CStr)
open Nmxptool.Lib.Thread Nmxptool.Listen.Clients Nmxptool.Listen.Model Nmxptool.Listen.Failure
open Nmxptool.Listen.Tracking (record Answered InTable apply_ok length_clients map_fst_clients)

/-! ### What a client types -/

def MAX_LEN_COMMAND : ℕ := 100

/-- The characters that are removed from the end of a command. -/
def isEnd (c : Char) : Bool := c = '\r' ∨ c = '\n' ∨ c = ' '

/-- `nmxptool_command_clean` -/
def nmxptoolCommandClean (strCommand : CStr) : Option CStr :=
  let command := strCommand.rdropWhile isEnd
  if command = [] then none else some command

/-- **`nmxptool_command`.** -/
def nmxptoolCommand (strCommand : CStr) : Int32 :=
  match nmxptoolCommandClean strCommand with
  | some command =>
    ((listCmd.find? fun item => item.strCommand.toList = command).map (·.command)).getD (-1)
  | none => COMMAND_NULL

/-- The string in the array `command` after `read`, which has filled it with zeros before. There is
none if the zeros are all overwritten. -/
def readCommand (bytes : List Char) : Option CStr :=
  let command :=
    bytes.take MAX_LEN_COMMAND ++ List.replicate (MAX_LEN_COMMAND - bytes.length) '\x00'
  if '\x00' ∈ command then some (command.takeWhile (· ≠ '\x00')) else none

/-! ### The thread -/

/-- The texts that the thread logs: about the connection, and about each command. -/
structure LogTexts where
  connection : ℤ → String
  command : Option CStr → Int32 → String

/-- `nmxptool_fd_add` -/
def nmxptoolFdAdd (newFd : Int32) : Act ℤ := do
  lock .mutexOcc
  let retOcc ← access fun p => (p.table.add newFd).map fun r => (r.1, { p with table := r.2 })
  unlock .mutexOcc
  return retOcc

/-- A text for the client, under `mutex_occ`. -/
def sendLocked (env : Env) (fd : Int32) (msg : String) : Act Unit := do
  lock .mutexOcc
  nmxptoolSendCtrl env fd msg
  unlock .mutexOcc

/-- A round of the client: what it gives when it is prompted, and to whom can be sent while it is
prompted and while it is answered. -/
structure Round where
  prompted : Env
  typed : List Char
  answered : Env

/-- The loop over the commands, for those that the client gives; behind them it waits for the next
one. -/
def commandLoop (texts : LogTexts) (fd : Int32) : List Round → Int32 → Act Int32
  | [], lastCommand => return lastCommand
  | r :: rounds, lastCommand =>
    if lastCommand = COMMAND_EXIT then return lastCommand
    else do
      sendLocked r.prompted fd "> "
      let command ← access fun p => (readCommand r.typed).map fun c => (c, p)
      let lastCommand := nmxptoolCommand command
      nmxpLog r.answered .norm (texts.command
        (if lastCommand ≠ -1 then nmxptoolCommandClean command else none) lastCommand)
      let _ ← nmxptoolFdCommand r.answered fd lastCommand
      commandLoop texts fd rounds lastCommand

/-- What `nmxptool_p_man_sockfd` does behind its loop, which it leaves at `exit`. -/
def closeClient (fd lastCommand : Int32) : Act Unit :=
  if lastCommand = COMMAND_EXIT then do
    let _ ← nmxptoolFdRem fd
    output (.close fd)
    exit
  else return ()

/-- **`nmxptool_p_man_sockfd`**, for the commands that the client gives. -/
def nmxptoolPManSockfd (welcomed : Env) (texts : LogTexts) (fd : Int32) (rounds : List Round) :
    Act Unit := do
  let retOcc ← nmxptoolFdAdd fd
  nmxpLog welcomed .norm (texts.connection retOcc)
  sendLocked welcomed fd "Welcome aboard nmxptool! Type 'help' for command list.\n"
  let lastCommand ← commandLoop texts fd rounds (-1)
  closeClient fd lastCommand

/-! ### What is left as it was -/

/-- **Between commands**: nobody's lines go to a socket. -/
structure Idle (p : Process) : Prop where
  curFd : p.curFd = 0
  funcLog : .nmxpLogSendSocket ∉ p.funcLog
  funcLogErr : .nmxpLogSendSocket ∉ p.funcLogErr

/-- The same is shared, and the same mutexes are held; `mutex_occ` was unlocked by its holder, if it
was before. -/
structure Kept (s s' : ThreadState) : Prop where
  shared : s'.shared = s.shared
  held : s'.held = s.held
  unlocks : UnlocksHeld .mutexOcc s.trace → UnlocksHeld .mutexOcc s'.trace

section Parts
variable {env : Env} {s : ThreadState}

theorem kept_puts (s : ThreadState) (os : List Output) : Kept s (s.puts os) where
  shared := rfl
  held := rfl
  unlocks h held hmem := by
    rcases List.mem_append.mp hmem with hmem | hmem
    · exact h held hmem
    · obtain ⟨o, -, heq⟩ := List.mem_map.mp hmem
      cases heq

/-- A mutex that was free is locked and unlocked again; meanwhile nothing else is unlocked. -/
theorem held_section {m : Mutex} (hfree : s.held m = false) {u : ThreadState}
    (hu : u.held = (s.lock m).held) : (u.unlock m).held = s.held := by
  funext m'
  by_cases hm : m' = m
  · simp [State.unlock, hm, hfree]
  · simp [State.unlock, hu, State.lock, hm]

theorem unlocks_section {m : Mutex} {u : ThreadState} (hu : u.held m = true)
    (h : UnlocksHeld .mutexOcc u.trace) : UnlocksHeld .mutexOcc (u.unlock m).trace := by
  intro held hmem
  rcases List.mem_append.mp hmem with hmem | hmem
  · exact h held hmem
  · obtain ⟨-, rfl⟩ := Event.unlock.inj (List.mem_singleton.mp hmem)
    exact hu

theorem unlocks_lock (m : Mutex) (h : UnlocksHeld .mutexOcc s.trace) :
    UnlocksHeld .mutexOcc (s.lock m).trace := by
  intro held hmem
  rcases List.mem_append.mp hmem with hmem | hmem
  · exact h held hmem
  · cases List.mem_singleton.mp hmem

/-- What was registered for the lines of a command is removed again. -/
theorem logRem_logAdd {p : Process} (h : Idle p) (fd : Int32) :
    { nmxpLogRem (some .nmxpLogSendSocket) (some .nmxpLogSendSocket)
      (nmxpLogAdd (some .nmxpLogSendSocket) (some .nmxpLogSendSocket) { p with curFd := fd }) with
        curFd := 0 } = p := by
  obtain ⟨table, curFd, funcLog, funcLogErr⟩ := p
  obtain ⟨rfl, hlog, hlogErr⟩ := h
  simp [nmxpLogRem, nmxpLogAdd, List.erase_append_right _ hlog, List.erase_append_right _ hlogErr]

theorem printLines_kept {fd : Int32} (hidle : Idle s.shared) (hfree : s.held .mutexCurFd = false)
    {lines : List String}
    (h : Puts Harmless (lines.forM (nmxpLog env .normNo)) (printing s fd)) :
    ∃ s', printLines env fd lines s = .ok ((), s') ∧ Kept s s' := by
  obtain ⟨os, -, hrun⟩ := h
  refine ⟨_, (printLines_eq env lines hfree).trans (bind_ok hrun), logRem_logAdd hidle fd, ?_, ?_⟩
  · funext m
    cases m with
    | mutexOcc => rfl
    | mutexCurFd => exact hfree.symm
  · intro h held hmem
    have hlock : Event.unlock .mutexOcc held ∈ s.trace := by
      simpa [printing, State.lock, State.unlock, State.puts] using hmem
    exact h held hlock

/-- **The answer to a command** leaves everything shared as it was, unless it cannot be sent. -/
theorem answer_kept {fd command : Int32} (hidle : Idle s.shared)
    (hfree : s.held .mutexCurFd = false)
    (hquiet : ¬(env.sendFails fd = true ∧ Sends env fd command)) :
    ∃ s', answer env fd command s = .ok ((), s') ∧ Kept s s' := by
  rcases answer_quiet s hquiet with ⟨os, -, hrun⟩ | ⟨lines, heq, hputs⟩
  · exact ⟨_, hrun, kept_puts s os⟩
  · rw [heq]
    exact printLines_kept hidle hfree hputs

/-- A text is sent under `mutex_occ`. -/
theorem sendLocked_kept {fd : Int32} (hlive : env.sendFails fd = false)
    (hfree : s.held .mutexOcc = false) (msg : String) :
    ∃ s', sendLocked env fd msg s = .ok ((), s') ∧ Kept s s' := by
  refine ⟨((s.lock .mutexOcc).puts [.send fd msg true]).unlock .mutexOcc, ?_, rfl,
    held_section hfree rfl, fun h => ?_⟩
  · unfold sendLocked
    rw [bind_ok (lock_of_free hfree), sendCtrl_of_ok hlive]
    rfl
  · refine unlocks_section (by simp [State.lock]) ?_
    exact (kept_puts _ _).unlocks (unlocks_lock .mutexOcc h)

/-- A log line goes to the streams. -/
theorem log_kept (env : Env) (hidle : Idle s.shared) (level : Level) (message : String) :
    ∃ s', nmxpLog env level message s = .ok ((), s') ∧ Kept s s' := by
  obtain ⟨os, -, hrun⟩ := @puts_log env s (.inl hidle.curFd) level message
  exact ⟨_, hrun, kept_puts s os⟩

theorem within_held (hfree : s.held .mutexOcc = false) (t : Table) : (within s t).held = s.held :=
  held_section hfree rfl

theorem within_unlocks (t : Table) (h : UnlocksHeld .mutexOcc s.trace) :
    UnlocksHeld .mutexOcc (within s t).trace :=
  unlocks_section (by simp [State.lock]) (unlocks_lock .mutexOcc h)

theorem fdAdd_ok {fd : Int32} {ret : ℤ} {t : Table} (hadd : s.shared.table.add fd = some (ret, t))
    (hfree : s.held .mutexOcc = false) : nmxptoolFdAdd fd s = .ok (ret, within s t) := by
  unfold nmxptoolFdAdd
  rw [bind_ok (lock_of_free hfree), bind_ok (access_of_eq (by simp only [State.lock, hadd]; rfl))]
  rfl

end Parts

/-! ### The thread, step by step -/

/-- **A client's thread, between its steps**: the clients in the table, and all the rest as it was
in `p`. -/
structure Between (p : Process) (clients : List (Int32 × Int32)) (s : ThreadState) : Prop where
  clients : s.shared.table.clients = clients
  process : { s.shared with table := p.table } = p
  held : ∀ m, s.held m = false
  unlocks : UnlocksHeld .mutexOcc s.trace

section Thread
variable {env : Env} {p : Process} {clients : List (Int32 × Int32)} {s : ThreadState}

theorem between_start (p : Process) : Between p p.table.clients (start p) where
  clients := rfl
  process := rfl
  held _ := rfl
  unlocks _ h := absurd h List.not_mem_nil

theorem Between.idle (h : Between p clients s) (hidle : Idle p) : Idle s.shared := by
  have hp := h.process
  rw [← hp] at hidle
  exact ⟨hidle.curFd, hidle.funcLog, hidle.funcLogErr⟩

theorem Between.kept (h : Between p clients s) {s' : ThreadState} (hkept : Kept s s') :
    Between p clients s' where
  clients := by rw [hkept.shared, h.clients]
  process := by rw [hkept.shared, h.process]
  held m := by rw [hkept.held, h.held]
  unlocks := hkept.unlocks h.unlocks

theorem Between.within (h : Between p clients s) {t : Table} {clients' : List (Int32 × Int32)}
    (ht : t.clients = clients') : Between p clients' (within s t) where
  clients := ht
  process := h.process
  held m := by rw [within_held (h.held _), h.held]
  unlocks := within_unlocks t h.unlocks

/-- A client is entered. -/
theorem fdAdd_step (h : Between p clients s) (hnodup : (clients.map Prod.fst).Nodup)
    (hroom : clients.length < MAX_OCC) (fd : Int32) :
    ∃ ret s', nmxptoolFdAdd fd s = .ok (ret, s') ∧
      Between p (clients ++ [(fd, COMMAND_NULL)]) s' := by
  have hin : InTable s.shared.table.clients (.add fd) := by rwa [h.clients]
  obtain ⟨ret, t, hadd, hanswered⟩ := apply_ok (by rwa [h.clients]) hin
  refine ⟨ret, _, fdAdd_ok hadd (h.held _), h.within ?_⟩
  rw [hanswered.clients, h.clients]
  rfl

/-- A client is taken out. -/
theorem fdRem_step (h : Between p clients s) (hnodup : (clients.map Prod.fst).Nodup) {fd : Int32}
    (hmem : fd ∈ clients.map Prod.fst) :
    ∃ ret s', nmxptoolFdRem fd s = .ok (ret, s') ∧
      Between p (clients.filter fun c => c.1 ≠ fd) s' := by
  have hin : InTable s.shared.table.clients (.rem fd) := .inl (by rwa [h.clients])
  obtain ⟨ret, t, hrem, hanswered⟩ := apply_ok (by rwa [h.clients]) hin
  refine ⟨ret, _, fdRem_ok hrem (h.held _), h.within ?_⟩
  rw [hanswered.clients, h.clients]
  rfl

/-- A command is recorded, and then answered. -/
theorem fdCommand_recorded (env : Env) (h : Between p clients s)
    (hnodup : (clients.map Prod.fst).Nodup) {fd : Int32} (hmem : fd ∈ clients.map Prod.fst)
    (command : Int32) : ∃ (ret : ℤ) (s₁ : ThreadState), nmxptoolFdCommand env fd command s =
        (answer env fd command >>= fun _ => (pure ret : Act ℤ)) s₁ ∧
      Between p (record clients (.command fd command)) s₁ := by
  have hin : InTable s.shared.table.clients (.command fd command) := .inl (by rwa [h.clients])
  obtain ⟨ret, t, hcommand, hanswered⟩ := apply_ok (by rwa [h.clients]) hin
  exact ⟨ret, within s t, fdCommand_ok hcommand (h.held _),
    h.within (by rw [hanswered.clients, h.clients])⟩

end Thread

/-! ### The thread as a whole -/

/-- The command that a client gives in a round. -/
def Round.command (r : Round) : Int32 := nmxptoolCommand ((readCommand r.typed).getD [])

/-- The answer of a round cannot be sent. -/
def Round.Unanswered (r : Round) (fd : Int32) : Prop :=
  r.answered.sendFails fd = true ∧ Sends r.answered fd r.command

instance (r : Round) (fd : Int32) : Decidable (r.Unanswered fd) :=
  inferInstanceAs (Decidable (_ ∧ _))

/-- How a thread is left: it waits for a command, it ends as it should, or it ends in the middle of
an answer. -/
inductive Outcome
  | waits
  | ends
  | breaks
  deriving DecidableEq

/-- **What becomes of a thread** in the rounds of its client. -/
def outcome (fd : Int32) : List Round → Outcome
  | [] => .waits
  | r :: rounds =>
    if r.prompted.sendFails fd = true then .ends
    else if r.Unanswered fd then .breaks
    else if r.command = COMMAND_EXIT then .ends
    else outcome fd rounds

section Whole
variable {env : Env} {p : Process} {s : ThreadState} {front : List (Int32 × Int32)} {fd : Int32}

theorem nodup_last (hfront : (front.map Prod.fst).Nodup) (hnew : fd ∉ front.map Prod.fst)
    (e : Int32) : ((front ++ [(fd, e)]).map Prod.fst).Nodup := by
  rw [List.map_append]
  exact List.nodup_append'.mpr ⟨hfront, List.nodup_singleton _, by simpa using hnew⟩

theorem record_last (hnew : fd ∉ front.map Prod.fst) (e command : Int32) :
    record (front ++ [(fd, e)]) (.command fd command) = front ++ [(fd, command)] := by
  have hother : ∀ c ∈ front, (if c.1 = fd then (fd, command) else c) = c := by
    intro c hc
    exact if_neg fun heq : c.1 = fd => hnew (heq ▸ List.mem_map_of_mem hc)
  rw [record, List.map_append, List.map_congr_left hother, List.map_id']
  simp

/-- The client is taken out again. -/
theorem filter_last (hnew : fd ∉ front.map Prod.fst) (e : Int32) :
    ((front ++ [(fd, e)]).filter fun c => c.1 ≠ fd) = front := by
  have hother : ∀ c ∈ front, c.1 ≠ fd := fun c hc heq => hnew (heq ▸ List.mem_map_of_mem hc)
  rw [List.filter_append, List.filter_eq_self.mpr (by simpa using hother)]
  simp

/-- **A client that cannot be sent to** is taken out, and its thread ends. -/
theorem sendLocked_fails (hfails : env.sendFails fd = true) (hfront : (front.map Prod.fst).Nodup)
    (hnew : fd ∉ front.map Prod.fst) {e : Int32} (h : Between p (front ++ [(fd, e)]) s)
    (msg : String) : Exits (fun s' => Between p front s' ∧ Event.output (.close fd) ∈ s'.trace)
      (sendLocked env fd msg) s := by
  have hkept : Kept s (((s.lock .mutexOcc).puts [.send fd msg false]).unlock .mutexOcc) :=
    ⟨rfl, held_section (h.held _) rfl, fun hun => unlocks_section (by simp [State.lock])
      ((kept_puts _ _).unlocks (unlocks_lock _ hun))⟩
  have hmem : fd ∈ (front ++ [(fd, e)]).map Prod.fst := by simp
  obtain ⟨ret, s', hrem, h'⟩ := fdRem_step (h.kept hkept) (nodup_last hfront hnew e) hmem
  rw [filter_last hnew] at h'
  unfold sendLocked
  refine Exits.of_ok (lock_of_free (h.held _)) (Exits.bind ?_ _)
  unfold nmxptoolSendCtrl
  rw [if_pos hfails]
  refine Exits.of_ok rfl (Exits.of_ok rfl (Exits.of_ok hrem (Exits.of_ok rfl ⟨_, rfl, ?_, ?_⟩)))
  · exact h'.kept (kept_puts s' [.close fd])
  · simp

/-- **What the thread does**, with the client in the table, for an outcome of its rounds: it waits
for a command, with the client's last one in the table; or it ends as `exit` or
`nmxptool_send_ctrl` ends it, and all is as it was before; or it ends when it has unlocked a mutex
that it does not hold. -/
def Leads (p : Process) (front : List (Int32 × Int32)) (fd : Int32) (x : Act Unit)
    (s : ThreadState) (last : Int32) : Outcome → Prop
  | .waits => ∃ s', x s = .ok ((), s') ∧ Between p (front ++ [(fd, last)]) s'
  | .ends => Exits (fun s' => Between p front s' ∧ Event.output (.close fd) ∈ s'.trace) x s
  | .breaks => Exits (fun s' => SendFailed s' ∧ Event.unlock .mutexOcc false ∈ s'.trace) x s

theorem Leads.of_eq {x y : Act Unit} {s' : ThreadState} {last : Int32} {o : Outcome}
    (h : x s = y s') (hleads : Leads p front fd y s' last o) : Leads p front fd x s last o := by
  cases o <;> simpa only [Leads, Exits, h] using hleads

/-- At `exit` the client is taken out of the table, and its connection is closed. -/
theorem closeClient_exit (hfront : (front.map Prod.fst).Nodup) (hnew : fd ∉ front.map Prod.fst)
    {e : Int32} (h : Between p (front ++ [(fd, e)]) s) :
    Exits (fun s' => Between p front s' ∧ Event.output (.close fd) ∈ s'.trace)
      (closeClient fd COMMAND_EXIT) s := by
  have hmem : fd ∈ (front ++ [(fd, e)]).map Prod.fst := by simp
  obtain ⟨ret, s', hrem, h'⟩ := fdRem_step h (nodup_last hfront hnew e) hmem
  rw [filter_last hnew] at h'
  unfold closeClient
  rw [if_pos rfl]
  refine Exits.of_ok hrem (Exits.of_ok rfl ⟨_, rfl, ?_, ?_⟩)
  · exact h'.kept (kept_puts s' [.close fd])
  · simp

/-- **A round up to its answer**: the client is prompted, and its command is in the table. -/
theorem commandLoop_recorded (texts : LogTexts) (hidle : Idle p)
    (hfront : (front.map Prod.fst).Nodup) (hnew : fd ∉ front.map Prod.fst) {r : Round}
    (rounds : List Round) (hreads : (readCommand r.typed).isSome)
    (hprompted : r.prompted.sendFails fd = false) {last : Int32} (hlast : last ≠ COMMAND_EXIT)
    {e : Int32} (h : Between p (front ++ [(fd, e)]) s) :
    ∃ (ret : ℤ) (s' : ThreadState), Between p (front ++ [(fd, r.command)]) s' ∧
      commandLoop texts fd (r :: rounds) last s =
        ((answer r.answered fd r.command >>= fun _ => (pure ret : Act ℤ)) >>= fun _ =>
          commandLoop texts fd rounds r.command) s' := by
  obtain ⟨text, htext⟩ := Option.isSome_iff_exists.mp hreads
  have hcommand : nmxptoolCommand text = r.command := by
    rw [Round.command, htext]
    rfl
  obtain ⟨s₁, hprompt, hkept₁⟩ := sendLocked_kept hprompted (h.held _) "> "
  have h₁ := h.kept hkept₁
  have haccess : (access fun p => (readCommand r.typed).map fun c => (c, p) : Act CStr) s₁ =
      .ok (text, s₁) := access_of_eq (by rw [htext]; rfl)
  obtain ⟨s₂, hlog, hkept₂⟩ := log_kept r.answered (h₁.idle hidle) .norm (texts.command
    (if nmxptoolCommand text ≠ -1 then nmxptoolCommandClean text else none) (nmxptoolCommand text))
  have hmem : fd ∈ (front ++ [(fd, e)]).map Prod.fst := by simp
  obtain ⟨ret, s₃, hrecorded, h₃⟩ := fdCommand_recorded r.answered (h₁.kept hkept₂)
    (nodup_last hfront hnew e) hmem (nmxptoolCommand text)
  rw [record_last hnew, hcommand] at h₃
  refine ⟨ret, s₃, h₃, ?_⟩
  rw [commandLoop, if_neg hlast, bind_ok hprompt, bind_ok haccess, bind_ok hlog,
    bind_congr_run hrecorded, hcommand]

/-- **The rounds of a client**, one after the other, lead to their outcome. -/
theorem commandLoop_leads (texts : LogTexts) (hidle : Idle p)
    (hfront : (front.map Prod.fst).Nodup) (hnew : fd ∉ front.map Prod.fst) {rounds : List Round}
    (hreads : ∀ r ∈ rounds, (readCommand r.typed).isSome) {last : Int32}
    (hlast : last ≠ COMMAND_EXIT) {e : Int32} (h : Between p (front ++ [(fd, e)]) s) :
    Leads p front fd (commandLoop texts fd rounds last >>= closeClient fd) s
      ((rounds.map Round.command).getLast?.getD e) (outcome fd rounds) := by
  induction rounds generalizing s last e with
  | nil => exact ⟨s, by rw [bind_ok rfl, closeClient, if_neg hlast]; rfl, h⟩
  | cons r rounds ih =>
    rw [List.forall_mem_cons] at hreads
    rw [outcome]
    by_cases hprompted : r.prompted.sendFails fd = true
    · rw [if_pos hprompted, commandLoop, if_neg hlast]
      exact ((sendLocked_fails hprompted hfront hnew h "> ").bind _).bind _
    obtain ⟨ret, s₁, h₁, hround⟩ := commandLoop_recorded texts hidle hfront hnew rounds hreads.1
      (Bool.not_eq_true _ ▸ hprompted) hlast h
    refine Leads.of_eq (bind_congr_run hround _) ?_
    rw [if_neg hprompted]
    by_cases hanswered : r.Unanswered fd
    · rw [if_pos hanswered]
      have hclient : fd ∈ s₁.shared.table.fds := by
        rw [← map_fst_clients, h₁.clients]
        simp
      have hanswer := answer_fails hanswered.1 hclient (h₁.held _) (h₁.held _) hanswered.2
      exact ((hanswer.bind _).bind _).bind _
    obtain ⟨s₂, hanswer, hkept⟩ := answer_kept (h₁.idle hidle) (h₁.held _) hanswered
    have h₂ := h₁.kept hkept
    refine Leads.of_eq (bind_congr_run (bind_ok ((bind_ok hanswer).trans rfl)) _) ?_
    rw [if_neg hanswered, List.map_cons, List.getLast?_cons, Option.getD_some]
    by_cases hexit : r.command = COMMAND_EXIT
    · rw [if_pos hexit, hexit] at *
      have hdone : commandLoop texts fd rounds COMMAND_EXIT s₂ = .ok (COMMAND_EXIT, s₂) := by
        cases rounds <;> rfl
      exact Exits.of_ok hdone (closeClient_exit hfront hnew h₂)
    · rw [if_neg hexit]
      exact ih hreads.2 hexit h₂

/-- **When the thread of a client ends, and how**: if the welcome, a prompt or an answer cannot be
sent, or at `exit`. All is as it was before the client came then, unless it was an answer: after
that the thread has unlocked a mutex that it does not hold. Otherwise it waits for a command, with
the client's last one in the table. -/
theorem clientThread_ends (welcomed : Env) (texts : LogTexts) (hidle : Idle p)
    (hclients : (p.table.clients.map Prod.fst).Nodup) (hroom : p.table.clients.length < MAX_OCC)
    (hnew : fd ∉ p.table.clients.map Prod.fst) {rounds : List Round}
    (hreads : ∀ r ∈ rounds, (readCommand r.typed).isSome) :
    Leads p p.table.clients fd (nmxptoolPManSockfd welcomed texts fd rounds) (start p)
      ((rounds.map Round.command).getLast?.getD COMMAND_NULL)
      (if welcomed.sendFails fd = true then .ends else outcome fd rounds) := by
  obtain ⟨ret, s₁, hadd, h₁⟩ := fdAdd_step (between_start p) hclients hroom fd
  obtain ⟨s₂, hlog, hkept₂⟩ := log_kept welcomed (h₁.idle hidle) .norm (texts.connection ret)
  have h₂ := h₁.kept hkept₂
  unfold nmxptoolPManSockfd
  by_cases hfails : welcomed.sendFails fd = true
  · rw [if_pos hfails]
    exact Exits.of_ok hadd (Exits.of_ok hlog
      ((sendLocked_fails hfails hclients hnew h₂ _).bind _))
  · rw [if_neg hfails]
    obtain ⟨s₃, hwelcome, hkept₃⟩ := sendLocked_kept (Bool.not_eq_true _ ▸ hfails) (h₂.held _)
      "Welcome aboard nmxptool! Type 'help' for command list.\n"
    refine Leads.of_eq ((bind_ok hadd).trans ((bind_ok hlog).trans (bind_ok hwelcome))) ?_
    exact commandLoop_leads texts hidle hclients hnew hreads (by decide) (h₂.kept hkept₃)

end Whole

/-- No client, and the log on two streams. -/
def noClients : Process := ⟨Tracking.emptyTable, 0, [.stream 1], [.stream 2]⟩

/-- Every `send` succeeds. -/
def allThere : Env := ⟨fun _ => false, 0, ["1"], ["2"]⟩

/-- Rounds in which the client is there. -/
def typing (texts : List String) : List Round := texts.map fun t => ⟨allThere, t.toList, allThere⟩

/-- A client that has gone away when `mem` is answered. -/
def goneAtMem : List Round := [⟨allThere, "mem\n".toList, allGone⟩]

def plainTexts : LogTexts := ⟨fun _ => "connection", fun _ _ => "command"⟩

/-- A client that gives `exit`, and one that goes away before it is answered. -/
theorem clientThread_ends_exit :
    Exits (fun s' => Between noClients [] s' ∧ Event.output (.close 5) ∈ s'.trace)
      (nmxptoolPManSockfd allThere plainTexts 5 (typing ["raw\r\n", "what\n", "\r\n", "exit \n"]))
      (start noClients) ∧
    Exits (fun s' => SendFailed s' ∧ Event.unlock .mutexOcc false ∈ s'.trace)
      (nmxptoolPManSockfd allThere plainTexts 5 goneAtMem) (start noClients) := by
  have hidle : Idle noClients := ⟨rfl, by decide, by decide⟩
  have hends : outcome 5 (typing ["raw\r\n", "what\n", "\r\n", "exit \n"]) = .ends := by
    decide +kernel
  have hbreaks : outcome 5 goneAtMem = .breaks := by decide +kernel
  constructor
  · have h := @clientThread_ends noClients 5 allThere plainTexts hidle (by decide +kernel)
      (by decide +kernel) (by decide +kernel)
      (typing ["raw\r\n", "what\n", "\r\n", "exit \n"]) (by decide +kernel)
    rwa [if_neg (by decide), hends] at h
  · have h := @clientThread_ends noClients 5 allThere plainTexts hidle (by decide +kernel)
      (by decide +kernel) (by decide +kernel) goneAtMem (by decide +kernel)
    rwa [if_neg (by decide), hbreaks] at h

end Nmxptool.Listen.Session
