import Nmxptool.Lib.Thread
import Nmxptool.Listen.Clients

/-! # The threads that serve the monitoring clients

A client can connect to the tool and give commands, which a thread of its own answers. A client in
print mode also gets a line about every packet, from the acquisition thread. Commands that print
through the log register `nmxp_log_send_socket` as a log function meanwhile.

* `nmxptoolSendCtrl`: what everything that is sent to a client goes through.
* `nmxptoolFdCommand`: a command, in the thread of its client.
* `nmxptoolListenPrintSeqNo`: the line about a packet. -/

namespace Nmxptool.Listen.Model

open Nmxptool.Lib.Thread Nmxptool.Listen.Clients

inductive Mutex
  | mutexOcc
  | mutexCurFd
  deriving DecidableEq

/-- The functions that can be registered for log lines: `nmxp_log_send_socket`, and some that write
to a stream. -/
inductive LogFunc
  | nmxpLogSendSocket
  | stream (i : ℕ)
  deriving DecidableEq

/-- What the threads share. -/
structure Process where
  table : Table
  curFd : Int32
  funcLog : List LogFunc
  funcLogErr : List LogFunc

inductive Output
  | send (fd : Int32) (msg : String) (ok : Bool)
  | close (fd : Int32)
  | write (i : ℕ) (msg : String)
  | stdout (msg : String)

/-- Which descriptors `send` fails for, and what the commands print. -/
structure Env where
  sendFails : Int32 → Bool
  totMem : ℤ
  rawStreamLines : List String
  paramsLines : List String

abbrev Act (α : Type) : Type := Code Process Mutex Output α

/-! ### Sending -/

/-- `nmxptool_fd_rem`. -/
def nmxptoolFdRem (newFd : Int32) : Act ℤ := do
  lock .mutexOcc
  let retOcc ← access fun p => (p.table.rem newFd).map fun r => (r.1, { p with table := r.2 })
  unlock .mutexOcc
  return retOcc

/-- **`nmxptool_send_ctrl`.** -/
def nmxptoolSendCtrl (env : Env) (fd : Int32) (msg : String) : Act Unit :=
  if env.sendFails fd then do
    output (.send fd msg false)
    unlock .mutexOcc
    let _ ← nmxptoolFdRem fd
    output (.close fd)
    exit
  else output (.send fd msg true)

/-! ### Log lines -/

/-- `nmxp_log_send_socket`. -/
def nmxpLogSendSocket (env : Env) (msg : String) : Act Unit := do
  let p ← shared
  if p.curFd ≠ 0 then nmxptoolSendCtrl env p.curFd msg

/-- `nmxp_log_add`. -/
def nmxpLogAdd (funcLog funcLogErr : Option LogFunc) (p : Process) : Process :=
  { p with
    funcLog := p.funcLog ++ funcLog.toList
    funcLogErr := p.funcLogErr ++ funcLogErr.toList }

/-- `nmxp_log_rem`: the first of its kind is removed. -/
def nmxpLogRem (funcLog funcLogErr : Option LogFunc) (p : Process) : Process :=
  { p with
    funcLog := funcLog.elim p.funcLog p.funcLog.erase
    funcLogErr := funcLogErr.elim p.funcLogErr p.funcLogErr.erase }

def callLog (env : Env) (message : String) : LogFunc → Act Unit
  | .nmxpLogSendSocket => nmxpLogSendSocket env message
  | .stream i => output (.write i message)

/-- `nmxp_log_print_all`. -/
def nmxpLogPrintAll (env : Env) (message : String) (aFuncLog : List LogFunc) : Act Unit :=
  if aFuncLog ≠ [] then aFuncLog.forM (callLog env message) else output (.stdout message)

inductive Level
  | err
  | warn
  | norm
  | normNo
  | normPkg
  deriving DecidableEq

/-- `nmxp_log`, for a message that is logged at the level of verbosity. -/
def nmxpLog (env : Env) (level : Level) (messageFinal : String) : Act Unit := do
  let p ← shared
  nmxpLogPrintAll env messageFinal (if level = .err then p.funcLogErr else p.funcLog)

/-! ### Commands -/

/-- `"%-20s %s\n"`. -/
def helpLine (item : CommandItem) : String :=
  String.ofList (item.strCommand.toList.rightpad 20 ' ') ++ " " ++ item.strCommandDesc ++ "\n"

/-- The commands that print through the log. -/
def printLines (env : Env) (newFd : Int32) (lines : List String) : Act Unit := do
  lock .mutexCurFd
  setShared fun p => nmxpLogAdd (some .nmxpLogSendSocket) (some .nmxpLogSendSocket)
    { p with curFd := newFd }
  lines.forM (nmxpLog env .normNo)
  setShared fun p =>
    { nmxpLogRem (some .nmxpLogSendSocket) (some .nmxpLogSendSocket) p with curFd := 0 }
  unlock .mutexCurFd

/-- The `switch` of `nmxptool_fd_command`. -/
def answer (env : Env) (newFd command : Int32) : Act Unit :=
  if command = COMMAND_MEM then nmxptoolSendCtrl env newFd s!"{env.totMem}\n"
  else if command = COMMAND_LIST then return ()
  else if command = COMMAND_RAW then printLines env newFd env.rawStreamLines
  else if command = COMMAND_PARAMS then printLines env newFd env.paramsLines
  else if command = COMMAND_HELP then
    listCmd.forM fun item =>
      if item.command ≠ COMMAND_NULL then nmxptoolSendCtrl env newFd (helpLine item) else return ()
  else if command = COMMAND_NULL then return ()
  else nmxptoolSendCtrl env newFd "Command not found!\n"

/-- **`nmxptool_fd_command`.** -/
def nmxptoolFdCommand (env : Env) (newFd command : Int32) : Act ℤ := do
  lock .mutexOcc
  let retOcc ← access fun p =>
    (p.table.command newFd command).map fun r => (r.1, { p with table := r.2 })
  unlock .mutexOcc
  answer env newFd command
  return retOcc

/-! ### The line about a packet -/

/-- The loop of `nmxptool_listen_print_seq_no`, in `left` rounds from `i`. -/
def printLoop (env : Env) (msg : String) : ℕ → ℕ → Act Unit
  | 0, _ => return ()
  | left + 1, i => do
    let c ← access fun p => (p.table.client i).map fun c => (c, p)
    if c.2 = COMMAND_PRINT then nmxptoolSendCtrl env c.1 msg
    printLoop env msg left (i + 1)

/-- **`nmxptool_listen_print_seq_no`**, for the line it has made of a packet. -/
def nmxptoolListenPrintSeqNo (env : Env) (msg : String) : Act ℤ := do
  lock .mutexOcc
  let p ← shared
  printLoop env msg p.table.occ 0
  unlock .mutexOcc
  return 0

end Nmxptool.Listen.Model
