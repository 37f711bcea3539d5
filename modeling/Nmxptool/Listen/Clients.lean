import Mathlib.Data.Int.Notation
import Mathlib.Data.List.Basic
import Mathlib.Tactic.SplitIfs

/-! # The monitoring clients

The table of the connected clients: the descriptor of each, and the last command it gave. It is two
arrays with a count.

* `search_of_mem`: a connected client is found.
* `rem_ok`: where the removal stays in the arrays. -/

namespace Nmxptool.Listen.Clients

def MAX_OCC : ℕ := 30

def COMMAND_NULL : Int32 := 1
def COMMAND_LIST : Int32 := 2
def COMMAND_PRINT : Int32 := 3
def COMMAND_EXIT : Int32 := 4
def COMMAND_MEM : Int32 := 5
def COMMAND_RAW : Int32 := 6
def COMMAND_PARAMS : Int32 := 7
def COMMAND_HELP : Int32 := 8

/-- `COMMAND_ITEM`. -/
structure CommandItem where
  command : Int32
  strCommand : String
  strCommandDesc : String

def listCmd : List CommandItem :=
  [⟨COMMAND_NULL, "", ""⟩,
    ⟨COMMAND_LIST, "list", "List of the channels."⟩,
    ⟨COMMAND_PRINT, "print", "Print processed packets."⟩,
    ⟨COMMAND_HELP, "help", "Print this help"⟩,
    ⟨COMMAND_MEM, "mem", "Print memory size used."⟩,
    ⟨COMMAND_RAW, "raw", "Print info about data buffer."⟩,
    ⟨COMMAND_PARAMS, "params", "Print parameter values."⟩,
    ⟨COMMAND_EXIT, "exit", "Exit."⟩]

/-- `DATA_SHARED`, with `occ`. -/
structure Table where
  vNewFd : Vector Int32 MAX_OCC
  lastCommand : Vector Int32 MAX_OCC
  occ : ℕ
  occ_le : occ ≤ MAX_OCC

/-- A client, and its last command. -/
def Table.client (t : Table) (i : ℕ) : Option (Int32 × Int32) :=
  t.vNewFd[i]?.bind fun fd => t.lastCommand[i]?.map fun command => (fd, command)

/-- The connected clients, each with its last command. -/
def Table.clients (t : Table) : List (Int32 × Int32) :=
  (t.vNewFd.toList.zip t.lastCommand.toList).take t.occ

/-- Their descriptors. -/
def Table.fds (t : Table) : List Int32 := t.vNewFd.toList.take t.occ

/-- The descriptors of the clients in print mode. -/
def Table.printMode (t : Table) : List Int32 :=
  (t.clients.filter fun c => c.2 = COMMAND_PRINT).map (·.1)

/-- The part of `nmxptool_fd_add` that `mutex_occ` protects; there is no result if it writes outside
the arrays. -/
def Table.add (t : Table) (newFd : Int32) : Option (ℤ × Table) :=
  if h : t.occ < MAX_OCC then
    some (t.occ + 1,
      ⟨t.vNewFd.set t.occ newFd, t.lastCommand.set t.occ COMMAND_NULL, t.occ + 1, h⟩)
  else none

/-- `while(v_new_fd[ret_occ] != new_fd && ret_occ < occ)`, from an index on: how far it goes. There
is no result if it reads outside the array. -/
def search (newFd : Int32) : List Int32 → ℕ → Option ℕ
  | [], _ => none
  | fd :: vNewFd, occ =>
    if fd ≠ newFd ∧ 0 < occ then (search newFd vNewFd (occ - 1)).map (· + 1) else some 0

/-- `for(i = ...; i < occ-1; i++) a[i] = a[i+1]`, in `left` rounds from `i`. -/
def shiftDown : ℕ → ℕ → Vector Int32 MAX_OCC → Option (Vector Int32 MAX_OCC)
  | 0, _, a => some a
  | left + 1, i, a =>
    if h : i + 1 < MAX_OCC then shiftDown left (i + 1) (a.set i a[i + 1]) else none

/-- The part of `nmxptool_fd_rem` that `mutex_occ` protects. -/
def Table.rem (t : Table) (newFd : Int32) : Option (ℤ × Table) :=
  (search newFd t.vNewFd.toList t.occ).bind fun retOcc =>
    if retOcc < t.occ then
      (shiftDown (t.occ - 1 - retOcc) retOcc t.vNewFd).bind fun vNewFd =>
        (shiftDown (t.occ - 1 - retOcc) retOcc t.lastCommand).map fun lastCommand =>
          (retOcc, ⟨vNewFd, lastCommand, t.occ - 1, Nat.le_trans (Nat.sub_le ..) t.occ_le⟩)
    else some (-1, t)

/-- The part of `nmxptool_fd_command` that `mutex_occ` protects. -/
def Table.command (t : Table) (newFd command : Int32) : Option (ℤ × Table) :=
  (search newFd t.vNewFd.toList t.occ).bind fun retOcc =>
    if retOcc < t.occ then
      if h : retOcc < MAX_OCC then
        some (retOcc, { t with lastCommand := t.lastCommand.set retOcc command })
      else none
    else some (-1, t)

/-! ### Connected clients -/

theorem search_of_mem {newFd : Int32} {vNewFd : List Int32} {occ : ℕ}
    (h : newFd ∈ vNewFd.take occ) : ∃ i < occ, search newFd vNewFd occ = some i := by
  induction vNewFd generalizing occ with
  | nil => exact absurd h (by simp)
  | cons fd vNewFd ih =>
    cases occ with
    | zero => exact absurd h (by simp)
    | succ occ =>
      by_cases hfd : fd = newFd
      · exact ⟨0, Nat.succ_pos occ, by simp [search, hfd]⟩
      · rw [List.take_succ_cons, List.mem_cons] at h
        obtain ⟨i, hi, hs⟩ := ih (h.resolve_left (Ne.symm hfd))
        exact ⟨i + 1, Nat.succ_lt_succ hi, by simp [search, hfd, hs]⟩

/-- With a free place behind the clients, the search stays in the array. -/
theorem search_of_room {vNewFd : List Int32} {occ : ℕ} (newFd : Int32)
    (h : occ < vNewFd.length) : ∃ i, search newFd vNewFd occ = some i := by
  induction vNewFd generalizing occ with
  | nil => exact absurd h (by simp)
  | cons fd vNewFd ih =>
    unfold search
    split_ifs with hgo
    · have hlen : occ - 1 < vNewFd.length := by
        rw [List.length_cons] at h
        omega
      obtain ⟨i, hi⟩ := ih hlen
      exact ⟨i + 1, by rw [hi]; rfl⟩
    · exact ⟨0, rfl⟩

theorem lt_of_search {newFd : Int32} {vNewFd : List Int32} {occ i : ℕ}
    (h : search newFd vNewFd occ = some i) : i < vNewFd.length ∧ i ≤ occ := by
  induction vNewFd generalizing occ i with
  | nil => cases h
  | cons fd vNewFd ih =>
    unfold search at h
    split_ifs at h with hgo
    · obtain ⟨j, hj, rfl⟩ := Option.map_eq_some_iff.mp h
      obtain ⟨h1, h2⟩ := ih hj
      rw [List.length_cons]
      omega
    · cases h
      exact ⟨Nat.succ_pos _, Nat.zero_le _⟩

theorem exists_shiftDown (a : Vector Int32 MAX_OCC) {left i : ℕ} (h : i + left < MAX_OCC) :
    ∃ a', shiftDown left i a = some a' := by
  induction left generalizing a i with
  | zero => exact ⟨a, rfl⟩
  | succ left ih =>
    unfold shiftDown
    rw [dif_pos (by omega)]
    exact ih _ (by omega)

/-- **Where a client can be removed**: it is connected, or there is room for another one. -/
theorem rem_ok {t : Table} {newFd : Int32} (h : newFd ∈ t.fds ∨ t.occ < MAX_OCC) :
    ∃ retOcc t', t.rem newFd = some (retOcc, t') := by
  obtain ⟨i, hs⟩ : ∃ i, search newFd t.vNewFd.toList t.occ = some i := by
    rcases h with hmem | hroom
    · obtain ⟨i, -, hs⟩ := search_of_mem hmem
      exact ⟨i, hs⟩
    · exact search_of_room newFd (by simpa using hroom)
  by_cases hi : i < t.occ
  · have hocc := t.occ_le
    have hroom : i + (t.occ - 1 - i) < MAX_OCC := by omega
    obtain ⟨v, hv⟩ := exists_shiftDown t.vNewFd hroom
    obtain ⟨c, hc⟩ := exists_shiftDown t.lastCommand hroom
    exact ⟨i, ⟨v, c, t.occ - 1, by omega⟩, by simp [Table.rem, hs, hi, hv, hc]⟩
  · exact ⟨-1, t, by simp [Table.rem, hs, hi]⟩

/-- After it there is room in any case. -/
theorem room_of_rem {t t' : Table} {newFd : Int32} {retOcc : ℤ}
    (h : t.rem newFd = some (retOcc, t')) : t'.occ < MAX_OCC := by
  have hocc := t.occ_le
  obtain ⟨i, hs, h⟩ := Option.bind_eq_some_iff.mp h
  obtain ⟨hlen, hle⟩ := lt_of_search hs
  rw [Vector.length_toList] at hlen
  split_ifs at h with hi
  · obtain ⟨v, -, h⟩ := Option.bind_eq_some_iff.mp h
    obtain ⟨c, -, h⟩ := Option.map_eq_some_iff.mp h
    cases h
    have : t.occ - 1 < MAX_OCC := by omega
    exact this
  · cases h
    omega

/-- The command changes no descriptor. -/
theorem command_of_mem {t : Table} {newFd : Int32} (h : newFd ∈ t.fds) (command : Int32) :
    ∃ retOcc t', t.command newFd command = some (retOcc, t') ∧ t'.fds = t.fds := by
  obtain ⟨i, hi, hs⟩ := search_of_mem h
  have hlt := Nat.lt_of_lt_of_le hi t.occ_le
  exact ⟨i, { t with lastCommand := t.lastCommand.set i command },
    by simp [Table.command, hs, hi, hlt], rfl⟩

end Nmxptool.Listen.Clients
