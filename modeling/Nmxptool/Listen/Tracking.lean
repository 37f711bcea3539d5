import Mathlib.Data.List.Induction
import Mathlib.Data.List.Nodup
import Nmxptool.Lib.Run
import Nmxptool.Listen.Clients

/-! # The clients in the table

The threads of the clients call `nmxptool_fd_add`, `nmxptool_fd_rem` and `nmxptool_fd_command`, one
after the other, since each call holds `mutex_occ`.

* `connected`: the clients after some calls.
* `Table.add_clients`, `Table.rem_clients`, `Table.command_clients`: what a call does to those in
  the table.
* `tracks_iff`: in which runs the table has the connected clients. -/

namespace Nmxptool.Listen.Tracking

open Nmxptool.Lib.Run Nmxptool.Listen.Clients

/-! ### Calls -/

/-- A call of a client's thread. -/
inductive Call
  | add (newFd : Int32)
  | rem (newFd : Int32)
  | command (newFd cmd : Int32)

/-- An access outside an array. -/
inductive Fault
  | outside
  deriving DecidableEq

/-- The call on the table. -/
def Call.apply (t : Table) : Call → Option (ℤ × Table)
  | .add newFd => t.add newFd
  | .rem newFd => t.rem newFd
  | .command newFd cmd => t.command newFd cmd

def step (t : Table) (call : Call) : Except Fault (Table × List ℤ) :=
  match call.apply t with
  | some (ret, t') => .ok (t', [ret])
  | none => .error .outside

/-- `ds` and `occ` at first. -/
def emptyTable : Table := ⟨Vector.replicate MAX_OCC 0, Vector.replicate MAX_OCC 0, 0, Nat.zero_le _⟩

/-! ### Clients -/

/-- **What a call does** to the clients: they come in order, and each has the last command that it
gave. -/
def record (clients : List (Int32 × Int32)) : Call → List (Int32 × Int32)
  | .add newFd => clients ++ [(newFd, COMMAND_NULL)]
  | .rem newFd => clients.filter fun c => c.1 ≠ newFd
  | .command newFd cmd => clients.map fun c => if c.1 = newFd then (newFd, cmd) else c

/-- **The connected clients** after some calls. -/
def connected (calls : List Call) : List (Int32 × Int32) := calls.foldl record []

/-- A client has a descriptor of its own. -/
def Fresh (clients : List (Int32 × Int32)) : Call → Prop
  | .add newFd => newFd ∉ clients.map Prod.fst
  | _ => True

/-- A removal or a command comes from a client that is not connected. -/
def Unknown (clients : List (Int32 × Int32)) : Call → Prop
  | .add _ => False
  | .rem newFd => newFd ∉ clients.map Prod.fst
  | .command newFd _ => newFd ∉ clients.map Prod.fst

/-- There is room for another client, or the call is one of a connected client. -/
def InTable (clients : List (Int32 × Int32)) : Call → Prop
  | .add _ => clients.length < MAX_OCC
  | .rem newFd => newFd ∈ clients.map Prod.fst ∨ clients.length < MAX_OCC
  | .command newFd _ => newFd ∈ clients.map Prod.fst ∨ clients.length < MAX_OCC

/-! ### The arrays -/

theorem getElem?_clients (t : Table) (j : ℕ) :
    t.clients[j]? = if j < t.occ then t.client j else none := by
  unfold Table.clients Table.client
  rw [List.getElem?_take, List.zip, List.getElem?_zipWith, Vector.getElem?_toList,
    Vector.getElem?_toList]
  cases t.vNewFd[j]? <;> cases t.lastCommand[j]? <;> rfl

theorem length_clients (t : Table) : t.clients.length = t.occ := by
  have hocc := t.occ_le
  unfold Table.clients
  rw [List.length_take, List.length_zip, Vector.length_toList, Vector.length_toList]
  omega

theorem map_fst_clients (t : Table) : t.clients.map Prod.fst = t.fds := by
  unfold Table.clients Table.fds
  rw [List.map_take, List.map_fst_zip (by simp)]

/-- **A shift** moves the elements of a range down. -/
theorem getElem?_shiftDown {left i : ℕ} {a a' : Vector Int32 MAX_OCC}
    (h : shiftDown left i a = some a') (j : ℕ) :
    a'[j]? = if i ≤ j ∧ j < i + left then a[j + 1]? else a[j]? := by
  induction left generalizing i a with
  | zero =>
    obtain rfl := Option.some.inj h
    rw [if_neg (by omega)]
  | succ left ih =>
    unfold shiftDown at h
    split_ifs at h with hlt
    rw [ih h]
    by_cases hj : i + 1 ≤ j ∧ j < i + 1 + left
    · rw [if_pos hj, if_pos (by omega), Vector.getElem?_set_ne _ (by omega)]
    · rw [if_neg hj]
      by_cases hij : i = j
      · subst hij
        rw [if_pos (by omega), Vector.getElem?_set_self, Vector.getElem?_eq_getElem hlt]
      · rw [if_neg (by omega), Vector.getElem?_set_ne _ hij]

/-- **The search** ends at the first client with the descriptor, or behind the clients. -/
theorem search_spec {newFd : Int32} {vNewFd : List Int32} {occ i : ℕ}
    (h : search newFd vNewFd occ = some i) : (i < occ → vNewFd[i]? = some newFd) ∧
      (i = occ → newFd ∉ vNewFd.take occ) := by
  induction vNewFd generalizing occ i with
  | nil => cases h
  | cons fd vNewFd ih =>
    unfold search at h
    split_ifs at h with hgo
    · obtain ⟨j, hj, rfl⟩ := Option.map_eq_some_iff.mp h
      obtain ⟨hfound, hbehind⟩ := ih hj
      obtain ⟨occ, rfl⟩ := Nat.exists_eq_succ_of_ne_zero (Nat.ne_of_gt hgo.2)
      refine ⟨fun hi => ?_, fun hi => ?_⟩
      · rw [List.getElem?_cons_succ]
        exact hfound (by omega)
      · rw [Nat.succ_eq_add_one, List.take_succ_cons, List.mem_cons, not_or]
        exact ⟨Ne.symm hgo.1, hbehind (by omega)⟩
    · obtain rfl := Option.some.inj h
      refine ⟨fun hi => ?_, fun hi => ?_⟩
      · rw [List.getElem?_cons_zero]
        by_contra hne
        exact hgo ⟨fun heq => hne (by rw [heq]), hi⟩
      · rw [← hi, List.take_zero]
        exact List.not_mem_nil

/-- Where every place is taken by another client, the search leaves the array. -/
theorem search_eq_none {newFd : Int32} {vNewFd : List Int32} {occ : ℕ} (h : newFd ∉ vNewFd)
    (hocc : vNewFd.length ≤ occ) : search newFd vNewFd occ = none := by
  induction vNewFd generalizing occ with
  | nil => rfl
  | cons fd vNewFd ih =>
    rw [List.mem_cons, not_or] at h
    rw [List.length_cons] at hocc
    rw [search, if_pos ⟨Ne.symm h.1, by omega⟩, ih h.2 (by omega)]
    rfl

/-- Where the search ends, for a table: at a client, or behind them all. -/
theorem search_table {t : Table} {newFd : Int32} :
    (∃ i c, search newFd t.vNewFd.toList t.occ = some i ∧ t.clients[i]? = some (newFd, c)) ∨
    (newFd ∉ t.fds ∧ t.occ < MAX_OCC ∧ search newFd t.vNewFd.toList t.occ = some t.occ) ∨
    (newFd ∉ t.fds ∧ t.occ = MAX_OCC ∧ search newFd t.vNewFd.toList t.occ = none) := by
  have hlength : t.vNewFd.toList.length = MAX_OCC := by simp
  by_cases hmem : newFd ∈ t.fds
  · left
    obtain ⟨i, hi, hs⟩ := search_of_mem hmem
    have hlt : i < t.lastCommand.size := Nat.lt_of_lt_of_le hi t.occ_le
    refine ⟨i, t.lastCommand[i], hs, ?_⟩
    rw [getElem?_clients, if_pos hi, Table.client, ← Vector.getElem?_toList,
      (search_spec hs).1 hi, Vector.getElem?_eq_getElem hlt]
    rfl
  · right
    rcases Nat.lt_or_ge t.occ MAX_OCC with hroom | hfull
    · left
      obtain ⟨i, hs⟩ := search_of_room newFd (by rw [hlength]; exact hroom)
      obtain ⟨hlt, hle⟩ := lt_of_search hs
      have hi : i = t.occ := by
        refine Nat.le_antisymm hle (Nat.le_of_not_lt fun hi => hmem ?_)
        exact List.mem_of_getElem? (i := i) (by
          rw [Table.fds, List.getElem?_take, if_pos hi, (search_spec hs).1 hi])
      exact ⟨hmem, hroom, hi ▸ hs⟩
    · right
      have hocc : t.occ = MAX_OCC := Nat.le_antisymm t.occ_le hfull
      refine ⟨hmem, hocc, search_eq_none ?_ (by omega)⟩
      rwa [Table.fds, hocc, List.take_of_length_le (Nat.le_of_eq hlength)] at hmem

/-! ### One call -/

/-- **`nmxptool_fd_add`** appends a client. -/
theorem add_clients {t : Table} (h : t.occ < MAX_OCC) (newFd : Int32) :
    ∃ (ret : ℤ) (t' : Table), t.add newFd = some (ret, t') ∧
      t'.clients = t.clients ++ [(newFd, COMMAND_NULL)] := by
  refine ⟨_, _, dif_pos h, List.ext_getElem? fun j => ?_⟩
  rw [getElem?_clients, List.getElem?_append, length_clients, getElem?_clients]
  dsimp only [Table.client]
  rcases Nat.lt_trichotomy j t.occ with hj | rfl | hj
  · rw [if_pos (by omega), if_pos hj, if_pos hj, Vector.getElem?_set_ne _ (by omega),
      Vector.getElem?_set_ne _ (by omega)]
  · rw [if_pos (Nat.lt_succ_self _), if_neg (Nat.lt_irrefl _), Vector.getElem?_set_self,
      Vector.getElem?_set_self, Nat.sub_self]
    rfl
  · rw [if_neg (by omega), if_neg (by omega), List.getElem?_eq_none (by simp; omega)]

/-- A client that was found is the only one with its descriptor. -/
theorem split_clients {l : List (Int32 × Int32)} (hnodup : (l.map Prod.fst).Nodup) {i : ℕ}
    {newFd c : Int32} (hi : l[i]? = some (newFd, c)) :
    ∃ l₁ l₂, l = l₁ ++ (newFd, c) :: l₂ ∧ l₁.length = i ∧ (∀ x ∈ l₁, x.1 ≠ newFd) ∧
      ∀ x ∈ l₂, x.1 ≠ newFd := by
  obtain ⟨hlt, heq⟩ := List.getElem?_eq_some_iff.mp hi
  have hsplit : l = l.take i ++ (newFd, c) :: l.drop (i + 1) := by
    rw [← heq, List.getElem_cons_drop, List.take_append_drop]
  rw [hsplit, List.map_append, List.map_cons, List.nodup_append, List.nodup_cons] at hnodup
  obtain ⟨-, ⟨hsecond, -⟩, hdisjoint⟩ := hnodup
  refine ⟨_, _, hsplit, by rw [List.length_take]; omega, fun x hx hfd => ?_, fun x hx hfd => ?_⟩
  · exact hdisjoint x.1 (List.mem_map_of_mem hx) newFd (List.mem_cons_self ..) hfd
  · exact hsecond (List.mem_map.mpr ⟨x, hx, hfd⟩)

/-- **`nmxptool_fd_rem`** takes a client out. -/
theorem rem_clients {t : Table} (hnodup : (t.clients.map Prod.fst).Nodup) {newFd c : Int32} {i : ℕ}
    (hs : search newFd t.vNewFd.toList t.occ = some i) (hi : t.clients[i]? = some (newFd, c)) :
    ∃ ret t', t.rem newFd = some (ret, t') ∧
      t'.clients = t.clients.filter fun c => c.1 ≠ newFd := by
  have hocc := t.occ_le
  have hlt : i < t.occ := by
    rw [← length_clients]
    exact (List.getElem?_eq_some_iff.mp hi).1
  have hroom : i + (t.occ - 1 - i) < MAX_OCC := by omega
  obtain ⟨v, hv⟩ := exists_shiftDown t.vNewFd hroom
  obtain ⟨d, hd⟩ := exists_shiftDown t.lastCommand hroom
  refine ⟨i, ⟨v, d, t.occ - 1, by omega⟩, ?_, ?_⟩
  · unfold Table.rem
    rw [hs, Option.bind_some, if_pos hlt, hv, Option.bind_some, hd]
    rfl
  have herase : (⟨v, d, t.occ - 1, by omega⟩ : Table).clients = t.clients.eraseIdx i := by
    refine List.ext_getElem? fun j => ?_
    rw [getElem?_clients, List.getElem?_eraseIdx, getElem?_clients, getElem?_clients]
    dsimp only [Table.client]
    rw [getElem?_shiftDown hv, getElem?_shiftDown hd]
    by_cases hj : j < i
    · rw [if_pos (by omega), if_neg (by omega), if_neg (by omega), if_pos hj, if_pos (by omega)]
    · rw [if_neg hj]
      by_cases hlast : j < t.occ - 1
      · rw [if_pos hlast, if_pos (by omega), if_pos (by omega), if_pos (by omega)]
      · rw [if_neg hlast, if_neg (by omega)]
  obtain ⟨l₁, l₂, hsplit, hlen, h1, h2⟩ := split_clients hnodup hi
  rw [herase, hsplit, ← hlen, List.eraseIdx_append_of_length_le (Nat.le_refl _), Nat.sub_self,
    List.eraseIdx_cons_zero, List.filter_append, List.filter_cons_of_neg (by simp),
    List.filter_eq_self.mpr (by simpa using h1), List.filter_eq_self.mpr (by simpa using h2)]

/-- **`nmxptool_fd_command`** records a command. -/
theorem command_clients {t : Table} (hnodup : (t.clients.map Prod.fst).Nodup) {newFd c : Int32}
    {i : ℕ} (hs : search newFd t.vNewFd.toList t.occ = some i)
    (hi : t.clients[i]? = some (newFd, c)) (command : Int32) :
    ∃ ret t', t.command newFd command = some (ret, t') ∧
      t'.clients = t.clients.map fun c => if c.1 = newFd then (newFd, command) else c := by
  have hlt : i < t.occ := by
    rw [← length_clients]
    exact (List.getElem?_eq_some_iff.mp hi).1
  have hmax := Nat.lt_of_lt_of_le hlt t.occ_le
  refine ⟨i, { t with lastCommand := t.lastCommand.set i command }, ?_, ?_⟩
  · unfold Table.command
    rw [hs, Option.bind_some, if_pos hlt, dif_pos hmax]
  have hset : ({ t with lastCommand := t.lastCommand.set i command } : Table).clients =
      t.clients.set i (newFd, command) := by
    refine List.ext_getElem? fun j => ?_
    rw [getElem?_clients, List.getElem?_set, getElem?_clients, length_clients]
    dsimp only [Table.client]
    by_cases hj : i = j
    · subst hj
      rw [if_pos hlt, if_pos rfl, if_pos hlt, Vector.getElem?_set_self]
      rw [getElem?_clients, if_pos hlt, Table.client] at hi
      obtain ⟨fd, hfd, hc⟩ := Option.bind_eq_some_iff.mp hi
      obtain ⟨_, _, heq⟩ := Option.map_eq_some_iff.mp hc
      rw [hfd, ← (Prod.mk.inj heq).1]
      rfl
    · rw [if_neg hj, Vector.getElem?_set_ne _ hj]
  obtain ⟨l₁, l₂, hsplit, hlen, h1, h2⟩ := split_clients hnodup hi
  have hid {l : List (Int32 × Int32)} (h : ∀ x ∈ l, x.1 ≠ newFd) :
      l.map (fun c => if c.1 = newFd then (newFd, command) else c) = l :=
    (List.map_congr_left fun x hx => if_neg (h x hx)).trans (List.map_id' l)
  rw [hset, hsplit, ← hlen, List.set_append_right _ _ (Nat.le_refl _), Nat.sub_self,
    List.set_cons_zero, List.map_append, List.map_cons, if_pos rfl, hid h1, hid h2]

/-- The answer to a call. -/
structure Answered (t : Table) (call : Call) (ret : ℤ) (t' : Table) : Prop where
  clients : t'.clients = record t.clients call
  unknown : Unknown t.clients call → ret = -1 ∧ t' = t

theorem mem_fds_of_client {l : List (Int32 × Int32)} {i : ℕ} {newFd c : Int32}
    (hi : l[i]? = some (newFd, c)) : newFd ∈ l.map Prod.fst :=
  List.mem_map.mpr ⟨_, List.mem_of_getElem? hi, rfl⟩

/-- Where the search for a client ends, if the client or a free place is in the table. -/
theorem search_inTable {t : Table} {newFd : Int32}
    (h : newFd ∈ t.clients.map Prod.fst ∨ t.clients.length < MAX_OCC) :
    (∃ i c, search newFd t.vNewFd.toList t.occ = some i ∧ t.clients[i]? = some (newFd, c)) ∨
    (search newFd t.vNewFd.toList t.occ = some t.occ ∧ ∀ x ∈ t.clients, x.1 ≠ newFd) := by
  rcases @search_table t newFd with hfound | ⟨hnot, -, hs⟩ | ⟨hnot, hfull, -⟩
  · exact Or.inl hfound
  · refine Or.inr ⟨hs, fun x hx hfd => hnot ?_⟩
    rw [← map_fst_clients, ← hfd]
    exact List.mem_map_of_mem hx
  · rw [map_fst_clients, length_clients] at h
    rcases h with hmem | hroom
    · exact absurd hmem hnot
    · omega

/-- **A call in the table** is answered. -/
theorem apply_ok {t : Table} (hnodup : (t.clients.map Prod.fst).Nodup) {call : Call}
    (h : InTable t.clients call) : ∃ ret t', call.apply t = some (ret, t') ∧
      Answered t call ret t' := by
  cases call with
  | add newFd =>
    have hroom : t.clients.length < MAX_OCC := h
    rw [length_clients] at hroom
    obtain ⟨ret, t', hok, hclients⟩ := add_clients hroom newFd
    exact ⟨ret, t', hok, hclients, False.elim⟩
  | rem newFd =>
    rcases search_inTable h with ⟨i, c, hs, hi⟩ | ⟨hs, hother⟩
    · obtain ⟨ret, t', hok, hclients⟩ := rem_clients hnodup hs hi
      exact ⟨ret, t', hok, hclients, absurd (mem_fds_of_client hi)⟩
    · refine ⟨-1, t, ?_, ?_, fun _ => ⟨rfl, rfl⟩⟩
      · show t.rem newFd = _
        rw [Table.rem, hs, Option.bind_some, if_neg (Nat.lt_irrefl _)]
      · exact (List.filter_eq_self.mpr fun x hx => decide_eq_true (hother x hx)).symm
  | command newFd cmd =>
    rcases search_inTable h with ⟨i, c, hs, hi⟩ | ⟨hs, hother⟩
    · obtain ⟨ret, t', hok, hclients⟩ := command_clients hnodup hs hi cmd
      exact ⟨ret, t', hok, hclients, absurd (mem_fds_of_client hi)⟩
    · refine ⟨-1, t, ?_, ?_, fun _ => ⟨rfl, rfl⟩⟩
      · show t.command newFd cmd = _
        rw [Table.command, hs, Option.bind_some, if_neg (Nat.lt_irrefl _)]
      · exact ((List.map_congr_left fun x hx => if_neg (hother x hx)).trans
          (List.map_id' _)).symm

/-- A call that is not in the table leads out of the arrays. -/
theorem apply_none {t : Table} {call : Call} (h : ¬ InTable t.clients call) :
    call.apply t = none := by
  have hout {newFd : Int32} (hnot : ¬ (newFd ∈ t.clients.map Prod.fst ∨
      t.clients.length < MAX_OCC)) : search newFd t.vNewFd.toList t.occ = none := by
    rw [not_or, map_fst_clients, length_clients] at hnot
    rcases @search_table t newFd with ⟨i, c, -, hi⟩ | ⟨-, hroom, -⟩ | ⟨-, -, hs⟩
    · exact absurd (map_fst_clients t ▸ mem_fds_of_client hi) hnot.1
    · exact absurd hroom hnot.2
    · exact hs
  cases call with
  | add newFd =>
    have hfull : ¬ t.clients.length < MAX_OCC := h
    rw [length_clients] at hfull
    exact dif_neg hfull
  | rem newFd =>
    show t.rem newFd = none
    rw [Table.rem, hout h, Option.bind_none]
  | command newFd cmd =>
    show t.command newFd cmd = none
    rw [Table.command, hout h, Option.bind_none]

/-! ### Runs -/

/-- Connected clients have descriptors of their own. -/
theorem nodup_record {clients : List (Int32 × Int32)} (hnodup : (clients.map Prod.fst).Nodup)
    {call : Call} (h : Fresh clients call) : ((record clients call).map Prod.fst).Nodup := by
  cases call with
  | add newFd =>
    rw [record, List.map_append]
    refine List.nodup_append.mpr ⟨hnodup, List.nodup_singleton _, fun a ha b hb hab => h ?_⟩
    have hnew : b = newFd := List.mem_singleton.mp hb
    rwa [← hnew, ← hab]
  | rem newFd => exact hnodup.sublist (List.filter_sublist.map Prod.fst)
  | command newFd cmd =>
    have hsame : (record clients (.command newFd cmd)).map Prod.fst = clients.map Prod.fst := by
      rw [record, List.map_map]
      refine List.map_congr_left fun x _ => ?_
      rw [Function.comp_apply]
      split_ifs with hx
      · exact hx.symm
      · rfl
    rwa [hsame]

theorem nodup_connected {calls : List Call} (h : Along record Fresh [] calls) :
    ((connected calls).map Prod.fst).Nodup := by
  have hinv := foldl_inv (fun clients _ => (clients.map Prod.fst).Nodup)
    (fun _ _ _ hnodup hfresh => nodup_record hnodup hfresh) [] List.nodup_nil h
  exact hinv

theorem clients_emptyTable : emptyTable.clients = [] := List.take_zero

theorem connected_snoc (calls : List Call) (call : Call) :
    connected (calls ++ [call]) = record (connected calls) call := by
  unfold connected
  rw [List.foldl_append]
  rfl

theorem step_of_apply {t t' : Table} {call : Call} {ret : ℤ} (h : call.apply t = some (ret, t')) :
    step t call = .ok (t', [ret]) := by
  unfold step
  rw [h]

/-- One more call of a run. -/
theorem run_snoc {calls : List Call} {call : Call} {t t' : Table} {rets : List ℤ} {ret : ℤ}
    (hrun : run step emptyTable calls = .ok (t, rets)) (hstep : step t call = .ok (t', [ret])) :
    run step emptyTable (calls ++ [call]) = .ok (t', rets ++ [ret]) :=
  run_append.mpr ⟨t, rets, [ret], hrun, run_cons_eq_ok.mpr ⟨t', [ret], [], hstep, rfl, rfl⟩, rfl⟩

/-- **The run** of calls that are all in the table. -/
theorem run_connected {calls : List Call} (hfresh : Along record Fresh [] calls)
    (h : Along record InTable [] calls) :
    ∃ t rets, run step emptyTable calls = .ok (t, rets) ∧ t.clients = connected calls := by
  induction calls using List.reverseRecOn with
  | nil => exact ⟨emptyTable, [], rfl, clients_emptyTable⟩
  | append_singleton calls call ih =>
    obtain ⟨t, rets, hrun, hclients⟩ := ih hfresh.of_append h.of_append
    have hnodup := nodup_connected hfresh.of_append
    have hin : InTable (connected calls) call := h.last
    rw [← hclients] at hnodup hin
    obtain ⟨ret, t', happly, hanswered⟩ := apply_ok hnodup hin
    refine ⟨t', rets ++ [ret], run_snoc hrun (step_of_apply happly), ?_⟩
    rw [hanswered.clients, hclients, connected_snoc]

/-- **The table tracks the clients**: every call of the run stays in the arrays; after it the
clients in the table are the connected ones, and the call of a client that is not connected returns
-1 and changes nothing. -/
def Tracks (calls : List Call) : Prop :=
  ∀ done call rest, calls = done ++ call :: rest → ∃ t rets ret t',
    run step emptyTable done = .ok (t, rets) ∧ step t call = .ok (t', [ret]) ∧
    t'.clients = connected (done ++ [call]) ∧
    (Unknown (connected done) call → ret = -1 ∧ t' = t)

/-- The clients in the table of a run that tracks them. -/
theorem Tracks.clients {calls : List Call} (h : Tracks calls) {done : List Call} {call : Call}
    {rest : List Call} (heq : calls = done ++ call :: rest) {t : Table} {rets : List ℤ}
    (hrun : run step emptyTable done = .ok (t, rets)) : t.clients = connected done := by
  rcases List.eq_nil_or_concat done with rfl | ⟨done, last, rfl⟩
  · obtain rfl := (Prod.mk.inj (Except.ok.inj hrun)).1
    exact clients_emptyTable
  · rw [List.concat_eq_append] at heq hrun ⊢
    obtain ⟨t₀, rets₀, ret, t', hrun', hstep, hclients, -⟩ :=
      h done last (call :: rest) (by rw [heq, List.append_assoc, List.singleton_append])
    rw [run_snoc hrun' hstep] at hrun
    rw [← (Prod.mk.inj (Except.ok.inj hrun)).1, hclients]

/-- Every call of a run that is tracked is in the table. -/
theorem Tracks.inTable {calls : List Call} (h : Tracks calls) : Along record InTable [] calls := by
  intro done call rest heq
  obtain ⟨t, rets, ret, t', hrun, hstep, -, -⟩ := h done call rest heq
  by_contra hout
  have hout' : ¬ InTable (connected done) call := hout
  rw [← h.clients heq hrun] at hout'
  rw [step, apply_none hout'] at hstep
  exact absurd hstep (by simp)

/-- **The table of the clients.** In a run where simultaneously connected clients have different
descriptors, the table tracks the clients if and only if every call finds room for another client or
is one of a connected client. -/
theorem tracks_iff {calls : List Call} (hfresh : Along record Fresh [] calls) :
    Tracks calls ↔ Along record InTable [] calls := by
  refine ⟨Tracks.inTable, ?_⟩
  rintro h done call rest rfl
  have hsplit : done ++ call :: rest = (done ++ [call]) ++ rest := by simp
  rw [hsplit] at h hfresh
  have hin : InTable (connected done) call := h.of_append.last
  obtain ⟨t, rets, hrun, hclients⟩ :=
    run_connected hfresh.of_append.of_append h.of_append.of_append
  have hnodup := nodup_connected hfresh.of_append.of_append
  rw [← hclients] at hnodup hin
  obtain ⟨ret, t', happly, hanswered⟩ := apply_ok hnodup hin
  refine ⟨t, rets, ret, t', hrun, step_of_apply happly, ?_, ?_⟩
  · rw [hanswered.clients, hclients, connected_snoc]
  · rw [← hclients]
    exact hanswered.unknown

/-- Two clients come, the first one gives a command and goes. -/
theorem tracks_iff_two :
    Along record Fresh [] [.add 5, .add 6, .command 5 COMMAND_PRINT, .rem 5] ∧
    Tracks [.add 5, .add 6, .command 5 COMMAND_PRINT, .rem 5] := by
  have hfresh : Along record Fresh [] [.add 5, .add 6, .command 5 COMMAND_PRINT, .rem 5] := by
    simp only [along_cons, record, Fresh]
    exact ⟨by decide, by decide, trivial, trivial, along_nil _⟩
  have htable : Along record InTable [] [.add 5, .add 6, .command 5 COMMAND_PRINT, .rem 5] := by
    simp only [along_cons, record, InTable]
    exact ⟨by decide, by decide, by decide, by decide, along_nil _⟩
  exact ⟨hfresh, (tracks_iff hfresh).mpr htable⟩

theorem foldl_add (fds : List Int32) (clients : List (Int32 × Int32)) :
    (fds.map Call.add).foldl record clients = clients ++ fds.map fun fd => (fd, COMMAND_NULL) := by
  induction fds generalizing clients with
  | nil => simp
  | cons fd fds ih =>
    rw [List.map_cons, List.foldl_cons, ih, record, List.append_assoc]
    rfl

/-- Clients with different descriptors that all stay. -/
theorem fresh_add {fds : List Int32} (h : fds.Nodup) :
    Along record Fresh [] (fds.map Call.add) := by
  intro done call rest heq
  obtain ⟨fds₁, fds₂, rfl, rfl, hrest⟩ := List.map_eq_append_iff.mp heq
  obtain ⟨fd, fds₂, rfl, rfl, rfl⟩ := List.map_eq_cons_iff.mp hrest
  rw [foldl_add, List.nil_append]
  show fd ∉ (fds₁.map fun fd => (fd, COMMAND_NULL)).map Prod.fst
  intro hmem
  obtain ⟨c, hc, rfl⟩ := List.mem_map.mp hmem
  obtain ⟨fd', hfd, rfl⟩ := List.mem_map.mp hc
  exact (List.nodup_append.mp h).2.2 fd' hfd fd' (List.mem_cons_self ..) rfl

/-- One client more than there are places. -/
theorem tracks_overfull : ¬∀ calls : List Call, Along record Fresh [] calls → Tracks calls := by
  intro hclaim
  have hnodup : ((List.range (MAX_OCC + 1)).map Int32.ofNat).Nodup := by decide
  have hin := (hclaim _ (fresh_add hnodup)).inTable
  rw [List.range_succ, List.map_append, List.map_append] at hin
  have hlast := hin.last
  rw [foldl_add] at hlast
  have hlength : ([] ++ ((List.range MAX_OCC).map Int32.ofNat).map fun fd =>
      (fd, COMMAND_NULL)).length < MAX_OCC := hlast
  simp at hlength

end Nmxptool.Listen.Tracking
