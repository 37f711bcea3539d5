import Nmxptool.Lib.Run

/-! # The code of a thread

What one thread does with a shared state and with mutexes: `Code σ M ω α` returns a value, ends the
thread, waits for ever or faults. Besides the shared state it keeps which mutexes the thread holds,
and a trace of what it locked, unlocked and put out.

* `bind_ok`, `bind_error`: how two pieces of code compose.
* `Exits P x s`: from `s`, the code ends the thread in a state with `P`.
* `Puts Q x s`: from `s`, the code returns, and has only put out what `Q` admits. `Puts.bind` and
  `Puts.forM` are the rules for sequences and loops.
* `UnlocksHeld`: the thread unlocked a mutex only while it held it. -/

namespace Nmxptool.Lib.Thread

open Nmxptool.Lib.Run

variable {σ M ω α β : Type}

/-- What a thread does; for `pthread_mutex_unlock` also whether it held the mutex. -/
inductive Event (M ω : Type)
  | lock (m : M)
  | unlock (m : M) (held : Bool)
  | output (o : ω)

/-- The shared state, the mutexes that the thread holds, and what it did. -/
structure State (σ M ω : Type) where
  shared : σ
  held : M → Bool
  trace : List (Event M ω)

/-- How code ends without returning. -/
inductive Ending (σ M ω : Type)
  | exited (s : State σ M ω)
  | deadlock
  | fault

/-- **The code of a thread.** -/
abbrev Code (σ M ω α : Type) : Type := StateT (State σ M ω) (Except (Ending σ M ω)) α

/-- A thread that begins, and holds no mutex. -/
def start (shared : σ) : State σ M ω := ⟨shared, fun _ => false, []⟩

section Primitives
variable [DecidableEq M]

/-- The state with the mutex held. -/
def State.lock (s : State σ M ω) (m : M) : State σ M ω :=
  { s with
    held := Function.update s.held m true
    trace := s.trace ++ [.lock m] }

/-- The state with the mutex released. -/
def State.unlock (s : State σ M ω) (m : M) : State σ M ω :=
  { s with
    held := Function.update s.held m false
    trace := s.trace ++ [.unlock m (s.held m)] }

/-- `pthread_mutex_lock`, of a mutex that waits for ever if the thread holds it already. -/
def lock (m : M) : Code σ M ω Unit := fun s =>
  if s.held m then .error .deadlock else .ok ((), s.lock m)

/-- `pthread_mutex_unlock`. -/
def unlock (m : M) : Code σ M ω Unit := fun s => .ok ((), s.unlock m)

theorem lock_of_free {s : State σ M ω} {m : M} (h : s.held m = false) :
    (lock m : Code σ M ω Unit) s = .ok ((), s.lock m) := by
  simp [Thread.lock, h]

end Primitives

/-- `pthread_exit`. -/
def exit : Code σ M ω α := fun s => .error (.exited s)

def output (o : ω) : Code σ M ω Unit := fun s =>
  .ok ((), { s with trace := s.trace ++ [.output o] })

/-- The shared state. -/
def shared : Code σ M ω σ := fun s => .ok (s.shared, s)

/-- The shared state is changed. -/
def setShared (f : σ → σ) : Code σ M ω Unit := fun s => .ok ((), { s with shared := f s.shared })

/-- The shared state is read and changed. There is a fault where that leaves an array. -/
def access (f : σ → Option (α × σ)) : Code σ M ω α := fun s =>
  match f s.shared with
  | some (a, shared) => .ok (a, { s with shared := shared })
  | none => .error .fault

theorem access_of_eq {f : σ → Option (α × σ)} {s : State σ M ω} {a : α} {shared : σ}
    (h : f s.shared = some (a, shared)) :
    (access f : Code σ M ω α) s = .ok (a, { s with shared := shared }) := by
  unfold access
  rw [h]

/-! ### Composition -/

theorem bind_ok {x : Code σ M ω α} {f : α → Code σ M ω β} {s s' : State σ M ω} {a : α}
    (h : x s = .ok (a, s')) : (x >>= f) s = f a s' := by
  change (x s >>= fun r => f r.1 r.2) = _
  rw [h]
  rfl

theorem bind_error {x : Code σ M ω α} {f : α → Code σ M ω β} {s : State σ M ω}
    {e : Ending σ M ω} (h : x s = .error e) : (x >>= f) s = .error e := by
  change (x s >>= fun r => f r.1 r.2) = _
  rw [h]
  rfl

/-- What comes behind depends on the state and the value only. -/
theorem bind_congr_run {x y : Code σ M ω α} {s s' : State σ M ω} (h : x s = y s')
    (f : α → Code σ M ω β) : (x >>= f) s = (y >>= f) s' := by
  change (x s >>= fun r => f r.1 r.2) = (y s' >>= fun r => f r.1 r.2)
  rw [h]

/-- The state in which code returns or ends the thread. -/
def Final (r : Except (Ending σ M ω) (α × State σ M ω)) (s : State σ M ω) : Prop :=
  (∃ a, r = .ok (a, s)) ∨ r = .error (.exited s)

/-- **From `s`, the code ends the thread** in a state with `P`. -/
def Exits (P : State σ M ω → Prop) (x : Code σ M ω α) (s : State σ M ω) : Prop :=
  ∃ s', x s = .error (.exited s') ∧ P s'

theorem Exits.bind {P : State σ M ω → Prop} {x : Code σ M ω α} {s : State σ M ω}
    (h : Exits P x s) (f : α → Code σ M ω β) : Exits P (x >>= f) s := by
  obtain ⟨s', hx, hP⟩ := h
  exact ⟨s', bind_error hx, hP⟩

theorem Exits.of_ok {P : State σ M ω → Prop} {x : Code σ M ω α} {s s' : State σ M ω} {a : α}
    {f : α → Code σ M ω β} (hx : x s = .ok (a, s')) (h : Exits P (f a) s') :
    Exits P (x >>= f) s := by
  unfold Exits
  rw [bind_ok hx]
  exact h

theorem Exits.mono {P Q : State σ M ω → Prop} {x : Code σ M ω α} {s : State σ M ω}
    (h : Exits P x s) (hPQ : ∀ s', P s' → Q s') : Exits Q x s := by
  obtain ⟨s', hx, hP⟩ := h
  exact ⟨s', hx, hPQ s' hP⟩

/-- The state with more put out. -/
def State.puts (s : State σ M ω) (os : List ω) : State σ M ω :=
  { s with trace := s.trace ++ os.map .output }

@[simp] theorem State.shared_puts (s : State σ M ω) (os : List ω) :
    (s.puts os).shared = s.shared := rfl

@[simp] theorem State.held_puts (s : State σ M ω) (os : List ω) : (s.puts os).held = s.held := rfl

theorem State.puts_nil (s : State σ M ω) : s.puts [] = s := by simp [State.puts]

theorem State.puts_puts (s : State σ M ω) (os os' : List ω) :
    (s.puts os).puts os' = s.puts (os ++ os') := by simp [State.puts]

/-- **From `s`, the code returns, and does nothing but put out what `Q` admits.** -/
def Puts (Q : ω → Prop) (x : Code σ M ω Unit) (s : State σ M ω) : Prop :=
  ∃ os, (∀ o ∈ os, Q o) ∧ x s = .ok ((), s.puts os)

section Puts
variable {Q : ω → Prop} {x : Code σ M ω Unit} {s : State σ M ω}

theorem Puts.pure : Puts Q (pure ()) s := ⟨[], by simp, by rw [s.puts_nil]; rfl⟩

theorem Puts.output {o : ω} (h : Q o) : Puts Q (output o) s :=
  ⟨[o], by simpa using h, rfl⟩

theorem Puts.of_shared {f : σ → Code σ M ω Unit} (h : Puts Q (f s.shared) s) :
    Puts Q (shared >>= f) s := h

/-- **The rule for sequences.** -/
theorem Puts.bind {f : Unit → Code σ M ω Unit} (hx : Puts Q x s)
    (hf : ∀ os, Puts Q (f ()) (s.puts os)) : Puts Q (x >>= f) s := by
  obtain ⟨os, hos, hx⟩ := hx
  obtain ⟨os', hos', hf⟩ := hf os
  refine ⟨os ++ os', fun o ho => ?_, ?_⟩
  · exact (List.mem_append.mp ho).elim (hos o) (hos' o)
  · rw [bind_ok hx, hf, s.puts_puts]

/-- **The rule for loops over a list.** -/
theorem Puts.forM {ι : Type} {body : ι → Code σ M ω Unit} {is : List ι}
    (h : ∀ i ∈ is, ∀ os, Puts Q (body i) (s.puts os)) : Puts Q (is.forM body) s := by
  induction is generalizing s with
  | nil => exact Puts.pure
  | cons i is ih =>
    rw [List.forM_eq_forM, List.forM_cons]
    refine Puts.bind ?_ fun os => ih fun j hj os' => ?_
    · have := h i List.mem_cons_self []
      rwa [s.puts_nil] at this
    · rw [s.puts_puts]
      exact h j (List.mem_cons_of_mem _ hj) _

end Puts

/-! ### Unlocking -/

/-- **The thread unlocked the mutex only while it held it.** -/
def UnlocksHeld (m : M) (trace : List (Event M ω)) : Prop :=
  ∀ held, Event.unlock m held ∈ trace → held = true

end Nmxptool.Lib.Thread
