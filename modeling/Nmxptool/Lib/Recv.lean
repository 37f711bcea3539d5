import Mathlib.Data.PNat.Basic
import Mathlib.Data.Stream.Init
import Mathlib.Tactic.NormNum

/-! # Receiving from a connection

A connection holds what has been sent and not yet received, and a schedule: what each call of
`recv` will report. A call may give any positive number of the requested units, fail (a time-out is
one failure), or report the end of the stream.

* `Arrive n s s'`: by the schedule `s`, the next `n` units arrive before anything else is reported,
  and `s'` is the schedule that remains.
* `Interrupted n s c s'`: a time-out is reported after `c` of them.
* `arrive_or_interrupted`: without other failures, one of the two.
* `not_boundary`: behind a frame's first unit and before its last, no frame begins. -/

namespace Nmxptool.Lib.Recv

/-- What one call of `recv` reports. -/
inductive RecvEvent
  | chunk (n : ℕ+)
  | fail (errno : ℤ)
  | eof
  deriving DecidableEq

/-- The `errno` of a time-out. -/
def EWOULDBLOCK : ℤ := 11

/-- A connection. -/
structure Link (β : Type) where
  inbox : List β
  schedule : Stream' RecvEvent

/-- The result of `recv`: the return value, `errno`, and what was received. -/
structure Recvd (β : Type) where
  cc : ℤ
  errno : ℤ
  got : List β
  link : Link β

variable {β : Type}

/-- **`recv`** of at most `n` units. Where nothing is in flight, waiting for a chunk ends in a
time-out. -/
def recv (n : ℕ) (l : Link β) : Recvd β :=
  match l.schedule.head, l.inbox with
  | .chunk _, [] => ⟨-1, EWOULDBLOCK, [], ⟨[], l.schedule.tail⟩⟩
  | .chunk k, b :: bs =>
    let got := (b :: bs).take (min k n)
    ⟨got.length, 0, got, ⟨(b :: bs).drop (min k n), l.schedule.tail⟩⟩
  | .fail errno, inbox => ⟨-1, errno, [], ⟨inbox, l.schedule.tail⟩⟩
  | .eof, inbox => ⟨0, 0, [], ⟨inbox, l.schedule.tail⟩⟩

theorem recv_timeout {n : ℕ} {inbox : List β} {s : Stream' RecvEvent}
    (h : s.head = .fail EWOULDBLOCK) :
    recv n ⟨inbox, s⟩ = ⟨-1, EWOULDBLOCK, [], ⟨inbox, s.tail⟩⟩ := by
  unfold recv
  rw [h]

theorem recv_empty {n : ℕ} {s : Stream' RecvEvent} {k : ℕ+} (h : s.head = .chunk k) :
    recv n (⟨[], s⟩ : Link β) = ⟨-1, EWOULDBLOCK, [], ⟨[], s.tail⟩⟩ := by
  unfold recv
  rw [h]

/-- A chunk from units `a`, behind which there may be others. -/
theorem recv_chunk {a inbox : List β} {s : Stream' RecvEvent} {k : ℕ+} (h : s.head = .chunk k)
    (ha : a ≠ []) : recv a.length ⟨a ++ inbox, s⟩ =
      ⟨(a.take k).length, 0, a.take k, ⟨a.drop k ++ inbox, s.tail⟩⟩ := by
  unfold recv
  rw [h]
  obtain ⟨b, bs, rfl⟩ := List.exists_cons_of_ne_nil ha
  have htake : (b :: bs ++ inbox).take (min k (b :: bs).length) = (b :: bs).take k := by
    rw [List.take_append_of_le_length (min_le_right _ _), List.take_eq_take_min]
    simp
  have hdrop : (b :: bs ++ inbox).drop (min k (b :: bs).length) = (b :: bs).drop k ++ inbox := by
    rw [List.drop_append_of_le_length (min_le_right _ _)]
    rcases Nat.le_total k (b :: bs).length with hk | hk
    · rw [min_eq_left hk]
    · rw [min_eq_right hk, List.drop_length, List.drop_eq_nil_of_le hk]
  simp only [List.cons_append] at htake hdrop ⊢
  rw [htake, hdrop]

/-! ### Schedules -/

/-- **The next `n` units arrive.** -/
inductive Arrive : ℕ → Stream' RecvEvent → Stream' RecvEvent → Prop
  | done (s : Stream' RecvEvent) : Arrive 0 s s
  | chunk {n : ℕ} {s s' : Stream' RecvEvent} {k : ℕ+} (hn : 0 < n) (hk : s.head = .chunk k)
      (h : Arrive (n - k) s.tail s') : Arrive n s s'

/-- **A time-out** is reported after `c` of the next `n` units. -/
inductive Interrupted : ℕ → Stream' RecvEvent → ℕ → Stream' RecvEvent → Prop
  | now {n : ℕ} {s : Stream' RecvEvent} (hn : 0 < n) (hs : s.head = .fail EWOULDBLOCK) :
      Interrupted n s 0 s.tail
  | later {n c : ℕ} {s s' : Stream' RecvEvent} {k : ℕ+} (hk : s.head = .chunk k) (hn : k < n)
      (h : Interrupted (n - k) s.tail c s') : Interrupted n s (k + c) s'

theorem Interrupted.lt {n c : ℕ} {s s' : Stream' RecvEvent} (h : Interrupted n s c s') :
    c < n := by
  induction h with
  | now hn _ => exact hn
  | later _ hn _ ih => omega

/-- An interruption before anything arrived is the first event. -/
theorem Interrupted.head_of_zero {n c : ℕ} {s s' : Stream' RecvEvent} (h : Interrupted n s c s')
    (hc : c = 0) : s.head = .fail EWOULDBLOCK ∧ s' = s.tail := by
  cases h with
  | now _ hs => exact ⟨hs, rfl⟩
  | later hk hn h =>
    rename_i c' k
    have := k.pos
    omega

/-- Every call reports a chunk or a time-out. -/
def Quiet (s : Stream' RecvEvent) : Prop :=
  s.All fun e => e = .fail EWOULDBLOCK ∨ ∃ k, e = .chunk k

/-- Every call reports a chunk. -/
def Flowing (s : Stream' RecvEvent) : Prop := s.All fun e => ∃ k, e = .chunk k

theorem Quiet.tail {s : Stream' RecvEvent} (h : Quiet s) : Quiet s.tail := fun n => h (n + 1)

theorem Flowing.tail {s : Stream' RecvEvent} (h : Flowing s) : Flowing s.tail := fun n => h (n + 1)

theorem Arrive.quiet {n : ℕ} {s s' : Stream' RecvEvent} (h : Arrive n s s') (hs : Quiet s) :
    Quiet s' := by
  induction h with
  | done s => exact hs
  | chunk _ _ _ ih => exact ih hs.tail

theorem Interrupted.quiet {n c : ℕ} {s s' : Stream' RecvEvent} (h : Interrupted n s c s')
    (hs : Quiet s) : Quiet s' := by
  induction h with
  | now _ _ => exact hs.tail
  | later _ _ _ ih => exact ih hs.tail

/-- **By a quiet schedule the next units arrive, or a time-out comes first.** -/
theorem arrive_or_interrupted (n : ℕ) {s : Stream' RecvEvent} (hs : Quiet s) :
    (∃ s', Arrive n s s') ∨ ∃ c s', Interrupted n s c s' := by
  induction n using Nat.strong_induction_on generalizing s with
  | _ n ih =>
    rcases Nat.eq_zero_or_pos n with rfl | hn
    · exact Or.inl ⟨s, .done s⟩
    rcases hs 0 with h0 | ⟨k, h0⟩
    · exact Or.inr ⟨0, s.tail, .now hn h0⟩
    have hk := k.pos
    rcases ih (n - k) (by omega) hs.tail with ⟨s', h⟩ | ⟨c, s', h⟩
    · exact Or.inl ⟨s', .chunk hn h0 h⟩
    · have := h.lt
      exact Or.inr ⟨k + c, s', .later h0 (by omega) h⟩

/-- By a flowing schedule they arrive. -/
theorem Flowing.arrive (n : ℕ) {s : Stream' RecvEvent} (hs : Flowing s) :
    ∃ s', Arrive n s s' ∧ Flowing s' := by
  induction n using Nat.strong_induction_on generalizing s with
  | _ n ih =>
    rcases Nat.eq_zero_or_pos n with rfl | hn
    · exact ⟨s, .done s, hs⟩
    obtain ⟨k, h0⟩ := hs 0
    have hk := k.pos
    obtain ⟨s', h, hs'⟩ := ih (n - k) (by omega) hs.tail
    exact ⟨s', .chunk hn h0 h, hs'⟩

/-- The first `n` calls report chunks, which is enough for `n` units to arrive. What is reported
after them may be a failure or the end of the stream. -/
def FlowsFor (n : ℕ) (s : Stream' RecvEvent) : Prop := ∀ i < n, ∃ k, s.get i = .chunk k

theorem Flowing.flowsFor {s : Stream' RecvEvent} (hs : Flowing s) (n : ℕ) : FlowsFor n s :=
  fun i _ => hs i

/-- The next `n` of `n + m` units arrive, and the others after them. -/
theorem FlowsFor.arrive {m : ℕ} (n : ℕ) {s : Stream' RecvEvent} (hs : FlowsFor (n + m) s) :
    ∃ s', Arrive n s s' ∧ FlowsFor m s' := by
  induction n using Nat.strong_induction_on generalizing s with
  | _ n ih =>
    rcases Nat.eq_zero_or_pos n with rfl | hn
    · exact ⟨s, .done s, by rwa [Nat.zero_add] at hs⟩
    obtain ⟨k, h0⟩ := hs 0 (by omega)
    have hk := k.pos
    have htail : FlowsFor (n - k + m) s.tail := fun i hi => hs (i + 1) (by omega)
    obtain ⟨s', h, hs'⟩ := ih (n - k) (by omega) htail
    exact ⟨s', .chunk hn h0 h, hs'⟩

/-! ### Frames -/

variable {μ : Type} {enc : μ → List β}

/-- Behind a frame's first unit and before its last, no frame of the stream begins. -/
theorem not_boundary {m : μ} {ms rest before : List μ} {c : ℕ} (hms : before ++ rest = m :: ms)
    (hc0 : 0 < c) (hc : c < (enc m).length) :
    (enc m).drop c ++ ms.flatMap enc ≠ rest.flatMap enc := by
  intro h
  have hlen := congrArg List.length h
  simp only [List.length_append, List.length_drop] at hlen
  cases before with
  | nil =>
    rw [List.nil_append] at hms
    subst hms
    simp only [List.flatMap_cons, List.length_append] at hlen
    omega
  | cons b before =>
    rw [List.cons_append] at hms
    obtain ⟨rfl, rfl⟩ := List.cons.inj hms
    simp only [List.flatMap_append, List.length_append] at hlen
    omega

end Nmxptool.Lib.Recv
