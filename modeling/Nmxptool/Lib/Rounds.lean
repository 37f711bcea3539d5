import Mathlib.Data.List.Chain

/-! # Loops round by round

A loop that may go on for ever is a step `σ → Option (ω × σ)`: it ends, or gives the record of a
round and the next state. `rounds step k s` are the records of its first `k` rounds.

* `forall_rounds`: what an invariant gives for one round holds of every round.
* `isChain_rounds`: what it gives for two rounds that follow one another holds of all neighbours.
* `length_rounds`: if it keeps the loop going, no round is missing. -/

namespace Nmxptool.Lib.Rounds

variable {σ ω : Type}

/-- **The first `k` rounds** of a loop. -/
def rounds (step : σ → Option (ω × σ)) : ℕ → σ → List ω
  | 0, _ => []
  | k + 1, s =>
    match step s with
    | some (o, s') => o :: rounds step k s'
    | none => []

variable {step : σ → Option (ω × σ)}

theorem rounds_succ_of_some {k : ℕ} {s s' : σ} {o : ω} (h : step s = some (o, s')) :
    rounds step (k + 1) s = o :: rounds step k s' := by
  rw [rounds, h]

theorem rounds_succ_of_none {k : ℕ} {s : σ} (h : step s = none) : rounds step (k + 1) s = [] := by
  rw [rounds, h]

/-- The first round is a step from the initial state. -/
theorem step_of_head {k : ℕ} {s : σ} {o : ω} (h : o ∈ (rounds step k s).head?) :
    ∃ s', step s = some (o, s') := by
  cases k with
  | zero => exact absurd h (by simp [rounds])
  | succ k =>
    cases hs : step s with
    | none => exact absurd h (by simp [rounds_succ_of_none hs])
    | some r =>
      rw [rounds_succ_of_some hs] at h
      obtain rfl : r.1 = o := by simpa using h
      exact ⟨r.2, rfl⟩

/-- The loop goes on for ever. -/
def Lasts (step : σ → Option (ω × σ)) (s : σ) : Prop := ∀ k, (rounds step k s).length = k

theorem lasts_iff {s : σ} : Lasts step s ↔ ∃ o s', step s = some (o, s') ∧ Lasts step s' := by
  constructor
  · intro h
    cases hs : step s with
    | none => exact absurd (h 1) (by simp [rounds_succ_of_none hs])
    | some r =>
      refine ⟨r.1, r.2, rfl, fun k => ?_⟩
      have := h (k + 1)
      rw [rounds_succ_of_some hs] at this
      exact Nat.succ.inj this
  · rintro ⟨o, s', hs, h⟩ k
    cases k with
    | zero => rfl
    | succ k => rw [rounds_succ_of_some hs, List.length_cons, h k]

section Invariants

variable (I : σ → Prop) (hkeep : ∀ s o s', I s → step s = some (o, s') → I s')
include hkeep

/-- **What holds of each round.** -/
theorem forall_rounds {P : ω → Prop} (hP : ∀ s o s', I s → step s = some (o, s') → P o) {s : σ}
    (hs : I s) (k : ℕ) : ∀ o ∈ rounds step k s, P o := by
  induction k generalizing s with
  | zero => exact fun o ho => absurd ho List.not_mem_nil
  | succ k ih =>
    cases h : step s with
    | none => exact fun o ho => absurd ho (by simp [rounds_succ_of_none h])
    | some r =>
      rw [rounds_succ_of_some h]
      rintro o ho
      rcases List.mem_cons.mp ho with rfl | ho
      · exact hP s _ _ hs h
      · exact ih (hkeep s _ _ hs h) o ho

/-- **What holds of neighbouring rounds.** -/
theorem isChain_rounds {R : ω → ω → Prop}
    (hR : ∀ s o s' o' s'', I s → step s = some (o, s') → step s' = some (o', s'') → R o o')
    {s : σ} (hs : I s) (k : ℕ) : (rounds step k s).IsChain R := by
  induction k generalizing s with
  | zero => exact List.isChain_nil
  | succ k ih =>
    cases h : step s with
    | none =>
      rw [rounds_succ_of_none h]
      exact List.isChain_nil
    | some r =>
      rw [rounds_succ_of_some h, List.isChain_cons]
      refine ⟨fun o' ho' => ?_, ih (hkeep s _ _ hs h)⟩
      obtain ⟨s'', h'⟩ := step_of_head ho'
      exact hR s _ _ _ _ hs h h'

/-- **No round is missing** while the invariant keeps the loop going. -/
theorem length_rounds (hgo : ∀ s, I s → step s ≠ none) {s : σ} (hs : I s) (k : ℕ) :
    (rounds step k s).length = k := by
  induction k generalizing s with
  | zero => rfl
  | succ k ih =>
    cases h : step s with
    | none => exact absurd h (hgo s hs)
    | some r => rw [rounds_succ_of_some h, List.length_cons, ih (hkeep s _ _ hs h)]

end Invariants

end Nmxptool.Lib.Rounds
