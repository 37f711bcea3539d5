import Mathlib.Data.List.Sort
import Mathlib.Tactic.Ring

/-! # Draining a sorted list of numbered items

Items carry an integer number `num`. A resequencing buffer remembers the number it delivered last
and keeps the items it cannot deliver yet. `drain last l` walks the sorted list `l`: an item whose
number is not above the last one is stale, the item with the next number is sent, and the walk stops
at the first item that leaves a gap.

* `drain_ok`: the sent numbers are exactly the integers after `last` up to the new last number; what
  is left over starts at least two above it; nothing is lost or doubled.
* `rest_eq_nil_iff`: nothing is left over exactly when no two neighbours, and not `last` and the
  first item, are more than one apart.
* `stale_eq_nil`: no item of a strictly sorted list above `last` is stale. -/

namespace Nmxptool.Lib.Drain

variable {α : Type}

/-- What a walk leaves: the last number sent, the items sent, the stale items, the items left. -/
structure Drained (α : Type) where
  last : ℤ
  sent : List α
  stale : List α
  rest : List α

variable (num : α → ℤ)

/-- **The walk.** -/
def drain : ℤ → List α → Drained α
  | last, [] => ⟨last, [], [], []⟩
  | last, x :: xs =>
    if num x ≤ last then
      let d := drain last xs
      { d with stale := x :: d.stale }
    else if num x = last + 1 then
      let d := drain (num x) xs
      { d with sent := x :: d.sent }
    else ⟨last, [], [], x :: xs⟩

/-- The integers after `a`, up to `b`. -/
def after (a b : ℤ) : List ℤ := (List.range (b - a).toNat).map fun i : ℕ => a + 1 + (i : ℤ)

theorem after_self (a : ℤ) : after a a = [] := by simp [after]

theorem mem_after {a b v : ℤ} : v ∈ after a b ↔ a < v ∧ v ≤ b := by
  simp only [after, List.mem_map, List.mem_range]
  constructor
  · rintro ⟨i, hi, rfl⟩; omega
  · rintro ⟨h1, h2⟩; exact ⟨(v - a - 1).toNat, by omega, by omega⟩

theorem after_cons {a b : ℤ} (h : a < b) : after a b = (a + 1) :: after (a + 1) b := by
  have hn : (b - a).toNat = (b - (a + 1)).toNat + 1 := by omega
  simp only [after]
  rw [hn, List.range_succ_eq_map, List.map_cons, List.map_map]
  congr 1
  · simp
  · exact List.map_congr_left fun i _ => by simp only [Function.comp_apply]; push_cast; ring

theorem after_append {a b c : ℤ} (h1 : a ≤ b) (h2 : b ≤ c) :
    after a b ++ after b c = after a c := by
  obtain ⟨n, rfl⟩ : ∃ n : ℕ, b = a + n := ⟨(b - a).toNat, by omega⟩
  induction n generalizing a with
  | zero => simp [after_self]
  | succ n ih =>
    have hb : a + ((n + 1 : ℕ) : ℤ) = a + 1 + n := by push_cast; ring
    rw [hb] at h2 ⊢
    rw [after_cons (show a < a + 1 + n by omega), after_cons (show a < c by omega),
      List.cons_append, ih (by omega) h2]

theorem pairwise_after (a b : ℤ) : (after a b).Pairwise (· < ·) := by
  simp only [after, List.pairwise_map]
  exact List.pairwise_lt_range.imp fun h => by omega

/-- What a walk over `l` from `last` promises. -/
structure DrainOK (last : ℤ) (l : List α) (d : Drained α) : Prop where
  le : last ≤ d.last
  sent_num : d.sent.map num = after last d.last
  stale_le : ∀ x ∈ d.stale, num x ≤ d.last
  rest_gap : ∀ x ∈ d.rest, d.last + 2 ≤ num x
  split : ∃ h, l = h ++ d.rest ∧ h.length = d.sent.length + d.stale.length ∧
    h.Perm (d.sent ++ d.stale)

theorem drain_ok : ∀ (last : ℤ) (l : List α), l.Pairwise (num · ≤ num ·) →
    DrainOK num last l (drain num last l)
  | last, [], _ => ⟨le_rfl, by simp [drain, after_self], by simp [drain], by simp [drain],
      [], by simp [drain]⟩
  | last, x :: xs, hs => by
    obtain ⟨hx, hxs⟩ := List.pairwise_cons.mp hs
    unfold drain
    split_ifs with h1 h2
    · -- a stale item
      obtain ⟨hle, hnum, hst, hgap, h, hl, hlen, hp⟩ := drain_ok last xs hxs
      refine ⟨hle, hnum, ?_, hgap, x :: h, by rw [List.cons_append, ← hl], by simp; omega, ?_⟩
      · intro y hy
        rcases List.mem_cons.mp hy with rfl | hy
        · exact h1.trans hle
        · exact hst y hy
      · exact (hp.cons x).trans List.perm_middle.symm
    · -- the next item
      obtain ⟨hle, hnum, hst, hgap, h, hl, hlen, hp⟩ := drain_ok (num x) xs hxs
      refine ⟨by dsimp only; omega, ?_, hst, hgap, x :: h, by rw [List.cons_append, ← hl],
        by simp; omega, hp.cons x⟩
      simp only [List.map_cons, hnum]
      rw [h2, after_cons (show last < (drain num (last + 1) xs).last by rw [← h2]; omega)]
    · -- a gap
      refine ⟨le_rfl, by simp [after_self], by simp, ?_, [], by simp⟩
      intro y hy
      rcases List.mem_cons.mp hy with rfl | hy
      · dsimp only; omega
      · have := hx y hy; dsimp only; omega

namespace DrainOK

variable {num} {last : ℤ} {l : List α} {d : Drained α}

/-- Nothing is lost or doubled. -/
theorem perm (h : DrainOK num last l d) : l.Perm (d.sent ++ d.stale ++ d.rest) := by
  obtain ⟨p, hl, -, hp⟩ := h.split
  rw [hl]; exact hp.append_right _

theorem length_le (h : DrainOK num last l d) : d.rest.length ≤ l.length := by
  obtain ⟨p, hl, -, -⟩ := h.split
  rw [hl]; simp

theorem sorted_rest (h : DrainOK num last l d) (hs : l.Pairwise (num · ≤ num ·)) :
    d.rest.Pairwise (num · ≤ num ·) := by
  obtain ⟨p, hl, -, -⟩ := h.split
  rw [hl] at hs; exact (List.pairwise_append.mp hs).2.1

/-- A number above `last` was either sent or is still waited for. -/
theorem sent_or_rest (h : DrainOK num last l d) {x : α} (hx : x ∈ l) (hn : last < num x) :
    num x ∈ d.sent.map num ∨ x ∈ d.rest := by
  rcases List.mem_append.mp (h.perm.mem_iff.mp hx) with hx | hx
  · left
    rw [h.sent_num, mem_after]
    refine ⟨hn, ?_⟩
    rcases List.mem_append.mp hx with hx | hx
    · have := List.mem_map_of_mem (f := num) hx
      rw [h.sent_num, mem_after] at this
      exact this.2
    · exact h.stale_le x hx
  · exact Or.inr hx

end DrainOK

/-! ### When nothing is left over -/

/-- No gap after `last`: each number is at most one above the one before. -/
def NoGap : ℤ → List α → Prop
  | _, [] => True
  | last, x :: xs => num x ≤ last + 1 ∧ NoGap (num x) xs

instance decidableNoGap : ∀ (last : ℤ) (l : List α), Decidable (NoGap num last l)
  | _, [] => inferInstanceAs (Decidable True)
  | last, x :: xs =>
    have := decidableNoGap (num x) xs
    inferInstanceAs (Decidable (num x ≤ last + 1 ∧ NoGap num (num x) xs))

/-- **Nothing is left over exactly when there is no gap.** -/
theorem rest_eq_nil_iff : ∀ (last : ℤ) (l : List α), l.Pairwise (num · ≤ num ·) →
    (∀ x ∈ l, last ≤ num x) → ((drain num last l).rest = [] ↔ NoGap num last l)
  | last, [], _, _ => by simp [drain, NoGap]
  | last, x :: xs, hs, hge => by
    obtain ⟨hx, hxs⟩ := List.pairwise_cons.mp hs
    have hlx := hge x (by simp)
    unfold drain NoGap
    split_ifs with h1 h2
    · have hxl : num x = last := by omega
      rw [hxl]
      simp only [show last ≤ last + 1 by omega, true_and]
      exact rest_eq_nil_iff last xs hxs fun y hy => hxl ▸ hx y hy
    · simp only [h2.le, true_and]
      exact rest_eq_nil_iff (num x) xs hxs hx
    · simp only [false_iff, not_and]
      intro h; omega

theorem noGap_congr : ∀ {last : ℤ} {l m : List α}, l.map num = m.map num →
    (NoGap num last l ↔ NoGap num last m)
  | _, [], [], _ => Iff.rfl
  | _, [], _ :: _, h | _, _ :: _, [], h => by simp at h
  | _, x :: xs, y :: ys, h => by
    simp only [List.map_cons, List.cons.injEq] at h
    obtain ⟨hxy, h⟩ := h
    unfold NoGap
    rw [hxy, noGap_congr h]

theorem stale_eq_nil : ∀ (last : ℤ) (l : List α), l.Pairwise (num · < num ·) →
    (∀ x ∈ l, last < num x) → (drain num last l).stale = []
  | _, [], _, _ => rfl
  | last, x :: xs, hs, hlt => by
    obtain ⟨hx, hxs⟩ := List.pairwise_cons.mp hs
    have := hlt x (List.mem_cons_self ..)
    unfold drain
    split_ifs with h1 h2
    · omega
    · exact stale_eq_nil (num x) xs hxs hx
    · rfl

/-- Two sorted arrangements of the same items show the same numbers. -/
theorem map_num_eq_of_perm {l m : List α} (hp : l.Perm m) (hl : l.Pairwise (num · ≤ num ·))
    (hm : m.Pairwise (num · ≤ num ·)) : l.map num = m.map num :=
  List.Perm.eq_of_pairwise (fun _ _ _ _ => le_antisymm) (List.pairwise_map.mpr hl)
    (List.pairwise_map.mpr hm) (hp.map num)

end Nmxptool.Lib.Drain
