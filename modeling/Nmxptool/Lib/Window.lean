import Mathlib.Data.List.Basic
import Mathlib.Order.Lattice

/-! # Windows of a sorted list

Entries have keys in a linear order, and a window `(a, b)` picks out those with a key strictly
between `a` and `b`.

* `filter_eq_drop_take`: a filter that is decided by the position is a segment.
* `within_split`: a point inside a window splits it into what is below, at and above the point.
* `within_append_iff`: two windows that meet at a point give together what their union gives, iff
  no entry lies at the point. -/

namespace Nmxptool.Lib.Window

variable {α β τ : Type}

/-- The entries from position `k` on and before position `m`. -/
theorem filter_eq_drop_take {p : α → Bool} {l : List α} {k m : ℕ}
    (h : ∀ i x, l[i]? = some x → (p x = true ↔ k ≤ i ∧ i < m)) :
    l.filter p = (l.take m).drop k := by
  induction l generalizing k m with
  | nil => simp
  | cons x l ih =>
    have hx := h 0 x rfl
    have hrest : l.filter p = (l.take (m - 1)).drop (k - 1) := by
      refine ih fun i y hy => ?_
      rw [h (i + 1) y hy]
      omega
    cases m with
    | zero =>
      rw [List.filter_cons_of_neg (by rw [hx]; omega), hrest]
      simp
    | succ m =>
      cases k with
      | zero => rw [List.filter_cons_of_pos (hx.mpr (by omega)), hrest]; rfl
      | succ k => rw [List.filter_cons_of_neg (by rw [hx]; omega), hrest]; rfl

variable [LinearOrder τ] (key : α → τ)

/-- **The window.** -/
def within (a b : τ) (l : List α) : List α := l.filter fun x => a < key x ∧ key x < b

/-- The entries at a point. -/
def atPoint (b : τ) (l : List α) : List α := l.filter fun x => key x = b

variable {key} {a b c : τ} {l : List α}

theorem within_cons_of_pos {x : α} (h : a < key x ∧ key x < b) :
    within key a b (x :: l) = x :: within key a b l :=
  List.filter_cons_of_pos (decide_eq_true h)

theorem within_cons_of_neg {x : α} (h : ¬ (a < key x ∧ key x < b)) :
    within key a b (x :: l) = within key a b l :=
  List.filter_cons_of_neg fun hx => h (of_decide_eq_true hx)

theorem atPoint_cons_of_pos {x : α} (h : key x = b) :
    atPoint key b (x :: l) = x :: atPoint key b l :=
  List.filter_cons_of_pos (decide_eq_true h)

theorem atPoint_cons_of_neg {x : α} (h : key x ≠ b) :
    atPoint key b (x :: l) = atPoint key b l :=
  List.filter_cons_of_neg fun hx => h (of_decide_eq_true hx)

theorem atPoint_eq_nil_iff : atPoint key b l = [] ↔ ∀ x ∈ l, key x ≠ b := by
  simp [atPoint, List.filter_eq_nil_iff]

/-- A window below all keys is empty. -/
theorem within_eq_nil (h : ∀ x ∈ l, b ≤ key x) : within key a b l = [] :=
  List.filter_eq_nil_iff.mpr fun x hx hp =>
    absurd (of_decide_eq_true hp).2 (not_lt.mpr (h x hx))

/-- **A point of a window splits it.** -/
theorem within_split (hab : a < b) (hbc : b < c) (h : l.Pairwise fun x y => key x ≤ key y) :
    within key a c l = within key a b l ++ (atPoint key b l ++ within key b c l) := by
  induction l with
  | nil => rfl
  | cons x l ih =>
    obtain ⟨hx, hl⟩ := List.pairwise_cons.mp h
    have hrest := ih hl
    rcases lt_trichotomy (key x) b with hlt | heq | hgt
    · -- below the point
      rw [atPoint_cons_of_neg hlt.ne, within_cons_of_neg fun hw => hw.1.not_gt hlt]
      by_cases ha : a < key x
      · rw [within_cons_of_pos ⟨ha, hlt.trans hbc⟩, within_cons_of_pos ⟨ha, hlt⟩, hrest,
          List.cons_append]
      · rw [within_cons_of_neg fun hw => ha hw.1, within_cons_of_neg fun hw => ha hw.1, hrest]
    · -- at the point: nothing behind it is below
      have hnil : within key a b l = [] := within_eq_nil fun y hy => heq.symm.le.trans (hx y hy)
      rw [hnil, List.nil_append] at hrest
      rw [within_cons_of_pos (by rw [heq]; exact ⟨hab, hbc⟩),
        within_cons_of_neg fun hw => hw.2.ne heq, hnil, List.nil_append, atPoint_cons_of_pos heq,
        within_cons_of_neg fun hw => hw.1.ne' heq, hrest, List.cons_append]
    · -- above the point: nothing behind it is below or at it
      have hnil : within key a b l = [] := within_eq_nil fun y hy => hgt.le.trans (hx y hy)
      have hat : atPoint key b l = [] :=
        atPoint_eq_nil_iff.mpr fun y hy => (hgt.trans_le (hx y hy)).ne'
      rw [hnil, hat, List.nil_append, List.nil_append] at hrest
      rw [within_cons_of_neg fun hw => hw.2.not_gt hgt, hnil, List.nil_append,
        atPoint_cons_of_neg hgt.ne', hat, List.nil_append]
      by_cases hc : key x < c
      · rw [within_cons_of_pos ⟨hab.trans hgt, hc⟩, within_cons_of_pos ⟨hgt, hc⟩, hrest]
      · rw [within_cons_of_neg fun hw => hc hw.2, within_cons_of_neg fun hw => hc hw.2, hrest]

/-- **Adjacent windows** repeat nothing, and lose just what lies at the point where they meet. -/
theorem within_append_iff (f : α → β) (hab : a < b) (hbc : b < c)
    (h : l.Pairwise fun x y => key x ≤ key y) :
    (within key a b l).map f ++ (within key b c l).map f = (within key a c l).map f ↔
      ∀ x ∈ l, key x ≠ b := by
  rw [within_split hab hbc h, List.map_append, List.map_append]
  rw [← atPoint_eq_nil_iff]
  constructor
  · intro he
    have hlen := congrArg List.length he
    simp only [List.length_append, List.length_map] at hlen
    exact List.eq_nil_of_length_eq_zero (by omega)
  · intro he
    rw [he]
    rfl

end Nmxptool.Lib.Window
