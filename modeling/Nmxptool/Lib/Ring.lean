import Mathlib.Data.List.Rotate
import Mathlib.Data.List.Nodup

/-! # A ring of cells as a bounded queue

The first `used` cells of a list are in use, and the next one to write is `head`; once all cells are
in use, writing goes round and overwrites the oldest. Read from `head` on, the used cells are the
`content`, oldest first.

* `content_set_free`, `content_set_full`: writing at `head` is `push`ing to the content.
* `nodup_push`: pushing a new name keeps the names of a queue different. -/

namespace Nmxptool.Lib.Ring

variable {α β : Type}

/-- The used cells, oldest first. -/
def content (cells : List α) (used head : ℕ) : List α := (cells.take used).rotate head

/-- A queue of at most `cap` entries takes one more. -/
def push (cap : ℕ) (q : List α) (x : α) : List α := (if q.length < cap then q else q.tail) ++ [x]

theorem mem_content {cells : List α} {used head : ℕ} {x : α} :
    x ∈ content cells used head ↔ x ∈ cells.take used := List.mem_rotate

theorem length_content {cells : List α} {used head : ℕ} (h : used ≤ cells.length) :
    (content cells used head).length = used := by
  unfold content
  rw [List.length_rotate, List.length_take, min_eq_left h]

theorem nodup_map_content {cells : List α} {used head : ℕ} (f : α → β) :
    ((content cells used head).map f).Nodup ↔ ((cells.take used).map f).Nodup := by
  unfold content
  rw [List.map_rotate, List.nodup_rotate]

theorem rotate_all {l : List α} {n : ℕ} (h : l.length = n) : l.rotate n = l := by
  rw [← h]
  exact List.rotate_length l

/-- **Writing behind the used cells** while there are free ones. -/
theorem content_set_free {cells : List α} {used : ℕ} (h : used < cells.length) (x : α) :
    content (cells.set used x) (used + 1) (used + 1) = push cells.length
      (content cells used used) x := by
  have hlen : (cells.take used).length = used := by rw [List.length_take]; omega
  have hset : (cells.set used x).take (used + 1) = cells.take used ++ [x] := by
    rw [List.set_eq_take_append_cons_drop, if_pos h, List.take_append, List.take_take, hlen]
    simp
  unfold push
  rw [if_pos (by rw [length_content h.le]; exact h)]
  unfold content
  rw [hset, rotate_all hlen, rotate_all (by rw [List.length_append, hlen]; rfl)]

/-- **Writing over the oldest cell** once all are used. -/
theorem content_set_full {cells : List α} {at' : ℕ} (h : at' < cells.length) (x : α) :
    content (cells.set at' x) cells.length (at' + 1) = push cells.length
      (content cells cells.length at') x := by
  have htake : (cells.set at' x).take cells.length = cells.set at' x :=
    List.take_of_length_le (by rw [List.length_set])
  unfold push
  rw [if_neg (by rw [length_content le_rfl]; omega)]
  unfold content
  rw [htake, List.take_length, List.rotate_eq_drop_append_take (by rw [List.length_set]; omega),
    List.rotate_eq_drop_append_take h.le, List.set_eq_take_append_cons_drop, if_pos h]
  have hlen : (cells.take at').length = at' := by rw [List.length_take]; omega
  have hdrop : (cells.take at' ++ x :: cells.drop (at' + 1)).drop (at' + 1) =
      cells.drop (at' + 1) := by
    rw [List.drop_append, hlen, List.drop_of_length_le (by omega)]
    simp
  have htake' : (cells.take at' ++ x :: cells.drop (at' + 1)).take (at' + 1) =
      cells.take at' ++ [x] := by
    rw [List.take_append, hlen, List.take_of_length_le (by omega)]
    simp
  have hoff : cells.drop at' = cells[at'] :: cells.drop (at' + 1) := List.drop_eq_getElem_cons h
  rw [hdrop, htake', hoff, List.cons_append, List.tail_cons, List.append_assoc]

theorem mem_push {cap : ℕ} {q : List α} {x y : α} (h : y ∈ push cap q x) : y ∈ q ∨ y = x := by
  unfold push at h
  rcases List.mem_append.mp h with h | h
  · left
    split_ifs at h
    · exact h
    · exact List.mem_of_mem_tail h
  · exact Or.inr (List.mem_singleton.mp h)

/-- **Names stay different** when a new one is pushed. -/
theorem nodup_push {cap : ℕ} {q : List α} {x : α} {f : α → β} (hq : (q.map f).Nodup)
    (hx : ∀ y ∈ q, f y ≠ f x) : ((push cap q x).map f).Nodup := by
  have hsub : ∀ l : List α, l.Sublist q → ((l ++ [x]).map f).Nodup := by
    intro l hl
    rw [List.map_append, List.nodup_append]
    refine ⟨hq.sublist (hl.map f), List.nodup_singleton _, ?_⟩
    intro b hb b' hb' he
    obtain ⟨y, hy, rfl⟩ := List.mem_map.mp hb
    rw [List.map_singleton, List.mem_singleton] at hb'
    exact hx y (hl.subset hy) (he.trans hb')
  unfold push
  split_ifs
  · exact hsub q (List.Sublist.refl _)
  · exact hsub q.tail (List.tail_sublist q)

end Nmxptool.Lib.Ring
