import Mathlib.Data.List.Sort

/-! # The C library's `qsort`

`qsort` orders an array by a comparison function. The standard promises a rearrangement that is
sorted whenever the comparison is consistent on the elements of the array, and says nothing about
the order of elements that compare equal. A `Qsort` is any function that keeps this promise; results
stated for every `Qsort` hold of every C library. `insertion` is one of them. -/

namespace Nmxptool.Lib.Sorting

/-- The comparison orders the elements of `l`: its sign is antisymmetric and transitive. -/
structure Consistent {α : Type} (cmp : α → α → ℤ) (l : List α) : Prop where
  anti : ∀ a ∈ l, ∀ b ∈ l, 0 < cmp a b ↔ cmp b a < 0
  trans : ∀ a ∈ l, ∀ b ∈ l, ∀ c ∈ l, cmp a b ≤ 0 → cmp b c ≤ 0 → cmp a c ≤ 0

/-- **What every `qsort` does.** -/
structure Qsort where
  sort : {α : Type} → (α → α → ℤ) → List α → List α
  perm : ∀ {α : Type} (cmp : α → α → ℤ) (l : List α), (sort cmp l).Perm l
  sorted : ∀ {α : Type} (cmp : α → α → ℤ) (l : List α), Consistent cmp l →
    (sort cmp l).Pairwise fun a b => cmp a b ≤ 0

variable {α : Type} {cmp : α → α → ℤ} {l : List α}

theorem Consistent.total (h : Consistent cmp l) {a b : α} (ha : a ∈ l) (hb : b ∈ l) :
    cmp a b ≤ 0 ∨ cmp b a ≤ 0 := by
  rcases Int.lt_or_le 0 (cmp a b) with h1 | h1
  · exact Or.inr ((h.anti a ha b hb).mp h1).le
  · exact Or.inl h1

/-- Insertion sort by a consistent comparison sorts: on the elements of `l` the comparison is total
and transitive, so Mathlib's result applies to `l` as a list over its own elements. -/
theorem pairwise_insertionSort_of_consistent (h : Consistent cmp l) :
    (l.insertionSort fun a b => cmp a b ≤ 0).Pairwise fun a b => cmp a b ≤ 0 := by
  let r : {x // x ∈ l} → {x // x ∈ l} → Prop := fun a b => cmp a.1 b.1 ≤ 0
  have : DecidableRel r := fun a b => inferInstanceAs (Decidable (cmp a.1 b.1 ≤ 0))
  have : Std.Total r := ⟨fun a b => h.total a.2 b.2⟩
  have : IsTrans {x // x ∈ l} r := ⟨fun a b c => h.trans a.1 a.2 b.1 b.2 c.1 c.2⟩
  have hmap := List.map_insertionSort r (fun a b => cmp a b ≤ 0) Subtype.val l.attach
    (fun _ _ _ _ => Iff.rfl)
  rw [List.attach_map_subtype_val] at hmap
  rw [← hmap, List.pairwise_map]
  exact List.pairwise_insertionSort r l.attach

/-- Insertion sort keeps the promise. -/
def insertion : Qsort where
  sort cmp l := l.insertionSort fun a b => cmp a b ≤ 0
  perm _ l := List.perm_insertionSort _ l
  sorted _ _ h := pairwise_insertionSort_of_consistent h

end Nmxptool.Lib.Sorting
