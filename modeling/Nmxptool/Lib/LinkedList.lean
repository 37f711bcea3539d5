import Mathlib.Data.List.Nodup
import Mathlib.Data.List.Perm.Subperm
import Mathlib.Data.List.Range

/-! # Linked lists in memory

A memory is an array of cells, and a cell holds a value and the address of the next cell. A pointer
that leads through cells to NULL holds a list: `IsList`, with the addresses of the cells.

* `IsList.unique`, `IsList.nodup`, `IsList.length_le`: there is one such list, through different
  cells.
* `IsList.splice`: the cells in front of a changed part stay as they are.
* `IsList.push`, `IsList.insert`, `IsList.update`: a new cell in front of a list or behind one of
  its cells, and a new value in a cell. -/

namespace Nmxptool.Lib.LinkedList

variable {α : Type}

structure Cell (α : Type) where
  value : α
  next : Option ℕ

/-- Why a function on pointers has no result: it follows NULL, reads outside the memory, or
does not end. -/
inductive Fault
  | nullPointer
  | badPointer
  | endless
  deriving DecidableEq

/-- The cell at an address. -/
def load (heap : List (Cell α)) (a : ℕ) : Except Fault (Cell α) :=
  match heap[a]? with
  | some c => .ok c
  | none => .error .badPointer

/-- A cell is changed. -/
def modify (heap : List (Cell α)) (a : ℕ) (f : Cell α → Cell α) : Except Fault (List (Cell α)) := do
  let c ← load heap a
  return heap.set a (f c)

/-- **The list that a pointer holds**, with the addresses of its cells. -/
def IsList (heap : List (Cell α)) : Option ℕ → List (ℕ × α) → Prop
  | p, [] => p = none
  | p, (a, v) :: l => p = some a ∧ ∃ next, heap[a]? = some ⟨v, next⟩ ∧ IsList heap next l

variable {heap heap' : List (Cell α)} {p : Option ℕ} {l : List (ℕ × α)} {a b : ℕ} {v w : α}

theorem load_of_getElem? {c : Cell α} (h : heap[a]? = some c) : load heap a = .ok c := by
  unfold load
  rw [h]

theorem modify_of_getElem? {c : Cell α} (h : heap[a]? = some c) (f : Cell α → Cell α) :
    modify heap a f = .ok (heap.set a (f c)) := by
  unfold modify
  rw [load_of_getElem? h]
  rfl

/-- There is one list. -/
theorem IsList.unique {l' : List (ℕ × α)} (h : IsList heap p l) (h' : IsList heap p l') :
    l = l' := by
  induction l generalizing p l' with
  | nil =>
    cases l' with
    | nil => rfl
    | cons x l' => exact absurd (h.symm.trans h'.1) (by simp)
  | cons x l ih =>
    obtain ⟨hp, next, hcell, hrest⟩ := h
    cases l' with
    | nil => exact absurd (h'.symm.trans hp) (by simp)
    | cons y l' =>
      obtain ⟨hp', next', hcell', hrest'⟩ := h'
      have ha : x.1 = y.1 := Option.some.inj (hp.symm.trans hp')
      rw [ha, hcell', Option.some.injEq, Cell.mk.injEq] at hcell
      obtain ⟨hv, rfl⟩ := hcell
      rw [ih hrest hrest', Prod.ext ha hv.symm]

/-- The list from one of its cells on. -/
theorem IsList.suffix {l₁ l₂ : List (ℕ × α)} (h : IsList heap p (l₁ ++ l₂)) :
    ∃ q, IsList heap q l₂ := by
  induction l₁ generalizing p with
  | nil => exact ⟨p, h⟩
  | cons x l₁ ih =>
    obtain ⟨-, next, -, hrest⟩ := h
    exact ih hrest

/-- A list does not come back to a cell. -/
theorem IsList.nodup (h : IsList heap p l) : (l.map Prod.fst).Nodup := by
  induction l generalizing p with
  | nil => exact List.nodup_nil
  | cons x l ih =>
    have hrest := h.2.choose_spec.2
    rw [List.map_cons, List.nodup_cons]
    refine ⟨fun hmem => ?_, ih hrest⟩
    obtain ⟨y, hy, hxy⟩ := List.mem_map.mp hmem
    obtain ⟨l₁, l₂, rfl⟩ := List.append_of_mem hy
    -- the list from the second time on would be the list from the first time on
    obtain ⟨q, hq⟩ := hrest.suffix
    have hq' : q = p := hq.1.trans (by rw [h.1, hxy])
    have hsame := congrArg List.length (h.unique (hq' ▸ hq))
    rw [List.length_cons, List.length_append, List.length_cons] at hsame
    omega

/-- The cells of a list are in memory. -/
theorem IsList.getElem? (h : IsList heap p l) {x : ℕ × α} (hx : x ∈ l) :
    ∃ next, heap[x.1]? = some ⟨x.2, next⟩ := by
  induction l generalizing p with
  | nil => exact absurd hx (by simp)
  | cons y l ih =>
    obtain ⟨-, next, hcell, hrest⟩ := h
    rcases List.mem_cons.mp hx with rfl | hx
    · exact ⟨next, hcell⟩
    · exact ih hrest hx

theorem IsList.lt_length (h : IsList heap p l) {c : ℕ} (hc : c ∈ l.map Prod.fst) :
    c < heap.length := by
  obtain ⟨x, hx, rfl⟩ := List.mem_map.mp hc
  obtain ⟨next, hcell⟩ := h.getElem? hx
  exact (List.getElem?_eq_some_iff.mp hcell).1

/-- There are no more cells in a list than in memory. -/
theorem IsList.length_le (h : IsList heap p l) : l.length ≤ heap.length := by
  have hsub : l.map Prod.fst ⊆ List.range heap.length := fun c hc =>
    List.mem_range.mpr (h.lt_length hc)
  have hle := (h.nodup.subperm hsub).length_le
  rwa [List.length_map, List.length_range] at hle

/-- **The cells in front** of a changed part stay as they are. -/
theorem IsList.splice {l₁ l₂ l₂' : List (ℕ × α)} (h : IsList heap p (l₁ ++ l₂))
    (hsame : ∀ c ∈ l₁.map Prod.fst, heap'[c]? = heap[c]?)
    (hpart : ∀ q, IsList heap q l₂ → IsList heap' q l₂') : IsList heap' p (l₁ ++ l₂') := by
  induction l₁ generalizing p with
  | nil => exact hpart p h
  | cons x l₁ ih =>
    obtain ⟨hp, next, hcell, hrest⟩ := h
    rw [List.map_cons, List.forall_mem_cons] at hsame
    exact ⟨hp, next, by rw [hsame.1, hcell], ih hrest hsame.2⟩

/-- A list whose cells are left alone stays. -/
theorem IsList.frame (h : IsList heap p l) (hsame : ∀ c ∈ l.map Prod.fst, heap'[c]? = heap[c]?) :
    IsList heap' p l := by
  rw [← List.append_nil l] at h ⊢
  exact h.splice hsame fun q hq => hq

/-- **A cell in front** of a list. -/
theorem IsList.push (h : IsList heap p l) (hb : heap'[b]? = some ⟨w, p⟩)
    (hsame : ∀ c ∈ l.map Prod.fst, heap'[c]? = heap[c]?) : IsList heap' (some b) ((b, w) :: l) :=
  ⟨rfl, p, hb, h.frame hsame⟩

/-- The addresses around a cell are others. -/
theorem IsList.ne_of_mem {l₁ l₂ : List (ℕ × α)} (h : IsList heap p (l₁ ++ (a, v) :: l₂)) :
    a ∉ l₁.map Prod.fst ∧ a ∉ l₂.map Prod.fst := by
  have hnodup := h.nodup
  rw [List.map_append, List.map_cons, List.nodup_append] at hnodup
  obtain ⟨-, hsecond, hdisjoint⟩ := hnodup
  exact ⟨fun hmem => hdisjoint a hmem a (List.mem_cons_self ..) rfl,
    (List.nodup_cons.mp hsecond).1⟩

/-- **A cell behind** one of the list. -/
theorem IsList.insert {l₁ l₂ : List (ℕ × α)} (h : IsList heap p (l₁ ++ (a, v) :: l₂))
    {next : Option ℕ} (ha : heap[a]? = some ⟨v, next⟩) (ha' : heap'[a]? = some ⟨v, some b⟩)
    (hb : heap'[b]? = some ⟨w, next⟩)
    (hsame : ∀ c, c ≠ a → c ≠ b → heap'[c]? = heap[c]?)
    (hfresh : b ∉ (l₁ ++ (a, v) :: l₂).map Prod.fst) :
    IsList heap' p (l₁ ++ (a, v) :: (b, w) :: l₂) := by
  obtain ⟨hfirst, hsecond⟩ := h.ne_of_mem
  rw [List.map_append, List.map_cons, List.mem_append, List.mem_cons, not_or, not_or] at hfresh
  refine h.splice (fun c hc => hsame c ?_ ?_) fun q hq => ?_
  · rintro rfl
    exact hfirst hc
  · rintro rfl
    exact hfresh.1 hc
  · obtain ⟨hq, next', hcell, hrest⟩ := hq
    rw [ha, Option.some.injEq, Cell.mk.injEq] at hcell
    obtain ⟨-, rfl⟩ := hcell
    refine ⟨hq, some b, ha', hrest.push hb fun c hc => hsame c ?_ ?_⟩
    · rintro rfl
      exact hsecond hc
    · rintro rfl
      exact hfresh.2.2 hc

/-- **A value** in a cell of the list. -/
theorem IsList.update {l₁ l₂ : List (ℕ × α)} (h : IsList heap p (l₁ ++ (a, v) :: l₂))
    {next : Option ℕ} (ha : heap[a]? = some ⟨v, next⟩) :
    IsList (heap.set a ⟨w, next⟩) p (l₁ ++ (a, w) :: l₂) := by
  obtain ⟨hfirst, hsecond⟩ := h.ne_of_mem
  have hlt : a < heap.length := (List.getElem?_eq_some_iff.mp ha).1
  have hsame (c : ℕ) (hc : c ≠ a) : (heap.set a ⟨w, next⟩)[c]? = heap[c]? :=
    List.getElem?_set_ne (Ne.symm hc)
  refine h.splice (fun c hc => hsame c ?_) fun q hq => ?_
  · rintro rfl
    exact hfirst hc
  · obtain ⟨hq, next', hcell, hrest⟩ := hq
    rw [ha, Option.some.injEq, Cell.mk.injEq] at hcell
    obtain ⟨-, rfl⟩ := hcell
    refine ⟨hq, next, List.getElem?_set_self hlt, hrest.frame fun c hc => hsame c ?_⟩
    rintro rfl
    exact hsecond hc

end Nmxptool.Lib.LinkedList
