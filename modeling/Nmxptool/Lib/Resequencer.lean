import Nmxptool.Lib.Drain

/-! # A resequencing buffer

The buffer keeps the number delivered last and, sorted, the items that wait for a gap to close.
A step takes an item, or none to ask for a flush. It may be forced to deliver its first item
whatever the number; then it files the new item and walks over the sorted result. After a flush
request the walk starts just before the first item, so that the gap in front of it is given up.

* `Step.ok`: the buffer stays sorted, with a gap in front of its first item.
* `Step.perm`: what came in is what was delivered, plus what was found stale, plus what waits.
* `Step.sent_mem`, `Step.last_le`: delivered numbers lie after the old last number, up to the new.
* `Step.increasing`: they increase, unless a forced flush meets the same number twice.
* `Step.filler_iff`: when an item above the last number survives a step.
* `Step.empties_iff`: when a flush empties the buffer. -/

namespace Nmxptool.Lib.Resequencer

open Nmxptool.Lib.Drain

variable {α : Type}

/-- The number delivered last, and the waiting items. -/
structure Buf (α : Type) where
  last : ℤ
  items : List α

variable (num : α → ℤ)

/-- The items are sorted, and the first is not the next one. -/
structure Buf.OK (b : Buf α) : Prop where
  sorted : b.items.Pairwise (num · ≤ num ·)
  gap : ∀ x ∈ b.items, b.last + 2 ≤ num x

/-- Where the walk over `s` starts. -/
def startAt : Option α → ℤ → List α → ℤ
  | none, _, x :: _ => num x - 1
  | _, last, _ => last

/-- The walk at the end of a step. -/
def settle (a : Option α) (last : ℤ) (s : List α) : Drained α :=
  drain num (startAt num a last s) s

/-- **A step.** The order that sorting gives to items of one number is left open. -/
inductive Step (force : Prop) (a : Option α) : Buf α → Buf α → List α → List α → Prop
  | keep {last : ℤ} {items s : List α} (hf : force → items = []) (hp : s.Perm (a.toList ++ items))
      (hs : s.Pairwise (num · ≤ num ·)) : Step force a ⟨last, items⟩
        ⟨(settle num a last s).last, (settle num a last s).rest⟩
        (settle num a last s).sent (settle num a last s).stale
  | forced {last : ℤ} {x : α} {xs s : List α} (hf : force) (hp : s.Perm (a.toList ++ xs))
      (hs : s.Pairwise (num · ≤ num ·)) : Step force a ⟨last, x :: xs⟩
        ⟨(settle num a (num x) s).last, (settle num a (num x) s).rest⟩
        (x :: (settle num a (num x) s).sent) (settle num a (num x) s).stale

/-- What a step delivers before it files its item, and what it leaves. -/
inductive Front (force : Prop) : Buf α → List α → Buf α → Prop
  | keep {b : Buf α} (hf : force → b.items = []) : Front force b [] b
  | forced {last : ℤ} {x : α} {xs : List α} (hf : force) :
      Front force ⟨last, x :: xs⟩ [x] ⟨num x, xs⟩

/-- A forced flush of a buffer that holds its first number twice. -/
def Doubled (force : Prop) (a : Option α) (items : List α) : Prop :=
  force ∧ a = none ∧ ∃ x y ys, items = x :: y :: ys ∧ num x = num y

/-- The buffer is forced to deliver a first item with a number above that of `x`. -/
def Overtaken (force : Prop) (x : α) (items : List α) : Prop :=
  force ∧ ∃ y ys, items = y :: ys ∧ num x < num y

/-- The numbers of the items leave no gap. -/
def Contiguous : List α → Prop
  | [] => True
  | x :: xs => NoGap num (num x) xs

/-- No gap among the items that the walk of a flush covers: all of them, or all but the first. -/
def Flushable (force : Prop) (items : List α) : Prop :=
  (¬ force → Contiguous num items) ∧ (force → Contiguous num items.tail)

/-! ### The walk at the end of a step -/

section settle

variable {num} {a : Option α} {last : ℤ} {s : List α}

theorem startAt_some (x : α) : startAt num (some x) last s = last := by simp [startAt]

theorem settle_ok (a : Option α) (last : ℤ) (hs : s.Pairwise (num · ≤ num ·)) :
    DrainOK num (startAt num a last s) s (settle num a last s) := drain_ok num _ s hs

/-- Not below `last`, if no item is. -/
theorem pred_le_startAt {b : ℤ} (hb : b ≤ last) (h : ∀ x ∈ s, b < num x) :
    b ≤ startAt num a last s := by
  unfold startAt
  split
  · have := h _ (List.mem_cons_self ..); omega
  · exact hb

/-- The walk of a flush delivers at least its first item. -/
theorem first_le_settle {y : α} {ys : List α} (hs : (y :: ys).Pairwise (num · ≤ num ·)) :
    num y ≤ (settle num none last (y :: ys)).last := by
  have h := settle_ok none last hs
  by_contra hlt
  rcases List.mem_append.mp (h.perm.mem_iff.mp (List.mem_cons_self ..)) with hy | hy
  · rcases List.mem_append.mp hy with hy | hy
    · have := List.mem_map_of_mem (f := num) hy
      rw [h.sent_num, mem_after] at this
      exact hlt this.2
    · exact hlt (h.stale_le y hy)
  · have := h.rest_gap y hy
    have := h.le
    simp only [startAt] at this
    omega

theorem le_settle {b : ℤ} (hs : s.Pairwise (num · ≤ num ·)) (hb : b ≤ last)
    (h : ∀ x ∈ s, b ≤ num x) : b ≤ (settle num a last s).last := by
  rcases a with _ | a
  · rcases s with _ | ⟨y, ys⟩
    · exact hb.trans (settle_ok none last hs).le
    · exact (h y (List.mem_cons_self ..)).trans (first_le_settle hs)
  · exact hb.trans ((startAt_some a).symm.le.trans (settle_ok (some a) last hs).le)

theorem contiguous_congr {t : List α} (h : s.map num = t.map num) :
    Contiguous num s ↔ Contiguous num t := by
  rcases s with _ | ⟨x, xs⟩ <;> rcases t with _ | ⟨y, ys⟩ <;> simp at h
  · exact Iff.rfl
  · simp only [Contiguous, h.1]
    exact noGap_congr num h.2

theorem settle_none_rest_iff (hs : s.Pairwise (num · ≤ num ·)) :
    (settle num none last s).rest = [] ↔ Contiguous num s := by
  rcases s with _ | ⟨y, ys⟩
  · exact iff_of_true rfl trivial
  · have hy := List.pairwise_cons.mp hs
    have h := rest_eq_nil_iff num (num y - 1) (y :: ys) hs fun x hx => by
      rcases List.mem_cons.mp hx with rfl | hx
      · omega
      · have := hy.1 x hx; omega
    simp only [settle, startAt, h, NoGap, Contiguous]
    exact and_iff_right (by omega)

theorem settle_none_stale {t : List α} (h : s.map num = t.map num)
    (ht : t.Pairwise (num · < num ·)) : (settle num none last s).stale = [] := by
  have hs : s.Pairwise (num · < num ·) := by
    rw [← List.pairwise_map (f := num) (R := (· < ·)), h]
    exact List.pairwise_map.mpr ht
  rcases s with _ | ⟨y, ys⟩
  · rfl
  · refine stale_eq_nil num (num y - 1) (y :: ys) hs fun x hx => ?_
    rcases List.mem_cons.mp hx with rfl | hx
    · omega
    · have := (List.pairwise_cons.mp hs).1 x hx; omega

end settle

variable {num} in
theorem Front.mem_items {force : Prop} {b mid : Buf α} {front : List α}
    (h : Front num force b front mid) {x : α} (hx : x ∈ mid.items) : x ∈ b.items := by
  cases h with
  | keep => exact hx
  | forced => exact List.mem_cons_of_mem _ hx

variable {num} in
theorem Front.last_eq {force : Prop} {b mid : Buf α} {front : List α}
    (h : Front num force b front mid) :
    mid = b ∨ ∃ x ∈ b.items, mid.last = num x := by
  cases h with
  | keep => exact Or.inl rfl
  | forced => exact Or.inr ⟨_, List.mem_cons_self .., rfl⟩

variable {num} in
theorem Front.step {force : Prop} {a : Option α} {b mid : Buf α} {front s : List α}
    (h : Front num force b front mid) (hp : s.Perm (a.toList ++ mid.items))
    (hs : s.Pairwise (num · ≤ num ·)) :
    Step num force a b ⟨(settle num a mid.last s).last, (settle num a mid.last s).rest⟩
      (front ++ (settle num a mid.last s).sent) (settle num a mid.last s).stale := by
  cases h with
  | keep hf => exact .keep hf hp hs
  | forced hf => exact .forced hf hp hs

/-! ### What one step does -/

namespace Step

variable {num} {force : Prop} {a : Option α} {b b' : Buf α} {sent stale : List α}

theorem ok (h : Step num force a b b' sent stale) : b'.OK num := by
  cases h with
  | keep hf hp hs => exact ⟨(settle_ok a _ hs).sorted_rest hs, (settle_ok a _ hs).rest_gap⟩
  | forced hf hp hs => exact ⟨(settle_ok a _ hs).sorted_rest hs, (settle_ok a _ hs).rest_gap⟩

/-- **Conservation.** -/
theorem perm (h : Step num force a b b' sent stale) :
    (sent ++ stale ++ b'.items).Perm (a.toList ++ b.items) := by
  cases h with
  | keep hf hp hs => exact (settle_ok a _ hs).perm.symm.trans hp
  | @forced last x xs s hf hp hs =>
    have h := ((settle_ok a (num x) hs).perm.symm.trans hp).cons x
    simp only [List.cons_append]
    exact h.trans List.perm_middle.symm

/-- A step adds at most its own item, and a forced step none to a buffer that is not empty. -/
theorem length_le (h : Step num force a b b' sent stale) :
    b'.items.length ≤ b.items.length + 1 ∧
      (force → b.items ≠ [] → b'.items.length ≤ b.items.length) := by
  have ha : a.toList.length ≤ 1 := by cases a <;> simp
  cases h with
  | @keep last items s hf hp hs =>
    have h1 := (settle_ok a last hs).length_le
    have h2 := hp.length_eq
    simp only [List.length_append] at h2
    exact ⟨by dsimp only; omega, fun h hne => absurd (hf h) hne⟩
  | @forced last x xs s hf hp hs =>
    have h1 := (settle_ok a (num x) hs).length_le
    have h2 := hp.length_eq
    simp only [List.length_append] at h2
    refine ⟨?_, fun _ _ => ?_⟩ <;> simp only [List.length_cons] <;> omega

theorem stale_le (h : Step num force a b b' sent stale) : ∀ x ∈ stale, num x ≤ b'.last := by
  cases h with
  | @keep last items s hf hp hs => exact (settle_ok a last hs).stale_le
  | @forced last x xs s hf hp hs => exact (settle_ok a (num x) hs).stale_le

theorem mem_items (h : Step num force a b b' sent stale) {x : α} (hx : x ∈ b'.items) :
    x ∈ a.toList ∨ x ∈ b.items :=
  List.mem_append.mp (h.perm.mem_iff.mp (List.mem_append_right _ hx))

/-- The items filed after a forced delivery do not lie below it. -/
theorem num_le_of_perm {last : ℤ} {x : α} {xs s : List α} (hb : (Buf.mk last (x :: xs)).OK num)
    (hp : s.Perm ((none : Option α).toList ++ xs)) : ∀ y ∈ s, num x ≤ num y := by
  intro y hy
  exact (List.pairwise_cons.mp hb.sorted).1 y (by simpa using hp.mem_iff.mp hy)

theorem last_le (h : Step num force a b b' sent stale) (hb : b.OK num) : b.last ≤ b'.last := by
  cases h with
  | @keep last items s hf hp hs =>
    rcases a with _ | a
    · refine le_settle hs le_rfl fun y hy => ?_
      have := hb.gap y (by simpa using hp.mem_iff.mp hy)
      dsimp only at this ⊢; omega
    · exact (startAt_some a).symm.le.trans (settle_ok (some a) last hs).le
  | @forced last x xs s hf hp hs =>
    have hx := hb.gap x (List.mem_cons_self ..)
    dsimp only at hx ⊢
    rcases a with _ | a
    · have := le_settle (a := none) hs le_rfl (num_le_of_perm hb hp)
      omega
    · have := (settle_ok (some a) (num x) hs).le
      rw [startAt_some] at this
      omega

/-- **Delivered numbers** are new, and the last number keeps up with them. -/
theorem sent_mem (h : Step num force a b b' sent stale) (hb : b.OK num) {v : ℤ}
    (hv : v ∈ sent.map num) : b.last < v ∧ v ≤ b'.last := by
  cases h with
  | @keep last items s hf hp hs =>
    rw [(settle_ok a last hs).sent_num, mem_after] at hv
    refine ⟨lt_of_le_of_lt ?_ hv.1, hv.2⟩
    rcases a with _ | a
    · refine pred_le_startAt le_rfl fun y hy => ?_
      have := hb.gap y (by simpa using hp.mem_iff.mp hy)
      dsimp only at this ⊢; omega
    · exact (startAt_some a).symm.le
  | @forced last x xs s hf hp hs =>
    have hx := hb.gap x (List.mem_cons_self ..)
    dsimp only at hx ⊢
    rw [List.map_cons, List.mem_cons, (settle_ok a (num x) hs).sent_num, mem_after] at hv
    rcases a with _ | a
    · have h1 := le_settle (a := none) hs le_rfl (num_le_of_perm hb hp)
      have h2 : num x - 1 ≤ startAt num none (num x) s :=
        pred_le_startAt (by omega) fun y hy => by have := num_le_of_perm hb hp y hy; omega
      omega
    · have := (settle_ok (some a) (num x) hs).le
      rw [startAt_some] at this hv
      omega

/-- **Delivered numbers increase.** -/
theorem increasing (h : Step num force a b b' sent stale) (hb : b.OK num)
    (hd : ¬ Doubled num force a b.items) : (sent.map num).Pairwise (· < ·) := by
  cases h with
  | @keep last items s hf hp hs =>
    rw [(settle_ok a last hs).sent_num]
    exact pairwise_after _ _
  | @forced last x xs s hf hp hs =>
    rw [List.map_cons, (settle_ok a (num x) hs).sent_num]
    refine List.pairwise_cons.mpr ⟨fun v hv => ?_, pairwise_after _ _⟩
    refine lt_of_le_of_lt ?_ (mem_after.mp hv).1
    rcases a with _ | a
    · -- the next number delivered is that of the new first item, which is a larger one
      refine pred_le_startAt le_rfl fun y hy => ?_
      have hy' : y ∈ xs := by simpa using hp.mem_iff.mp hy
      rcases xs with _ | ⟨z, zs⟩
      · simp at hy'
      obtain ⟨hxz, hzs⟩ := List.pairwise_cons.mp hb.sorted
      have hne : num x ≠ num z := fun he => hd ⟨hf, rfl, x, z, zs, rfl, he⟩
      have h1 := hxz z (List.mem_cons_self ..)
      rcases List.mem_cons.mp hy' with rfl | hy'
      · omega
      · have := (List.pairwise_cons.mp hzs).1 y hy'; omega
    · exact (startAt_some a).symm.le

/-- A step that takes an item and is not forced delivers every number from the last one on. -/
theorem sent_of_keep {x : α} (h : Step num force (some x) b b' sent stale) (hf : ¬ force) :
    sent.map num = after b.last b'.last ∧ b.last ≤ b'.last := by
  cases h with
  | @keep last items s _ hp hs =>
    have h := settle_ok (some x) last hs
    have h1 := h.sent_num
    have h2 := h.le
    rw [startAt_some] at h1 h2
    exact ⟨h1, h2⟩
  | forced hf' => exact absurd hf' hf

/-- The item of a step is delivered, stale or waiting; one not stale is above the last number. -/
theorem num_le_or_mem (h : Step num force a b b' sent stale) (hb : b.OK num) {x : α}
    (hx : x ∈ a.toList ∨ x ∈ b.items) : num x ≤ b'.last ∨ x ∈ b'.items := by
  rcases List.mem_append.mp (h.perm.symm.mem_iff.mp (List.mem_append.mpr hx)) with hout | hkept
  · left
    rcases List.mem_append.mp hout with hsent | hstale
    · exact (h.sent_mem hb (List.mem_map_of_mem hsent)).2
    · exact h.stale_le x hstale
  · exact Or.inr hkept

/-- The next number, given to an empty buffer, is delivered. -/
theorem sent_ne_nil_of_next {last : ℤ} {x : α}
    (h : Step num force (some x) ⟨last, []⟩ b' sent stale) (hx : num x = last + 1) :
    sent ≠ [] := by
  cases h with
  | @keep last items s _ hp hs =>
    have hd := settle_ok (some x) last hs
    have hmem : x ∈ s := hp.mem_iff.mpr (by simp)
    rintro hnil
    rcases hd.sent_or_rest hmem (by rw [startAt_some, hx]; exact Int.lt_succ last) with hm | hm
    · rw [hnil] at hm
      simp at hm
    · have h1 := hd.rest_gap x hm
      have h2 := hd.le
      rw [startAt_some] at h2
      omega

/-! ### Late items -/

/-- **An item above the last number survives** the step that takes it, delivered or waiting, exactly
when no forced delivery overtakes it. -/
theorem filler_iff {x : α} (h : Step num force (some x) b b' sent stale) (hb : b.OK num)
    (hx : b.last < num x) : (∃ y ∈ sent ++ b'.items, num y = num x) ↔
      ¬ Overtaken num force x b.items := by
  cases h with
  | @keep last items s hf hp hs =>
    have h := settle_ok (some x) last hs
    have hmem : x ∈ s := hp.mem_iff.mpr (by simp)
    refine iff_of_true ?_ ?_
    · rcases h.sent_or_rest hmem (by rw [startAt_some]; exact hx) with hm | hm
      · obtain ⟨y, hy, he⟩ := List.mem_map.mp hm
        exact ⟨y, List.mem_append_left _ hy, he⟩
      · exact ⟨x, List.mem_append_right _ hm, rfl⟩
    · rintro ⟨hf', y, ys, he, -⟩
      rw [hf hf'] at he
      exact absurd he (by simp)
  | @forced last z xs s hf hp hs =>
    have h := settle_ok (some x) (num z) hs
    have hmem : x ∈ s := hp.mem_iff.mpr (by simp)
    constructor
    · rintro ⟨y, hy, he⟩ ⟨-, w, ws, hw, hlt⟩
      obtain ⟨rfl, rfl⟩ := List.cons.inj hw
      have hle := h.le
      rw [startAt_some] at hle
      rcases List.mem_append.mp hy with hy | hy
      · rcases List.mem_cons.mp hy with rfl | hy
        · omega
        · have := List.mem_map_of_mem (f := num) hy
          rw [h.sent_num, mem_after, startAt_some] at this
          omega
      · have := h.rest_gap y hy
        omega
    · intro hn
      have hzx : num z ≤ num x := by
        by_contra hlt
        exact hn ⟨hf, z, xs, rfl, by omega⟩
      rcases hzx.eq_or_lt with he | hlt
      · exact ⟨z, by simp, he⟩
      · rcases h.sent_or_rest hmem (by rw [startAt_some]; exact hlt) with hm | hm
        · obtain ⟨y, hy, he⟩ := List.mem_map.mp hm
          exact ⟨y, by simp [hy], he⟩
        · exact ⟨x, List.mem_append_right _ hm, rfl⟩

/-! ### Flushing -/

/-- **A flush empties the buffer** exactly when the items it walks over leave no gap. -/
theorem empties_iff (h : Step num force none b b' sent stale) (hb : b.OK num) :
    b'.items = [] ↔ Flushable num force b.items := by
  cases h with
  | @keep last items s hf hp hs =>
    simp only [Option.toList_none, List.nil_append] at hp
    rcases items with _ | ⟨y, ys⟩
    · rw [List.perm_nil] at hp
      subst hp
      exact iff_of_true rfl ⟨fun _ => trivial, fun _ => trivial⟩
    · have hnf : ¬ force := fun h => absurd (hf h) (by simp)
      simp only [Flushable, hnf, not_false_eq_true, true_implies, false_implies, and_true]
      rw [settle_none_rest_iff hs]
      exact contiguous_congr (map_num_eq_of_perm num hp hs hb.sorted)
  | @forced last x xs s hf hp hs =>
    simp only [Option.toList_none, List.nil_append] at hp
    simp only [Flushable, hf, not_true_eq_false, false_implies, true_implies, true_and,
      List.tail_cons]
    rw [settle_none_rest_iff hs]
    exact contiguous_congr (map_num_eq_of_perm num hp hs (List.pairwise_cons.mp hb.sorted).2)

/-- A flush of distinct numbers that empties the buffer delivers all of it, in order. -/
theorem flush_sent (h : Step num force none b b' sent stale) (hb : b.OK num)
    (hd : b.items.Pairwise (num · < num ·)) (he : b'.items = []) : sent = b.items := by
  have hperm := h.perm
  have hstale : stale = [] := by
    cases h with
    | @keep last items s hf hp hs =>
      simp only [Option.toList_none, List.nil_append] at hp
      exact settle_none_stale (map_num_eq_of_perm num hp hs hb.sorted) hd
    | @forced last x xs s hf hp hs =>
      simp only [Option.toList_none, List.nil_append] at hp
      obtain ⟨-, hxs⟩ := List.pairwise_cons.mp hd
      exact settle_none_stale
        (map_num_eq_of_perm num hp hs (List.pairwise_cons.mp hb.sorted).2) hxs
  have hnd : ¬ Doubled num force none b.items := by
    rintro ⟨-, -, x, y, ys, heq, hxy⟩
    rw [heq] at hd
    have := (List.pairwise_cons.mp hd).1 y (List.mem_cons_self ..)
    omega
  have hinc := List.pairwise_map.mp (h.increasing hb hnd)
  rw [he, hstale] at hperm
  simp only [List.append_nil, Option.toList_none, List.nil_append] at hperm
  exact List.Perm.eq_of_pairwise (fun _ _ _ _ h1 h2 => absurd (h1.trans h2) (lt_irrefl _)) hinc hd
    hperm

end Step

end Nmxptool.Lib.Resequencer
