import Mathlib.Data.List.Lex
import Mathlib.Order.Lattice
import Nmxptool.Data.Process
import Nmxptool.Lib.LinkedList
import Nmxptool.Lib.Run

/-! # The list of channels with their times

`NMXP_META_CHAN_LIST` is a linked list. `nmxp_meta_chan_add` puts a channel where it belongs, by its
key or by its name; the other functions search for a key from the head on, and set fields there.

* `SortedBy`: the order that a list is kept in.
* `add_spec`, `searchKey_spec`, `setFields_spec`: what one call does.
* `metaList_run`: what holds after every sequence of calls. -/

namespace Nmxptool.Chan.MetaList

open Nmxptool.Data.Process Nmxptool.Lib.LinkedList Nmxptool.Lib.Run

/-! ### The functions -/

/-- `NMXP_META_CHAN_LIST`, apart from `next`. -/
structure NmxpMetaChan where
  key : Int32
  name : CStr
  startTime : Int32
  endTime : Int32
  network : CStr
  deriving DecidableEq

/-- `NMXP_META_CHAN_LIST_SORT_TYPE`; a variable of that type may have other values as well. -/
inductive NmxpMetaChanListSortType
  | key
  | name
  | startTime
  | endTime
  | other
  deriving DecidableEq

/-- `strcmp`, with the values -1, 0 and 1. -/
def strcmp : CStr → CStr → ℤ
  | [], [] => 0
  | [], _ :: _ => -1
  | _ :: _, [] => 1
  | c :: s, d :: t => if c = d then strcmp s t else if c.toNat < d.toNat then -1 else 1

/-- Two numbers, in the same way. -/
def compareInt (a b : Int32) : ℤ := if a > b then 1 else if a < b then -1 else 0

/-- `nmxp_meta_chan_compare`. -/
def nmxpMetaChanCompare (item1 item2 : NmxpMetaChan) : NmxpMetaChanListSortType → ℤ
  | .key => compareInt item1.key item2.key
  | .name => strcmp item1.name item2.name
  | .startTime => compareInt item1.startTime item2.startTime
  | .endTime => compareInt item1.endTime item2.endTime
  | .other => 0

/-- The size of `name` and `network`. -/
def NAME_SIZE : ℕ := 12

/-- The memory, and the pointer `*chan_list`. -/
structure MetaChanList where
  heap : List (Cell NmxpMetaChan)
  chanList : Option ℕ

/-- `iter->next != NULL && nmxp_meta_chan_compare(new_item, iter->next, sorttype) > 0`: where the
loop of `nmxp_meta_chan_add` ends. -/
def addLoop (heap : List (Cell NmxpMetaChan)) (newItem : NmxpMetaChan)
    (sorttype : NmxpMetaChanListSortType) : ℕ → ℕ → Except Fault ℕ
  | 0, _ => .error .endless
  | rounds + 1, iter => do
    let c ← load heap iter
    match c.next with
    | none => return iter
    | some next =>
      let item ← load heap next
      if nmxpMetaChanCompare newItem item.value sorttype > 0 then
        addLoop heap newItem sorttype rounds next
      else return iter

/-- The sort type that `nmxp_meta_chan_add` goes by. -/
def fixed (sorttype : NmxpMetaChanListSortType) : NmxpMetaChanListSortType :=
  if sorttype ≠ .key ∧ sorttype ≠ .name then .key else sorttype

/-- The item that is allocated; an argument may be NULL. -/
def newItem (key : Int32) (name : Option CStr) (startTime endTime : Int32)
    (network : Option CStr) : NmxpMetaChan where
  key := key
  name := name.elim [] (strncpy · NAME_SIZE)
  startTime := startTime
  endTime := endTime
  network := network.elim [] (strncpy · NAME_SIZE)

/-- `nmxp_meta_chan_add`: the list, and the address of the new item. A loop that goes through more
cells than there are does not end. -/
def nmxpMetaChanAdd (s : MetaChanList) (key : Int32) (name : Option CStr)
    (startTime endTime : Int32) (network : Option CStr) (sorttype : NmxpMetaChanListSortType) :
    Except Fault (MetaChanList × Option ℕ) :=
  let sorttype := fixed sorttype
  let item := newItem key name startTime endTime network
  let heap := s.heap ++ [⟨item, none⟩]
  let new := s.heap.length
  match s.chanList with
  | none => return (⟨heap, some new⟩, some new)
  | some chanList => do
    let first ← load heap chanList
    if nmxpMetaChanCompare item first.value sorttype < 0 then
      let heap ← modify heap new fun c => { c with next := some chanList }
      return (⟨heap, some new⟩, some new)
    else
      let iter ← addLoop heap item sorttype heap.length chanList
      let c ← load heap iter
      let heap ← modify heap new fun d => { d with next := c.next }
      let heap ← modify heap iter fun d => { d with next := some new }
      return (⟨heap, some chanList⟩, some new)

/-- The loop of `nmxp_meta_chan_search_key`. -/
def searchLoop (heap : List (Cell NmxpMetaChan)) (key : Int32) :
    ℕ → Option ℕ → Except Fault (Option ℕ)
  | 0, _ => .error .endless
  | _ + 1, none => return none
  | rounds + 1, some iter => do
    let c ← load heap iter
    if c.value.key = key then return some iter else searchLoop heap key rounds c.next

/-- `nmxp_meta_chan_search_key`. -/
def nmxpMetaChanSearchKey (s : MetaChanList) (key : Int32) : Except Fault (Option ℕ) :=
  searchLoop s.heap key (s.heap.length + 1) s.chanList

/-- The functions that set fields of the item with a key. -/
def setFields (s : MetaChanList) (key : Int32) (f : NmxpMetaChan → NmxpMetaChan) :
    Except Fault (MetaChanList × Option ℕ) := do
  match ← nmxpMetaChanSearchKey s key with
  | none => return (s, none)
  | some ret =>
    let heap ← modify s.heap ret fun c => { c with value := f c.value }
    return ({ s with heap := heap }, some ret)

/-- `nmxp_meta_chan_set_times`. -/
def nmxpMetaChanSetTimes (s : MetaChanList) (key startTime endTime : Int32) :
    Except Fault (MetaChanList × Option ℕ) :=
  setFields s key fun item => { item with startTime := startTime, endTime := endTime }

/-- `nmxp_meta_chan_set_network`. -/
def nmxpMetaChanSetNetwork (s : MetaChanList) (key : Int32) (network : CStr) :
    Except Fault (MetaChanList × Option ℕ) :=
  setFields s key fun item => { item with network := strncpy network NAME_SIZE }

/-! ### The order -/

/-- The bytes of a string. -/
def bytes (s : CStr) : List ℕ := s.map Char.toNat

/-- **The order of a list**, by key or by name. -/
def SortedBefore (sorttype : NmxpMetaChanListSortType) (item1 item2 : NmxpMetaChan) : Prop :=
  match fixed sorttype with
  | .name => bytes item1.name ≤ bytes item2.name
  | _ => item1.key ≤ item2.key

theorem strcmp_lt (s t : CStr) : (strcmp s t < 0 ↔ bytes s < bytes t) ∧
    (0 < strcmp s t ↔ bytes t < bytes s) := by
  induction s generalizing t with
  | nil => cases t <;> simp [strcmp, bytes]
  | cons c s ih =>
    cases t with
    | nil => simp [strcmp, bytes]
    | cons d t =>
      obtain ⟨hlt, hgt⟩ := ih t
      unfold bytes at hlt hgt ⊢
      rw [strcmp, List.map_cons, List.map_cons, List.cons_lt_cons_iff, List.cons_lt_cons_iff]
      by_cases hcd : c = d
      · rw [if_pos hcd, hcd]
        simp [hlt, hgt]
      · have hne : c.toNat ≠ d.toNat := fun h => hcd (Char.toNat_inj.mp h)
        rw [if_neg hcd]
        split_ifs with h
        · simp [h, hne.symm, h.le]
        · have h' : d.toNat < c.toNat := by omega
          simp [h', hne, h'.le]

/-- `strcmp` is the order of the strings. -/
theorem strcmp_spec (s t : CStr) :
    (strcmp s t ≤ 0 ↔ bytes s ≤ bytes t) ∧ (0 ≤ strcmp s t ↔ bytes t ≤ bytes s) := by
  obtain ⟨hlt, hgt⟩ := strcmp_lt s t
  rw [← not_lt, ← not_lt, ← not_lt, ← not_lt, hgt, hlt]
  exact ⟨Iff.rfl, Iff.rfl⟩

theorem compareInt_spec (a b : Int32) :
    (compareInt a b ≤ 0 ↔ a ≤ b) ∧ (0 ≤ compareInt a b ↔ b ≤ a) := by
  have hlt := Int32.lt_iff_toInt_lt (x := a) (y := b)
  have hgt := Int32.lt_iff_toInt_lt (x := b) (y := a)
  rw [Int32.le_iff_toInt_le, Int32.le_iff_toInt_le]
  by_cases h : b < a
  · have := hgt.mp h
    rw [compareInt, if_pos h]
    omega
  by_cases h' : a < b
  · have := hlt.mp h'
    rw [compareInt, if_neg h, if_pos h']
    omega
  · rw [compareInt, if_neg h, if_neg h']
    rw [hgt] at h
    rw [hlt] at h'
    omega

variable {sorttype : NmxpMetaChanListSortType}

theorem fixed_cases (sorttype : NmxpMetaChanListSortType) :
    fixed sorttype = .key ∨ fixed sorttype = .name := by
  cases sorttype <;> decide

/-- The comparison is the order. -/
theorem compare_spec (item1 item2 : NmxpMetaChan) :
    (nmxpMetaChanCompare item1 item2 (fixed sorttype) ≤ 0 ↔ SortedBefore sorttype item1 item2) ∧
      (0 ≤ nmxpMetaChanCompare item1 item2 (fixed sorttype) ↔
        SortedBefore sorttype item2 item1) := by
  unfold SortedBefore
  rcases fixed_cases sorttype with h | h <;> rw [h]
  · exact compareInt_spec item1.key item2.key
  · exact strcmp_spec item1.name item2.name

theorem SortedBefore.trans {item1 item2 item3 : NmxpMetaChan}
    (h : SortedBefore sorttype item1 item2) (h' : SortedBefore sorttype item2 item3) :
    SortedBefore sorttype item1 item3 := by
  unfold SortedBefore at h h' ⊢
  rcases fixed_cases sorttype with hs | hs
  · rw [hs] at h h' ⊢
    exact Int32.le_trans h h'
  · rw [hs] at h h' ⊢
    exact @le_trans (List ℕ) _ _ _ _ h h'

/-- The items stand in order. -/
def Sorted (sorttype : NmxpMetaChanListSortType) (items : List (ℕ × NmxpMetaChan)) : Prop :=
  items.Pairwise fun x y => SortedBefore sorttype x.2 y.2

/-! ### One call -/

/-- **The loop of `nmxp_meta_chan_add`** ends at the last item that is not behind the new one. -/
theorem addLoop_spec {heap : List (Cell NmxpMetaChan)} {item : NmxpMetaChan}
    {l : List (ℕ × NmxpMetaChan)} : ∀ {a : ℕ} {v : NmxpMetaChan} {rounds : ℕ},
    IsList heap (some a) ((a, v) :: l) → l.length < rounds →
    0 ≤ nmxpMetaChanCompare item v sorttype →
    ∃ l₁ b w l₂, (a, v) :: l = l₁ ++ (b, w) :: l₂ ∧
      addLoop heap item sorttype rounds a = .ok b ∧
      (∀ x ∈ l₁ ++ [(b, w)], 0 ≤ nmxpMetaChanCompare item x.2 sorttype) ∧
      ∀ x ∈ l₂.head?, nmxpMetaChanCompare item x.2 sorttype ≤ 0 := by
  induction l with
  | nil =>
    intro a v rounds h hrounds hv
    obtain ⟨rounds, rfl⟩ := Nat.exists_eq_succ_of_ne_zero (Nat.ne_of_gt hrounds)
    obtain ⟨-, next, hcell, rfl⟩ := h
    refine ⟨[], a, v, [], rfl, ?_, by simpa using hv, by simp⟩
    rw [addLoop, load_of_getElem? hcell]
    rfl
  | cons y l ih =>
    intro a v rounds h hrounds hv
    obtain ⟨rounds, rfl⟩ := Nat.exists_eq_succ_of_ne_zero (Nat.ne_of_gt (Nat.zero_lt_of_lt hrounds))
    obtain ⟨-, next, hcell, hrest⟩ := h
    obtain ⟨rfl, next', hcell', -⟩ := id hrest
    have hloop : addLoop heap item sorttype (rounds + 1) a =
        if nmxpMetaChanCompare item y.2 sorttype > 0 then addLoop heap item sorttype rounds y.1
        else .ok a := by
      rw [addLoop, load_of_getElem? hcell, ok_bind]
      dsimp only
      rw [load_of_getElem? hcell', ok_bind]
      rfl
    by_cases hy : nmxpMetaChanCompare item y.2 sorttype > 0
    · have hrounds' : l.length < rounds := Nat.lt_of_succ_lt_succ hrounds
      obtain ⟨l₁, b, w, l₂, hsplit, hok, hbefore, hbehind⟩ := ih hrest hrounds' hy.le
      refine ⟨(a, v) :: l₁, b, w, l₂, by rw [hsplit]; rfl, ?_, ?_, hbehind⟩
      · rw [hloop, if_pos hy, hok]
      · rw [List.cons_append, List.forall_mem_cons]
        exact ⟨hv, hbefore⟩
    · refine ⟨[], a, v, y :: l, rfl, ?_, by simpa using hv, by simpa using not_lt.mp hy⟩
      rw [hloop, if_neg hy]

/-- What follows an item in order is behind what is in front of that item. -/
theorem Sorted.of_head {items : List (ℕ × NmxpMetaChan)} (h : Sorted sorttype items)
    {item : NmxpMetaChan} (hhead : ∀ x ∈ items.head?, SortedBefore sorttype item x.2) :
    ∀ x ∈ items, SortedBefore sorttype item x.2 := by
  cases items with
  | nil => simp
  | cons y items =>
    have hy : SortedBefore sorttype item y.2 := hhead y rfl
    rw [List.forall_mem_cons]
    exact ⟨hy, fun x hx => hy.trans ((List.pairwise_cons.mp h).1 x hx)⟩

/-- **`nmxp_meta_chan_add`** puts the new item behind items that may stand in front of it, and in
front of items that may stand behind it; nothing else changes. -/
theorem add_spec {s : MetaChanList} {items : List (ℕ × NmxpMetaChan)}
    (h : IsList s.heap s.chanList items) (hsorted : Sorted sorttype items) (key : Int32)
    (name : Option CStr) (startTime endTime : Int32) (network : Option CStr) :
    ∃ s' l₁ l₂, items = l₁ ++ l₂ ∧
      nmxpMetaChanAdd s key name startTime endTime network sorttype =
        .ok (s', some s.heap.length) ∧
      IsList s'.heap s'.chanList
        (l₁ ++ (s.heap.length, newItem key name startTime endTime network) :: l₂) ∧
      (∀ x ∈ l₁, SortedBefore sorttype x.2 (newItem key name startTime endTime network)) ∧
      ∀ x ∈ l₂, SortedBefore sorttype (newItem key name startTime endTime network) x.2 := by
  generalize hitem : newItem key name startTime endTime network = item
  have hlt : ∀ c ∈ items.map Prod.fst, c < s.heap.length := fun c hc => h.lt_length hc
  have hfresh : s.heap.length ∉ items.map Prod.fst := fun hmem => (hlt _ hmem).false
  -- the memory with the new cell
  have hnew : (s.heap ++ [⟨item, none⟩])[s.heap.length]? = some ⟨item, none⟩ := by simp
  have hheap : IsList (s.heap ++ [⟨item, none⟩]) s.chanList items :=
    h.frame fun c hc => List.getElem?_append_left (hlt c hc)
  unfold nmxpMetaChanAdd
  rw [hitem]
  dsimp only
  cases items with
  | nil =>
    have hnull : s.chanList = none := h
    rw [hnull]
    refine ⟨_, [], [], rfl, rfl, ?_, by simp, by simp⟩
    exact ⟨rfl, none, hnew, rfl⟩
  | cons y items =>
    obtain ⟨hp, next, hcell, hrest⟩ := id hheap
    rw [hp]
    dsimp only
    rw [load_of_getElem? hcell, ok_bind]
    by_cases hfirst : nmxpMetaChanCompare item y.2 (fixed sorttype) < 0
    · -- in front of the head
      have hbehind : ∀ x ∈ y :: items, SortedBefore sorttype item x.2 :=
        hsorted.of_head (by simpa using (compare_spec item y.2).1.mp hfirst.le)
      rw [if_pos hfirst, modify_of_getElem? hnew, ok_bind]
      refine ⟨_, [], y :: items, rfl, rfl, ?_, by simp, hbehind⟩
      refine IsList.push (hp ▸ hheap) (List.getElem?_set_self (by simp)) fun c hc => ?_
      refine List.getElem?_set_ne ?_
      rintro rfl
      exact hfresh hc
    · -- behind one of the items
      rw [hp] at hheap
      have hrounds : items.length < (s.heap ++ [(⟨item, none⟩ : Cell NmxpMetaChan)]).length :=
        lt_of_lt_of_le (Nat.lt_succ_self _) hheap.length_le
      obtain ⟨l₁, b, w, l₂, hsplit, hloop, hbefore, hbehind⟩ :=
        addLoop_spec hheap hrounds (not_lt.mp hfirst)
      have hcut : y :: items = (l₁ ++ [(b, w)]) ++ l₂ := by
        rw [hsplit, List.append_assoc, List.singleton_append]
      rw [hsplit] at hheap hfresh
      obtain ⟨nextb, hb⟩ := hheap.getElem? (x := (b, w)) (by simp)
      have hne : b ≠ s.heap.length := by
        rintro rfl
        exact hfresh (by simp)
      have hb' : ((s.heap ++ [(⟨item, none⟩ : Cell NmxpMetaChan)]).set s.heap.length
          ⟨item, nextb⟩)[b]? = some ⟨w, nextb⟩ := by rw [List.getElem?_set_ne hne.symm, hb]
      rw [if_neg hfirst, hloop, ok_bind, load_of_getElem? hb, ok_bind, modify_of_getElem? hnew,
        ok_bind, modify_of_getElem? hb', ok_bind]
      refine ⟨_, l₁ ++ [(b, w)], l₂, hcut, rfl, ?_, fun x hx => ?_, ?_⟩
      · rw [List.append_assoc, List.singleton_append]
        refine hheap.insert hb ?_ ?_ (fun c hca hcb => ?_) hfresh
        · exact List.getElem?_set_self (by
            rw [List.length_set]; exact (List.getElem?_eq_some_iff.mp hb).1)
        · rw [List.getElem?_set_ne hne]
          exact List.getElem?_set_self (by simp)
        · rw [List.getElem?_set_ne hca.symm, List.getElem?_set_ne hcb.symm]
      · exact (compare_spec item x.2).2.mp (hbefore x hx)
      · rw [hcut] at hsorted
        exact Sorted.of_head (List.pairwise_append.mp hsorted).2.1 fun x hx =>
          (compare_spec item x.2).1.mp (hbehind x hx)

/-- The first item with a key. -/
def firstWith (key : Int32) (items : List (ℕ × NmxpMetaChan)) : Option ℕ :=
  (items.find? fun x => x.2.key = key).map Prod.fst

theorem searchLoop_spec {heap : List (Cell NmxpMetaChan)} (key : Int32)
    {l : List (ℕ × NmxpMetaChan)} : ∀ {p : Option ℕ} {rounds : ℕ}, IsList heap p l →
    l.length < rounds → searchLoop heap key rounds p = .ok (firstWith key l) := by
  induction l with
  | nil =>
    intro p rounds h hrounds
    obtain ⟨rounds, rfl⟩ := Nat.exists_eq_succ_of_ne_zero (Nat.ne_of_gt hrounds)
    obtain rfl : p = none := h
    rfl
  | cons y l ih =>
    intro p rounds h hrounds
    obtain ⟨rounds, rfl⟩ := Nat.exists_eq_succ_of_ne_zero (Nat.ne_of_gt (Nat.zero_lt_of_lt hrounds))
    obtain ⟨rfl, next, hcell, hrest⟩ := h
    rw [searchLoop, load_of_getElem? hcell, ok_bind, firstWith]
    dsimp only
    by_cases hkey : y.2.key = key
    · rw [if_pos hkey, List.find?_cons_of_pos (by simpa using hkey)]
      rfl
    · rw [if_neg hkey, List.find?_cons_of_neg (by simpa using hkey)]
      exact ih hrest (Nat.lt_of_succ_lt_succ hrounds)

/-- **`nmxp_meta_chan_search_key`** finds the first item with the key. -/
theorem searchKey_spec {s : MetaChanList} {items : List (ℕ × NmxpMetaChan)}
    (h : IsList s.heap s.chanList items) (key : Int32) :
    nmxpMetaChanSearchKey s key = .ok (firstWith key items) :=
  searchLoop_spec key h (Nat.lt_succ_of_le h.length_le)

/-- What becomes of the items where fields are set: those of the first with the key, and nothing and
NULL where there is none. -/
inductive FieldsSet (key : Int32) (f : NmxpMetaChan → NmxpMetaChan)
    (items : List (ℕ × NmxpMetaChan)) : Option ℕ → List (ℕ × NmxpMetaChan) → Prop
  | absent (h : ∀ x ∈ items, x.2.key ≠ key) : FieldsSet key f items none items
  | first (l₁ : List (ℕ × NmxpMetaChan)) (a : ℕ) (item : NmxpMetaChan)
      (l₂ : List (ℕ × NmxpMetaChan)) (hitems : items = l₁ ++ (a, item) :: l₂)
      (h : ∀ x ∈ l₁, x.2.key ≠ key) (hkey : item.key = key) :
      FieldsSet key f items (some a) (l₁ ++ (a, f item) :: l₂)

/-- **The functions that set fields.** -/
theorem setFields_spec {s : MetaChanList} {items : List (ℕ × NmxpMetaChan)}
    (h : IsList s.heap s.chanList items) (key : Int32) (f : NmxpMetaChan → NmxpMetaChan) :
    ∃ s' p items', setFields s key f = .ok (s', p) ∧ IsList s'.heap s'.chanList items' ∧
      FieldsSet key f items p items' := by
  unfold setFields
  rw [searchKey_spec h, ok_bind, firstWith]
  cases hfind : items.find? fun x => x.2.key = key with
  | none =>
    refine ⟨s, none, items, rfl, h, .absent fun x hx => ?_⟩
    simpa using List.find?_eq_none.mp hfind x hx
  | some x =>
    obtain ⟨hkey, l₁, l₂, rfl, hl₁⟩ := List.find?_eq_some_iff_append.mp hfind
    obtain ⟨next, hcell⟩ := h.getElem? (x := x) (by simp)
    refine ⟨⟨s.heap.set x.1 ⟨f x.2, next⟩, s.chanList⟩, some x.1, _, ?_, h.update hcell,
      .first l₁ x.1 x.2 l₂ rfl (fun y hy => ?_) (by simpa using hkey)⟩
    · rw [Option.map_some]
      dsimp only
      rw [modify_of_getElem? hcell]
      rfl
    · simpa using hl₁ y hy

/-! ### Sequences of calls -/

/-- A call, for lists of one sort type. -/
inductive Call
  | add (key : Int32) (name : Option CStr) (startTime endTime : Int32) (network : Option CStr)
  | setTimes (key startTime endTime : Int32)
  | setNetwork (key : Int32) (network : CStr)

/-- A text that fits its array with the terminator. -/
def Short (s : CStr) : Prop := s.length < NAME_SIZE

def Call.Short : Call → Prop
  | .add _ name _ _ network => (∀ s ∈ name, MetaList.Short s) ∧ ∀ s ∈ network, MetaList.Short s
  | .setTimes .. => True
  | .setNetwork _ network => MetaList.Short network

/-- The call, with the pointer that it returns. -/
def step (sorttype : NmxpMetaChanListSortType) (s : MetaChanList) (call : Call) :
    Except Fault (MetaChanList × List (Option ℕ)) := do
  let (s, ret) ← match call with
    | .add key name startTime endTime network =>
      nmxpMetaChanAdd s key name startTime endTime network sorttype
    | .setTimes key startTime endTime => nmxpMetaChanSetTimes s key startTime endTime
    | .setNetwork key network => nmxpMetaChanSetNetwork s key network
  return (s, [ret])

/-- `chan_list = NULL`. -/
def emptyList : MetaChanList := ⟨[], none⟩

/-- **What a call does to the items**: an item with the arguments is added, and the others stay as
they are; or the named fields are set in the first item with the key. -/
def CallSpec (items : List (ℕ × NmxpMetaChan)) (ret : Option ℕ)
    (items' : List (ℕ × NmxpMetaChan)) : Call → Prop
  | .add key name startTime endTime network => ∃ l₁ a l₂, items = l₁ ++ l₂ ∧ ret = some a ∧
      items' = l₁ ++ (a, ⟨key, name.getD [], startTime, endTime, network.getD []⟩) :: l₂
  | .setTimes key startTime endTime =>
      FieldsSet key (fun item => { item with startTime := startTime, endTime := endTime }) items ret
        items'
  | .setNetwork key network =>
      FieldsSet key (fun item => { item with network := network }) items ret items'

/-- The keys and names that were added. -/
def added (calls : List Call) : List (Int32 × CStr) :=
  calls.filterMap fun
    | .add key name _ _ _ => some (key, name.getD [])
    | _ => none

/-- The keys and names of the items. -/
def identities (items : List (ℕ × NmxpMetaChan)) : List (Int32 × CStr) :=
  items.map fun x => (x.2.key, x.2.name)

theorem strncpy_of_short {s : CStr} (h : Short s) : strncpy s NAME_SIZE = s :=
  List.take_of_length_le (Nat.le_of_lt h)

theorem elim_strncpy {s : Option CStr} (h : ∀ t ∈ s, Short t) :
    s.elim [] (strncpy · NAME_SIZE) = s.getD [] := by
  cases s with
  | none => rfl
  | some s => exact strncpy_of_short (h s rfl)

/-- Setting other fields changes neither the order nor the keys and names. -/
theorem FieldsSet.keeps {key : Int32} {f : NmxpMetaChan → NmxpMetaChan}
    {items items' : List (ℕ × NmxpMetaChan)} {p : Option ℕ} (h : FieldsSet key f items p items')
    (hf : ∀ item, (f item).key = item.key ∧ (f item).name = item.name) :
    identities items' = identities items := by
  cases h with
  | absent => rfl
  | first l₁ a item l₂ hitems =>
    rw [hitems]
    simp [identities, hf]

/-- The order is one of keys and names. -/
theorem sorted_of_identities {items items' : List (ℕ × NmxpMetaChan)}
    (h : identities items' = identities items) (hsorted : Sorted sorttype items) :
    Sorted sorttype items' := by
  have hiff (l : List (ℕ × NmxpMetaChan)) : Sorted sorttype l ↔ (identities l).Pairwise fun x y =>
      SortedBefore sorttype ⟨x.1, x.2, 0, 0, []⟩ ⟨y.1, y.2, 0, 0, []⟩ := by
    rw [identities, List.pairwise_map]
    rfl
  rw [hiff] at hsorted ⊢
  rwa [h]

/-- **One call** of a sequence. -/
theorem step_spec {s : MetaChanList} {items : List (ℕ × NmxpMetaChan)}
    (h : IsList s.heap s.chanList items) (hsorted : Sorted sorttype items) {call : Call}
    (hshort : call.Short) :
    ∃ s' ret items', step sorttype s call = .ok (s', [ret]) ∧ IsList s'.heap s'.chanList items' ∧
      Sorted sorttype items' ∧ CallSpec items ret items' call ∧
      (identities items').Perm (identities items ++ added [call]) := by
  cases call with
  | add key name startTime endTime network =>
    obtain ⟨s', l₁, l₂, rfl, hok, hlist, hbefore, hbehind⟩ :=
      add_spec h hsorted key name startTime endTime network
    have hitem : newItem key name startTime endTime network =
        ⟨key, name.getD [], startTime, endTime, network.getD []⟩ := by
      rw [newItem, elim_strncpy hshort.1, elim_strncpy hshort.2]
    rw [hitem] at hlist hbefore hbehind
    refine ⟨s', _, _, by rw [step, hok]; rfl, hlist, ?_, ⟨l₁, _, l₂, rfl, rfl, rfl⟩, ?_⟩
    · obtain ⟨h1, h2, h12⟩ := List.pairwise_append.mp hsorted
      refine List.pairwise_append.mpr
        ⟨h1, List.pairwise_cons.mpr ⟨hbehind, h2⟩, fun x hx y hy => ?_⟩
      rcases List.mem_cons.mp hy with rfl | hy
      · exact hbefore x hx
      · exact h12 x hx y hy
    · simp only [identities, List.map_append, List.map_cons, added, List.filterMap_cons,
        List.filterMap_nil]
      exact List.perm_middle.trans (List.perm_append_singleton _ _).symm
  | setTimes key startTime endTime =>
    obtain ⟨s', ret, items', hok, hlist, hset⟩ := setFields_spec h key
      fun item => { item with startTime := startTime, endTime := endTime }
    have hsame := hset.keeps fun item => ⟨rfl, rfl⟩
    refine ⟨s', ret, items', by rw [step, nmxpMetaChanSetTimes, hok]; rfl, hlist,
      sorted_of_identities hsame hsorted, hset, ?_⟩
    rw [hsame]
    simp [added]
  | setNetwork key network =>
    obtain ⟨s', ret, items', hok, hlist, hset⟩ := setFields_spec h key
      fun item => { item with network := strncpy network NAME_SIZE }
    have hsame := hset.keeps fun item => ⟨rfl, rfl⟩
    rw [strncpy_of_short hshort] at hset
    refine ⟨s', ret, items', by rw [step, nmxpMetaChanSetNetwork, hok]; rfl, hlist,
      sorted_of_identities hsame hsorted, hset, ?_⟩
    rw [hsame]
    simp [added]

/-- What holds after some calls: the items are a list, in order, and those that were added. -/
def Kept (sorttype : NmxpMetaChanListSortType) (s : MetaChanList) (done : List Call) : Prop :=
  ∃ items, IsList s.heap s.chanList items ∧ Sorted sorttype items ∧
    (identities items).Perm (added done)

theorem kept_empty : Kept sorttype emptyList [] :=
  ⟨[], rfl, List.Pairwise.nil, List.Perm.nil⟩

theorem kept_step {s : MetaChanList} {done : List Call} (h : Kept sorttype s done) {call : Call}
    (hshort : call.Short) :
    ∃ s' rets, step sorttype s call = .ok (s', rets) ∧ Kept sorttype s' (done ++ [call]) := by
  obtain ⟨items, hlist, hsorted, hperm⟩ := h
  obtain ⟨s', ret, items', hok, hlist', hsorted', -, hperm'⟩ := step_spec hlist hsorted hshort
  refine ⟨s', [ret], hok, items', hlist', hsorted', hperm'.trans ?_⟩
  have hadded : added (done ++ [call]) = added done ++ added [call] := List.filterMap_append ..
  rw [hadded]
  exact hperm.append_right _

/-- **Every sequence of calls.** On a list that was empty at first, the calls so far leave a list,
in order, of the items that were added, each once; the search finds the first item with a key; and a
further call does to the items what it should. -/
theorem metaList_run (sorttype : NmxpMetaChanListSortType) (calls : List Call)
    (hshort : ∀ call ∈ calls, call.Short) :
    ∃ s rets items, run (step sorttype) emptyList calls = .ok (s, rets) ∧
      IsList s.heap s.chanList items ∧ Sorted sorttype items ∧
      (identities items).Perm (added calls) ∧
      (∀ key, nmxpMetaChanSearchKey s key = .ok (firstWith key items)) ∧
      ∀ call : Call, call.Short → ∃ s' ret items', step sorttype s call = .ok (s', [ret]) ∧
        IsList s'.heap s'.chanList items' ∧ CallSpec items ret items' call := by
  have hsteps : AllSteps (step sorttype) (fun _ call => call.Short) emptyList calls :=
    allSteps_of_forall (fun _ call hcall => hshort call hcall) emptyList
  obtain ⟨s, rets, hrun, items, hlist, hsorted, hperm⟩ :=
    run_ok (fun s done _ => Kept sorttype s done) (fun s done _ call h hcall => kept_step h hcall)
      [] [] kept_empty hsteps
  refine ⟨s, rets, items, hrun, hlist, hsorted, hperm, searchKey_spec hlist, fun call hcall => ?_⟩
  obtain ⟨s', ret, items', hok, hlist', -, hspec, -⟩ := step_spec hlist hsorted hcall
  exact ⟨s', ret, items', hok, hlist', hspec⟩

/-- Two items with one key, in a list whose sort type is replaced. -/
def tiedCalls : List Call :=
  [.add 7 (some "BBB.HHZ".toList) 0 0 none, .setTimes 7 10 20,
    .add 7 (some "AAA.HHZ".toList) 0 0 (some "IV".toList), .add 3 none 0 0 none]

theorem metaList_run_tied : (∀ call ∈ tiedCalls, call.Short) ∧
    ∃ s rets items, run (step .startTime) emptyList tiedCalls = .ok (s, rets) ∧
      IsList s.heap s.chanList items ∧ Sorted .startTime items ∧
      (identities items).Perm (added tiedCalls) := by
  have hshort : ∀ call ∈ tiedCalls, call.Short := by
    simp [tiedCalls, Call.Short, Short, NAME_SIZE]
  obtain ⟨s, rets, items, hrun, hlist, hsorted, hperm, -, -⟩ :=
    metaList_run .startTime tiedCalls hshort
  exact ⟨hshort, s, rets, items, hrun, hlist, hsorted, hperm⟩

end Nmxptool.Chan.MetaList
