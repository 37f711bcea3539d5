import Mathlib.Data.List.TakeWhile
import Mathlib.Order.Basic
import Mathlib.Tactic.SplitIfs

/-! # Blocks of memory

A block that was allocated, as the list of its bytes. An access outside the block gives `none`.

* `readAt_writeAt_same`, `readAt_writeAt_other`: what is read after a write.
* `strncpySource`: the bytes that `strncpy` copies, where it may stop at a NUL before the end of the
  block.
* `strncpySource_isSome`: when it stays inside the block. -/

namespace Nmxptool.Lib.Block

/-- The `n` bytes at an offset. -/
def readAt (b : List UInt8) (off n : ℕ) : Option (List UInt8) :=
  if off + n ≤ b.length then some ((b.drop off).take n) else none

/-- The bytes at an offset, overwritten. -/
def writeAt (b : List UInt8) (off : ℕ) (bs : List UInt8) : Option (List UInt8) :=
  if off + bs.length ≤ b.length then some (b.take off ++ (bs ++ b.drop (off + bs.length)))
  else none

/-- The `n` bytes that `strncpy` copies from an offset: up to a NUL, and NULs behind it. -/
def strncpySource (b : List UInt8) (off n : ℕ) : Option (List UInt8) :=
  let text := ((b.drop off).take n).takeWhile (· ≠ 0)
  if text.length = n ∨ off + text.length < b.length then
    some (text ++ List.replicate (n - text.length) 0)
  else none

variable {b b' bs : List UInt8} {off off' n : ℕ}

theorem readAt_of_le (h : off + n ≤ b.length) : readAt b off n = some ((b.drop off).take n) :=
  if_pos h

theorem le_of_readAt (h : readAt b off n = some bs) : off + n ≤ b.length := by
  unfold readAt at h
  split_ifs at h with hle
  exact hle

/-- What lies in the block as a part of it. -/
theorem readAt_append {pre post : List UInt8} (hoff : pre.length = off) (hn : bs.length = n) :
    readAt (pre ++ (bs ++ post)) off n = some bs := by
  subst hoff hn
  rw [readAt_of_le (by simp), List.drop_left, List.take_left]

theorem readAt_of_le_of_readAt {m : ℕ} (h : readAt b off n = some bs) (hm : m ≤ n) :
    readAt b off m = some (bs.take m) := by
  have hle := le_of_readAt h
  rw [readAt_of_le hle] at h
  rw [readAt_of_le (by omega), ← Option.some.inj h, List.take_take, Nat.min_eq_left hm]

/-- A read from the front part of a block. -/
theorem readAt_take {m : ℕ} (h : off + n ≤ m) (hm : m ≤ b.length) :
    readAt (b.take m) off n = readAt b off n := by
  have hlen : (b.take m).length = m := by rw [List.length_take]; omega
  rw [readAt_of_le (by omega), readAt_of_le (by omega), List.drop_take, List.take_take,
    Nat.min_eq_left (by omega)]

theorem exists_writeAt (h : off + bs.length ≤ b.length) : ∃ b', writeAt b off bs = some b' :=
  ⟨_, if_pos h⟩

theorem le_of_writeAt (h : writeAt b off bs = some b') : off + bs.length ≤ b.length := by
  unfold writeAt at h
  split_ifs at h with hle
  exact hle

theorem length_of_writeAt (h : writeAt b off bs = some b') : b'.length = b.length := by
  unfold writeAt at h
  split_ifs at h with hle
  rw [← Option.some.inj h]
  simp only [List.length_append, List.length_take, List.length_drop]
  omega

/-- A write behind the front part of a block. -/
theorem writeAt_append {front tail : List UInt8} (hoff : front.length = off) :
    writeAt (front ++ tail) off bs =
      if bs.length ≤ tail.length then some (front ++ bs ++ tail.drop bs.length) else none := by
  subst hoff
  unfold writeAt
  by_cases h : bs.length ≤ tail.length
  · rw [if_pos h, if_pos (by rw [List.length_append]; omega), List.take_left, List.append_assoc,
      List.drop_append, List.drop_eq_nil_of_le (by omega), List.nil_append, Nat.add_sub_cancel_left]
  · rw [if_neg h, if_neg (by rw [List.length_append]; omega)]

/-- **What was written is read.** -/
theorem readAt_writeAt_same (h : writeAt b off bs = some b') :
    readAt b' off bs.length = some bs := by
  unfold writeAt at h
  split_ifs at h with hle
  rw [← Option.some.inj h]
  exact readAt_append (by rw [List.length_take]; omega) rfl

/-- **The rest of the block is not changed.** -/
theorem readAt_writeAt_other (h : writeAt b off bs = some b')
    (hdisj : off' + n ≤ off ∨ off + bs.length ≤ off') : readAt b' off' n = readAt b off' n := by
  have hlen := length_of_writeAt h
  unfold readAt
  rw [hlen]
  split_ifs with hle
  · congr 1
    unfold writeAt at h
    split_ifs at h with hbs
    rw [← Option.some.inj h]
    have hpre : (b.take off).length = off := by rw [List.length_take]; omega
    apply List.ext_getElem?
    intro i
    simp only [List.getElem?_take, List.getElem?_drop, List.getElem?_append, hpre]
    split_ifs <;> grind
  · rfl

/-! ### `strncpy` -/

/-- A list without a NUL is its own text. -/
theorem takeWhile_of_no_nul {l : List UInt8} (h : 0 ∉ l) : l.takeWhile (· ≠ 0) = l := by
  rw [List.takeWhile_eq_self_iff]
  intro x hx
  exact decide_eq_true fun h0 => h (h0 ▸ hx)

theorem length_takeWhile_lt {l : List UInt8} (h : 0 ∈ l) :
    (l.takeWhile (· ≠ 0)).length < l.length := by
  have hpre := List.takeWhile_prefix (· ≠ (0 : UInt8)) (l := l)
  refine lt_of_le_of_ne hpre.length_le fun heq => ?_
  have hall := List.takeWhile_eq_self_iff.mp (hpre.eq_of_length heq)
  exact absurd (hall 0 h) (by decide)

/-- **Where `strncpy` stays inside the block**: it finds enough bytes, or a NUL. -/
theorem strncpySource_isSome :
    (strncpySource b off n).isSome ↔ off + n ≤ b.length ∨ n = 0 ∨ 0 ∈ b.drop off := by
  have hd : (b.drop off).length = b.length - off := List.length_drop
  have htake : ((b.drop off).take n).length = min n (b.length - off) := by
    rw [List.length_take, hd]
  have hle := (List.takeWhile_prefix (· ≠ (0 : UInt8)) (l := (b.drop off).take n)).length_le
  unfold strncpySource
  simp only [Option.isSome_ite]
  by_cases hnul : 0 ∈ (b.drop off).take n
  · have hlt := length_takeWhile_lt hnul
    have hmem := List.mem_of_mem_take hnul
    simp only [hmem, or_true, iff_true]
    omega
  · rw [takeWhile_of_no_nul hnul, htake]
    by_cases hmem : 0 ∈ b.drop off
    · have hmore : 0 ∈ (b.drop off).drop n := by
        rw [← List.take_append_drop n (b.drop off), List.mem_append] at hmem
        exact hmem.resolve_left hnul
      have hpos := List.length_pos_of_mem hmore
      rw [List.length_drop, hd] at hpos
      simp only [hmem, or_true, iff_true]
      omega
    · simp only [hmem, or_false]
      omega

theorem length_of_strncpySource (h : strncpySource b off n = some bs) : bs.length = n := by
  have hle := (List.takeWhile_prefix (· ≠ (0 : UInt8)) (l := (b.drop off).take n)).length_le
  rw [List.length_take] at hle
  unfold strncpySource at h
  dsimp only at h
  split_ifs at h with hc
  rw [← Option.some.inj h, List.length_append, List.length_replicate]
  omega

/-- A text with a NUL behind it. -/
theorem strncpySource_text {text : List UInt8} (rest : List UInt8)
    (h : b.drop off = text ++ 0 :: rest)
    (hno : 0 ∉ text) (hlt : text.length < n) :
    strncpySource b off n = some (text ++ List.replicate (n - text.length) 0) := by
  have htext : ((b.drop off).take n).takeWhile (· ≠ 0) = text := by
    obtain ⟨k, hk⟩ : ∃ k, n - text.length = k + 1 := ⟨n - text.length - 1, by omega⟩
    have hall : ∀ x ∈ text, decide (x ≠ 0) = true := by
      intro x hx
      refine decide_eq_true fun h0 => ?_
      rw [h0] at hx
      exact hno hx
    rw [h, List.take_append, List.take_of_length_le hlt.le, hk, List.take_succ_cons,
      List.takeWhile_append_of_pos hall]
    simp
  have hlen : off + text.length < b.length := by
    have := congrArg List.length h
    simp only [List.length_drop, List.length_append, List.length_cons] at this
    omega
  unfold strncpySource
  rw [htext]
  exact if_pos (Or.inr hlen)

/-- A text in an array that it does not fill. -/
theorem strncpySource_array {text : List UInt8} {m k : ℕ}
    (h : readAt b off m = some (text ++ List.replicate (k + 1) 0)) (hno : 0 ∉ text)
    (hlt : text.length < n) :
    strncpySource b off n = some (text ++ List.replicate (n - text.length) 0) := by
  have hle := le_of_readAt h
  rw [readAt_of_le hle] at h
  refine strncpySource_text (List.replicate k 0 ++ (b.drop off).drop m) ?_ hno hlt
  calc b.drop off = (b.drop off).take m ++ (b.drop off).drop m := (List.take_append_drop m _).symm
    _ = text ++ 0 :: (List.replicate k 0 ++ (b.drop off).drop m) := by
      rw [Option.some.inj h, List.replicate_succ, List.append_assoc, List.cons_append]

end Nmxptool.Lib.Block
