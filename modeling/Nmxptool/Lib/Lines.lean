import Mathlib.Algebra.BigOperators.Group.List.Basic
import Mathlib.Algebra.Order.BigOperators.Group.List
import Mathlib.Algebra.Order.Ring.Nat

/-! # Lines of a file

A file is read in pieces, each up to the end of a line, but no longer than the buffer has room for.
Where no line is too long for the buffer, a step that does not mind the end of a line does with the
pieces what it does with the lines: `foldlM_fgetsLines`. -/

namespace Nmxptool.Lib.Lines

variable {α β : Type} [DecidableEq α]

/-- The pieces that `fgets` gives with a buffer of `n`, until the end of the file; a piece has been
read so far. -/
def fgetsLines (eol : α) (n : ℕ) : List α → List α → List (List α)
  | piece, [] => if piece = [] then [] else [piece]
  | piece, c :: file =>
    if c = eol ∨ piece.length + 2 = n then (piece ++ [c]) :: fgetsLines eol n [] file
    else fgetsLines eol n (piece ++ [c]) file

variable {eol : α} {n : ℕ}

/-- A piece goes on while there is room. -/
theorem fgetsLines_append {l : List α} (hl : eol ∉ l) {piece : List α}
    (hroom : piece.length + l.length + 1 < n) (rest : List α) :
    fgetsLines eol n piece (l ++ rest) = fgetsLines eol n (piece ++ l) rest := by
  induction l generalizing piece with
  | nil => simp
  | cons c l ih =>
    rw [List.mem_cons, not_or] at hl
    rw [List.length_cons] at hroom
    rw [List.cons_append, fgetsLines, if_neg (by rw [not_or]; exact ⟨Ne.symm hl.1, by omega⟩),
      ih hl.2 (by rw [List.length_append, List.length_singleton]; omega), List.append_assoc,
      List.singleton_append]

theorem fgetsLines_room {l : List α} (hl : eol ∉ l) (hroom : l.length + 1 < n) (rest : List α) :
    fgetsLines eol n [] (l ++ rest) = fgetsLines eol n l rest := by
  have hzero : ([] : List α).length + l.length + 1 < n := by rwa [List.length_nil, Nat.zero_add]
  exact fgetsLines_append hl hzero rest

/-- A line that fills the buffer is a piece without its end. -/
theorem fgetsLines_full {l : List α} (hl : eol ∉ l) (hn : 2 ≤ n) (hlen : l.length + 1 = n)
    (rest : List α) : fgetsLines eol n [] (l ++ rest) = l :: fgetsLines eol n [] rest := by
  obtain ⟨l, c, rfl⟩ := (List.eq_nil_or_concat l).resolve_left fun h => by
    rw [h, List.length_nil] at hlen
    omega
  rw [List.concat_eq_append] at hl hlen ⊢
  rw [List.length_append, List.length_singleton] at hlen
  rw [List.append_assoc, fgetsLines_room (fun h => hl (List.mem_append_left _ h)) (by omega),
    List.singleton_append, fgetsLines, if_pos (Or.inr (by omega))]

section

variable {m : Type → Type} [Monad m] [LawfulMonad m] {step : β → List α → m β}
  (hnil : ∀ b, step b [] = pure b) (heol : ∀ b l, eol ∉ l → step b (l ++ [eol]) = step b l)
include hnil heol

/-- One line. -/
theorem foldlM_line {l : List α} (hl : eol ∉ l) (hn : 2 ≤ n) (hlen : l.length < n) (b : β)
    (rest : List α) : (fgetsLines eol n [] (l ++ eol :: rest)).foldlM step b =
      step b l >>= fun b' => (fgetsLines eol n [] rest).foldlM step b' := by
  by_cases hroom : l.length + 1 = n
  · have hblank (b : β) : step b [eol] = pure b := (heol b [] (by simp)).trans (hnil b)
    rw [fgetsLines_full hl hn hroom, fgetsLines, if_pos (Or.inl rfl)]
    simp [List.foldlM_cons, hblank]
  · rw [fgetsLines_room hl (by omega), fgetsLines, if_pos (Or.inl rfl), List.foldlM_cons,
      heol b l hl]

omit heol in
/-- The last line. -/
theorem foldlM_last {l : List α} (hl : eol ∉ l) (hn : 2 ≤ n) (hlen : l.length < n) (b : β) :
    (fgetsLines eol n [] l).foldlM step b = step b l := by
  by_cases hroom : l.length + 1 = n
  · have hfull := fgetsLines_full hl hn hroom []
    rw [List.append_nil] at hfull
    rw [hfull]
    simp [fgetsLines]
  · have hroom' := fgetsLines_room hl (n := n) (by omega) []
    rw [List.append_nil] at hroom'
    rw [hroom', fgetsLines]
    split_ifs with h
    · rw [h, hnil]
      rfl
    · simp

/-- **Reading in pieces is reading line by line**, where the lines fit. -/
theorem foldlM_fgetsLines (hn : 2 ≤ n) (file : List α) (hlen : ∀ l ∈ file.splitOn eol, l.length < n)
    (b : β) : (fgetsLines eol n [] file).foldlM step b = (file.splitOn eol).foldlM step b := by
  induction hk : file.length using Nat.strong_induction_on generalizing file b with
  | _ k ih =>
    by_cases hmem : eol ∈ file
    · obtain ⟨l, rest, rfl, hl⟩ := List.eq_append_cons_of_mem hmem
      rw [List.splitOn_append_cons_self_of_not_mem hl, List.forall_mem_cons] at hlen
      rw [List.splitOn_append_cons_self_of_not_mem hl, List.foldlM_cons,
        foldlM_line hnil heol hl hn hlen.1]
      refine bind_congr fun b' => ih rest.length ?_ rest hlen.2 b' rfl
      rw [← hk, List.length_append, List.length_cons]
      omega
    · rw [List.splitOn_eq_singleton hmem] at hlen ⊢
      rw [foldlM_last hnil hmem hn (hlen file (by simp))]
      simp

end

omit [DecidableEq α] in
/-- Where the lengths are at most others and have the same sum, they are the same. -/
theorem eq_of_sum_eq {l : List α} {f g : α → ℕ} (hle : ∀ a ∈ l, f a ≤ g a)
    (hsum : (l.map f).sum = (l.map g).sum) : ∀ a ∈ l, f a = g a := by
  induction l with
  | nil => simp
  | cons a l ih =>
    rw [List.forall_mem_cons] at hle
    have hrest : (l.map f).sum ≤ (l.map g).sum := List.sum_le_sum hle.2
    simp only [List.map_cons, List.sum_cons] at hsum
    rw [List.forall_mem_cons]
    exact ⟨by omega, ih hle.2 (by omega)⟩

end Nmxptool.Lib.Lines
