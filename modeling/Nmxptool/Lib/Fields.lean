import Mathlib.Data.List.Basic
import Mathlib.Data.List.TakeWhile

/-! # Fields with separators

A text is a first field and then others, each behind a separator of its own. Where no field contains
a separator, the fields can be read off the text: `join_inj`. -/

namespace Nmxptool.Lib.Fields

variable {α : Type}

/-- The rest behind what a test takes. -/
theorem drop_takeWhile_length (p : α → Bool) (l : List α) :
    l.drop (l.takeWhile p).length = l.dropWhile p := by
  induction l with
  | nil => rfl
  | cons c l ih =>
    by_cases hc : p c
    · rw [List.takeWhile_cons_of_pos hc, List.dropWhile_cons_of_pos hc, List.length_cons,
        List.drop_succ_cons, ih]
    · rw [List.takeWhile_cons_of_neg hc, List.dropWhile_cons_of_neg hc, List.length_nil,
        List.drop_zero]

theorem take_takeWhile_length (p : α → Bool) (l : List α) :
    l.take (l.takeWhile p).length = l.takeWhile p :=
  (List.prefix_iff_eq_take.mp (List.takeWhile_prefix p)).symm

/-- The text of some fields. -/
def join (first : List α) (fields : List (α × List α)) : List α :=
  first ++ fields.flatMap fun f => f.1 :: f.2

theorem join_nil (first : List α) : join first [] = first := List.append_nil first

theorem join_cons (first : List α) (f : α × List α) (fields : List (α × List α)) :
    join first (f :: fields) = first ++ f.1 :: join f.2 fields := by
  simp [join]

/-- The fields are free of separators, which stand only between them. -/
structure Separated (isSep : α → Bool) (first : List α) (fields : List (α × List α)) : Prop where
  first : ∀ c ∈ first, isSep c = false
  sep : ∀ f ∈ fields, isSep f.1 = true
  field : ∀ f ∈ fields, ∀ c ∈ f.2, isSep c = false

variable {isSep : α → Bool} {first first' : List α} {fields fields' : List (α × List α)}

theorem Separated.tail {f : α × List α} (h : Separated isSep first (f :: fields)) :
    Separated isSep f.2 fields where
  first := h.field f (List.mem_cons_self ..)
  sep := fun g hg => h.sep g (List.mem_cons_of_mem _ hg)
  field := fun g hg => h.field g (List.mem_cons_of_mem _ hg)

/-- The first field ends at the first separator. -/
theorem takeWhile_join (h : Separated isSep first fields) :
    (join first fields).takeWhile (fun c => !isSep c) = first := by
  have hfirst : ∀ c ∈ first, (!isSep c) = true := fun c hc => by rw [h.first c hc]; rfl
  cases fields with
  | nil => rw [join_nil, List.takeWhile_eq_self_iff.mpr hfirst]
  | cons f fields =>
    rw [join_cons, List.takeWhile_append_of_pos hfirst,
      List.takeWhile_cons_of_neg (by simp [h.sep f (List.mem_cons_self ..)]), List.append_nil]

/-- **The fields can be read off the text.** -/
theorem join_inj (h : Separated isSep first fields) (h' : Separated isSep first' fields')
    (heq : join first fields = join first' fields') : first = first' ∧ fields = fields' := by
  induction fields generalizing first first' fields' with
  | nil =>
    obtain rfl : first = first' := by rw [← takeWhile_join h, heq, takeWhile_join h']
    refine ⟨rfl, ?_⟩
    cases fields' with
    | nil => rfl
    | cons f fields' =>
      rw [join_nil, join_cons, List.self_eq_append_right] at heq
      exact absurd heq (List.cons_ne_nil _ _)
  | cons f fields ih =>
    obtain rfl : first = first' := by rw [← takeWhile_join h, heq, takeWhile_join h']
    refine ⟨rfl, ?_⟩
    cases fields' with
    | nil =>
      rw [join_nil, join_cons, List.append_right_eq_self] at heq
      exact absurd heq (List.cons_ne_nil _ _)
    | cons f' fields' =>
      rw [join_cons, join_cons] at heq
      obtain ⟨hsep, hrest⟩ := List.cons.inj (List.append_cancel_left heq)
      obtain ⟨hfield, hfields⟩ := ih h.tail h'.tail hrest
      rw [hfields, Prod.ext hsep hfield]

end Nmxptool.Lib.Fields
