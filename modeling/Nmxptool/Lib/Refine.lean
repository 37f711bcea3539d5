import Nmxptool.Lib.Run

/-! # Steps that are runs

A step of one component may be a run of another: of none of its steps, of one, or of several. What
the first puts out is seen through a partial function, so that the second may be a part of the
first, one cell of many say.

* `Simulates`: related states, and a step from them that is a run of the other component, on inputs
  that belong to the step's own input.
* `Simulates.run`: then a run is a run of the other component. -/

namespace Nmxptool.Lib.Refine

open Nmxptool.Lib.Run

variable {σ τ ι κ ω π ε δ : Type}

/-- **A step is a run.** `R` relates the states, `C` an input of the one component to those of the
other, and `obs` picks what is seen of the output. -/
structure Simulates (stepA : σ → ι → Except ε (σ × List ω)) (stepB : τ → κ → Except δ (τ × List π))
    (R : σ → τ → Prop) (C : ι → List κ → Prop) (obs : ω → Option π) : Prop where
  step : ∀ {s t i s' o}, R s t → stepA s i = .ok (s', o) →
    ∃ ks t', C i ks ∧ Run.run stepB t ks = .ok (t', o.filterMap obs) ∧ R s' t'

variable {stepA : σ → ι → Except ε (σ × List ω)} {stepB : τ → κ → Except δ (τ × List π)}
  {R : σ → τ → Prop} {C : ι → List κ → Prop} {obs : ω → Option π}

/-- **A run is a run**, on the inputs of its steps one after the other. -/
theorem Simulates.run (h : Simulates stepA stepB R C obs) {is : List ι} : ∀ {s : σ} {t : τ} {s' : σ}
    {o : List ω}, R s t → run stepA s is = .ok (s', o) →
    ∃ kss t', List.Forall₂ C is kss ∧ Run.run stepB t kss.flatten = .ok (t', o.filterMap obs) ∧
      R s' t' := by
  induction is with
  | nil =>
    intro s t s' o hR hrun
    obtain ⟨rfl, rfl⟩ := Prod.mk.inj (Except.ok.inj hrun)
    exact ⟨[], t, .nil, rfl, hR⟩
  | cons i is ih =>
    intro s t s'' o'' hR hrun
    obtain ⟨s', o, o', hstep, hrest, rfl⟩ := run_cons_eq_ok.mp hrun
    obtain ⟨ks, t', hC, hks, hR'⟩ := h.step hR hstep
    obtain ⟨kss, t'', hCs, hkss, hR''⟩ := ih hR' hrest
    refine ⟨ks :: kss, t'', .cons hC hCs, ?_, hR''⟩
    rw [List.flatten_cons, List.filterMap_append]
    exact run_append.mpr ⟨t', _, _, hks, hkss, rfl⟩

/-- What the inputs of each step have in common, the inputs of a run have. -/
theorem flatMap_of_forall₂ {α : Type} {f : κ → Option α} {g : ι → Option α} {is : List ι}
    {kss : List (List κ)} (h : List.Forall₂ (fun i ks => ks.filterMap f = (g i).toList) is kss) :
    kss.flatten.filterMap f = is.filterMap g := by
  induction h with
  | nil => rfl
  | @cons i ks is kss hi _ ih =>
    rw [List.flatten_cons, List.filterMap_append, hi, ih]
    cases hg : g i with
    | none => rw [List.filterMap_cons_none hg]; rfl
    | some a => rw [List.filterMap_cons_some hg]; rfl

theorem exists_of_isOk {x : Except ε σ} (h : x.isOk = true) : ∃ a, x = .ok a := by
  cases x with
  | error e => exact absurd h Bool.false_ne_true
  | ok a => exact ⟨a, rfl⟩

/-- What each element of a list comes from. -/
theorem exists_forall₂ {α β : Type} {R : α → β → Prop} {as : List α} {bs : List β}
    (h : ∀ b ∈ bs, ∃ a ∈ as, R a b) : ∃ picked ⊆ as, List.Forall₂ R picked bs := by
  induction bs with
  | nil => exact ⟨[], List.nil_subset _, .nil⟩
  | cons b bs ih =>
    obtain ⟨a, ha, hR⟩ := h b List.mem_cons_self
    obtain ⟨picked, hsub, hpicked⟩ := ih fun b' hb' => h b' (List.mem_cons_of_mem b hb')
    exact ⟨a :: picked, List.cons_subset.mpr ⟨ha, hsub⟩, .cons hR hpicked⟩

/-- Related elements with the same image. -/
theorem map_eq_of_forall₂ {α β γ : Type} {R : α → β → Prop} {f : α → γ} {g : β → γ}
    (hR : ∀ a b, R a b → f a = g b) {as : List α} {bs : List β} (h : List.Forall₂ R as bs) :
    as.map f = bs.map g := by
  induction h with
  | nil => rfl
  | @cons a b as bs hab _ ih => rw [List.map_cons, List.map_cons, hR a b hab, ih]

/-- Related lists, seen through functions that agree on related elements. -/
theorem filterMap_eq_of_forall₂ {α β γ : Type} {R : α → β → Prop} {f : α → Option γ}
    {g : β → Option γ} {as : List α} {bs : List β} (h : List.Forall₂ R as bs)
    (hR : ∀ a ∈ as, ∀ b ∈ bs, R a b → f a = g b) : as.filterMap f = bs.filterMap g := by
  induction h with
  | nil => rfl
  | @cons a b as bs hab _ ih =>
    rw [List.filterMap_cons, List.filterMap_cons, hR a List.mem_cons_self b List.mem_cons_self hab,
      ih fun a' ha' b' hb' => hR a' (List.mem_cons_of_mem a ha') b' (List.mem_cons_of_mem b hb')]

/-- Every step of a run that ends well is taken. -/
theorem step_of_run {s s' : σ} {is : List ι} {o : List ω} (h : run stepA s is = .ok (s', o)) :
    ∀ i ∈ is, ∃ s₁ s₂ o₁, stepA s₁ i = .ok (s₂, o₁) := by
  induction is generalizing s o with
  | nil => exact fun i hi => absurd hi List.not_mem_nil
  | cons i is ih =>
    obtain ⟨s₁, o₁, o₂, hstep, hrest, rfl⟩ := run_cons_eq_ok.mp h
    intro j hj
    rcases List.mem_cons.mp hj with rfl | hj
    · exact ⟨s, s₁, o₁, hstep⟩
    · exact ih hrest j hj

end Nmxptool.Lib.Refine
