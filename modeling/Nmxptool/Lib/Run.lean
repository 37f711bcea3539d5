import Mathlib.Data.List.Basic

/-! # Runs of a fallible step

A component is a step `σ → ι → Except ε (σ × List ω)`: it takes an input, may fault, and otherwise
gives the next state and what it put out. `run` chains a list of inputs and concatenates the
outputs.

* `run_append`: a run of `is ++ js` is a run of `is` followed by one of `js`.
* `AllSteps C`: every step of the run is taken in a state, and on an input, with property `C`.
* `run_inv`: an invariant of state and output so far that every such step keeps holds at the end of
  every run (and, prefixes of runs being runs, all along it).
* `run_ok`: if moreover no such step faults from the invariant, the run does not fault.
* `allSteps_iff`: two properties that are the same wherever an invariant holds hold of the same
  runs.
* `Ends.bind`: what is known of the result of a computation, fault or not, step by step.

A step `σ → ι → σ` that never faults is run by `List.foldl`; `Along C` says that every step of such
a run is taken where `C` holds.

* `foldl_inv`: an invariant of the state and of the inputs so far holds at the end of the run.
* `along_iff`: if `C` is what keeps an invariant and, from it, what makes `P` hold, then `P` holds
  along a run iff `C` does.
* `getElem?_foldl_toCell`: in a family of cells where each input goes to one, every cell has a run
  of its own. -/

namespace Nmxptool.Lib.Run

variable {σ ι ω ε : Type}

@[simp] theorem ok_bind {α β : Type} (a : α) (f : α → Except ε β) :
    ((Except.ok a : Except ε α) >>= f) = f a := rfl

@[simp] theorem error_bind {α β : Type} (e : ε) (f : α → Except ε β) :
    ((Except.error e : Except ε α) >>= f) = .error e := rfl

@[simp] theorem pure_eq_ok {α : Type} (a : α) : (pure a : Except ε α) = .ok a := rfl

/-- A bind that ends well has an intermediate result. -/
theorem bind_eq_ok {α β : Type} {x : Except ε α} {f : α → Except ε β} {b : β} :
    (x >>= f) = .ok b ↔ ∃ a, x = .ok a ∧ f a = .ok b := by
  cases x with
  | error e => simp
  | ok a => simp

theorem map_eq_ok {α β : Type} {x : Except ε α} {f : α → β} {b : β} :
    x.map f = .ok b ↔ ∃ a, x = .ok a ∧ f a = b := by
  cases x with
  | error e => simp [Except.map]
  | ok a => simp [Except.map]

/-- The elements of a list that was mapped without a fault. -/
theorem getElem?_of_mapM_ok {α β : Type} {f : α → Except ε β} {l : List α} {l' : List β}
    (h : l.mapM f = .ok l') (j : ℕ) : l[j]?.map f = l'[j]?.map Except.ok := by
  induction l generalizing l' j with
  | nil =>
    rw [List.mapM_nil] at h
    rw [← Except.ok.inj h]
    rfl
  | cons a l ih =>
    rw [List.mapM_cons] at h
    obtain ⟨b, hb, h⟩ := bind_eq_ok.mp h
    obtain ⟨bs, hbs, h⟩ := bind_eq_ok.mp h
    rw [← Except.ok.inj h]
    cases j with
    | zero => exact congrArg some hb
    | succ j => exact ih hbs j

/-- What a computation ends with: a fault with the property `E`, or a result with `Q`. -/
def Ends {α : Type} (E : ε → Prop) (Q : α → Prop) : Except ε α → Prop
  | .ok a => Q a
  | .error e => E e

/-- **The rule for sequences.** -/
theorem Ends.bind {α β : Type} {E : ε → Prop} {P : α → Prop} {Q : β → Prop} {x : Except ε α}
    {f : α → Except ε β} (h : Ends E P x) (hf : ∀ a, P a → Ends E Q (f a)) :
    Ends E Q (x >>= f) := by
  cases x with
  | error e => exact h
  | ok a => exact hf a h

/-- **The run** over a list of inputs. -/
def run (step : σ → ι → Except ε (σ × List ω)) : σ → List ι → Except ε (σ × List ω)
  | s, [] => .ok (s, [])
  | s, i :: is => do
    let (s', o) ← step s i
    let (s'', o') ← run step s' is
    return (s'', o ++ o')

/-- Every step of the run is taken where `C` holds. -/
def AllSteps (step : σ → ι → Except ε (σ × List ω)) (C : σ → ι → Prop) : σ → List ι → Prop
  | _, [] => True
  | s, i :: is => C s i ∧ ∀ s' o, step s i = .ok (s', o) → AllSteps step C s' is

variable {step : σ → ι → Except ε (σ × List ω)}

@[simp] theorem run_nil (s : σ) : run step s [] = .ok (s, []) := rfl

theorem run_cons_eq_ok {s s'' : σ} {i : ι} {is : List ι} {o'' : List ω} :
    run step s (i :: is) = .ok (s'', o'') ↔
      ∃ s' o o', step s i = .ok (s', o) ∧ run step s' is = .ok (s'', o') ∧ o'' = o ++ o' := by
  simp only [run, bind_eq_ok, pure_eq_ok, Except.ok.injEq, Prod.mk.injEq, Prod.exists]
  constructor
  · rintro ⟨s', o, h1, t, o', h2, rfl, rfl⟩; exact ⟨s', o, o', h1, h2, rfl⟩
  · rintro ⟨s', o, o', h1, h2, rfl⟩; exact ⟨s', o, h1, s'', o', h2, rfl, rfl⟩

theorem run_append {s s'' : σ} {is js : List ι} {o'' : List ω} :
    run step s (is ++ js) = .ok (s'', o'') ↔
      ∃ s' o o', run step s is = .ok (s', o) ∧ run step s' js = .ok (s'', o') ∧ o'' = o ++ o' := by
  induction is generalizing s o'' with
  | nil => simp
  | cons i is ih =>
    simp only [List.cons_append, run_cons_eq_ok, ih]
    constructor
    · rintro ⟨s1, o1, _, h1, ⟨s2, o2, o3, h2, h3, rfl⟩, rfl⟩
      exact ⟨s2, o1 ++ o2, o3, ⟨s1, o1, o2, h1, h2, rfl⟩, h3, by simp⟩
    · rintro ⟨s2, _, o3, ⟨s1, o1, o2, h1, h2, rfl⟩, h3, rfl⟩
      exact ⟨s1, o1, o2 ++ o3, h1, ⟨s2, o2, o3, h2, h3, rfl⟩, by simp⟩

theorem allSteps_of_forall {C : σ → ι → Prop} {is : List ι} (h : ∀ s, ∀ i ∈ is, C s i) (s : σ) :
    AllSteps step C s is := by
  induction is generalizing s with
  | nil => trivial
  | cons i is ih =>
    exact ⟨h s i (by simp), fun s' _ _ => ih (fun s j hj => h s j (List.mem_cons_of_mem _ hj)) s'⟩

/-- Whether all steps are taken where `C` holds can be tried out, if `C` can. -/
instance decidableAllSteps {C : σ → ι → Prop} [∀ s i, Decidable (C s i)] :
    ∀ (s : σ) (is : List ι), Decidable (AllSteps step C s is)
  | _, [] => isTrue trivial
  | s, i :: is =>
    match h : step s i with
    | .error _ => decidable_of_iff (C s i)
        ⟨fun hc => ⟨hc, fun s' o h' => by rw [h] at h'; exact absurd h' (by simp)⟩, And.left⟩
    | .ok (s1, o1) =>
      have := decidableAllSteps (C := C) s1 is
      decidable_of_iff (C s i ∧ AllSteps step C s1 is)
        ⟨fun hc => ⟨hc.1, fun s' o h' => by rw [h] at h'; cases h'; exact hc.2⟩,
          fun hc => ⟨hc.1, hc.2 s1 o1 h⟩⟩

theorem AllSteps.and {C D : σ → ι → Prop} {s : σ} {is : List ι} (hC : AllSteps step C s is)
    (hD : AllSteps step D s is) : AllSteps step (fun s i => C s i ∧ D s i) s is := by
  induction is generalizing s with
  | nil => trivial
  | cons i is ih =>
    exact ⟨⟨hC.1, hD.1⟩, fun s' o h => ih (hC.2 s' o h) (hD.2 s' o h)⟩

/-- **Properties that are the same wherever an invariant holds** hold of the same runs. -/
theorem allSteps_iff {C D : σ → ι → Prop} (I : σ → Prop)
    (hkeep : ∀ s i s' o, I s → C s i → step s i = .ok (s', o) → I s')
    (hiff : ∀ s i, I s → (D s i ↔ C s i)) {s : σ} (hs : I s) (is : List ι) :
    AllSteps step D s is ↔ AllSteps step C s is := by
  induction is generalizing s with
  | nil => exact Iff.rfl
  | cons i is ih =>
    unfold AllSteps
    rw [hiff s i hs]
    exact and_congr_right fun hc => forall_congr' fun s' => forall_congr' fun o =>
      forall_congr' fun h => ih (hkeep s i s' o hs hc h)

/-- The same for runs of which every step is taken in a domain that keeps the invariant. -/
theorem allSteps_iff_of {C D E : σ → ι → Prop} (I : σ → Prop)
    (hkeep : ∀ s i s' o, I s → E s i → step s i = .ok (s', o) → I s')
    (hiff : ∀ s i, I s → E s i → (D s i ↔ C s i)) {s : σ} (hs : I s) {is : List ι}
    (hE : AllSteps step E s is) : AllSteps step D s is ↔ AllSteps step C s is := by
  induction is generalizing s with
  | nil => exact Iff.rfl
  | cons i is ih =>
    refine and_congr (hiff s i hs hE.1) (forall_congr' fun s' => forall_congr' fun o =>
      forall_congr' fun h => ?_)
    exact ih (hkeep s i s' o hs hE.1 h) (hE.2 s' o h)

/-- **Invariants of runs.** `Inv s is tr` speaks of the state, of the inputs taken so far and of
everything put out so far. -/
theorem run_inv {C : σ → ι → Prop} (Inv : σ → List ι → List ω → Prop)
    (hstep : ∀ s done tr i s' o, Inv s done tr → C s i → step s i = .ok (s', o) →
      Inv s' (done ++ [i]) (tr ++ o))
    {s s' : σ} {is : List ι} {o : List ω} (done : List ι) (tr : List ω) (hinv : Inv s done tr)
    (hC : AllSteps step C s is) (hrun : run step s is = .ok (s', o)) :
    Inv s' (done ++ is) (tr ++ o) := by
  induction is generalizing s done tr o with
  | nil =>
    simp only [run_nil, Except.ok.injEq, Prod.mk.injEq] at hrun
    obtain ⟨rfl, rfl⟩ := hrun
    simpa using hinv
  | cons i is ih =>
    obtain ⟨s1, o1, o2, h1, h2, rfl⟩ := run_cons_eq_ok.mp hrun
    have := ih _ _ (hstep s done tr i s1 o1 hinv hC.1 h1) (hC.2 s1 o1 h1) h2
    simpa using this

/-- **Runs that do not fault**: the invariant holds initially, and from it no step faults. -/
theorem run_ok {C : σ → ι → Prop} (Inv : σ → List ι → List ω → Prop)
    (hstep : ∀ s done tr i, Inv s done tr → C s i →
      ∃ s' o, step s i = .ok (s', o) ∧ Inv s' (done ++ [i]) (tr ++ o))
    {s : σ} {is : List ι} (done : List ι) (tr : List ω) (hinv : Inv s done tr)
    (hC : AllSteps step C s is) :
    ∃ s' o, run step s is = .ok (s', o) ∧ Inv s' (done ++ is) (tr ++ o) := by
  induction is generalizing s done tr with
  | nil => exact ⟨s, [], rfl, by simpa using hinv⟩
  | cons i is ih =>
    obtain ⟨s1, o1, h1, hinv1⟩ := hstep s done tr i hinv hC.1
    obtain ⟨s2, o2, h2, hinv2⟩ := ih _ _ hinv1 (hC.2 s1 o1 h1)
    exact ⟨s2, o1 ++ o2, run_cons_eq_ok.mpr ⟨s1, o1, o2, h1, h2, rfl⟩, by simpa using hinv2⟩

/-! ### Steps that never fault -/

section Total
variable {next : σ → ι → σ}

/-- Every step of the run is taken where `C` holds. -/
def Along (next : σ → ι → σ) (C : σ → ι → Prop) (s : σ) (is : List ι) : Prop :=
  ∀ done i rest, is = done ++ i :: rest → C (done.foldl next s) i

variable {C P : σ → ι → Prop}

theorem along_nil (s : σ) : Along next C s [] := fun done i rest h => absurd h (by simp)

theorem along_cons {s : σ} {i : ι} {is : List ι} :
    Along next C s (i :: is) ↔ C s i ∧ Along next C (next s i) is := by
  constructor
  · refine fun h => ⟨h [] i is rfl, fun done j rest he => ?_⟩
    exact h (i :: done) j rest (by rw [he]; rfl)
  · rintro ⟨h1, h2⟩ done j rest he
    cases done with
    | nil => rw [← (List.cons.inj he).1]; exact h1
    | cons d done =>
      obtain ⟨rfl, hrest⟩ := List.cons.inj he
      exact h2 done j rest hrest

theorem Along.of_append {s : σ} {is js : List ι} (h : Along next C s (is ++ js)) :
    Along next C s is :=
  fun done i rest he => h done i (rest ++ js) (by rw [he, List.append_assoc, List.cons_append])

theorem Along.last {s : σ} {is : List ι} {i : ι} (h : Along next C s (is ++ [i])) :
    C (is.foldl next s) i := h is i [] rfl

/-- **Invariants of runs that never fault.** -/
theorem foldl_inv (Inv : σ → List ι → Prop)
    (hstep : ∀ s done i, Inv s done → C s i → Inv (next s i) (done ++ [i]))
    {s : σ} {is : List ι} (done : List ι) (hinv : Inv s done) (hC : Along next C s is) :
    Inv (is.foldl next s) (done ++ is) := by
  induction is generalizing s done with
  | nil => simpa using hinv
  | cons i is ih =>
    rw [along_cons] at hC
    have := ih _ (hstep s done i hinv hC.1) hC.2
    simpa using this

/-- **What holds along a run iff the condition does**: on inputs of the domain `D`, the condition
keeps the invariant, and from the invariant it is the same as `P`. -/
theorem along_iff (I : σ → Prop) (D : ι → Prop)
    (hkeep : ∀ s i, I s → D i → C s i → I (next s i))
    (hiff : ∀ s i, I s → D i → (P s i ↔ C s i)) {s : σ} (hinv : I s) {is : List ι}
    (hD : ∀ i ∈ is, D i) : Along next P s is ↔ Along next C s is := by
  induction is generalizing s with
  | nil => exact iff_of_true (along_nil s) (along_nil s)
  | cons i is ih =>
    have hi := hD i (by simp)
    rw [along_cons, along_cons, hiff s i hinv hi]
    exact and_congr_right fun hc =>
      ih (hkeep s i hinv hi hc) fun j hj => hD j (List.mem_cons_of_mem _ hj)

end Total

/-! ### Families of cells -/

section Cells
variable (idx : ι → Option ℕ) (f : ι → σ → σ)

/-- An input goes to the cell that it names, if it names one. -/
def toCell (cells : List σ) (i : ι) : List σ :=
  match idx i with
  | some k => cells.modify k (f i)
  | none => cells

theorem length_foldl_toCell (is : List ι) (cells : List σ) :
    (is.foldl (toCell idx f) cells).length = cells.length := by
  induction is generalizing cells with
  | nil => rfl
  | cons i is ih =>
    rw [List.foldl_cons, ih]
    unfold toCell
    cases idx i with
    | none => rfl
    | some k => exact List.length_modify ..

/-- **Cells are independent**: a cell is run on the inputs that name it. -/
theorem getElem?_foldl_toCell (is : List ι) (cells : List σ) (c : ℕ) :
    (is.foldl (toCell idx f) cells)[c]? =
      cells[c]?.map ((is.filter fun i => idx i = some c).foldl (fun s i => f i s)) := by
  induction is generalizing cells with
  | nil => simp
  | cons i is ih =>
    rw [List.foldl_cons, ih]
    unfold toCell
    cases hidx : idx i with
    | none => rw [List.filter_cons_of_neg (by simp [hidx])]
    | some k =>
      by_cases hk : k = c
      · subst hk
        rw [List.filter_cons_of_pos (by simp [hidx]), List.getElem?_modify_eq,
          Option.map_eq_map, Option.map_map]
        rfl
      · rw [List.filter_cons_of_neg (by simp [hidx, hk]), List.getElem?_modify_ne _ _ hk]

variable {idx} in
/-- If the inputs stand in the order of the cells, each cell has the one at its place. -/
theorem filter_eq_toList {is : List ι} (h : ∀ (j : ℕ) i, is[j]? = some i → idx i = some j) (c : ℕ) :
    is.filter (fun i => idx i = some c) = is[c]?.toList := by
  have hfrom : ∀ (is : List ι) (k : ℕ), (∀ (j : ℕ) i, is[j]? = some i → idx i = some (k + j)) →
      ∀ j, is.filter (fun i => idx i = some (k + j)) = is[j]?.toList ∧
        ∀ l < k, is.filter (fun i => idx i = some l) = [] := by
    intro is
    induction is with
    | nil => exact fun k _ j => ⟨rfl, fun l _ => rfl⟩
    | cons i is ih =>
      intro k hk j
      have hi : idx i = some k := hk 0 i rfl
      have hrest : ∀ (j : ℕ) i, is[j]? = some i → idx i = some (k + 1 + j) := fun j i hj => by
        rw [Nat.add_right_comm]
        exact hk (j + 1) i hj
      refine ⟨?_, fun l hl => ?_⟩
      · cases j with
        | zero =>
          rw [List.filter_cons_of_pos (by simp [hi])]
          have := (ih (k + 1) hrest 0).2 k (Nat.lt_succ_self k)
          simp [this]
        | succ j =>
          rw [List.filter_cons_of_neg (by simp [hi])]
          have := (ih (k + 1) hrest j).1
          rw [Nat.add_right_comm] at this
          exact this
      · rw [List.filter_cons_of_neg (by simp [hi]; omega)]
        exact (ih (k + 1) hrest 0).2 l (by omega)
  have := (hfrom is 0 (fun j i hj => by rw [Nat.zero_add]; exact h j i hj) c).1
  rw [Nat.zero_add] at this
  exact this

end Cells

end Nmxptool.Lib.Run
