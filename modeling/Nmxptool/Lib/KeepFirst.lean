import Mathlib.Data.List.Nodup

/-! # Keeping the first entry of each key

Entries arrive one after the other, and an entry is kept unless one with its key is kept already.

* `nodup_keepFirst`: the kept entries have pairwise different keys.
* `map_keepFirst`: a key is kept iff it arrived.
* `find_of_mem_keepFirst`: a kept entry is the first one that arrived with its key. -/

namespace Nmxptool.Lib.KeepFirst

variable {α κ : Type} [DecidableEq κ] (key : α → κ)

/-- One entry arrives. -/
def addNew (kept : List α) (a : α) : List α :=
  if key a ∈ kept.map key then kept else kept ++ [a]

/-- The entries kept after a list of arrivals. -/
def keepFrom (kept arrivals : List α) : List α := arrivals.foldl (addNew key) kept

/-- The entries kept of a list of arrivals. -/
def keepFirst (arrivals : List α) : List α := keepFrom key [] arrivals

variable {key}

@[simp] theorem keepFrom_nil (kept : List α) : keepFrom key kept [] = kept := rfl

@[simp] theorem keepFrom_cons (kept : List α) (a : α) (arrivals : List α) :
    keepFrom key kept (a :: arrivals) = keepFrom key (addNew key kept a) arrivals := rfl

theorem keepFrom_append (kept as bs : List α) :
    keepFrom key kept (as ++ bs) = keepFrom key (keepFrom key kept as) bs :=
  List.foldl_append

/-- What is kept stays in place; what is added arrived. -/
theorem keepFrom_eq_append (kept arrivals : List α) :
    ∃ added, keepFrom key kept arrivals = kept ++ added ∧ added.Sublist arrivals := by
  induction arrivals generalizing kept with
  | nil => exact ⟨[], by rw [keepFrom_nil, List.append_nil], List.Sublist.refl _⟩
  | cons a arrivals ih =>
    obtain ⟨added, heq, hsub⟩ := ih (addNew key kept a)
    rw [keepFrom_cons, heq]
    unfold addNew
    split_ifs with h
    · exact ⟨added, rfl, hsub.cons a⟩
    · exact ⟨a :: added, by simp, hsub.cons_cons a⟩

theorem keepFirst_sublist (arrivals : List α) : (keepFirst key arrivals).Sublist arrivals := by
  obtain ⟨added, heq, hsub⟩ : ∃ added, keepFrom key [] arrivals = [] ++ added ∧
      added.Sublist arrivals := keepFrom_eq_append [] arrivals
  unfold keepFirst
  rw [heq]
  exact hsub

theorem nodup_addNew {kept : List α} (h : (kept.map key).Nodup) (a : α) :
    ((addNew key kept a).map key).Nodup := by
  unfold addNew
  split_ifs with ha
  · exact h
  · rw [List.map_append, List.nodup_append]
    refine ⟨h, List.nodup_singleton _, ?_⟩
    intro k hk k' hk' he
    rw [List.map_singleton, List.mem_singleton] at hk'
    rw [he, hk'] at hk
    exact ha hk

/-- **The kept entries have pairwise different keys.** -/
theorem nodup_keepFirst (arrivals : List α) : ((keepFirst key arrivals).map key).Nodup := by
  have hfrom : ∀ (as kept : List α), (kept.map key).Nodup →
      ((keepFrom key kept as).map key).Nodup := by
    intro as
    induction as with
    | nil => exact fun kept h => h
    | cons a as ih => exact fun kept h => ih _ (nodup_addNew h a)
  exact hfrom arrivals [] List.nodup_nil

theorem mem_map_addNew {kept : List α} {a : α} {k : κ} :
    k ∈ (addNew key kept a).map key ↔ k ∈ kept.map key ∨ k = key a := by
  unfold addNew
  split_ifs with ha
  · exact ⟨Or.inl, fun h => h.elim id (fun h => h ▸ ha)⟩
  · rw [List.map_append, List.mem_append, List.map_singleton, List.mem_singleton]

/-- **A key is kept iff it arrived.** -/
theorem map_keepFirst {arrivals : List α} {k : κ} :
    k ∈ (keepFirst key arrivals).map key ↔ k ∈ arrivals.map key := by
  have hfrom : ∀ (as kept : List α),
      k ∈ (keepFrom key kept as).map key ↔ k ∈ kept.map key ∨ k ∈ as.map key := by
    intro as
    induction as with
    | nil => intro kept; simp
    | cons a as ih =>
      intro kept
      rw [keepFrom_cons, ih, mem_map_addNew, List.map_cons, List.mem_cons, or_assoc]
  have := hfrom arrivals []
  simpa [keepFirst] using this

/-- **A kept entry is the first one that arrived with its key.** -/
theorem find_of_mem_keepFirst {arrivals : List α} {a : α} (h : a ∈ keepFirst key arrivals) :
    arrivals.find? (fun b => key b = key a) = some a := by
  have hfrom : ∀ (as kept : List α), a ∈ keepFrom key kept as → a ∉ kept →
      key a ∉ kept.map key ∧ as.find? (fun b => key b = key a) = some a := by
    intro as
    induction as with
    | nil => exact fun kept h hn => absurd h hn
    | cons b as ih =>
      intro kept h hn
      by_cases hb : key b ∈ kept.map key
      · have hadd : addNew key kept b = kept := if_pos hb
        rw [keepFrom_cons, hadd] at h
        obtain ⟨h1, h2⟩ := ih kept h hn
        refine ⟨h1, ?_⟩
        have hne : key b ≠ key a := fun he => h1 (he ▸ hb)
        simpa [List.find?_cons, hne] using h2
      · have hadd : addNew key kept b = kept ++ [b] := if_neg hb
        rw [keepFrom_cons, hadd] at h
        by_cases hab : a = b
        · subst hab
          exact ⟨hb, by simp⟩
        · obtain ⟨h1, h2⟩ := ih (kept ++ [b]) h (by simp [hn, hab])
          rw [List.map_append, List.mem_append, List.map_singleton, List.mem_singleton] at h1
          refine ⟨fun h => h1 (Or.inl h), ?_⟩
          have hne : key b ≠ key a := fun he => h1 (Or.inr he.symm)
          simpa [List.find?_cons, hne] using h2
  exact (hfrom arrivals [] h (by simp)).2

end Nmxptool.Lib.KeepFirst
