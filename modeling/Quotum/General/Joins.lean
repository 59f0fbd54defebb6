import Mathlib

/-! Reports that arrive one after the other, each merged into what is stored. A merge that keeps the larger of two ranks
stores, after any of them, the largest. -/

namespace Quotum.General

section Joins
variable {σ α ε ι : Type} [LinearOrder ι] {merge : Option σ → α → Except ε σ} {valid : σ → Prop} {rank : σ → ι} {key : α → ι}

structure Joins (merge : Option σ → α → Except ε σ) (valid : σ → Prop) (rank : σ → ι) (key : α → ι) (inputs : List α) : Prop where
  first : ∀ input ∈ inputs, ∃ stored, merge none input = .ok stored ∧ valid stored ∧ rank stored = key input
  next : ∀ input ∈ inputs, ∀ stored, valid stored →
    ∃ merged, merge (some stored) input = .ok merged ∧ valid merged ∧ rank merged = max (rank stored) (key input)

/-- The largest of some keys, and of a rank that was there before. -/
structure Largest (rank : ι) (before : Option ι) (key : α → ι) (inputs : List α) : Prop where
  reached : (∃ input ∈ inputs, rank = key input) ∨ before = some rank
  above : ∀ input ∈ inputs, key input ≤ rank
  kept : ∀ other, before = some other → other ≤ rank

def mergeAll (merge : Option σ → α → Except ε σ) (inputs : List α) (stored : Option σ) : Except ε (Option σ) :=
  inputs.foldlM (fun stored input => (merge stored input).map some) stored

theorem mergeAll_cons {input : α} {rest : List α} {stored : Option σ} {merged : σ} (here : merge stored input = .ok merged) :
    mergeAll merge (input :: rest) stored = mergeAll merge rest (some merged) := by
  unfold mergeAll
  rw [List.foldlM_cons, here]
  rfl

theorem Joins.rest {input : α} {rest : List α} (joins : Joins merge valid rank key (input :: rest)) :
    Joins merge valid rank key rest where
  first := fun other member => joins.first other (List.mem_cons_of_mem input member)
  next := fun other member => joins.next other (List.mem_cons_of_mem input member)

theorem Joins.run_some {inputs : List α} (joins : Joins merge valid rank key inputs) {stored : σ} (ok : valid stored) :
    ∃ merged, mergeAll merge inputs (some stored) = .ok (some merged) ∧ valid merged ∧
      Largest (rank merged) (some (rank stored)) key inputs := by
  induction inputs generalizing stored with
  | nil =>
    refine ⟨stored, rfl, ok, .inr rfl, by simp, ?_⟩
    rintro other ⟨⟩
    exact le_refl _
  | cons input rest ih =>
    obtain ⟨next, here, kept, larger⟩ := joins.next input (by simp) stored ok
    obtain ⟨merged, later, last, reached, above, over_⟩ := ih joins.rest kept
    have atLeast := over_ _ rfl
    refine ⟨merged, (mergeAll_cons here).trans later, last, ?_, ?_, ?_⟩
    · rcases reached with ⟨other, member, same⟩ | same
      · exact .inl ⟨other, List.mem_cons_of_mem input member, same⟩
      · have same : rank next = rank merged := Option.some.inj same
        rcases max_choice (rank stored) (key input) with old | new
        · exact .inr (by rw [← same, larger, old])
        · exact .inl ⟨input, by simp, by rw [← same, larger, new]⟩
    · intro other member
      rcases List.mem_cons.mp member with rfl | inside
      · exact ((le_max_right _ _).trans larger.ge).trans atLeast
      · exact above other inside
    · rintro other ⟨⟩
      exact ((le_max_left _ _).trans larger.ge).trans atLeast

/-- A run of merges that keep the larger rank, from no row. -/
theorem Joins.run_none {inputs : List α} (joins : Joins merge valid rank key inputs) (some_ : inputs ≠ []) :
    ∃ merged, mergeAll merge inputs none = .ok (some merged) ∧ valid merged ∧
      (∃ input ∈ inputs, rank merged = key input) ∧ ∀ input ∈ inputs, key input ≤ rank merged := by
  cases inputs with
  | nil => exact absurd rfl some_
  | cons input rest =>
    obtain ⟨stored, here, ok, same⟩ := joins.first input (by simp)
    obtain ⟨merged, later, last, reached, above, over_⟩ := joins.rest.run_some ok
    refine ⟨merged, (mergeAll_cons here).trans later, last, ?_, ?_⟩
    · rcases reached with ⟨other, member, found⟩ | found
      · exact ⟨other, List.mem_cons_of_mem input member, found⟩
      · exact ⟨input, by simp, (Option.some.inj found).symm.trans same⟩
    · intro other member
      rcases List.mem_cons.mp member with rfl | inside
      · exact same.symm.le.trans (over_ _ rfl)
      · exact above other inside

end Joins

end Quotum.General
