import Mathlib

/-! Taking apart computations that may fail: a sequence that succeeds did so step by step. -/

namespace Quotum.General

@[simp] theorem ok_bind {ε α β : Type} (value : α) (next : α → Except ε β) : (Except.ok value >>= next) = next value :=
  rfl

theorem bind_ok {ε α β : Type} {first : Except ε α} {next : α → Except ε β} {result : β}
    (succeeded : (first >>= next) = .ok result) : ∃ value, first = .ok value ∧ next value = .ok result := by
  cases first with
  | error failure => cases succeeded
  | ok value => exact ⟨value, rfl, succeeded⟩

theorem map_ok {ε α β : Type} {first : Except ε α} {f : α → β} {result : β} (succeeded : first.map f = .ok result) :
    ∃ value, first = .ok value ∧ f value = result := by
  cases first with
  | error failure => cases succeeded
  | ok value =>
    cases succeeded
    exact ⟨value, rfl, rfl⟩

theorem bind_error {ε α β : Type} {first : Except ε α} {next : α → Except ε β} {failure : ε}
    (failed : (first >>= next) = .error failure) :
    first = .error failure ∨ ∃ value, first = .ok value ∧ next value = .error failure := by
  cases first with
  | error other =>
    cases failed
    exact .inl rfl
  | ok value => exact .inr ⟨value, rfl, failed⟩

theorem mapM_error {ε α β : Type} {f : α → Except ε β} {inputs : List α} {failure : ε}
    (failed : inputs.mapM f = .error failure) : ∃ input ∈ inputs, f input = .error failure := by
  induction inputs with
  | nil => cases failed
  | cons input rest ih =>
    rw [List.mapM_cons] at failed
    rcases bind_error failed with here | ⟨output, -, failed⟩
    · exact ⟨input, by simp, here⟩
    · rcases bind_error failed with later | ⟨others, -, failed⟩
      · obtain ⟨other, member, there⟩ := ih later
        exact ⟨other, by simp [member], there⟩
      · cases failed

theorem mapM_ok {ε α β : Type} {f : α → Except ε β} {inputs : List α} {outputs : List β}
    (succeeded : inputs.mapM f = .ok outputs) : List.Forall₂ (fun input output => f input = .ok output) inputs outputs := by
  induction inputs generalizing outputs with
  | nil =>
    cases succeeded
    exact .nil
  | cons input rest ih =>
    rw [List.mapM_cons] at succeeded
    obtain ⟨output, here, succeeded⟩ := bind_ok succeeded
    obtain ⟨others, later, succeeded⟩ := bind_ok succeeded
    cases succeeded
    exact .cons here (ih later)

theorem paired {α β : Type} {relation : α → β → Prop} {first : List α} {second : List β} (pairs : List.Forall₂ relation first second) :
    (∀ a ∈ first, ∃ b ∈ second, relation a b) ∧ ∀ b ∈ second, ∃ a ∈ first, relation a b := by
  induction pairs with
  | nil => exact ⟨nofun, nofun⟩
  | @cons a b _ _ here _ ih =>
    refine ⟨?_, ?_⟩
    · intro other member
      rcases List.mem_cons.mp member with rfl | later
      · exact ⟨b, List.mem_cons_self, here⟩
      · obtain ⟨mate, inside, related⟩ := ih.1 other later
        exact ⟨mate, List.mem_cons_of_mem _ inside, related⟩
    · intro other member
      rcases List.mem_cons.mp member with rfl | later
      · exact ⟨a, List.mem_cons_self, here⟩
      · obtain ⟨mate, inside, related⟩ := ih.2 other later
        exact ⟨mate, List.mem_cons_of_mem _ inside, related⟩

theorem mapM_ok_mem {ε α β : Type} {f : α → Except ε β} {inputs : List α} {outputs : List β}
    (succeeded : inputs.mapM f = .ok outputs) : ∀ input ∈ inputs, ∃ output, f input = .ok output := by
  have pairs := mapM_ok succeeded
  clear succeeded
  induction pairs with
  | nil => simp
  | cons here _ ih =>
    intro input member
    rcases List.mem_cons.mp member with rfl | later
    · exact ⟨_, here⟩
    · exact ih input later

theorem mapM_eq {ε α β : Type} {f : α → Except ε β} {g : α → β} {inputs : List α}
    (each : ∀ input ∈ inputs, f input = .ok (g input)) : inputs.mapM f = .ok (inputs.map g) := by
  induction inputs with
  | nil => rfl
  | cons input rest ih =>
    rw [List.mapM_cons, each input (by simp), ok_bind, ih fun other member => each other (by simp [member]), ok_bind]
    rfl

theorem mapM_succeeds {ε α β : Type} {f : α → Except ε β} {inputs : List α}
    (each : ∀ input ∈ inputs, ∃ output, f input = .ok output) : ∃ outputs, inputs.mapM f = .ok outputs := by
  induction inputs with
  | nil => exact ⟨[], rfl⟩
  | cons input rest ih =>
    obtain ⟨output, here⟩ := each input (by simp)
    obtain ⟨others, later⟩ := ih fun other member => each other (by simp [member])
    refine ⟨output :: others, ?_⟩
    rw [List.mapM_cons, here, ok_bind, later, ok_bind]
    rfl

theorem mapM_ok_map {ε α β : Type} {f : α → Except ε β} {g : α → β} (each : ∀ input output, f input = .ok output → output = g input)
    {inputs : List α} {outputs : List β} (succeeded : inputs.mapM f = .ok outputs) : outputs = inputs.map g := by
  have pairs := mapM_ok succeeded
  clear succeeded
  induction pairs with
  | nil => rfl
  | cons here _ ih => rw [List.map_cons, each _ _ here, ih]

end Quotum.General
