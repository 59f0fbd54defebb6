import Quotum.Proofs.Controls

/-! Which limits act on a write, and which windows a confirmation settles in. -/

namespace Quotum.Controls
open General Cadences

section Winners

private theorem compete_identities (winners : List ControlPolicy) (policy : ControlPolicy) :
    (compete winners policy).map controlIdentity =
      if controlIdentity policy ∈ winners.map controlIdentity then winners.map controlIdentity
      else winners.map controlIdentity ++ [controlIdentity policy] := by
  unfold compete
  have found : (winners.any fun winner => controlIdentity winner == controlIdentity policy) = true ↔
      controlIdentity policy ∈ winners.map controlIdentity := by
    simp
  by_cases taken : controlIdentity policy ∈ winners.map controlIdentity
  · rw [if_pos (found.mpr taken), if_pos taken, List.map_map]
    apply List.map_congr_left
    intro winner _
    rw [Function.comp]
    split
    · next beaten => exact beaten.1.symm
    · rfl
  · rw [if_neg fun any => taken (found.mp any), if_neg taken, List.map_append]
    rfl

private theorem mem_compete {winners : List ControlPolicy} {policy winner : ControlPolicy} (member : winner ∈ compete winners policy) :
    winner ∈ winners ∨ winner = policy := by
  unfold compete at member
  split at member
  · obtain ⟨old, inside, rfl⟩ := List.mem_map.mp member
    split
    · exact .inr rfl
    · exact .inl inside
  · simpa using member

private theorem competed (rows winners : List ControlPolicy) (distinct : (winners.map controlIdentity).Nodup) :
    ((rows.foldl compete winners).map controlIdentity).Nodup ∧
      (∀ winner ∈ rows.foldl compete winners, winner ∈ winners ∨ winner ∈ rows) ∧
        ∀ identity, identity ∈ winners.map controlIdentity ∨ identity ∈ rows.map controlIdentity →
          identity ∈ (rows.foldl compete winners).map controlIdentity := by
  induction rows generalizing winners with
  | nil => exact ⟨distinct, fun _ member => .inl member, by simp⟩
  | cons row rest ih =>
    have next : ((compete winners row).map controlIdentity).Nodup := by
      rw [compete_identities]
      split
      · exact distinct
      · next fresh => exact List.nodup_append.mpr ⟨distinct, by simp, by
          rintro first member last single rfl
          rw [List.mem_singleton] at single
          exact fresh (single ▸ member)⟩
    obtain ⟨unique, from_, kept⟩ := ih (compete winners row) next
    refine ⟨unique, ?_, ?_⟩
    · intro winner member
      rcases from_ winner member with here | later
      · rcases mem_compete here with old | rfl
        · exact .inl old
        · exact .inr (by simp)
      · exact .inr (by simp [later])
    · intro identity known
      apply kept
      rw [compete_identities]
      rw [List.map_cons, List.mem_cons] at known
      rcases known with old | rfl | later
      · left
        split
        · exact old
        · exact List.mem_append_left _ old
      · left
        split
        · assumption
        · simp
      · exact .inr later

variable {commercial : Commercial} {input : ControlDelta} {policy : ControlPolicy}

theorem winners_inForce {entity : Option Nat} (member : policy ∈ resolveWinningControls commercial entity) :
    policy ∈ commercial.inForce entity := by
  unfold resolveWinningControls at member
  simp only at member
  rcases (competed _ [] List.nodup_nil).2.1 policy member with absent | inside
  · cases absent
  · exact (List.mem_filter.mp inside).1

private theorem winners_distinct (entity : Option Nat) :
    ((resolveWinningControls commercial entity).map controlIdentity).Nodup :=
  (competed _ [] List.nodup_nil).1

/-- A policy in force that no contract replaces loses only to one that counts the same windows. -/
theorem winner_exists {entity : Option Nat} (inForce : policy ∈ commercial.inForce entity)
    (standing : policy.source = .planDefault → ∀ other ∈ commercial.inForce entity, other.source = .contract →
      controlIdentity other ≠ controlIdentity policy) :
    ∃ winner ∈ resolveWinningControls commercial entity, controlIdentity winner = controlIdentity policy := by
  unfold resolveWinningControls
  simp only
  apply List.mem_map.mp
  apply (competed _ [] List.nodup_nil).2.2
  right
  apply List.mem_map_of_mem
  refine List.mem_filter.mpr ⟨inForce, ?_⟩
  by_cases default : policy.source = .planDefault
  · split
    · simp only [Bool.or_eq_true, bne_iff_ne, ne_eq, Bool.not_eq_true']
      right
      rw [List.contains_eq_mem, decide_eq_false_iff_not]
      intro replaced
      obtain ⟨other, inside, same⟩ := List.mem_map.mp replaced
      obtain ⟨force, contract⟩ := List.mem_filter.mp inside
      exact standing default other force (by simpa using contract) same
    · simp
  · simp [default]

theorem mem_acting : policy ∈ actingControls commercial input ↔
    policy ∈ resolveWinningControls commercial input.entity ∧ input.concerns policy = true := by
  unfold actingControls
  rw [List.mem_insertionSort, List.mem_filter]

theorem acting_nodup : (actingControls commercial input).Nodup := by
  unfold actingControls
  apply (List.perm_insertionSort _ _).nodup_iff.mpr
  exact (List.Nodup.of_map _ (winners_distinct input.entity)).filter _

end Winners

section InForce
variable {commercial : Commercial} {policy other : ControlPolicy} {entity : Option Nat} {input : ControlDelta}

theorem inForce_iff : policy ∈ commercial.inForce entity ↔ policy ∈ commercial.policies ∧
    commercial.covers policy entity = true ∧ (policy.entity = none ∨ policy.entity = entity) := by
  unfold Commercial.inForce
  rw [List.mem_filter, Bool.and_eq_true, Bool.or_eq_true, Option.isNone_iff_eq_none, beq_iff_eq]

/-- Competing policies of one write count the same usage. -/
theorem competing_identity (member : policy ∈ commercial.inForce entity) (also : other ∈ commercial.inForce entity)
    (same : controlIdentity policy = controlIdentity other) : policy.identity = other.identity := by
  obtain ⟨-, -, scope⟩ := inForce_iff.mp member
  obtain ⟨-, -, otherScope⟩ := inForce_iff.mp also
  simp only [controlIdentity, Prod.mk.injEq] at same
  obtain ⟨kind, -, isSome⟩ := same
  unfold ControlPolicy.identity
  rw [kind]
  congr 1
  rcases scope with none | some
  · rw [none] at isSome ⊢
    exact (Option.isNone_iff_eq_none.mp (by simpa using isSome.symm)).symm
  · rcases otherScope with none | otherSome
    · rw [none] at isSome ⊢
      exact Option.isNone_iff_eq_none.mp (by simpa using isSome)
    · rw [some, otherSome]

variable (acting : policy ∈ actingControls commercial input)
include acting

theorem acting_inForce :
    policy ∈ commercial.inForce input.entity :=
  winners_inForce (mem_acting.mp acting).1

theorem acting_feature {feature : Nat}
    (usage : policy.kind = .usageLimit feature) : feature = input.feature := by
  have concerns := (mem_acting.mp acting).2
  unfold ControlDelta.concerns at concerns
  rw [usage] at concerns
  exact beq_iff_eq.mp concerns

theorem acting_known :
    policy ∈ commercial.policies :=
  (inForce_iff.mp (acting_inForce acting)).1

end InForce

section Windows

/-- The windows of one cadence are the same or apart. -/
theorem windowBounds_unique {policy : ControlPolicy} {now time : Int}
    (inside : (policy.windowBounds now).contains time = true) : policy.windowBounds time = policy.windowBounds now := by
  unfold ControlPolicy.windowBounds at *
  cases shape : policy.interval with
  | none => rfl
  | some cadence =>
    rw [shape] at inside
    exact calendarWindow_unique cadence inside

theorem windowBounds_cadence {policy other : ControlPolicy} (same : policy.cadenceKey = other.cadenceKey) (now : Int) :
    policy.windowBounds now = other.windowBounds now := by
  unfold ControlPolicy.cadenceKey at same
  unfold ControlPolicy.windowBounds
  cases first : policy.interval with
  | none =>
    cases second : other.interval with
    | none => rfl
    | some _ => simp [first, second] at same
  | some cadence =>
    cases second : other.interval with
    | none => simp [first, second] at same
    | some _ =>
      rw [first, second, Option.map_some, Option.map_some, Option.some_inj] at same
      simp only [calendarWindow, same]

theorem windowBounds_contains (policy : ControlPolicy) (bounded : policy.interval.isSome = true) (now : Int) :
    (policy.windowBounds now).contains now = true := by
  unfold ControlPolicy.windowBounds
  cases shape : policy.interval with
  | none => simp [shape] at bounded
  | some cadence => exact calendarWindow_contains cadence now

def WindowKey.IsWindow (key : WindowKey) : Prop :=
  ∃ now, key.bounds = key.policy.windowBounds now

end Windows

section Groups
variable {now : Int} {holds : List ControlHold} {active : List ControlPolicy}

theorem mem_adopted {policy : ControlPolicy} {hold : ControlHold} : hold ∈ adoptedHolds now holds policy ↔
    hold ∈ holds ∧ hold.window.policy.identity = policy.identity ∧ hold.window.bounds = policy.windowBounds now := by
  unfold adoptedHolds
  rw [List.mem_filter, Bool.and_eq_true, beq_iff_eq, beq_iff_eq]

/-- A limit settles in its current window, or leaves the confirmation to the windows that hold it. -/
def Settles (now : Int) (holds : List ControlHold) (policy : ControlPolicy) : Prop :=
  (∃ hold ∈ holds, hold.window.policy.identity = policy.identity ∧ hold.window.bounds = policy.windowBounds now) ∨
    ∀ hold ∈ holds, hold.window.policy.identity ≠ policy.identity

theorem settles_iff {policy : ControlPolicy} : heldElsewhere now holds policy = false ↔ Settles now holds policy := by
  unfold heldElsewhere Settles
  rw [Bool.and_eq_false_iff, List.isEmpty_eq_false_iff_exists_mem, List.any_eq_false]
  simp only [mem_adopted, beq_iff_eq]

theorem mem_groups {group : ConfirmationGroup} : group ∈ confirmationGroups now holds active ↔
    (∃ policy ∈ active, Settles now holds policy ∧ group = ⟨currentWindow now policy, adoptedHolds now holds policy⟩) ∨
      ∃ hold ∈ holds, (∀ policy ∈ active, Settles now holds policy → hold ∉ adoptedHolds now holds policy) ∧
        group = ⟨hold.window, [hold]⟩ := by
  unfold confirmationGroups
  simp only [List.mem_insertionSort, List.mem_append, List.mem_map, List.mem_filter, List.all_eq_true,
    Bool.not_eq_true', settles_iff, List.contains_eq_mem, decide_eq_false_iff_not]
  constructor
  · rintro (⟨policy, ⟨member, settles⟩, rfl⟩ | ⟨hold, ⟨member, unadopted⟩, rfl⟩)
    · exact .inl ⟨policy, member, settles, rfl⟩
    · exact .inr ⟨hold, member, fun policy inside settles => unadopted policy ⟨inside, settles⟩, rfl⟩
  · rintro (⟨policy, member, settles, rfl⟩ | ⟨hold, member, unadopted, rfl⟩)
    · exact .inl ⟨policy, ⟨member, settles⟩, rfl⟩
    · exact .inr ⟨hold, ⟨member, fun policy both => unadopted policy both.1 both.2⟩, rfl⟩

theorem groups_nodup (different : active.Nodup) (apart : (holds.map ControlHold.window).Nodup) :
    ((confirmationGroups now holds active).map ConfirmationGroup.window).Nodup := by
  unfold confirmationGroups
  simp only
  rw [((List.perm_insertionSort _ _).map ConfirmationGroup.window).nodup_iff, List.map_append, List.map_map, List.map_map,
    List.nodup_append]
  refine ⟨?_, ?_, ?_⟩
  · exact (different.filter _).map (currentWindow_inj now)
  · exact List.Nodup.sublist ((List.filter_sublist).map ControlHold.window) apart
  · intro first inside last outside same
    obtain ⟨policy, member, rfl⟩ := List.mem_map.mp inside
    obtain ⟨hold, unadopted, rfl⟩ := List.mem_map.mp outside
    obtain ⟨held, free⟩ := List.mem_filter.mp unadopted
    simp only [List.all_eq_true, Bool.not_eq_true', List.contains_eq_mem, decide_eq_false_iff_not] at free
    apply free policy member
    have window : (⟨policy, policy.windowBounds now⟩ : WindowKey) = hold.window := same
    exact mem_adopted.mpr ⟨held, by rw [← window], by rw [← window]⟩

end Groups

end Quotum.Controls
