import Quotum.GooglePurchases
import Quotum.General.Outcomes
import Quotum.Proofs.Mutations

/-! What a Google purchase took back stays taken back, in every run in which no notification reaches a purchase that a
snapshot invalidated and no stale snapshot is granted. -/

namespace Quotum.GooglePurchases
open General Mutations ResetAllocations

def TokenState.invalidated (state : TokenState) : Bool :=
  state.purchase.any fun stored => decide (stored.row.status ≠ .completed)

def VoidedPurchase.reversesAll (quantity : Nat) (stored : StoredPurchase) (notification : VoidedPurchase) : Bool :=
  decide (0 < stored.reversedAmount) &&
    (decide (notification.refundType = .full) || decide (notification.refundableQuantity = some 0) ||
      decide (quantity ≤ stored.reversedAmount))

/-- A step that neither scales down the reversal of an invalidated purchase nor grants it credits. -/
def Permitted (quantity : Nat) (state : TokenState) : TokenStep → Prop
  | .snapshot report => report.input.status = .completed → state.invalidated = true →
      ∀ option, state.product.option = some option → isGranted option.id state.allocations = true
  | .voided notification => state.invalidated = true → state.allocations = [] ∨
      ∀ stored, state.purchase = some stored → notification.reversesAll quantity stored = true
  | .publish _ => True
  | .use _ _ _ => True

/-- A report of a purchase of some units: Google states the same number in each, and a Google snapshot restores nothing. -/
def Reports (quantity : Nat) : TokenStep → Prop
  | .snapshot report => report.quantity = quantity ∧ report.input.allowRestoration = false
  | .voided notification => notification.quantity = some (quantity : Int)
  | .publish _ => True
  | .use _ _ _ => True

inductive TokenReach (quantity : Nat) (allowed : TokenState → TokenStep → Prop) : TokenState → Prop where
  | fresh (product : Product) : TokenReach quantity allowed ⟨product, none, []⟩
  | step {state next : TokenState} {step : TokenStep} : TokenReach quantity allowed state → Reports quantity step →
      allowed state step → step.apply state = .ok next → TokenReach quantity allowed next

/-- What was reversed of an allocation stays reversed, and the instant of its reversal stays set. -/
def StaysReversed (allocation next : TopupAllocation) : Prop :=
  next.optionId = allocation.optionId ∧ allocation.reversedQuantity ≤ next.reversedQuantity ∧
    ∀ at_, allocation.reversedAt = some at_ → next.reversedAt = some at_

def KeepsReversals (state next : TokenState) : Prop :=
  ∀ allocation ∈ state.allocations, ∃ kept ∈ next.allocations, StaysReversed allocation kept

def NothingSpendable (state : TokenState) : Prop :=
  state.invalidated = true → ∀ allocation ∈ state.allocations, ∀ now, allocation.spendable now = 0

section Shares
variable {scale quantity reversed total denominator : Nat}

private theorem scaleUnit_pos (scale : Nat) : 0 < scaleUnit scale :=
  Nat.pow_pos (by omega)

private theorem roundedQuotient_mono {numerator other : Nat} (le : numerator ≤ other) :
    roundedQuotient numerator denominator ≤ roundedQuotient other denominator :=
  Nat.div_le_div_right (by omega)

private theorem roundedQuotient_exact {count : Nat} (positive : 0 < denominator) :
    roundedQuotient (count * denominator) denominator = count := by
  unfold roundedQuotient
  apply Nat.div_eq_of_lt_le
  · rw [show count * (2 * denominator) = 2 * (count * denominator) by ring]
    omega
  · rw [Nat.add_mul, show count * (2 * denominator) = 2 * (count * denominator) by ring]
    omega

private theorem roundedQuotient_scaled {numerator factor : Nat} (positive : 0 < factor) :
    roundedQuotient (numerator * factor) (denominator * factor) = roundedQuotient numerator denominator := by
  unfold roundedQuotient
  rw [show 2 * (numerator * factor) + denominator * factor = (2 * numerator + denominator) * factor by ring,
    show 2 * (denominator * factor) = 2 * denominator * factor by ring]
  exact Nat.mul_div_mul_right _ _ positive

private theorem reversedShare_mono {other : Nat} (le : reversed ≤ other) :
    reversedShare scale quantity reversed total ≤ reversedShare scale quantity other total :=
  Nat.mul_le_mul_right _ (roundedQuotient_mono (Nat.mul_le_mul_left _ le))

private theorem reversedShare_all (scaled : scaleUnit scale ∣ quantity) (positive : 0 < total) :
    reversedShare scale quantity total total = quantity := by
  obtain ⟨count, rfl⟩ := scaled
  unfold reversedShare
  rw [show scaleUnit scale * count * total = count * (total * scaleUnit scale) by ring,
    roundedQuotient_exact (Nat.mul_pos positive (scaleUnit_pos scale))]
  ring

private theorem reversedShare_le (scaled : scaleUnit scale ∣ quantity) (positive : 0 < total) (le : reversed ≤ total) :
    reversedShare scale quantity reversed total ≤ quantity := by
  have most := @reversedShare_mono scale quantity reversed total total le
  rwa [reversedShare_all scaled positive] at most

/-- The share does not depend on how many credits a unit is worth. -/
private theorem reversedShare_scaled {credits : Nat} (positive : 0 < credits) :
    reversedShare scale quantity (reversed * credits) (total * credits) = reversedShare scale quantity reversed total := by
  unfold reversedShare
  rw [show quantity * (reversed * credits) = quantity * reversed * credits by ring,
    show total * credits * scaleUnit scale = total * scaleUnit scale * credits by ring, roundedQuotient_scaled positive]

end Shares

structure Sound (quantity : Nat) (state : TokenState) : Prop where
  keyed : (state.allocations.map TopupAllocation.optionId).Nodup
  scaled : ∀ allocation ∈ state.allocations, scaleUnit allocation.scale ∣ allocation.quantity
  unrecorded : state.purchase = none → state.allocations = []
  completed : ∀ stored, state.purchase = some stored → stored.row.status = .completed → stored.reversedAmount < quantity ∧
    ∀ allocation ∈ state.allocations, allocation.reversedAt = none ∧
      allocation.reversedQuantity ≤ reversedShare allocation.scale allocation.quantity stored.reversedAmount quantity
  invalidated : state.invalidated = true → ∀ allocation ∈ state.allocations,
    allocation.reversedAt ≠ none ∧ allocation.reversedQuantity = allocation.quantity

section Steps
variable {quantity : Nat} {state next : TokenState} {allocations : List TopupAllocation} {notification : VoidedPurchase}
  {allocation : TopupAllocation} {report : PurchaseSnapshot} {row : PurchaseRow}

theorem Sound.nothingSpendable (sound : Sound quantity state) : NothingSpendable state := by
  intro invalidated allocation member now
  obtain ⟨reversed, -⟩ := sound.invalidated invalidated allocation member
  obtain ⟨at_, isAt⟩ := Option.ne_none_iff_exists'.mp reversed
  simp [TopupAllocation.spendable, isAt]

private theorem keepsReversals_map {change : TopupAllocation → TopupAllocation}
    (stays : ∀ allocation ∈ state.allocations, StaysReversed allocation (change allocation))
    (same : next.allocations = state.allocations.map change) : KeepsReversals state next := by
  intro allocation member
  exact ⟨change allocation, same ▸ List.mem_map_of_mem member, stays allocation member⟩

theorem StaysReversed.refl (allocation : TopupAllocation) : StaysReversed allocation allocation :=
  ⟨rfl, le_refl _, fun _ same => same⟩

private theorem use_kept (consumed held : Nat) (allocation : TopupAllocation) :
    (allocation.use consumed held).optionId = allocation.optionId ∧ (allocation.use consumed held).scale = allocation.scale ∧
      (allocation.use consumed held).quantity = allocation.quantity ∧
      (allocation.use consumed held).reversedQuantity = allocation.reversedQuantity ∧
      (allocation.use consumed held).reversedAt = allocation.reversedAt := by
  unfold TopupAllocation.use
  split <;> exact ⟨rfl, rfl, rfl, rfl, rfl⟩

/-- A step that keeps of every allocation all but its usage. -/
theorem Sound.used (sound : Sound quantity state) (optionId consumed held : Nat) :
    Sound quantity { state with
      allocations := updateAt TopupAllocation.optionId optionId (TopupAllocation.use consumed held) state.allocations } := by
  have old : ∀ allocation ∈ updateAt TopupAllocation.optionId optionId (TopupAllocation.use consumed held) state.allocations,
      ∃ before ∈ state.allocations, allocation.scale = before.scale ∧ allocation.quantity = before.quantity ∧
        allocation.reversedQuantity = before.reversedQuantity ∧ allocation.reversedAt = before.reversedAt := by
    intro allocation member
    obtain ⟨before, inside, ⟨-, rfl⟩ | ⟨-, rfl⟩⟩ := mem_updateAt.mp member
    · exact ⟨before, inside, (use_kept consumed held before).2⟩
    · exact ⟨allocation, inside, rfl, rfl, rfl, rfl⟩
  refine ⟨?_, ?_, ?_, ?_, ?_⟩
  · rw [updateAt_keys fun row => (use_kept consumed held row).1]
    exact sound.keyed
  · intro allocation member
    obtain ⟨before, inside, scale, same, -, -⟩ := old allocation member
    rw [scale, same]
    exact sound.scaled before inside
  · intro absent
    rw [sound.unrecorded absent]
    rfl
  · intro stored isStored completed
    obtain ⟨part, each⟩ := sound.completed stored isStored completed
    refine ⟨part, ?_⟩
    intro allocation member
    obtain ⟨before, inside, scale, same, reversed, at_⟩ := old allocation member
    rw [scale, same, reversed, at_]
    exact each before inside
  · intro invalidated allocation member
    obtain ⟨before, inside, -, same, reversed, at_⟩ := old allocation member
    rw [same, reversed, at_]
    exact sound.invalidated invalidated before inside

private theorem used_keeps (state : TokenState) (optionId consumed held : Nat) : KeepsReversals state { state with
    allocations := updateAt TopupAllocation.optionId optionId (TopupAllocation.use consumed held) state.allocations } := by
  apply keepsReversals_map _ rfl
  intro allocation _
  obtain ⟨option, -, -, reversed, at_⟩ := use_kept consumed held allocation
  split
  · exact ⟨option, reversed.ge, fun instant same => at_.trans same⟩
  · exact .refl allocation

theorem Sound.reversed (sound : Sound quantity state) (invalid : row.status ≠ .completed) (reversedAt : Int) :
    Sound quantity { state with
      purchase := some (storePurchase state.purchase row)
      allocations := reversePurchaseAllocations reversedAt state.allocations } := by
  refine ⟨?_, ?_, ?_, ?_, ?_⟩
  · unfold reversePurchaseAllocations
    rw [List.map_map]
    exact sound.keyed
  · intro allocation member
    obtain ⟨before, inside, rfl⟩ := List.mem_map.mp member
    exact sound.scaled before inside
  · rintro ⟨⟩
  · rintro stored ⟨⟩ completed
    exact absurd completed invalid
  · intro _ allocation member
    obtain ⟨before, inside, rfl⟩ := List.mem_map.mp member
    refine ⟨?_, rfl⟩
    unfold TopupAllocation.reverse
    cases before.reversedAt <;> simp

private theorem invalidated_iff {stored : StoredPurchase} (isStored : state.purchase = some stored) :
    state.invalidated = true ↔ stored.row.status ≠ .completed := by
  unfold TokenState.invalidated
  rw [isStored]
  exact decide_eq_true_iff

theorem Sound.bounded (sound : Sound quantity state) (member : allocation ∈ state.allocations) :
    allocation.reversedQuantity ≤ allocation.quantity := by
  cases isStored : state.purchase with
  | none =>
    rw [sound.unrecorded isStored] at member
    cases member
  | some stored =>
    by_cases completed : stored.row.status = .completed
    · obtain ⟨part, each⟩ := sound.completed stored isStored completed
      exact (each allocation member).2.trans (reversedShare_le (sound.scaled allocation member) (by omega) part.le)
    · exact (sound.invalidated ((invalidated_iff isStored).mpr completed) allocation member).2.le

private theorem reversed_keeps (sound : Sound quantity state) (purchase : Option StoredPurchase) (reversedAt : Int) :
    KeepsReversals state { state with
      purchase := purchase, allocations := reversePurchaseAllocations reversedAt state.allocations } := by
  apply keepsReversals_map _ rfl
  intro allocation member
  refine ⟨rfl, sound.bounded member, ?_⟩
  intro at_ isAt
  simp [TopupAllocation.reverse, isAt]

/-- What a snapshot leaves: nothing new, a completed purchase with its grant, or a reversed one. -/
private theorem recordGooglePurchase_inv (recorded : recordGooglePurchase report state = .ok next) :
    next = state ∨
    (0 < report.quantity ∧ report.input.status = .completed ∧ ∃ row,
      upsertPurchase report.input (state.purchase.map StoredPurchase.row) = .ok row ∧ next = { state with
        purchase := some (storePurchase state.purchase row)
        allocations := materializeTopupAllocation state.product report.quantity.toNat report.input.purchasedAt state.allocations }) ∨
    (report.input.status ≠ .completed ∧ ∃ stored row, state.purchase = some stored ∧
      upsertPurchase (report.targeting stored.row) (some stored.row) = .ok row ∧ next = { state with
        purchase := some (storePurchase state.purchase row)
        allocations := reversePurchaseAllocations (report.input.invalidatedAt.getD report.input.purchasedAt) state.allocations }) := by
  unfold recordGooglePurchase at recorded
  split at recorded
  · cases recorded
  · next counted =>
    split at recorded
    · cases recorded
    · split at recorded
      · next completed =>
        obtain ⟨row, written, same⟩ := bind_ok recorded
        cases same
        exact .inr (.inl ⟨by omega, completed, row, written, rfl⟩)
      · next invalid =>
        split at recorded
        · cases recorded
          exact .inl rfl
        · next stored isStored =>
          obtain ⟨row, written, same⟩ := bind_ok recorded
          cases same
          exact .inr (.inr ⟨invalid, stored, row, isStored, written, rfl⟩)

private theorem upsertPurchase_invalid {input : PurchaseInput} {written : PurchaseRow} (lasting : input.allowRestoration = false)
    (upserted : upsertPurchase input (some row) = .ok written) : written.invalid = (row.invalid || input.invalid) := by
  unfold upsertPurchase at upserted
  simp only at upserted
  split at upserted
  · cases upserted
    exact mergedPurchase_invalid lasting
  · cases upserted

/-- A purchase is completed after a completed snapshot where it was before, or was not recorded. -/
private theorem completed_stays {input : PurchaseInput} {stored : Option StoredPurchase} {written : PurchaseRow}
    (lasting : input.allowRestoration = false) (completed : input.status = .completed)
    (upserted : upsertPurchase input (stored.map StoredPurchase.row) = .ok written) :
    written.status = .completed ↔ ∀ before, stored = some before → before.row.status = .completed := by
  cases stored with
  | none =>
    cases upserted
    constructor
    · rintro - before ⟨⟩
    · intro _
      exact completed
  | some before =>
    have invalid := upsertPurchase_invalid lasting upserted
    simp only [PurchaseRow.invalid, PurchaseInput.invalid, completed, ne_eq, not_true_eq_false, decide_false, Bool.or_false,
      decide_eq_decide, not_iff_not] at invalid
    rw [invalid]
    exact ⟨fun was other same => Option.some.inj same ▸ was, fun was => was before rfl⟩

private theorem mem_materialize {product : Product} {multiplier : Nat} {purchasedAt : Int}
    (member : allocation ∈ materializeTopupAllocation product multiplier purchasedAt allocations) :
    allocation ∈ allocations ∨ ∃ option, product.option = some option ∧ isGranted option.id allocations = false ∧
      allocation = granted option multiplier purchasedAt := by
  unfold materializeTopupAllocation at member
  split at member
  · exact .inl member
  · next option bound =>
    split at member
    · exact .inl member
    · next free =>
      rcases List.mem_append.mp member with old | new
      · exact .inl old
      · exact .inr ⟨option, bound, by simpa using free, List.mem_singleton.mp new⟩

private theorem materialize_keyed {product : Product} {multiplier : Nat} {purchasedAt : Int}
    (keyed : (allocations.map TopupAllocation.optionId).Nodup) :
    ((materializeTopupAllocation product multiplier purchasedAt allocations).map TopupAllocation.optionId).Nodup := by
  unfold materializeTopupAllocation
  split
  · exact keyed
  · next option _ =>
    split
    · exact keyed
    · next free =>
      rw [List.map_append, List.nodup_append]
      refine ⟨keyed, List.nodup_singleton _, ?_⟩
      intro id member other also same
      obtain ⟨allocation, inside, rfl⟩ := List.mem_map.mp member
      rw [List.map_singleton, List.mem_singleton] at also
      exact free (List.any_eq_true.mpr ⟨allocation, inside, beq_iff_eq.mpr (same.trans also)⟩)

theorem materialize_keeps (state : TokenState) (purchase : Option StoredPurchase) (multiplier : Nat) (purchasedAt : Int) :
    KeepsReversals state { state with
      purchase := purchase
      allocations := materializeTopupAllocation state.product multiplier purchasedAt state.allocations } := by
  intro allocation member
  refine ⟨allocation, ?_, .refl allocation⟩
  unfold materializeTopupAllocation
  split
  · exact member
  · split
    · exact member
    · exact List.mem_append_left _ member

theorem Sound.granted (sound : Sound quantity state) (counted : 0 < report.quantity)
    (reports : Reports quantity (.snapshot report)) (completed : report.input.status = .completed)
    (permitted : Permitted quantity state (.snapshot report))
    (upserted : upsertPurchase report.input (state.purchase.map StoredPurchase.row) = .ok row) :
    Sound quantity { state with
      purchase := some (storePurchase state.purchase row)
      allocations := materializeTopupAllocation state.product report.quantity.toNat report.input.purchasedAt state.allocations } := by
  obtain ⟨units, lasting⟩ := reports
  have stays := completed_stays lasting completed upserted
  refine ⟨materialize_keyed sound.keyed, ?_, ?_, ?_, ?_⟩
  · intro allocation member
    rcases mem_materialize member with old | ⟨option, -, -, rfl⟩
    · exact sound.scaled allocation old
    · exact option.scaled.mul_right _
  · rintro ⟨⟩
  · rintro stored ⟨⟩ now
    have was := stays.mp now
    have part : (storePurchase state.purchase row).reversedAmount < quantity ∧ ∀ allocation ∈ state.allocations,
        allocation.reversedAt = none ∧ allocation.reversedQuantity ≤
          reversedShare allocation.scale allocation.quantity (storePurchase state.purchase row).reversedAmount quantity := by
      cases isStored : state.purchase with
      | none =>
        refine ⟨?_, ?_⟩
        · simp only [storePurchase, Option.map_none, Option.getD_none]
          omega
        · rw [sound.unrecorded isStored]
          simp
      | some before => exact sound.completed before isStored (was before isStored)
    refine ⟨part.1, ?_⟩
    intro allocation member
    rcases mem_materialize member with old | ⟨option, -, -, rfl⟩
    · exact part.2 allocation old
    · exact ⟨rfl, Nat.zero_le _⟩
  · intro invalidated allocation member
    have invalid : row.status ≠ .completed := by simpa [TokenState.invalidated, storePurchase] using invalidated
    have before : state.invalidated = true := by
      cases isStored : state.purchase with
      | none => exact absurd (stays.mpr (by simp [isStored])) invalid
      | some stored =>
        rw [invalidated_iff isStored]
        intro was
        exact invalid (stays.mpr (by simp [isStored, was]))
    rcases mem_materialize member with old | ⟨option, bound, free, rfl⟩
    · exact sound.invalidated before allocation old
    · rw [permitted completed before option bound] at free
      cases free

/-- What a notification leaves: nothing new, or the reversal of the part that is not refundable. -/
private theorem recordGoogleVoidedPurchase_inv (recorded : recordGoogleVoidedPurchase notification state = .ok next)
    (reports : Reports quantity (.voided notification)) : next = state ∨ ∃ stored reversed, state.purchase = some stored ∧
      reversed = nextReversedQuantity stored notification.refundType quantity (notification.refundableQuantity.getD 0).toNat ∧
      0 < quantity ∧ 0 < state.product.creditAmount ∧ next = { state with
        purchase := some (stored.void quantity reversed state.product.creditAmount notification.eventTime)
        allocations := state.allocations.map (TopupAllocation.setReversal (reversed * state.product.creditAmount)
          (quantity * state.product.creditAmount) notification.eventTime) } := by
  unfold recordGoogleVoidedPurchase at recorded
  split at recorded
  · cases recorded
    exact .inl rfl
  · next stored isStored =>
    right
    simp only [show notification.quantity = some (quantity : Int) from reports] at recorded
    split at recorded
    · cases recorded
    · next counted =>
      split at recorded
      · cases recorded
      · obtain ⟨allocations, set, same⟩ := bind_ok recorded
        unfold setPurchaseAllocationReversal at set
        split at set
        · cases set
        · next ratio =>
          cases set
          cases same
          simp only [Int.toNat_natCast] at ratio ⊢
          refine ⟨stored, _, isStored, rfl, by omega, ?_, rfl⟩
          rcases Nat.eq_zero_or_pos state.product.creditAmount with none_ | some_
          · simp [none_] at ratio
          · exact some_

section Notified
variable {stored : StoredPurchase} {reversed credits : Nat} {eventTime : Int}

variable (sound : Sound quantity state)
include sound

theorem Sound.reversesPart (completed : stored.row.status = .completed) (part : reversed < quantity) (positive : 0 < credits) :
    Sound quantity { state with
      purchase := some (stored.void quantity reversed credits eventTime)
      allocations := state.allocations.map (TopupAllocation.setReversal (reversed * credits) (quantity * credits) eventTime) } := by
  have row : (stored.void quantity reversed credits eventTime).row = stored.row := by
    unfold StoredPurchase.void
    exact if_neg (by omega)
  have unequal : reversed * credits ≠ quantity * credits := by
    intro same
    exact part.ne (Nat.eq_of_mul_eq_mul_right positive same)
  refine ⟨?_, ?_, ?_, ?_, ?_⟩
  · rw [List.map_map]
    exact sound.keyed
  · intro allocation member
    obtain ⟨before, inside, rfl⟩ := List.mem_map.mp member
    exact sound.scaled before inside
  · rintro ⟨⟩
  · rintro other ⟨⟩ -
    refine ⟨part, ?_⟩
    intro allocation member
    obtain ⟨before, inside, rfl⟩ := List.mem_map.mp member
    exact ⟨if_neg unequal, (reversedShare_scaled positive).le⟩
  · intro invalidated
    rw [invalidated_iff rfl, row] at invalidated
    exact absurd completed invalidated

theorem Sound.reversesAll (all : reversed = quantity) (counted : 0 < quantity) (positive : 0 < credits) :
    Sound quantity { state with
      purchase := some (stored.void quantity reversed credits eventTime)
      allocations := state.allocations.map (TopupAllocation.setReversal (reversed * credits) (quantity * credits) eventTime) } := by
  subst all
  refine ⟨?_, ?_, ?_, ?_, ?_⟩
  · rw [List.map_map]
    exact sound.keyed
  · intro allocation member
    obtain ⟨before, inside, rfl⟩ := List.mem_map.mp member
    exact sound.scaled before inside
  · rintro ⟨⟩
  · rintro other ⟨⟩ completed
    simp [StoredPurchase.void] at completed
  · intro _ allocation member
    obtain ⟨before, inside, rfl⟩ := List.mem_map.mp member
    refine ⟨?_, reversedShare_all (sound.scaled before inside) (Nat.mul_pos counted positive)⟩
    unfold TopupAllocation.setReversal
    cases before.reversedAt <;> simp

private theorem reversesAll_keeps (purchase : Option StoredPurchase) (all : reversed = quantity)
    (counted : 0 < quantity) (positive : 0 < credits) : KeepsReversals state { state with
      purchase := purchase
      allocations := state.allocations.map (TopupAllocation.setReversal (reversed * credits) (quantity * credits) eventTime) } := by
  subst all
  apply keepsReversals_map _ rfl
  intro allocation member
  refine ⟨rfl, ?_, ?_⟩
  · have most := @reversedShare_all allocation.scale _ _ (sound.scaled allocation member) (Nat.mul_pos counted positive)
    exact (sound.bounded member).trans most.ge
  · intro at_ isAt
    simp [TopupAllocation.setReversal, isAt]

private theorem reversesPart_keeps (purchase : Option StoredPurchase) (isStored : state.purchase = some stored)
    (completed : stored.row.status = .completed) (further : stored.reversedAmount ≤ reversed) (positive : 0 < credits) :
    KeepsReversals state { state with
      purchase := purchase
      allocations := state.allocations.map (TopupAllocation.setReversal (reversed * credits) (quantity * credits) eventTime) } := by
  apply keepsReversals_map _ rfl
  intro allocation member
  obtain ⟨open_, share⟩ := (sound.completed stored isStored completed).2 allocation member
  refine ⟨rfl, ?_, ?_⟩
  · refine share.trans ((reversedShare_mono further).trans ?_)
    exact (reversedShare_scaled positive).ge
  · rw [open_]
    rintro at_ ⟨⟩

end Notified

private theorem nextReversed_completed {stored : StoredPurchase} (completed : stored.row.status = .completed) (refundType : RefundType)
    (refundable : Nat) (part : stored.reversedAmount < quantity) :
    stored.reversedAmount ≤ nextReversedQuantity stored refundType quantity refundable ∧
      nextReversedQuantity stored refundType quantity refundable ≤ quantity := by
  unfold nextReversedQuantity
  rw [if_pos (.inl completed)]
  omega

private theorem nextReversed_all {stored : StoredPurchase} (all : notification.reversesAll quantity stored = true) :
    nextReversedQuantity stored notification.refundType quantity (notification.refundableQuantity.getD 0).toNat = quantity := by
  unfold VoidedPurchase.reversesAll at all
  simp only [Bool.and_eq_true, Bool.or_eq_true, decide_eq_true_eq] at all
  obtain ⟨some_, (full | none_) | most⟩ := all
  · unfold nextReversedQuantity
    rw [if_pos (.inr some_), if_pos full]
    omega
  · unfold nextReversedQuantity
    rw [if_pos (.inr some_), none_]
    split <;> simp
  · unfold nextReversedQuantity
    rw [if_pos (.inr some_)]
    omega

/-- A permitted step takes nothing back less, and leaves a sound token. -/
theorem Sound.step (sound : Sound quantity state) {step : TokenStep} (reports : Reports quantity step)
    (permitted : Permitted quantity state step) (applied : step.apply state = .ok next) :
    Sound quantity next ∧ KeepsReversals state next := by
  have same : KeepsReversals state state := fun allocation member => ⟨allocation, member, .refl allocation⟩
  cases step with
  | publish product =>
    cases applied
    exact ⟨⟨sound.keyed, sound.scaled, sound.unrecorded, sound.completed, sound.invalidated⟩, same⟩
  | use optionId consumed held =>
    cases applied
    exact ⟨sound.used optionId consumed held, used_keeps state optionId consumed held⟩
  | snapshot report =>
    rcases recordGooglePurchase_inv applied with rfl | ⟨counted, completed, row, upserted, rfl⟩ |
      ⟨invalid, stored, row, isStored, upserted, rfl⟩
    · exact ⟨sound, same⟩
    · exact ⟨sound.granted counted reports completed permitted upserted, materialize_keeps state _ _ _⟩
    · have status := upsertPurchase_invalid (show (report.targeting stored.row).allowRestoration = false from reports.2) upserted
      have fails : row.status ≠ .completed := by
        rw [show (report.targeting stored.row).invalid = true from decide_eq_true invalid, Bool.or_true] at status
        simpa [PurchaseRow.invalid] using status
      exact ⟨sound.reversed fails _, reversed_keeps sound _ _⟩
  | voided notification =>
    rcases recordGoogleVoidedPurchase_inv applied reports with rfl | ⟨stored, reversed, isStored, isReversed, counted, positive, rfl⟩
    · exact ⟨sound, same⟩
    · by_cases completed : stored.row.status = .completed
      · obtain ⟨part, -⟩ := sound.completed stored isStored completed
        obtain ⟨further, most⟩ := nextReversed_completed completed notification.refundType
          (notification.refundableQuantity.getD 0).toNat part
        rw [← isReversed] at further most
        refine ⟨?_, reversesPart_keeps sound _ isStored completed further positive⟩
        rcases Nat.lt_or_eq_of_le most with less | all
        · exact sound.reversesPart completed less positive
        · exact sound.reversesAll all counted positive
      · rcases permitted ((invalidated_iff isStored).mpr completed) with empty | all
        · refine ⟨?_, ?_⟩
          · refine ⟨by simp [empty], by simp [empty], ?_, ?_, by simp [empty]⟩
            · rintro ⟨⟩
            · rintro other ⟨⟩ now
              unfold StoredPurchase.void at now
              simp only at now
              split at now
              · cases now
              · exact absurd now completed
          · intro allocation member
            rw [empty] at member
            cases member
        · have reached := isReversed.trans (nextReversed_all (all stored isStored))
          exact ⟨sound.reversesAll reached counted positive, reversesAll_keeps sound _ reached counted positive⟩

theorem reach_sound (reach : TokenReach quantity (Permitted quantity) state) : Sound quantity state := by
  induction reach with
  | fresh product => exact ⟨by simp, by simp, fun _ => rfl, by simp, by simp⟩
  | step _ reports permitted applied ih => exact (ih.step reports permitted applied).1

end Steps

/-- In every run in which no notification scales down the reversal of a purchase that a snapshot invalidated, and no completed
snapshot grants a further option to an invalidated one, nothing of an invalidated purchase is spendable and no step gives back
what was reversed. -/
theorem reversal_never_undone {quantity : Nat} {state : TokenState} (reach : TokenReach quantity (Permitted quantity) state) :
    NothingSpendable state ∧ ∀ step next, Reports quantity step → Permitted quantity state step → step.apply state = .ok next →
      KeepsReversals state next ∧ NothingSpendable next := by
  have sound := reach_sound reach
  refine ⟨sound.nothingSpendable, ?_⟩
  intro step next reports permitted applied
  obtain ⟨still, keeps⟩ := sound.step reports permitted applied
  exact ⟨keeps, still.nothingSpendable⟩

def coinOption : TopupOption where
  id := 1
  scale := 0
  quantity := 100 * 10 ^ 9
  expiry := .never
  scaled := ⟨100, by decide⟩

def coins : Product :=
  ⟨100, some coinOption⟩

def coinPurchase : PurchaseSnapshot where
  input := {
    customerId := 1
    productId := 1
    storeProductId := some 1
    subscriptionId := none
    channel := .android
    purchaseKind := .consumable
    originalTransactionId := none
    status := .completed
    purchasedAt := 1000
    invalidatedAt := none
    invalidationReason := none
    updateProductOnConflict := false
    allowRestoration := false
    amountPaidMinor := none
    currency := none
    identityError := "purchase token identity mismatch for provider google token 1" }
  quantity := 1
  refundableQuantity := some 1

def coinCancellation : PurchaseSnapshot :=
  { coinPurchase with
    input := { coinPurchase.input with
      status := .voided
      invalidatedAt := some 1000
      invalidationReason := some "canceled".toList } }

def coinVoided : VoidedPurchase where
  refundType := .full
  quantity := some 1
  refundableQuantity := some 0
  eventTime := 2000

def boughtCoins : TokenState where
  product := coins
  purchase := some ⟨insertedPurchase coinPurchase.input, 0, 0⟩
  allocations := [granted coinOption 1 1000]

def cancelledCoins : TokenState where
  product := coins
  purchase := some ⟨insertedPurchase coinCancellation.input, 0, 0⟩
  allocations := [(granted coinOption 1 1000).reverse 1000]

def voidedCoins : TokenState where
  product := coins
  purchase := some ⟨{ insertedPurchase coinPurchase.input with
    status := .voided, invalidatedAt := some 2000, invalidationReason := some "voided_purchase".toList }, 1, 100⟩
  allocations := [(granted coinOption 1 1000).setReversal 100 100 2000]

private theorem bought_coins {allowed : TokenState → TokenStep → Prop} (buys : allowed ⟨coins, none, []⟩ (.snapshot coinPurchase)) :
    TokenReach 1 allowed boughtCoins :=
  @TokenReach.step 1 allowed _ _ (.snapshot coinPurchase) (.fresh coins) ⟨rfl, rfl⟩ buys rfl

theorem reversal_never_undone_coins : NothingSpendable boughtCoins ∧ KeepsReversals boughtCoins voidedCoins ∧ NothingSpendable voidedCoins := by
  have reach : TokenReach 1 (Permitted 1) boughtCoins := bought_coins fun _ invalidated => absurd invalidated (by decide)
  obtain ⟨spends, steps⟩ := reversal_never_undone reach
  exact ⟨spends, steps (.voided coinVoided) voidedCoins rfl (fun invalidated => absurd invalidated (by decide)) rfl⟩

/-- A bought and cancelled purchase, of which the notification that follows gives the credits back. -/
theorem cancelled_purchase_spendable : ∃ state next, TokenReach 1 (fun _ _ => True) state ∧
    TokenStep.apply state (.voided coinVoided) = .ok next ∧ ¬ KeepsReversals state next ∧ ¬ NothingSpendable next := by
  refine ⟨cancelledCoins, { cancelledCoins with
    allocations := [((granted coinOption 1 1000).reverse 1000).setReversal 0 100 2000] }, ?_, rfl, ?_, ?_⟩
  · exact @TokenReach.step 1 (fun _ _ => True) _ _ (.snapshot coinCancellation) (bought_coins trivial) ⟨rfl, rfl⟩ trivial rfl
  · intro keeps
    obtain ⟨kept, member, -, reversed, -⟩ := keeps _ (List.mem_singleton.mpr rfl)
    rw [List.mem_singleton.mp member] at reversed
    exact absurd reversed (by decide)
  · intro spends
    exact absurd (spends (by decide) _ (List.mem_singleton.mpr rfl) 3000) (by decide)

end Quotum.GooglePurchases
