import Quotum.Proofs.Holds

/-! Corrections of an event return what it was charged: within its wallet quantity, within what each
allocation gave, and never past what an allocation still has consumed. -/

namespace Quotum.Metering
open General KeptLevels

def outstanding (id : AllocationId) (event : UsageEvent) : Nat :=
  deductedOn event.deductions id - restoredOn event.corrections id

structure Accounted (event : UsageEvent) : Prop where
  positive : 0 < event.quantity
  deducted : (event.usageWindow.isSome ∧ event.deductions = []) ∨
    (event.deductions.map Deduction.quantity).sum = event.walletQuantity
  distinct : (event.deductions.map Deduction.allocation).Nodup
  receipts : (event.usageWindow.isSome ∧ event.deductions = []) ∨
    ∀ correction ∈ event.corrections, ((correction.receipt.map Deduction.quantity).sum : Int) = correction.walletQuantity
  nonnegative : ∀ correction ∈ event.corrections, 0 ≤ correction.walletQuantity
  restored : ∀ id, restoredOn event.corrections id ≤ deductedOn event.deductions id
  corrected : ((event.corrections.map Correction.quantity).sum : Nat) ≤ event.quantity
  returned : (event.corrections.map Correction.walletQuantity).sum ≤ event.walletQuantity
  whole : (event.corrections.map Correction.quantity).sum = event.quantity →
    (event.corrections.map Correction.walletQuantity).sum = event.walletQuantity

/-- What a ledger's events still have deducted is consumed on their allocations. -/
structure Backed (ledger : Ledger) : Prop where
  unique : (ledger.allocations.map Allocation.id).Nodup
  numbered : ledger.events.map UsageEvent.id = List.range ledger.events.length
  accounted : ∀ event ∈ ledger.events, Accounted event
  backed : ∀ row ∈ ledger.allocations, (ledger.events.map (outstanding row.id)).sum ≤ row.consumedQuantity

variable {failure : Failure} {deductions : List Deduction} {id : AllocationId}

section Shrink
variable {catalog : Catalog} {now : Time} {ids : List AllocationId} {rows result : List Allocation}

/-- The only failure of a shrink is the table's check. -/
private theorem shrink_error (failed : shrinkKeptLevels catalog now ids rows = .error failure) :
    failure = checkViolation := by
  unfold shrinkKeptLevels at failed
  split at failed
  · cases failed
  · obtain ⟨row, -, here⟩ := mapM_error failed
    simp only [shrinkRow] at here
    split at here
    · split at here
      · cases here
      · cases here
        rfl
    · cases here

/-- Rows that keep their ids and lose at most what a receipt restores. -/
def Returns (receipt : List Deduction) (rows result : List Allocation) : Prop :=
  ∃ change : Allocation → Allocation, result = rows.map change ∧
    ∀ row ∈ rows, (change row).id = row.id ∧
      row.consumedQuantity ≤ (change row).consumedQuantity + deductedOn receipt row.id

private theorem shrink_returns (shrinks : shrinkKeptLevels catalog now ids rows = .ok result) : Returns [] rows result := by
  refine ⟨_, shrink_inv shrinks, ?_⟩
  intro row _
  obtain ⟨quantity, same⟩ := @shrunk_same catalog now ids rows row
  rw [same]
  exact ⟨rfl, Nat.le_refl _⟩

private theorem returns_self (receipt : List Deduction) (rows : List Allocation) : Returns receipt rows rows :=
  ⟨id, (List.map_id rows).symm, fun _ _ => ⟨rfl, Nat.le_add_right _ _⟩⟩

private theorem returns_trans {first second : List Deduction} {middle : List Allocation} (early : Returns first rows middle)
    (late : Returns second middle result) : Returns (first ++ second) rows result := by
  obtain ⟨before, rfl, kept⟩ := early
  obtain ⟨after, rfl, later⟩ := late
  refine ⟨after ∘ before, List.map_map, ?_⟩
  intro row member
  obtain ⟨id, spent⟩ := kept row member
  obtain ⟨same, lower⟩ := later (before row) (List.mem_map_of_mem member)
  rw [id] at same lower
  refine ⟨same, ?_⟩
  rw [deductedOn, totalAt_append, Function.comp]
  simp only [deductedOn] at spent lower
  omega

private theorem returns_ids {receipt : List Deduction} (returns : Returns receipt rows result) :
    result.map Allocation.id = rows.map Allocation.id := by
  obtain ⟨change, rfl, each⟩ := returns
  rw [List.map_map]
  exact List.map_congr_left fun row member => (each row member).1

end Shrink

/-- Failures a correction may still meet: a table check, or an operator grant that was revoked. -/
def Refused (failure : Failure) : Prop :=
  failure = checkViolation ∨
    failure = .conflict "The usage being corrected was spent from an operator grant that has been revoked"

section Reverse
variable {catalog : Catalog} {now : Time} {resumes : AllocationId → Bool} {rows result : List Allocation}
  {restored : AllocationId → Nat}

private theorem deductedOn_single (id : AllocationId) (quantity : Nat) (other : AllocationId) :
    deductedOn [⟨id, quantity⟩] other = if id = other then quantity else 0 := by
  rw [deductedOn, totalAt_cons, totalAt_nil, Nat.add_zero]

private theorem restore_inv {quantity : Nat} (succeeded : restoreAllocation catalog now resumes id quantity rows = .ok result) :
    Returns [⟨id, quantity⟩] rows result := by
  unfold restoreAllocation at succeeded
  split at succeeded
  · cases succeeded
    exact returns_self _ _
  · split at succeeded
    · cases succeeded
    · split at succeeded
      · split at succeeded
        · have lowered : Returns [⟨id, quantity⟩] rows (updateAt Allocation.id id
              (fun row => { row with consumedQuantity := row.consumedQuantity - quantity }) rows) := by
            refine ⟨_, rfl, ?_⟩
            intro row _
            rw [deductedOn_single]
            by_cases same : row.id = id
            · rw [if_pos same, if_pos same.symm]
              exact ⟨rfl, by simp only; omega⟩
            · rw [if_neg same]
              exact ⟨rfl, Nat.le_add_right _ _⟩
          have whole := returns_trans lowered (shrink_returns succeeded)
          rwa [List.append_nil] at whole
        · cases succeeded
      · cases succeeded
        exact returns_self _ _

/-- A quantity that every row of its allocation still has consumed is never too much to restore. -/
private theorem restore_error {quantity : Nat} (covered : ∀ row ∈ rows, row.id = id → quantity ≤ row.consumedQuantity)
    (failed : restoreAllocation catalog now resumes id quantity rows = .error failure) : Refused failure := by
  unfold restoreAllocation at failed
  split at failed
  · cases failed
  · next row found =>
    obtain ⟨member, same⟩ := findAt_inv found
    split at failed
    · cases failed
      exact .inr rfl
    · split at failed
      · rw [if_pos (covered row member same)] at failed
        exact .inl (shrink_error failed)
      · cases failed

private def unrestored (restored : AllocationId → Nat) (deduction : Deduction) : Nat :=
  deduction.quantity - restored deduction.allocation

/-- A reversal that goes through restores the whole quantity, within what each deduction has left. -/
private theorem reverse_inv {receipt : List Deduction} {remaining : Nat}
    (succeeded : reverseDeductions catalog now resumes restored deductions remaining rows = .ok (result, receipt)) :
    Returns receipt rows result ∧ (receipt.map Deduction.quantity).sum = remaining ∧
      ∀ id, deductedOn receipt id ≤ totalAt Deduction.allocation (unrestored restored) id deductions := by
  induction deductions generalizing remaining rows receipt with
  | nil =>
    unfold reverseDeductions at succeeded
    split at succeeded
    · next done =>
      cases succeeded
      exact ⟨returns_self _ _, done.symm, fun _ => Nat.le_refl _⟩
    · cases succeeded
  | cons deduction rest ih =>
    unfold reverseDeductions at succeeded
    split at succeeded
    · next done =>
      cases succeeded
      exact ⟨returns_self _ _, done.symm, fun _ => Nat.zero_le _⟩
    · split at succeeded
      · obtain ⟨returns, total, within⟩ := ih succeeded
        refine ⟨returns, total, fun id => (within id).trans ?_⟩
        rw [totalAt_cons]
        exact Nat.le_add_left _ _
      · obtain ⟨middle, first, succeeded⟩ := bind_ok succeeded
        obtain ⟨⟨final, others⟩, second, succeeded⟩ := bind_ok succeeded
        cases succeeded
        obtain ⟨returns, total, within⟩ := ih second
        refine ⟨returns_trans (restore_inv first) returns, ?_, ?_⟩
        · simp only [List.map_cons, List.sum_cons, total]
          omega
        · intro id
          have later := within id
          rw [deductedOn, totalAt_cons, totalAt_cons]
          rw [deductedOn] at later
          split
          · simp only [unrestored] at later ⊢
            omega
          · omega

/-- A quantity within what the deductions have left, all of it still consumed, can be reversed. -/
private theorem reverse_error {remaining : Nat} (distinct : (deductions.map Deduction.allocation).Nodup)
    (consumed : ∀ deduction ∈ deductions, ∀ row ∈ rows, row.id = deduction.allocation →
      unrestored restored deduction ≤ row.consumedQuantity) (covered : remaining ≤ (deductions.map (unrestored restored)).sum)
    (failed : reverseDeductions catalog now resumes restored deductions remaining rows = .error failure) :
    Refused failure := by
  induction deductions generalizing remaining rows with
  | nil =>
    unfold reverseDeductions at failed
    rw [if_pos (Nat.le_zero.mp covered)] at failed
    cases failed
  | cons deduction rest ih =>
    rw [List.map_cons, List.nodup_cons] at distinct
    rw [List.map_cons, List.sum_cons] at covered
    unfold reverseDeductions at failed
    split at failed
    · cases failed
    · split at failed
      · next restoredWhole =>
        have none : unrestored restored deduction = 0 := Nat.sub_eq_zero_of_le restoredWhole
        exact ih distinct.2 (fun other member => consumed other (by simp [member])) (by omega) failed
      · rcases bind_error failed with first | ⟨middle, first, failed⟩
        · refine restore_error ?_ first
          intro row member same
          exact (Nat.min_le_left _ _).trans (consumed deduction (by simp) row member same)
        · rcases bind_error failed with second | ⟨⟨final, others⟩, -, failed⟩
          · refine ih distinct.2 ?_ ?_ second
            · intro other member row inside same
              obtain ⟨change, rfl, each⟩ := restore_inv first
              obtain ⟨old, before, rfl⟩ := List.mem_map.mp inside
              obtain ⟨id, spent⟩ := each old before
              rw [id] at same
              have apart : deduction.allocation ≠ old.id := by
                intro again
                exact distinct.1 (again.trans same ▸ List.mem_map_of_mem member)
              rw [deductedOn_single, if_neg apart, Nat.add_zero] at spent
              exact (consumed other (by simp [member]) old before same).trans spent
            · simp only [unrestored] at covered ⊢
              omega
          · cases failed

end Reverse

section Event
variable {event : UsageEvent}

private theorem unrestored_outstanding (accounted : Accounted event) (id : AllocationId) :
    totalAt Deduction.allocation (unrestored (restoredOn event.corrections)) id event.deductions ≤ outstanding id event := by
  by_cases named : id ∈ event.deductions.map Deduction.allocation
  · obtain ⟨deduction, member, rfl⟩ := List.mem_map.mp named
    rw [totalAt_unique accounted.distinct member, outstanding, deductedOn, totalAt_unique accounted.distinct member]
    exact Nat.le_refl _
  · rw [totalAt_absent named]
    exact Nat.zero_le _

private theorem restored_total (corrections : List Correction) (distinct : (deductions.map Deduction.allocation).Nodup) :
    (deductions.map fun deduction => restoredOn corrections deduction.allocation).sum ≤
      (corrections.map fun correction => (correction.receipt.map Deduction.quantity).sum).sum := by
  induction corrections with
  | nil => simp [restoredOn]
  | cons correction rest ih =>
    have here := @totalAt_sum_le _ _ _ Deduction.allocation _ Deduction.allocation deductions distinct Deduction.quantity
      correction.receipt
    simp only [restoredOn, List.map_cons, List.sum_cons, List.sum_map_add] at ih ⊢
    exact Nat.add_le_add here ih

private theorem receipts_total {corrections : List Correction}
    (receipts : ∀ correction ∈ corrections,
      ((correction.receipt.map Deduction.quantity).sum : Int) = correction.walletQuantity) :
    ((corrections.map fun correction => (correction.receipt.map Deduction.quantity).sum).sum : Nat) =
      (corrections.map Correction.walletQuantity).sum := by
  induction corrections with
  | nil => rfl
  | cons correction rest ih =>
    simp only [List.map_cons, List.sum_cons, Nat.cast_add]
    rw [ih fun other member => receipts other (by simp [member]), ← receipts correction (by simp)]

private theorem unrestored_total (restored : AllocationId → Nat) (deductions : List Deduction) :
    (deductions.map Deduction.quantity).sum ≤ (deductions.map (unrestored restored)).sum +
      (deductions.map fun deduction => restored deduction.allocation).sum := by
  rw [← List.sum_map_add]
  apply List.sum_le_sum
  intro deduction _
  simp only [unrestored]
  omega

/-- A correction stays within what is left of the wallet quantity, and takes all of it when it
corrects all that is left of the quantity. -/
private theorem correctionWalletQuantity_bounds (accounted : Accounted event) (proportion : Nat → Nat → Nat → Nat)
    (requested : Nat) :
    0 ≤ correctionWalletQuantity proportion event requested ∧
      correctionWalletQuantity proportion event requested ≤
        event.walletQuantity - (event.corrections.map Correction.walletQuantity).sum ∧
      ((requested : Int) = event.quantity - ((event.corrections.map Correction.quantity).sum : Nat) →
        correctionWalletQuantity proportion event requested =
          event.walletQuantity - (event.corrections.map Correction.walletQuantity).sum) := by
  have returned := accounted.returned
  simp only [correctionWalletQuantity]
  split
  · next whole =>
    exact ⟨by omega, le_refl _, fun _ => rfl⟩
  · next partly =>
    exact ⟨le_min (Int.natCast_nonneg _) (by omega), min_le_right _ _, fun whole => absurd whole partly⟩

variable {catalog : Catalog} {now : Time} {resumes : AllocationId → Bool} {rows result : List Allocation}
  {receipt : List Deduction} {walletQuantity : Nat}

private theorem reverseOriginal_inv (accounted : Accounted event)
    (succeeded : reverseOriginalDeductions catalog now resumes event walletQuantity rows = .ok (result, receipt)) :
    Returns receipt rows result ∧
      ((event.usageWindow.isSome ∧ event.deductions = []) ∨ (receipt.map Deduction.quantity).sum = walletQuantity) ∧
      ∀ id, deductedOn receipt id ≤ outstanding id event := by
  unfold reverseOriginalDeductions at succeeded
  split at succeeded
  · next zero =>
    cases succeeded
    exact ⟨returns_self _ _, .inr zero.symm, fun _ => Nat.zero_le _⟩
  · split at succeeded
    · next metered =>
      cases succeeded
      exact ⟨returns_self _ _, .inl metered, fun _ => Nat.zero_le _⟩
    · obtain ⟨returns, total, within⟩ := reverse_inv succeeded
      exact ⟨returns, .inr total, fun id => (within id).trans (unrestored_outstanding accounted id)⟩

/-- What is left of an event's wallet quantity can be restored, while it is still consumed. -/
private theorem reverseOriginal_error (accounted : Accounted event)
    (consumed : ∀ row ∈ rows, outstanding row.id event ≤ row.consumedQuantity)
    (within : (walletQuantity : Int) ≤ event.walletQuantity - (event.corrections.map Correction.walletQuantity).sum)
    (failed : reverseOriginalDeductions catalog now resumes event walletQuantity rows = .error failure) :
    Refused failure := by
  unfold reverseOriginalDeductions at failed
  split at failed
  · cases failed
  · split at failed
    · cases failed
    · next spends =>
      refine reverse_error accounted.distinct ?_ ?_ failed
      · intro deduction member row inside same
        have left := consumed row inside
        rw [same, outstanding, deductedOn, totalAt_unique accounted.distinct member] at left
        exact left
      · have deducted := accounted.deducted.resolve_left spends
        have receipts := receipts_total (accounted.receipts.resolve_left spends)
        have given := restored_total event.corrections accounted.distinct
        have left := unrestored_total (restoredOn event.corrections) event.deductions
        omega

private theorem restoredOn_append (corrections : List Correction) (correction : Correction) (id : AllocationId) :
    restoredOn (corrections ++ [correction]) id = restoredOn corrections id + deductedOn correction.receipt id := by
  unfold restoredOn
  rw [List.map_append, List.sum_append, List.map_singleton, List.sum_singleton]

private theorem corrected_outstanding {correction : Correction}
    (restored : restoredOn (event.corrected correction).corrections id ≤ deductedOn (event.corrected correction).deductions id) :
    outstanding id (event.corrected correction) + deductedOn correction.receipt id = outstanding id event := by
  simp only [outstanding, UsageEvent.corrected, restoredOn_append] at restored ⊢
  omega

private theorem accounted_corrects (accounted : Accounted event) {proportion : Nat → Nat → Nat → Nat} {requested : Nat}
    (accepted : (requested : Int) ≤ event.quantity - ((event.corrections.map Correction.quantity).sum : Nat))
    (receipts : (event.usageWindow.isSome ∧ event.deductions = []) ∨
      ((receipt.map Deduction.quantity).sum : Int) = correctionWalletQuantity proportion event requested)
    (within : ∀ id, deductedOn receipt id ≤ outstanding id event) :
    Accounted (event.corrected ⟨requested, correctionWalletQuantity proportion event requested, receipt⟩) := by
  obtain ⟨nonnegative, below, whole⟩ := correctionWalletQuantity_bounds accounted proportion requested
  have corrected := accounted.corrected
  refine ⟨accounted.positive, accounted.deducted, accounted.distinct, ?_, ?_, ?_, ?_, ?_, ?_⟩
  · rcases receipts with metered | total
    · exact .inl metered
    · refine accounted.receipts.imp_right fun earlier correction member => ?_
      rcases List.mem_append.mp member with before | new
      · exact earlier correction before
      · rw [List.mem_singleton] at new
        rw [new]
        exact total
  · intro correction member
    rcases List.mem_append.mp member with before | new
    · exact accounted.nonnegative correction before
    · rw [List.mem_singleton] at new
      rw [new]
      exact nonnegative
  · intro id
    have restored := accounted.restored id
    have more := within id
    simp only [outstanding, UsageEvent.corrected, restoredOn_append] at more ⊢
    omega
  · simp only [UsageEvent.corrected, List.map_append, List.sum_append, List.map_singleton, List.sum_singleton]
    omega
  · simp only [UsageEvent.corrected, List.map_append, List.sum_append, List.map_singleton, List.sum_singleton]
    omega
  · simp only [UsageEvent.corrected, List.map_append, List.sum_append, List.map_singleton, List.sum_singleton]
    intro total
    have all := whole (by omega)
    omega

end Event

section Backed
variable {catalog : Catalog} {proportion : Nat → Nat → Nat → Nat} {ledger next : Ledger} {resumes : AllocationId → Bool}

private theorem accounted_new {event : UsageEvent} (positive : 0 < event.quantity) (uncorrected : event.corrections = [])
    (distinct : (event.deductions.map Deduction.allocation).Nodup)
    (deducted : (event.usageWindow.isSome ∧ event.deductions = []) ∨
      (event.deductions.map Deduction.quantity).sum = event.walletQuantity) : Accounted event := by
  refine ⟨positive, deducted, distinct, ?_, ?_, ?_, ?_, ?_, ?_⟩
  · rw [uncorrected]
    exact .inr fun correction member => by cases member
  · rw [uncorrected]
    exact fun correction member => by cases member
  · intro id
    rw [uncorrected]
    exact Nat.zero_le _
  · rw [uncorrected]
    exact Nat.zero_le _
  · rw [uncorrected]
    exact Int.natCast_nonneg _
  · rw [uncorrected]
    intro none
    exact absurd none (Nat.ne_of_lt positive)

private theorem backed_spends (backed : Backed ledger) {change : Allocation → Allocation} {event : UsageEvent}
    {reservations : List Reservation} (numbered : event.id = ledger.events.length) (accounted : Accounted event)
    (consumed : ∀ row ∈ ledger.allocations, (change row).id = row.id ∧
      row.consumedQuantity + deductedOn event.deductions row.id ≤ (change row).consumedQuantity) :
    Backed { ledger with
      allocations := ledger.allocations.map change
      reservations := reservations
      events := ledger.events ++ [event] } := by
  refine ⟨?_, ?_, ?_, ?_⟩
  · have ids : ledger.allocations.map (Allocation.id ∘ change) = ledger.allocations.map Allocation.id :=
      List.map_congr_left fun row member => (consumed row member).1
    rw [List.map_map, ids]
    exact backed.unique
  · rw [List.map_append, backed.numbered, List.map_singleton, numbered, List.length_append, List.length_singleton,
      List.range_succ]
  · intro other member
    rcases List.mem_append.mp member with before | new
    · exact backed.accounted other before
    · rw [List.mem_singleton] at new
      rw [new]
      exact accounted
  · intro row member
    obtain ⟨old, before, rfl⟩ := List.mem_map.mp member
    obtain ⟨id, more⟩ := consumed old before
    have owed := backed.backed old before
    have added : outstanding old.id event ≤ deductedOn event.deductions old.id := Nat.sub_le _ _
    rw [id, List.map_append, List.sum_append, List.map_singleton, List.sum_singleton]
    omega

private theorem backed_keeps (backed : Backed ledger) {allocations : List Allocation} {reservations : List Reservation}
    (returns : Returns [] ledger.allocations allocations) :
    Backed { ledger with
      allocations := allocations
      reservations := reservations } := by
  have ids := returns_ids returns
  obtain ⟨change, rfl, each⟩ := returns
  refine ⟨?_, backed.numbered, backed.accounted, ?_⟩
  · rw [ids]
    exact backed.unique
  · intro row member
    obtain ⟨old, before, rfl⟩ := List.mem_map.mp member
    obtain ⟨id, spent⟩ := each old before
    rw [id]
    exact (backed.backed old before).trans spent

private theorem backed_releases (backed : Backed ledger) {reservation : Reservation} {status : ReservationStatus}
    (succeeded : releaseReservationHolds catalog reservation status ledger = .ok next) : Backed next := by
  obtain ⟨ids, allocations, -, shrinks, rfl⟩ := releaseReservationHolds_inv succeeded
  have released : Returns [] ledger.allocations
      (ledger.allocations.map fun row => settled 0 (openOn reservation.holds row.id) row) :=
    ⟨_, rfl, fun row _ => ⟨rfl, Nat.le_refl _⟩⟩
  exact backed_keeps backed (returns_trans released (shrink_returns shrinks))

private theorem consumedBy_deducted (changes : List Change) (id : AllocationId) :
    deductedOn ((changes.filter fun change => 0 < change.consume).map fun change =>
      ⟨change.allocation, change.consume⟩) id = consumedBy changes id := by
  unfold deductedOn consumedBy
  induction changes with
  | nil => rfl
  | cons change rest ih =>
    rw [totalAt_cons, ← ih]
    by_cases positive : 0 < change.consume
    · rw [List.filter_cons_of_pos (by simpa using positive), List.map_cons, totalAt_cons]
    · rw [List.filter_cons_of_neg (by simpa using positive)]
      split <;> omega

section
variable (backed : Backed ledger) {input : Text}
include backed

private theorem backed_confirms {id : Nat} {admitted : Bool}
    (succeeded : confirm catalog id input admitted ledger = .ok next) : Backed next := by
  obtain ⟨reservation, found, rfl | ⟨-, expires | settles⟩⟩ := confirm_inv succeeded
  · exact backed
  · exact backed_releases backed expires
  · obtain ⟨quantity, units, event, changes, ids, allocations, -, -, planned, numbered, positive, -, uncorrected, deductions, -,
      shrinks, rfl⟩ := settles
    obtain ⟨keys, -, total⟩ := plan_inv (locked_unique backed.unique) planned
    have accounted : Accounted event := by
      refine accounted_new positive uncorrected ?_ (.inr ?_)
      · rw [deductions, List.map_map]
        refine (List.filter_sublist.map Change.allocation).nodup ?_
        rw [keys]
        exact locked_unique backed.unique
      · rw [deductions, List.map_map, ← total]
        apply sum_filter
        intro change _ none
        simpa using none
    obtain ⟨change, rfl, each⟩ := shrink_returns shrinks
    rw [List.map_map]
    refine backed_spends backed numbered accounted ?_
    intro row member
    obtain ⟨same, spent⟩ := each _ (List.mem_map_of_mem member)
    refine ⟨same, ?_⟩
    rw [deductions, consumedBy_deducted]
    exact spent

private theorem backed_consumes {rate : RateDecision} {entity : Option Nat}
    {admitted : Bool} (succeeded : consume rate entity input admitted ledger = .ok next) : Backed next := by
  rcases consume_inv succeeded with rfl | ⟨event, numbered, positive, -, uncorrected, planned, -, rfl⟩
  · exact backed
  · obtain ⟨total, -, distinct⟩ := planDeductions_inv planned
    have accounted := accounted_new positive uncorrected (distinct (locked_unique backed.unique)) (.inr total)
    exact backed_spends backed numbered accounted fun row _ => ⟨rfl, Nat.le_refl _⟩

private theorem event_unique : (ledger.events.map UsageEvent.id).Nodup := by
  rw [backed.numbered]
  exact List.nodup_range

private theorem event_backed {event : UsageEvent} (member : event ∈ ledger.events) :
    ∀ row ∈ ledger.allocations, outstanding row.id event ≤ row.consumedQuantity := by
  intro row inside
  exact (List.single_le_sum (by simp) _ (List.mem_map_of_mem member)).trans (backed.backed row inside)

private theorem backed_corrects {id : Nat} (succeeded : correct catalog proportion resumes id input ledger = .ok next) : Backed next := by
  obtain ⟨original, requested, allocations, receipt, found, accepted, nonnegative, reversed, rfl⟩ := correct_inv succeeded
  obtain ⟨member, -⟩ := findAt_inv found
  have accounted := backed.accounted original member
  obtain ⟨returns, total, within⟩ := reverseOriginal_inv accounted reversed
  have corrected := @accounted_corrects original receipt accounted proportion requested accepted
    (total.imp_right fun sum => by rw [sum]; exact Int.toNat_of_nonneg nonnegative) within
  have ids := returns_ids returns
  obtain ⟨change, rfl, each⟩ := returns
  refine ⟨?_, ?_, ?_, ?_⟩
  · rw [ids]
    exact backed.unique
  · have kept := @updateAt_keys _ _ _ UsageEvent.id original.id
      (UsageEvent.corrected ⟨requested, correctionWalletQuantity proportion original requested, receipt⟩) (fun _ => rfl)
      ledger.events
    refine kept.trans ?_
    rw [backed.numbered]
    unfold updateAt
    rw [List.length_map]
  · intro event inside
    obtain ⟨old, before, ⟨same, rfl⟩ | ⟨-, rfl⟩⟩ := mem_updateAt.mp inside
    · obtain rfl := List.inj_on_of_nodup_map (event_unique backed) before member same
      exact corrected
    · exact backed.accounted event before
  · intro row inside
    obtain ⟨old, before, rfl⟩ := List.mem_map.mp inside
    obtain ⟨same, spent⟩ := each old before
    have owed := backed.backed old before
    have moved := updateAt_sum (event_unique backed) member
      (UsageEvent.corrected ⟨requested, correctionWalletQuantity proportion original requested, receipt⟩)
      (outstanding old.id)
    have left := corrected_outstanding (corrected.restored old.id)
    rw [same]
    simp only at left ⊢
    omega

private theorem backed_expires (succeeded : expireSubjectReservations catalog ledger = .ok next) :
    Backed next := by
  unfold expireSubjectReservations at succeeded
  generalize ledger.reservations.filter (fun row => row.status = .active ∧ row.expiresAt ≤ ledger.now) = expiring
    at succeeded
  induction expiring generalizing ledger with
  | nil =>
    cases succeeded
    exact backed
  | cons reservation rest ih =>
    rw [List.foldlM_cons] at succeeded
    obtain ⟨middle, first, succeeded⟩ := bind_ok succeeded
    exact ih (backed_releases backed first) succeeded

private theorem backed_step (operation : Operation)
    (applied : operation.apply catalog proportion ledger = .ok next) : Backed next := by
  cases operation with
  | wait later =>
    cases applied
    exact ⟨backed.unique, backed.numbered, backed.accounted, backed.backed⟩
  | consume rate entity quantity admitted => exact backed_consumes backed applied
  | recordLimitUsage rate window quantity =>
    obtain ⟨event, numbered, positive, metered, none, uncorrected, rfl⟩ := recordLimitUsage_inv applied
    have accounted := accounted_new positive uncorrected (by simp [none]) (.inl ⟨metered, none⟩)
    have spends := @backed_spends ledger backed id event ledger.reservations numbered accounted
      (fun row _ => ⟨rfl, by rw [none]; exact Nat.le_refl _⟩)
    rwa [List.map_id] at spends
  | reserve rate entity quantity expiresIn admitted =>
    rcases reserve_inv applied with rfl | ⟨reservation, walletQuantity, deductions, -, -, -, -, -, -, -, rfl⟩
    · exact backed
    · exact backed_keeps backed ⟨_, rfl, fun row _ => ⟨rfl, Nat.le_refl _⟩⟩
  | confirm reservation quantity admitted => exact backed_confirms backed applied
  | release reservation =>
    rcases release_inv applied with rfl | ⟨row, status, -, -, -, released⟩
    · exact backed
    · exact backed_releases backed released
  | expire => exact backed_expires backed applied
  | correct resumes event quantity => exact backed_corrects backed applied

end

private theorem run_backed {start : Ledger} (unused : start.events = []) (unique : (start.allocations.map Allocation.id).Nodup)
    (run : Run catalog proportion start ledger) : Backed ledger := by
  induction run with
  | start =>
    refine ⟨unique, ?_, ?_, ?_⟩
    · rw [unused]
      rfl
    · rw [unused]
      exact fun event member => by cases member
    · rw [unused]
      exact fun row _ => Nat.zero_le _
  | step _ operation applied ih => exact backed_step ih operation applied

/-- A correction is refused as invalid, as too much, or by what became of an allocation, and never
because its receipt does not add up. -/
private theorem correct_error (backed : Backed ledger) {id : Nat} {input : Text}
    (failed : correct catalog proportion resumes id input ledger = .error failure) :
    (∃ message, failure = .invalidRequest message) ∨ (∃ message, failure = .conflict message) ∨
      failure = checkViolation := by
  unfold correct at failed
  split at failed
  · cases failed
    exact .inl ⟨_, rfl⟩
  · next original found =>
    obtain ⟨member, -⟩ := findAt_inv found
    have accounted := backed.accounted original member
    rcases bind_error failed with invalid | ⟨quantity, -, failed⟩
    · exact .inl (Decimal.positiveDecimal_error invalid)
    rcases bind_error failed with unread | ⟨requested, -, failed⟩
    · exact .inl (Decimal.decimalToUnits_error unread)
    split at failed
    · cases failed
      exact .inr (.inl ⟨_, rfl⟩)
    · obtain ⟨nonnegative, below, -⟩ := correctionWalletQuantity_bounds accounted proportion requested
      simp only [not_lt.mpr nonnegative, if_false] at failed
      rcases bind_error failed with reversed | ⟨⟨allocations, receipt⟩, -, failed⟩
      · rcases reverseOriginal_error accounted (event_backed backed member) (by omega) reversed with same | same
        · exact .inr (.inr same)
        · exact .inr (.inl ⟨_, same⟩)
      · cases failed

end Backed

def spentFour : Ledger where
  now := 0
  allocations := [{ purchase 1 3 with consumedQuantity := 3 }, { purchase 2 5 with consumedQuantity := 1 }]
  reservations := []
  events := [⟨0, 0, 2 * 10 ^ 9, 4, none, [⟨1, 3⟩, ⟨2, 1⟩], []⟩]

def returnedTwo : Ledger where
  now := 0
  allocations := [{ purchase 1 3 with consumedQuantity := 1 }, { purchase 2 5 with consumedQuantity := 1 }]
  reservations := []
  events := [⟨0, 0, 2 * 10 ^ 9, 4, none, [⟨1, 3⟩, ⟨2, 1⟩], [⟨10 ^ 9, 2, [⟨1, 2⟩]⟩]⟩]

def returnedEvent : UsageEvent :=
  ⟨0, 0, 2 * 10 ^ 9, 4, none, [⟨1, 3⟩, ⟨2, 1⟩], [⟨10 ^ 9, 2, [⟨1, 2⟩]⟩, ⟨10 ^ 9, 2, [⟨1, 1⟩, ⟨2, 1⟩]⟩]⟩

def returnedFour : Ledger where
  now := 0
  allocations := [purchase 1 3, purchase 2 5]
  reservations := []
  events := [returnedEvent]

end Quotum.Metering
