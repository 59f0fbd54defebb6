import Quotum.Metering
import Quotum.General.Outcomes
import Quotum.Proofs.Decimal
import Quotum.Proofs.ShrinkLevels

/-! What each operation of the wallet ledger writes. -/

namespace Quotum.Metering
open General KeptLevels

section Rows

theorem checkRow_inv {row result : Allocation} (succeeded : checkRow row = .ok result) :
    result = row ∧ row.checked = true := by
  unfold checkRow at succeeded
  split at succeeded
  · next checked =>
    cases succeeded
    exact ⟨rfl, checked⟩
  · cases succeeded

/-- An update of every row that passes the checks. -/
theorem mapM_checkRow {f : Allocation → Allocation} {rows result : List Allocation}
    (succeeded : rows.mapM (fun row => checkRow (f row)) = .ok result) :
    result = rows.map f ∧ ∀ row ∈ rows, (f row).checked = true := by
  constructor
  · exact mapM_ok_map (fun row output here => (checkRow_inv here).1) succeeded
  · intro row member
    obtain ⟨output, here⟩ := mapM_ok_mem succeeded row member
    exact (checkRow_inv here).2

/-- A row after its hold was settled. -/
def settled (consume release : Nat) (row : Allocation) : Allocation :=
  { row with
    consumedQuantity := row.consumedQuantity + consume
    heldQuantity := row.heldQuantity - release
    reversedQuantity := row.reversedQuantity +
      if row.sourceKind = .operator ∧ row.reversedAt.isSome then release - consume else 0 }

private theorem settleHeldQuantity_inv {consume release : Nat} {row result : Allocation}
    (succeeded : settleHeldQuantity consume release row = .ok result) :
    result = settled consume release row ∧ release ≤ row.heldQuantity ∧ (settled consume release row).checked = true := by
  unfold settleHeldQuantity at succeeded
  split at succeeded
  · cases succeeded
  · next covered =>
    obtain ⟨same, checked⟩ := checkRow_inv succeeded
    exact ⟨same, Nat.le_of_not_lt covered, checked⟩

theorem mapM_settle {consume release : AllocationId → Nat} {rows result : List Allocation}
    (succeeded : rows.mapM (fun row => settleHeldQuantity (consume row.id) (release row.id) row) = .ok result) :
    result = rows.map (fun row => settled (consume row.id) (release row.id) row) ∧
      ∀ row ∈ rows, release row.id ≤ row.heldQuantity ∧ (settled (consume row.id) (release row.id) row).checked = true := by
  constructor
  · exact mapM_ok_map (fun row output here => (settleHeldQuantity_inv here).1) succeeded
  · intro row member
    obtain ⟨output, here⟩ := mapM_ok_mem succeeded row member
    exact (settleHeldQuantity_inv here).2

end Rows

variable {entity : Option Nat}

section Spend
variable {rows : List Allocation} {quantity : Nat}

theorem mem_lockAllAllocationRows {wallet : Nat} {row : Allocation} :
    row ∈ lockAllAllocationRows wallet entity rows ↔ row ∈ rows ∧ inWallet wallet entity row = true := by
  unfold lockAllAllocationRows
  rw [List.mem_insertionSort, List.mem_filter]

theorem mem_lockAllocations {now : Time} {wallet : Nat} {row : Allocation} :
    row ∈ lockAllocations now wallet entity rows ↔
      row ∈ rows ∧ inWallet wallet entity row = true ∧ row.isOpen now = true := by
  unfold lockAllocations
  rw [List.mem_insertionSort, List.mem_filter, Bool.and_eq_true]

theorem locked_unique {p : Allocation → Bool} (unique : (rows.map Allocation.id).Nodup) :
    (((rows.filter p).insertionSort fun row other => spendsBefore row other).map Allocation.id).Nodup := by
  rw [((List.perm_insertionSort _ _).map _).nodup_iff]
  exact (List.filter_sublist.map _).nodup unique

private theorem pouredOn_sum {room : Allocation → Nat} {amount : Nat} (unique : (rows.map Allocation.id).Nodup) :
    (rows.map fun row => pouredOn (pour room amount rows) row.id).sum = given (pour room amount rows) := by
  apply totalAt_sum unique
  intro entry member
  have row : entry.1 ∈ rows := by
    rw [← pour_rows amount rows]
    exact List.mem_map_of_mem member
  exact List.mem_map_of_mem row

/-- Planned deductions cover the quantity, from rows that have it, at most once from each. -/
theorem planDeductions_inv {deductions : List Deduction} (planned : planDeductions rows quantity = .ok deductions) :
    (deductions.map Deduction.quantity).sum = quantity ∧
      (∀ deduction ∈ deductions, ∃ row ∈ rows, row.id = deduction.allocation) ∧
      ((rows.map Allocation.id).Nodup → (deductions.map Deduction.allocation).Nodup) := by
  simp only [planDeductions] at planned
  split at planned
  · next covered =>
    cases planned
    refine ⟨?_, ?_, ?_⟩
    · refine Eq.trans ?_ covered
      rw [List.map_map]
      apply sum_filter
      intro entry _ none
      simpa using none
    · intro deduction member
      obtain ⟨entry, inside, rfl⟩ := List.mem_map.mp member
      have row : entry.1 ∈ rows := by
        rw [← pour_rows quantity rows]
        exact List.mem_map_of_mem (List.mem_filter.mp inside).1
      exact ⟨entry.1, row, rfl⟩
    · intro unique
      rw [List.map_map]
      have sublist := (@List.filter_sublist _ (fun entry : Allocation × Nat => decide (0 < entry.2))
        (pour (fun row => row.available.toNat) quantity rows)).map (fun entry => entry.1.id)
      refine sublist.nodup ?_
      rw [pour_keys Allocation.id]
      exact unique
  · cases planned

theorem plan_inv {rows : List Allocation} {holds : List Hold} {walletQuantity : Nat} {now : Time}
    {changes : List Change} (unique : (rows.map Allocation.id).Nodup)
    (planned : planConfirmation rows holds walletQuantity now = some changes) :
    changes.map Change.allocation = rows.map Allocation.id ∧
      (∀ row ∈ rows, releasedBy changes row.id = holdOn holds row.id) ∧
      (changes.map Change.consume).sum = walletQuantity := by
  simp only [planConfirmation] at planned
  split at planned
  · cases planned
  · next covers =>
    cases planned
    have keys : (rows.map fun row => (⟨row.id, pouredOn (pour (fun row => holdOn holds row.id) walletQuantity rows) row.id +
        pouredOn (pour (fun row => if row.isOpen now then row.available.toNat else 0) (walletQuantity -
          given (pour (fun row => holdOn holds row.id) walletQuantity rows)) rows) row.id, holdOn holds row.id⟩ : Change)).map
        Change.allocation = rows.map Allocation.id := by
      rw [List.map_map]
      rfl
    refine ⟨keys, ?_, ?_⟩
    · intro row member
      have distinct := keys ▸ unique
      exact totalAt_unique distinct (List.mem_map_of_mem member)
    · rw [List.map_map]
      have parts := List.sum_map_add (l := rows)
        (f := fun row => pouredOn (pour (fun row => holdOn holds row.id) walletQuantity rows) row.id)
        (g := fun row => pouredOn (pour (fun row => if row.isOpen now then row.available.toNat else 0) (walletQuantity -
          given (pour (fun row => holdOn holds row.id) walletQuantity rows)) rows) row.id)
      rw [pouredOn_sum unique, pouredOn_sum unique] at parts
      refine parts.trans ?_
      simp only [given_pour] at covers ⊢
      omega

end Spend

def spentRow (deductions : List Deduction) (row : Allocation) : Allocation :=
  { row with consumedQuantity := row.consumedQuantity + deductedOn deductions row.id }

def heldRow (deductions : List Deduction) (row : Allocation) : Allocation :=
  { row with heldQuantity := row.heldQuantity + deductedOn deductions row.id }

section Operations
variable {ledger next : Ledger} {input : Text} {rate : RateDecision} {admitted : Bool}

theorem consume_inv (succeeded : consume rate entity input admitted ledger = .ok next) :
    next = ledger ∨ ∃ event, event.id = ledger.events.length ∧ 0 < event.quantity ∧ event.usageWindow = none ∧
      event.corrections = [] ∧
      planDeductions (lockAllocations ledger.now rate.wallet entity ledger.allocations) event.walletQuantity =
        .ok event.deductions ∧
      (∀ row ∈ ledger.allocations, (spentRow event.deductions row).checked = true) ∧
      next = { ledger with
        allocations := ledger.allocations.map (spentRow event.deductions)
        events := ledger.events ++ [event] } := by
  unfold consume at succeeded
  obtain ⟨quantity, valid, succeeded⟩ := bind_ok succeeded
  obtain ⟨walletQuantity, -, succeeded⟩ := bind_ok succeeded
  simp only at succeeded
  split at succeeded
  · cases succeeded
    exact .inl rfl
  · obtain ⟨deductions, planned, succeeded⟩ := bind_ok succeeded
    obtain ⟨allocations, applied, succeeded⟩ := bind_ok succeeded
    obtain ⟨units, read, succeeded⟩ := bind_ok succeeded
    obtain ⟨same, checked⟩ := mapM_checkRow applied
    cases succeeded
    refine .inr ⟨⟨_, rate.meterScale, units, walletQuantity, none, deductions, []⟩, rfl,
      Decimal.positiveDecimal_units valid read, rfl, rfl, planned, checked, ?_⟩
    rw [same]
    rfl

theorem recordLimitUsage_inv {window : Nat} (succeeded : recordLimitUsage rate window input ledger = .ok next) :
    ∃ event, event.id = ledger.events.length ∧ 0 < event.quantity ∧ event.usageWindow.isSome ∧ event.deductions = [] ∧
      event.corrections = [] ∧ next = { ledger with events := ledger.events ++ [event] } := by
  unfold recordLimitUsage at succeeded
  obtain ⟨quantity, valid, succeeded⟩ := bind_ok succeeded
  obtain ⟨units, read, succeeded⟩ := bind_ok succeeded
  obtain ⟨walletQuantity, -, succeeded⟩ := bind_ok succeeded
  cases succeeded
  exact ⟨_, rfl, Decimal.positiveDecimal_units valid read, rfl, rfl, rfl, rfl⟩

theorem reserve_inv {expiresIn : Nat} (succeeded : reserve rate entity input expiresIn admitted ledger = .ok next) :
    next = ledger ∨ ∃ reservation walletQuantity deductions, reservation.id = ledger.reservations.length ∧
      reservation.status = .active ∧ reservation.rate = rate ∧ reservation.entity = entity ∧
      reservation.holds = deductions.map (fun deduction => ⟨deduction.allocation, deduction.quantity, 0⟩) ∧
      planDeductions (lockAllocations ledger.now rate.wallet entity ledger.allocations) walletQuantity = .ok deductions ∧
      (∀ row ∈ ledger.allocations, (heldRow deductions row).checked = true) ∧
      next = { ledger with
        allocations := ledger.allocations.map (heldRow deductions)
        reservations := ledger.reservations ++ [reservation] } := by
  unfold reserve at succeeded
  obtain ⟨quantity, -, succeeded⟩ := bind_ok succeeded
  obtain ⟨walletQuantity, -, succeeded⟩ := bind_ok succeeded
  simp only at succeeded
  split at succeeded
  · cases succeeded
    exact .inl rfl
  · obtain ⟨deductions, planned, succeeded⟩ := bind_ok succeeded
    obtain ⟨allocations, applied, succeeded⟩ := bind_ok succeeded
    obtain ⟨units, -, succeeded⟩ := bind_ok succeeded
    obtain ⟨same, checked⟩ := mapM_checkRow applied
    cases succeeded
    refine .inr ⟨⟨_, entity, rate, units, none, ledger.now + expiresIn, .active, _⟩, walletQuantity, deductions, rfl, rfl, rfl, rfl, rfl,
      planned, checked, ?_⟩
    rw [same]
    rfl

variable {catalog : Catalog}

theorem releaseReservationHolds_inv {reservation : Reservation} {status : ReservationStatus}
    (succeeded : releaseReservationHolds catalog reservation status ledger = .ok next) :
    ∃ ids allocations,
      (∀ row ∈ ledger.allocations, openOn reservation.holds row.id ≤ row.heldQuantity ∧
        (settled 0 (openOn reservation.holds row.id) row).checked = true) ∧
      shrinkKeptLevels catalog ledger.now ids
        (ledger.allocations.map fun row => settled 0 (openOn reservation.holds row.id) row) = .ok allocations ∧
      next = { ledger with
        allocations := allocations
        reservations :=
          updateAt Reservation.id reservation.id (fun row => { row with status := status }) ledger.reservations } := by
  unfold releaseReservationHolds at succeeded
  obtain ⟨allocations, released, succeeded⟩ := bind_ok succeeded
  obtain ⟨rows, settles, shrinks⟩ := bind_ok released
  obtain ⟨same, each⟩ := @mapM_settle (fun _ => 0) (openOn reservation.holds) _ _ settles
  cases succeeded
  exact ⟨_, allocations, each, same ▸ shrinks, rfl⟩

def confirmedRow (units : Nat) (changes : List Change) (row : Reservation) : Reservation :=
  { row with
    status := .confirmed
    confirmedQuantity := some units
    holds := row.holds.map fun hold => { hold with
      consumedQuantity := min (consumedBy changes hold.allocation) (releasedBy changes hold.allocation) } }

/-- A confirmation changes nothing, expires the reservation, or settles it by its plan. -/
theorem confirm_inv {id : Nat} (succeeded : confirm catalog id input admitted ledger = .ok next) :
    ∃ reservation, findAt Reservation.id id ledger.reservations = some reservation ∧
      (next = ledger ∨ reservation.status = .active ∧
        (releaseReservationHolds catalog reservation .expired ledger = .ok next ∨
        ∃ quantity units event changes ids allocations,
          Decimal.positiveDecimal input "quantity" reservation.rate.meterScale = .ok quantity ∧
          calculateWalletQuantity reservation.rate quantity = .ok event.walletQuantity ∧
          planConfirmation (lockAllAllocationRows reservation.rate.wallet reservation.entity ledger.allocations)
            reservation.holds event.walletQuantity ledger.now = some changes ∧
          event.id = ledger.events.length ∧ 0 < event.quantity ∧ event.usageWindow = none ∧ event.corrections = [] ∧
          event.deductions = (changes.filter fun change => 0 < change.consume).map
            (fun change => ⟨change.allocation, change.consume⟩) ∧
          (∀ row ∈ ledger.allocations, releasedBy changes row.id ≤ row.heldQuantity ∧
            (settled (consumedBy changes row.id) (releasedBy changes row.id) row).checked = true) ∧
          shrinkKeptLevels catalog ledger.now ids (ledger.allocations.map fun row =>
            settled (consumedBy changes row.id) (releasedBy changes row.id) row) = .ok allocations ∧
          next = { ledger with
            allocations := allocations
            reservations := updateAt Reservation.id reservation.id (confirmedRow units changes) ledger.reservations
            events := ledger.events ++ [event] })) := by
  unfold confirm at succeeded
  split at succeeded
  · cases succeeded
  · next reservation found =>
    refine ⟨reservation, found, ?_⟩
    obtain ⟨quantity, valid, succeeded⟩ := bind_ok succeeded
    obtain ⟨units, -, succeeded⟩ := bind_ok succeeded
    split at succeeded
    · split at succeeded
      · cases succeeded
        exact .inl rfl
      · cases succeeded
    · cases succeeded
      exact .inl rfl
    · cases succeeded
    · next active =>
      split at succeeded
      · exact .inr ⟨active, .inl succeeded⟩
      · split at succeeded
        · cases succeeded
        · obtain ⟨walletQuantity, charged, succeeded⟩ := bind_ok succeeded
          simp only at succeeded
          split at succeeded
          · cases succeeded
            exact .inl rfl
          · next changes planned =>
            split at succeeded
            · cases succeeded
              exact .inl rfl
            · obtain ⟨allocations, applied, succeeded⟩ := bind_ok succeeded
              obtain ⟨recorded, read, succeeded⟩ := bind_ok succeeded
              obtain ⟨rows, settles, shrinks⟩ := bind_ok applied
              obtain ⟨same, each⟩ := @mapM_settle (consumedBy changes) (releasedBy changes) _ _ settles
              cases succeeded
              exact .inr ⟨active, .inr ⟨quantity, units, ⟨_, reservation.rate.meterScale, recorded, walletQuantity, none,
                _, []⟩, changes, _, allocations, valid, charged, planned, rfl, Decimal.positiveDecimal_units valid read, rfl, rfl, rfl,
                each, same ▸ shrinks, rfl⟩⟩

theorem release_inv {id : Nat} (succeeded : release catalog id ledger = .ok next) :
    next = ledger ∨ ∃ reservation status, findAt Reservation.id id ledger.reservations = some reservation ∧
      reservation.status = .active ∧ (status = .expired ∨ status = .released) ∧
      releaseReservationHolds catalog reservation status ledger = .ok next := by
  unfold release at succeeded
  split at succeeded
  · cases succeeded
  · next reservation found =>
    split at succeeded
    · next active =>
      refine .inr ⟨reservation, _, found, active, ?_, succeeded⟩
      split
      · exact .inl rfl
      · exact .inr rfl
    · cases succeeded
      exact .inl rfl

theorem correct_inv {proportion : Nat → Nat → Nat → Nat} {resumes : AllocationId → Bool} {id : Nat}
    (succeeded : correct catalog proportion resumes id input ledger = .ok next) :
    ∃ (original : UsageEvent) (requested : Nat) (allocations : List Allocation) (receipt : List Deduction),
      findAt UsageEvent.id id ledger.events = some original ∧
      (requested : Int) ≤ original.quantity - ((original.corrections.map Correction.quantity).sum : Nat) ∧
      0 ≤ correctionWalletQuantity proportion original requested ∧
      reverseOriginalDeductions catalog ledger.now resumes original
        (correctionWalletQuantity proportion original requested).toNat ledger.allocations = .ok (allocations, receipt) ∧
      next = { ledger with
        allocations := allocations
        events := updateAt UsageEvent.id original.id
          (UsageEvent.corrected ⟨requested, correctionWalletQuantity proportion original requested, receipt⟩)
          ledger.events } := by
  unfold correct at succeeded
  split at succeeded
  · cases succeeded
  · next original found =>
    obtain ⟨quantity, -, succeeded⟩ := bind_ok succeeded
    obtain ⟨requested, -, succeeded⟩ := bind_ok succeeded
    split at succeeded
    · cases succeeded
    · next within =>
      simp only at succeeded
      split at succeeded
      · cases succeeded
      · next positive =>
        obtain ⟨⟨allocations, receipt⟩, reversed, succeeded⟩ := bind_ok succeeded
        cases succeeded
        exact ⟨original, requested, allocations, receipt, found, not_lt.mp within, not_lt.mp positive, reversed, rfl⟩

end Operations

end Quotum.Metering
