import Quotum.Proofs.Metering

/-! Every allocation holds what the active reservations hold on it, over every run of a ledger. -/

namespace Quotum.Metering
open General KeptLevels

def activeHold (id : AllocationId) (reservation : Reservation) : Nat :=
  if reservation.status = .active then openOn reservation.holds id else 0

def heldBy (reservations : List Reservation) (id : AllocationId) : Nat :=
  (reservations.map (activeHold id)).sum

/-- Live allowances of one level grant at most their item's quantity: a later one is not granted while
an earlier is live, unless renewals stacked them. -/
structure WithinItems (catalog : Catalog) (now : Time) (rows : List Allocation) : Prop where
  whole : ∀ row ∈ rows, isMember catalog now row = true → ∀ item, catalog.item row = some item → row.quantity ≤ item.quantity
  single : ∀ row ∈ rows, ∀ other ∈ rows, isMember catalog now row = true → isMember catalog now other = true →
    sameLevel row other = true → row.id ≠ other.id → stacked catalog row = true

/-- Allocations as they are granted, before any usage. -/
structure Fresh (catalog : Catalog) (ledger : Ledger) : Prop where
  unique : (ledger.allocations.map Allocation.id).Nodup
  granted : ∀ row ∈ ledger.allocations, 0 < row.quantity ∧ row.consumedQuantity = 0 ∧ row.heldQuantity = 0 ∧
    row.reversedQuantity = 0 ∧ row.reversedAt = none
  within : WithinItems catalog ledger.now ledger.allocations
  unreserved : ledger.reservations = []
  unused : ledger.events = []

/-- The states operations lead to, in any order. -/
inductive Run (catalog : Catalog) (proportion : Nat → Nat → Nat → Nat) (start : Ledger) : Ledger → Prop
  | start : Run catalog proportion start start
  | step {ledger next : Ledger} (run : Run catalog proportion start ledger) (operation : Operation)
      (applied : operation.apply catalog proportion ledger = .ok next) : Run catalog proportion start next

def Respends (rows : List Allocation) (change : Allocation → Allocation) : Prop :=
  ∀ row ∈ rows, ∃ consumed held, change row = { row with consumedQuantity := consumed, heldQuantity := held }

section Respends
variable {catalog : Catalog} {now : Time} {rows : List Allocation} {change : Allocation → Allocation}
  (respends : Respends rows change)
include respends

private theorem respends_ids : (rows.map change).map Allocation.id = rows.map Allocation.id := by
  rw [List.map_map]
  apply List.map_congr_left
  intro row member
  obtain ⟨consumed, held, same⟩ := respends row member
  rw [Function.comp, same]

private theorem respends_within (within : WithinItems catalog now rows) : WithinItems catalog now (rows.map change) := by
  constructor
  · intro row member
    obtain ⟨old, before, rfl⟩ := List.mem_map.mp member
    obtain ⟨consumed, held, same⟩ := respends old before
    rw [same]
    exact within.whole old before
  · intro row member other another
    obtain ⟨first, before, rfl⟩ := List.mem_map.mp member
    obtain ⟨second, earlier, rfl⟩ := List.mem_map.mp another
    obtain ⟨consumed, held, same⟩ := respends first before
    obtain ⟨spent, kept, alike⟩ := respends second earlier
    rw [same, alike]
    exact within.single first before second earlier

end Respends

section Within
variable {catalog : Catalog} {now : Time} {rows : List Allocation}

private theorem within_waits {later : Time} (order : now ≤ later) (within : WithinItems catalog now rows) :
    WithinItems catalog later rows := by
  have earlier : ∀ row, isMember catalog later row = true → isMember catalog now row = true := by
    intro row member
    unfold isMember at member ⊢
    simp only [Bool.and_eq_true] at member ⊢
    exact ⟨⟨member.1.1, isOpen_earlier order member.1.2⟩, member.2⟩
  constructor
  · intro row member live
    exact within.whole row member (earlier row live)
  · intro row member other another live alive
    exact within.single row member other another (earlier row live) (earlier other alive)

/-- Allowances within their items give nothing to a shrink. -/
private theorem within_taken (unique : (rows.map Allocation.id).Nodup) (within : WithinItems catalog now rows)
    {row : Allocation} (inside : row ∈ rows) (member : isMember catalog now row = true) :
    ¬shrinkTaken catalog now rows row > 0 := by
  intro more
  unfold shrinkTaken at more
  split at more
  · exact absurd more (lt_irrefl _)
  · next item found =>
    simp only at more
    split at more
    · next shrinks =>
      obtain ⟨above, alone⟩ := shrinks
      have self : row ∈ members catalog now rows row := by
        unfold members
        rw [List.mem_filter]
        exact ⟨inside, by simp [member, sameLevel]⟩
      have single : members catalog now rows row = [row] := by
        rcases alone with one | loose
        · obtain ⟨only, same⟩ := List.length_eq_one_iff.mp one
          rw [same] at self ⊢
          rw [List.mem_singleton.mp self]
        · have distinct : (members catalog now rows row).Nodup :=
            List.Nodup.of_map _ ((List.filter_sublist.map _).nodup unique)
          have own : ∀ other ∈ members catalog now rows row, other = row := by
            intro other another
            have both := List.mem_filter.mp another
            rw [Bool.and_eq_true] at both
            by_contra apart
            have different : row.id ≠ other.id := fun same =>
              apart (List.inj_on_of_nodup_map unique both.1 inside same.symm)
            have kept := within.single row inside other both.1 member both.2.1 both.2.2 different
            exact loose (List.any_eq_true.mpr ⟨row, self, kept⟩)
          apply List.perm_singleton.mp
          rw [List.perm_ext_iff_of_nodup distinct (List.nodup_singleton row)]
          intro other
          rw [List.mem_singleton]
          exact ⟨own other, fun same => same ▸ self⟩
      rw [single] at above
      have whole := within.whole row inside member item found
      simp only [excess, List.map_cons, List.map_nil, List.sum_cons, List.sum_nil, Nat.add_zero] at above
      omega
    · exact absurd more (lt_irrefl _)

private theorem within_shrinks (unique : (rows.map Allocation.id).Nodup) (within : WithinItems catalog now rows)
    (ids : List AllocationId) : shrinkKeptLevels catalog now ids rows = .ok rows := by
  have keeps : ∀ row ∈ rows, shrinkRow catalog now ids rows row = .ok (id row) := by
    intro row inside
    unfold shrinkRow
    simp only
    rw [if_neg fun shrinks => within_taken unique within inside shrinks.1 shrinks.2.2]
    rfl
  unfold shrinkKeptLevels
  split
  · rfl
  · rw [mapM_eq keeps, List.map_id]

end Within

/-- Holds of an active reservation have consumed nothing, and are all on its wallet's allocations. -/
def OpenHolds (allocations : List Allocation) (reservation : Reservation) : Prop :=
  ∀ hold ∈ reservation.holds, hold.consumedQuantity = 0 ∧
    ∃ row ∈ allocations, row.id = hold.allocation ∧ inWallet reservation.rate.wallet reservation.entity row = true

/-- What every state reached from fresh allocations keeps. -/
structure Sound (catalog : Catalog) (ledger : Ledger) : Prop where
  unique : (ledger.allocations.map Allocation.id).Nodup
  checked : ∀ row ∈ ledger.allocations, row.checked = true
  unreversed : ∀ row ∈ ledger.allocations, row.reversedAt = none
  within : WithinItems catalog ledger.now ledger.allocations
  numbered : ledger.reservations.map Reservation.id = List.range ledger.reservations.length
  held : ∀ row ∈ ledger.allocations, row.heldQuantity = heldBy ledger.reservations row.id
  opened : ∀ reservation ∈ ledger.reservations, reservation.status = .active →
    OpenHolds ledger.allocations reservation

section Sound
variable {catalog : Catalog} {proportion : Nat → Nat → Nat → Nat} {ledger next : Ledger} {input : Text} {admitted : Bool}
  {resumes : AllocationId → Bool} {reservation closed : Reservation} {id : Nat} {now : Time}

private theorem fresh_sound (fresh : Fresh catalog ledger) : Sound catalog ledger := by
  refine ⟨fresh.unique, ?_, ?_, fresh.within, ?_, ?_, ?_⟩
  · intro row member
    obtain ⟨positive, consumed, held, reversed, -⟩ := fresh.granted row member
    simp [Allocation.checked, positive, consumed, held, reversed]
  · intro row member
    exact (fresh.granted row member).2.2.2.2
  · rw [fresh.unreserved]
    rfl
  · intro row member
    rw [fresh.unreserved, (fresh.granted row member).2.2.1]
    rfl
  · rw [fresh.unreserved]
    intro reservation member
    cases member

private theorem sound_respends (sound : Sound catalog ledger) {change : Allocation → Allocation}
    {reservations : List Reservation} {events : List UsageEvent} (respends : Respends ledger.allocations change)
    (checked : ∀ row ∈ ledger.allocations, (change row).checked = true)
    (numbered : reservations.map Reservation.id = List.range reservations.length)
    (held : ∀ row ∈ ledger.allocations, (change row).heldQuantity = heldBy reservations row.id)
    (opened : ∀ reservation ∈ reservations, reservation.status = .active → OpenHolds ledger.allocations reservation) :
    Sound catalog { ledger with
      allocations := ledger.allocations.map change
      reservations := reservations
      events := events } := by
  refine ⟨?_, ?_, ?_, respends_within respends sound.within, numbered, ?_, ?_⟩
  · rw [respends_ids respends]
    exact sound.unique
  · intro row member
    obtain ⟨old, before, rfl⟩ := List.mem_map.mp member
    exact checked old before
  · intro row member
    obtain ⟨old, before, rfl⟩ := List.mem_map.mp member
    obtain ⟨consumed, holds, same⟩ := respends old before
    rw [same]
    exact sound.unreversed old before
  · intro row member
    obtain ⟨old, before, rfl⟩ := List.mem_map.mp member
    obtain ⟨consumed, holds, same⟩ := respends old before
    rw [held old before, same]
  · intro reservation member active hold kept
    obtain ⟨fresh, row, inside, same, wallet⟩ := opened reservation member active hold kept
    obtain ⟨consumed, holds, alike⟩ := respends row inside
    refine ⟨fresh, change row, List.mem_map_of_mem inside, ?_, ?_⟩
    · rw [alike]
      exact same
    · rw [alike]
      exact wallet

private theorem heldBy_append (reservations : List Reservation) (reservation : Reservation) (id : AllocationId) :
    heldBy (reservations ++ [reservation]) id = heldBy reservations id + activeHold id reservation := by
  unfold heldBy
  rw [List.map_append, List.sum_append, List.map_singleton, List.sum_singleton]

section
variable (sound : Sound catalog ledger) {reservation : Reservation} {status : ReservationStatus}
  {change : Reservation → Reservation}
include sound

private theorem reservation_unique :
    (ledger.reservations.map Reservation.id).Nodup := by
  rw [sound.numbered]
  exact List.nodup_range

private theorem heldBy_close (member : reservation ∈ ledger.reservations) (active : reservation.status = .active)
    (closes : (change reservation).status ≠ .active) (id : AllocationId) :
    heldBy (updateAt Reservation.id reservation.id change ledger.reservations) id + openOn reservation.holds id =
      heldBy ledger.reservations id := by
  have moved := updateAt_sum (reservation_unique sound) member change (activeHold id)
  unfold heldBy
  rw [activeHold, if_pos active, activeHold, if_neg closes, add_zero] at moved
  exact moved

private theorem settled_respends (consume release : AllocationId → Nat) :
    Respends ledger.allocations fun row => settled (consume row.id) (release row.id) row := by
  intro row member
  refine ⟨row.consumedQuantity + consume row.id, row.heldQuantity - release row.id, ?_⟩
  simp only [settled]
  rw [if_neg, Nat.add_zero]
  · rintro ⟨-, reversed⟩
    rw [sound.unreversed row member] at reversed
    cases reversed

private theorem updateAt_numbered (kept : ∀ row, (change row).id = row.id) :
    (updateAt Reservation.id id change ledger.reservations).map Reservation.id =
      List.range (updateAt Reservation.id id change ledger.reservations).length := by
  rw [updateAt_keys kept, sound.numbered]
  unfold updateAt
  rw [List.length_map]

private theorem sound_closes (member : reservation ∈ ledger.reservations) (active : reservation.status = .active)
    (kept : ∀ row, (change row).id = row.id) (closes : (change reservation).status ≠ .active) {consume release : AllocationId → Nat}
    (released : ∀ row ∈ ledger.allocations, release row.id = openOn reservation.holds row.id)
    (checked : ∀ row ∈ ledger.allocations, (settled (consume row.id) (release row.id) row).checked = true)
    {events : List UsageEvent} : Sound catalog { ledger with
      allocations := ledger.allocations.map fun row => settled (consume row.id) (release row.id) row
      reservations := updateAt Reservation.id reservation.id change ledger.reservations
      events := events } := by
  refine sound_respends sound (settled_respends sound consume release) checked (updateAt_numbered sound kept) ?_ ?_
  · intro row inside
    have before := sound.held row inside
    have moved := heldBy_close sound member active closes row.id
    rw [← released row inside] at moved
    simp only [settled]
    omega
  · intro other inside status
    obtain ⟨old, before, ⟨same, rfl⟩ | ⟨-, rfl⟩⟩ := mem_updateAt.mp inside
    · obtain rfl := List.inj_on_of_nodup_map (reservation_unique sound) before member same
      exact absurd status closes
    · exact sound.opened other before status

private theorem release_writes (succeeded : releaseReservationHolds catalog reservation status ledger = .ok next) :
    (∀ row ∈ ledger.allocations, (settled 0 (openOn reservation.holds row.id) row).checked = true) ∧
      next = { ledger with
        allocations := ledger.allocations.map fun row => settled 0 (openOn reservation.holds row.id) row
        reservations :=
          updateAt Reservation.id reservation.id (fun row => { row with status := status }) ledger.reservations } := by
  obtain ⟨ids, allocations, each, shrinks, rfl⟩ := releaseReservationHolds_inv succeeded
  have respends := settled_respends sound (fun _ => 0) (openOn reservation.holds)
  have unique : ((ledger.allocations.map fun row => settled 0 (openOn reservation.holds row.id) row).map
      Allocation.id).Nodup := by
    rw [respends_ids respends]
    exact sound.unique
  rw [within_shrinks unique (respends_within respends sound.within)] at shrinks
  cases shrinks
  exact ⟨fun row member => (each row member).2, rfl⟩

private theorem sound_releases (member : reservation ∈ ledger.reservations) (active : reservation.status = .active)
    (closes : status ≠ .active)
    (succeeded : releaseReservationHolds catalog reservation status ledger = .ok next) : Sound catalog next := by
  obtain ⟨checked, rfl⟩ := release_writes sound succeeded
  exact @sound_closes catalog ledger sound reservation (fun row => { row with status := status }) member active
    (fun _ => rfl) closes (fun _ => 0) (openOn reservation.holds) (fun _ _ => rfl) checked _

end

private theorem spent_respends (rows : List Allocation) (deductions : List Deduction) :
    Respends rows (spentRow deductions) := by
  intro row _
  exact ⟨_, _, rfl⟩

private theorem sound_consumes (sound : Sound catalog ledger) {rate : RateDecision} {entity : Option Nat}
    (succeeded : consume rate entity input admitted ledger = .ok next) : Sound catalog next := by
  rcases consume_inv succeeded with rfl | ⟨event, -, -, -, -, -, checked, rfl⟩
  · exact sound
  · exact sound_respends sound (spent_respends _ _) checked sound.numbered sound.held sound.opened

private theorem planned_holds (deductions : List Deduction) (id : AllocationId) :
    openOn (deductions.map fun deduction => ⟨deduction.allocation, deduction.quantity, 0⟩) id =
      deductedOn deductions id := by
  unfold openOn deductedOn
  induction deductions with
  | nil => rfl
  | cons deduction rest ih => rw [List.map_cons, totalAt_cons, totalAt_cons, ih]; rfl

private theorem sound_reserves (sound : Sound catalog ledger) {rate : RateDecision} {entity : Option Nat}
    {expiresIn : Nat} (succeeded : reserve rate entity input expiresIn admitted ledger = .ok next) :
    Sound catalog next := by
  rcases reserve_inv succeeded with
    rfl | ⟨reservation, walletQuantity, deductions, id, active, rate, entity, holds, planned, checked, rfl⟩
  · exact sound
  · have respends : Respends ledger.allocations (heldRow deductions) := fun row _ => ⟨_, _, rfl⟩
    refine sound_respends sound respends checked ?_ ?_ ?_
    · rw [List.map_append, sound.numbered, List.map_singleton, id, List.length_append, List.length_singleton,
        List.range_succ]
    · intro row member
      rw [heldBy_append, activeHold, if_pos active, holds, planned_holds, ← sound.held row member]
      rfl
    · intro other member status
      rcases List.mem_append.mp member with before | new
      · exact sound.opened other before status
      · rw [List.mem_singleton] at new
        subst new
        intro hold kept
        rw [holds] at kept
        obtain ⟨deduction, inside, rfl⟩ := List.mem_map.mp kept
        obtain ⟨-, covered, -⟩ := planDeductions_inv planned
        obtain ⟨row, locked, same⟩ := covered deduction inside
        obtain ⟨present, wallet, -⟩ := mem_lockAllocations.mp locked
        rw [rate, entity]
        exact ⟨rfl, row, present, same, wallet⟩

private theorem opened_holds {allocations : List Allocation} (opened : OpenHolds allocations reservation) (id : AllocationId) :
    openOn reservation.holds id = holdOn reservation.holds id := by
  unfold openOn holdOn totalAt
  congr 1
  apply List.map_congr_left
  intro hold member
  rw [(opened hold (List.mem_filter.mp member).1).1, Nat.sub_zero]

private theorem plan_releases (sound : Sound catalog ledger) {walletQuantity : Nat}
    {changes : List Change} (member : reservation ∈ ledger.reservations) (active : reservation.status = .active)
    (planned : planConfirmation (lockAllAllocationRows reservation.rate.wallet reservation.entity ledger.allocations)
      reservation.holds walletQuantity ledger.now = some changes) :
    (∀ row ∈ ledger.allocations, releasedBy changes row.id = openOn reservation.holds row.id) ∧
      (ledger.allocations.map fun row => consumedBy changes row.id).sum = walletQuantity := by
  have opened := sound.opened reservation member active
  obtain ⟨keys, released, total⟩ := plan_inv (locked_unique sound.unique) planned
  constructor
  · intro row inside
    rw [opened_holds opened]
    by_cases wallet : inWallet reservation.rate.wallet reservation.entity row = true
    · exact released row (mem_lockAllAllocationRows.mpr ⟨inside, wallet⟩)
    · have outside : row.id ∉ reservation.holds.map Hold.allocation := by
        intro again
        obtain ⟨hold, kept, same⟩ := List.mem_map.mp again
        obtain ⟨-, other, present, alike, within⟩ := opened hold kept
        obtain rfl := List.inj_on_of_nodup_map sound.unique present inside (alike.trans same)
        exact wallet within
      have unplanned : row.id ∉ changes.map Change.allocation := by
        rw [keys]
        intro again
        obtain ⟨other, locked, same⟩ := List.mem_map.mp again
        obtain ⟨present, within⟩ := mem_lockAllAllocationRows.mp locked
        obtain rfl := List.inj_on_of_nodup_map sound.unique present inside same
        exact wallet within
      rw [releasedBy, holdOn, totalAt_absent outside, totalAt_absent unplanned]
  · rw [← total]
    apply totalAt_sum sound.unique
    intro change planned
    have key := List.mem_map_of_mem (f := Change.allocation) planned
    rw [keys] at key
    obtain ⟨row, locked, same⟩ := List.mem_map.mp key
    exact List.mem_map.mpr ⟨row, (mem_lockAllAllocationRows.mp locked).1, same⟩

/-- A confirmation that goes through writes its plan, and nothing else. -/
private theorem confirm_writes (sound : Sound catalog ledger) (succeeded : confirm catalog id input admitted ledger = .ok next) :
    ∃ reservation, findAt Reservation.id id ledger.reservations = some reservation ∧
      (next = ledger ∨ reservation.status = .active ∧
        (releaseReservationHolds catalog reservation .expired ledger = .ok next ∨
        ∃ quantity units event changes,
          Decimal.positiveDecimal input "quantity" reservation.rate.meterScale = .ok quantity ∧
          calculateWalletQuantity reservation.rate quantity = .ok event.walletQuantity ∧
          (∀ row ∈ ledger.allocations, releasedBy changes row.id = openOn reservation.holds row.id ∧
            (settled (consumedBy changes row.id) (releasedBy changes row.id) row).checked = true) ∧
          (ledger.allocations.map fun row => consumedBy changes row.id).sum = event.walletQuantity ∧
          next = { ledger with
            allocations := ledger.allocations.map fun row =>
              settled (consumedBy changes row.id) (releasedBy changes row.id) row
            reservations := updateAt Reservation.id reservation.id (confirmedRow units changes) ledger.reservations
            events := ledger.events ++ [event] })) := by
  obtain ⟨reservation, found, outcome⟩ := confirm_inv succeeded
  refine ⟨reservation, found, ?_⟩
  rcases outcome with same | ⟨active, expires | settles⟩
  · exact .inl same
  · exact .inr ⟨active, .inl expires⟩
  · obtain ⟨quantity, units, event, changes, ids, allocations, valid, charged, planned, -, -, -, -, -, each, shrinks, rfl⟩ :=
      settles
    obtain ⟨released, total⟩ := plan_releases sound (findAt_inv found).1 active planned
    have respends := settled_respends sound (consumedBy changes) (releasedBy changes)
    have unique : ((ledger.allocations.map fun row =>
        settled (consumedBy changes row.id) (releasedBy changes row.id) row).map Allocation.id).Nodup := by
      rw [respends_ids respends]
      exact sound.unique
    rw [within_shrinks unique (respends_within respends sound.within)] at shrinks
    cases shrinks
    exact .inr ⟨active, .inr ⟨quantity, units, event, changes, valid, charged,
      fun row member => ⟨released row member, (each row member).2⟩, total, rfl⟩⟩

private theorem sound_confirms (sound : Sound catalog ledger)
    (succeeded : confirm catalog id input admitted ledger = .ok next) : Sound catalog next := by
  obtain ⟨reservation, found, rfl | ⟨active, expires | settles⟩⟩ := confirm_writes sound succeeded
  · exact sound
  · exact sound_releases sound (findAt_inv found).1 active (by decide) expires
  · obtain ⟨quantity, units, event, changes, -, -, each, -, rfl⟩ := settles
    exact @sound_closes catalog ledger sound reservation (confirmedRow units changes) (findAt_inv found).1 active
      (fun _ => rfl) (by simp [confirmedRow]) (consumedBy changes) (releasedBy changes) (fun row member => (each row member).1)
      (fun row member => (each row member).2) _

private def Restored (rows result : List Allocation) : Prop :=
  ∃ change : Allocation → Allocation, result = rows.map change ∧
    ∀ row ∈ rows, ∃ consumed ≤ row.consumedQuantity, change row = { row with consumedQuantity := consumed }

private theorem restored_self (rows : List Allocation) : Restored rows rows :=
  ⟨id, (List.map_id rows).symm, fun row _ => ⟨row.consumedQuantity, Nat.le_refl _, rfl⟩⟩

private theorem restored_trans {rows middle result : List Allocation} (first : Restored rows middle)
    (second : Restored middle result) : Restored rows result := by
  obtain ⟨early, rfl, before⟩ := first
  obtain ⟨late, rfl, after⟩ := second
  refine ⟨late ∘ early, List.map_map, ?_⟩
  intro row member
  obtain ⟨consumed, below, same⟩ := before row member
  obtain ⟨less, lower, alike⟩ := after (early row) (List.mem_map_of_mem member)
  rw [same] at lower
  refine ⟨less, Nat.le_trans lower below, ?_⟩
  rw [Function.comp, alike, same]

private theorem restored_respends {rows result : List Allocation} (restored : Restored rows result) :
    ∃ change, Respends rows change ∧ result = rows.map change ∧
      ∀ row ∈ rows, (change row).heldQuantity = row.heldQuantity ∧ (row.checked = true → (change row).checked = true) := by
  obtain ⟨change, same, each⟩ := restored
  refine ⟨change, ?_, same, ?_⟩
  · intro row member
    obtain ⟨consumed, -, alike⟩ := each row member
    exact ⟨consumed, row.heldQuantity, alike⟩
  · intro row member
    obtain ⟨consumed, below, alike⟩ := each row member
    rw [alike]
    refine ⟨rfl, ?_⟩
    simp only [Allocation.checked, Bool.and_eq_true, decide_eq_true_eq]
    rintro ⟨⟨positive, reversed⟩, fits⟩
    exact ⟨⟨positive, reversed⟩, by omega⟩

private theorem restored_within {rows result : List Allocation} (restored : Restored rows result)
    (unique : (rows.map Allocation.id).Nodup) (within : WithinItems catalog now rows) :
    (result.map Allocation.id).Nodup ∧ WithinItems catalog now result := by
  obtain ⟨change, respends, rfl, -⟩ := restored_respends restored
  rw [respends_ids respends]
  exact ⟨unique, respends_within respends within⟩

private theorem restore_writes {id : AllocationId} {quantity : Nat}
    {rows result : List Allocation} (unique : (rows.map Allocation.id).Nodup) (within : WithinItems catalog now rows)
    (succeeded : restoreAllocation catalog now resumes id quantity rows = .ok result) : Restored rows result := by
  unfold restoreAllocation at succeeded
  split at succeeded
  · cases succeeded
    exact restored_self rows
  · split at succeeded
    · cases succeeded
    · split at succeeded
      · split at succeeded
        · have restored : Restored rows (updateAt Allocation.id id
              (fun row => { row with consumedQuantity := row.consumedQuantity - quantity }) rows) := by
            refine ⟨_, rfl, ?_⟩
            intro row _
            by_cases same : row.id = id
            · exact ⟨row.consumedQuantity - quantity, Nat.sub_le _ _, if_pos same⟩
            · exact ⟨row.consumedQuantity, Nat.le_refl _, if_neg same⟩
          obtain ⟨distinct, kept⟩ := restored_within restored unique within
          rw [within_shrinks distinct kept] at succeeded
          cases succeeded
          exact restored
        · cases succeeded
      · cases succeeded
        exact restored_self rows

private theorem reverse_writes {restored : AllocationId → Nat}
    {deductions receipt : List Deduction} {remaining : Nat} {rows result : List Allocation}
    (unique : (rows.map Allocation.id).Nodup) (within : WithinItems catalog now rows)
    (succeeded : reverseDeductions catalog now resumes restored deductions remaining rows = .ok (result, receipt)) :
    Restored rows result := by
  induction deductions generalizing remaining rows receipt with
  | nil =>
    unfold reverseDeductions at succeeded
    split at succeeded
    · cases succeeded
      exact restored_self _
    · cases succeeded
  | cons deduction rest ih =>
    unfold reverseDeductions at succeeded
    split at succeeded
    · cases succeeded
      exact restored_self _
    · split at succeeded
      · exact ih unique within succeeded
      · obtain ⟨middle, first, succeeded⟩ := bind_ok succeeded
        obtain ⟨⟨final, others⟩, second, succeeded⟩ := bind_ok succeeded
        cases succeeded
        have early := restore_writes unique within first
        obtain ⟨distinct, kept⟩ := restored_within early unique within
        exact restored_trans early (ih distinct kept second)

private theorem sound_corrects (sound : Sound catalog ledger)
    (succeeded : correct catalog proportion resumes id input ledger = .ok next) : Sound catalog next := by
  obtain ⟨original, requested, allocations, receipt, -, -, -, reversed, rfl⟩ := correct_inv succeeded
  have restored : Restored ledger.allocations allocations := by
    unfold reverseOriginalDeductions at reversed
    split at reversed
    · cases reversed
      exact restored_self _
    · split at reversed
      · cases reversed
        exact restored_self _
      · exact reverse_writes sound.unique sound.within reversed
  obtain ⟨change, respends, rfl, each⟩ := restored_respends restored
  refine sound_respends sound respends (fun row member => (each row member).2 (sound.checked row member)) sound.numbered ?_
    sound.opened
  intro row member
  rw [(each row member).1, sound.held row member]

/-- A sweep releases one active reservation after another: what each release keeps, the sweep keeps. -/
private theorem expires_keep {kept : Ledger → Prop}
    (keeps : ∀ {ledger next : Ledger} {reservation : Reservation}, Sound catalog ledger → kept ledger →
      reservation ∈ ledger.reservations → reservation.status = .active →
      releaseReservationHolds catalog reservation .expired ledger = .ok next → kept next)
    (sound : Sound catalog ledger) (holds : kept ledger)
    (succeeded : expireSubjectReservations catalog ledger = .ok next) : Sound catalog next ∧ kept next := by
  unfold expireSubjectReservations at succeeded
  have due : ∀ reservation ∈ ledger.reservations.filter fun row => row.status = .active ∧ row.expiresAt ≤ ledger.now,
      reservation ∈ ledger.reservations ∧ reservation.status = .active := by
    intro reservation member
    obtain ⟨inside, active⟩ := List.mem_filter.mp member
    exact ⟨inside, (of_decide_eq_true active).1⟩
  have apart : (ledger.reservations.filter fun row => row.status = .active ∧ row.expiresAt ≤ ledger.now).Pairwise
      fun first second => first.id ≠ second.id :=
    List.pairwise_map.mp ((List.filter_sublist.map _).nodup (reservation_unique sound))
  generalize ledger.reservations.filter (fun row => row.status = .active ∧ row.expiresAt ≤ ledger.now) = expiring
    at succeeded due apart
  induction expiring generalizing ledger with
  | nil =>
    cases succeeded
    exact ⟨sound, holds⟩
  | cons reservation rest ih =>
    rw [List.foldlM_cons] at succeeded
    obtain ⟨middle, first, succeeded⟩ := bind_ok succeeded
    obtain ⟨inside, active⟩ := due reservation (by simp)
    obtain ⟨differs, later⟩ := List.pairwise_cons.mp apart
    refine ih (sound_releases sound inside active (by decide) first) (keeps sound holds inside active first) succeeded ?_
      later
    obtain ⟨-, rfl⟩ := release_writes sound first
    intro other member
    obtain ⟨present, open_⟩ := due other (by simp [member])
    exact ⟨mem_updateAt.mpr ⟨other, present, .inr ⟨(differs other member).symm, rfl⟩⟩, open_⟩

private theorem sound_step (sound : Sound catalog ledger) (operation : Operation)
    (applied : operation.apply catalog proportion ledger = .ok next) : Sound catalog next := by
  cases operation with
  | wait later =>
    cases applied
    exact ⟨sound.unique, sound.checked, sound.unreversed, within_waits (Nat.le_max_left _ _) sound.within,
      sound.numbered, sound.held, sound.opened⟩
  | consume rate entity quantity admitted => exact sound_consumes sound applied
  | recordLimitUsage rate window quantity =>
    obtain ⟨event, -, -, -, -, -, rfl⟩ := recordLimitUsage_inv applied
    exact ⟨sound.unique, sound.checked, sound.unreversed, sound.within, sound.numbered, sound.held, sound.opened⟩
  | reserve rate entity quantity expiresIn admitted => exact sound_reserves sound applied
  | confirm reservation quantity admitted => exact sound_confirms sound applied
  | release reservation =>
    rcases release_inv applied with rfl | ⟨row, status, found, active, closes, released⟩
    · exact sound
    · refine sound_releases sound (findAt_inv found).1 active ?_ released
      rcases closes with rfl | rfl <;> decide
  | expire => exact (@expires_keep catalog ledger next (fun _ => True) (fun _ _ _ _ _ => trivial) sound trivial applied).1
  | correct resumes event quantity => exact sound_corrects sound applied

theorem run_sound {start : Ledger} (fresh : Fresh catalog start) (run : Run catalog proportion start ledger) :
    Sound catalog ledger := by
  induction run with
  | start => exact fresh_sound fresh
  | step _ operation applied ih => exact sound_step ih operation applied

private theorem closed_updates (sound : Sound catalog ledger)
    {change : Reservation → Reservation} (member : reservation ∈ ledger.reservations)
    (active : reservation.status = .active) (inside : closed ∈ ledger.reservations) (final : closed.status ≠ .active) :
    closed ∈ updateAt Reservation.id reservation.id change ledger.reservations := by
  refine mem_updateAt.mpr ⟨closed, inside, .inr ⟨?_, rfl⟩⟩
  intro same
  obtain rfl := List.inj_on_of_nodup_map (reservation_unique sound) inside member same
  exact final active

private theorem closed_releases (sound : Sound catalog ledger)
    {status : ReservationStatus} (member : reservation ∈ ledger.reservations) (active : reservation.status = .active)
    (inside : closed ∈ ledger.reservations) (final : closed.status ≠ .active)
    (succeeded : releaseReservationHolds catalog reservation status ledger = .ok next) : closed ∈ next.reservations := by
  obtain ⟨-, rfl⟩ := release_writes sound succeeded
  exact closed_updates sound member active inside final

/-- No operation touches a reservation that is no longer active. -/
private theorem closed_step (sound : Sound catalog ledger) (inside : closed ∈ ledger.reservations)
    (final : closed.status ≠ .active) (operation : Operation)
    (applied : operation.apply catalog proportion ledger = .ok next) : closed ∈ next.reservations := by
  cases operation with
  | wait later =>
    cases applied
    exact inside
  | consume rate entity quantity admitted =>
    rcases consume_inv applied with rfl | ⟨event, -, -, -, -, -, -, rfl⟩
    · exact inside
    · exact inside
  | recordLimitUsage rate window quantity =>
    obtain ⟨event, -, -, -, -, -, rfl⟩ := recordLimitUsage_inv applied
    exact inside
  | reserve rate entity quantity expiresIn admitted =>
    rcases reserve_inv applied with rfl | ⟨reservation, walletQuantity, deductions, -, -, -, -, -, -, -, rfl⟩
    · exact inside
    · exact List.mem_append_left _ inside
  | confirm reservation quantity admitted =>
    obtain ⟨row, found, rfl | ⟨active, expires | settles⟩⟩ := confirm_writes sound applied
    · exact inside
    · exact closed_releases sound (findAt_inv found).1 active inside final expires
    · obtain ⟨quantity, units, event, changes, -, -, -, -, rfl⟩ := settles
      exact closed_updates sound (findAt_inv found).1 active inside final
  | release reservation =>
    rcases release_inv applied with rfl | ⟨row, status, found, active, -, released⟩
    · exact inside
    · exact closed_releases sound (findAt_inv found).1 active inside final released
  | expire =>
    exact (expires_keep (fun sound inside member active released =>
      closed_releases sound member active inside final released) sound inside applied).2
  | correct resumes event quantity =>
    obtain ⟨original, requested, allocations, receipt, -, -, -, -, rfl⟩ := correct_inv applied
    exact inside

private theorem closed_run {later : Ledger} (sound : Sound catalog ledger) (run : Run catalog proportion ledger later)
    (inside : closed ∈ ledger.reservations) (final : closed.status ≠ .active) :
    Sound catalog later ∧ closed ∈ later.reservations := by
  induction run with
  | start => exact ⟨sound, inside⟩
  | step _ operation applied ih => exact ⟨sound_step ih.1 operation applied, closed_step ih.1 ih.2 final operation applied⟩

/-- A wallet quantity moves into consumed and everything else the reservation held is free again. -/
def Confirms (reservation : Reservation) (walletQuantity : Nat) (ledger next : Ledger) : Prop :=
  ∃ (consumed : Allocation → Nat) (settle : Allocation → Allocation),
    next.allocations = ledger.allocations.map settle ∧ (ledger.allocations.map consumed).sum = walletQuantity ∧
      ∀ row ∈ ledger.allocations, (settle row).id = row.id ∧
        (settle row).consumedQuantity = row.consumedQuantity + consumed row ∧
        (settle row).heldQuantity + openOn reservation.holds row.id = row.heldQuantity ∧
        (settle row).available = row.available + openOn reservation.holds row.id - consumed row

private theorem confirm_moves (sound : Sound catalog ledger)
    {confirmed : Reservation} (found : findAt Reservation.id id ledger.reservations = some reservation)
    (active : reservation.status = .active) (succeeded : confirm catalog id input admitted ledger = .ok next)
    (after : findAt Reservation.id id next.reservations = some confirmed) (final : confirmed.status = .confirmed) :
    ∃ quantity walletQuantity, Decimal.positiveDecimal input "quantity" reservation.rate.meterScale = .ok quantity ∧
      calculateWalletQuantity reservation.rate quantity = .ok walletQuantity ∧
      Confirms reservation walletQuantity ledger next := by
  obtain ⟨row, same, outcome⟩ := confirm_writes sound succeeded
  rw [found] at same
  cases same
  obtain ⟨member, rfl⟩ := findAt_inv found
  rcases outcome with rfl | ⟨-, expires | settles⟩
  · rw [found] at after
    cases after
    rw [active] at final
    cases final
  · obtain ⟨-, rfl⟩ := release_writes sound expires
    obtain ⟨inside, named⟩ := findAt_inv after
    obtain ⟨old, before, ⟨-, rfl⟩ | ⟨apart, rfl⟩⟩ := mem_updateAt.mp inside
    · cases final
    · exact absurd named apart
  · obtain ⟨quantity, units, event, changes, valid, charged, each, total, rfl⟩ := settles
    refine ⟨quantity, event.walletQuantity, valid, charged, fun row => consumedBy changes row.id, _, rfl, total, ?_⟩
    intro row inside
    obtain ⟨consumed, held, respent⟩ := settled_respends sound (consumedBy changes) (releasedBy changes) row inside
    have unreversed := sound.unreversed row inside
    have released := (each row inside).1
    have below : openOn reservation.holds row.id ≤ row.heldQuantity := by
      have before := @heldBy_close catalog ledger sound reservation (confirmedRow units changes) member active
        (by simp [confirmedRow]) row.id
      rw [sound.held row inside]
      omega
    simp only [settled, unreversed, Option.isSome_none, Bool.false_eq_true, and_false, if_false, Nat.add_zero,
      Allocation.available, released, true_and]
    omega

end Sound

/-- The wallet ledger of a run from fresh allocations: each allocation holds what the active reservations
hold on it and grants what is consumed and held, a closed reservation stays as it is, and a confirmation
moves exactly its wallet charge into consumed and frees everything else it held. -/
theorem wallet_ledger_holds {catalog : Catalog} {proportion : Nat → Nat → Nat → Nat} {start ledger : Ledger}
    (fresh : Fresh catalog start) (run : Run catalog proportion start ledger) :
    (∀ row ∈ ledger.allocations, row.heldQuantity = heldBy ledger.reservations row.id ∧
      row.consumedQuantity + row.heldQuantity ≤ row.quantity) ∧
    (∀ later, Run catalog proportion ledger later → ∀ reservation ∈ ledger.reservations,
      reservation.status ≠ .active → findAt Reservation.id reservation.id later.reservations = some reservation) ∧
    ∀ id input admitted next reservation confirmed,
      findAt Reservation.id id ledger.reservations = some reservation → reservation.status = .active →
      confirm catalog id input admitted ledger = .ok next →
      findAt Reservation.id id next.reservations = some confirmed → confirmed.status = .confirmed →
      ∃ quantity walletQuantity, Decimal.positiveDecimal input "quantity" reservation.rate.meterScale = .ok quantity ∧
        calculateWalletQuantity reservation.rate quantity = .ok walletQuantity ∧
        Confirms reservation walletQuantity ledger next := by
  have sound := run_sound fresh run
  refine ⟨?_, ?_, ?_⟩
  · intro row member
    refine ⟨sound.held row member, ?_⟩
    have checked := sound.checked row member
    simp only [Allocation.checked, Bool.and_eq_true, decide_eq_true_eq] at checked
    exact checked.2
  · intro later continued reservation member final
    obtain ⟨kept, inside⟩ := closed_run sound continued member final
    exact findAt_member (reservation_unique kept) inside
  · intro id input admitted next reservation confirmed found active succeeded after final
    exact confirm_moves sound found active succeeded after final

def purchase (id quantity : Nat) : Allocation where
  id := id
  subscription := none
  planItem := none
  feature := 1
  entity := none
  sourceKind := .purchase
  quantity := quantity
  reversedQuantity := 0
  consumedQuantity := 0
  heldQuantity := 0
  periodStartAt := none
  periodEndAt := none
  expiresAt := none
  reversedAt := none
  createdAt := id

def flatRate : RateDecision := ⟨0, 1, 0, .flat, ['2'], []⟩

def twoPurchases : Ledger := ⟨0, [purchase 1 3, purchase 2 5], [], []⟩

def noPlans : Catalog := ⟨[], by simp, fun _ => false, fun _ _ _ => false⟩

def reservedThree : Ledger where
  now := 0
  allocations := [{ purchase 1 3 with heldQuantity := 3 }, { purchase 2 5 with heldQuantity := 3 }]
  reservations := [⟨0, none, flatRate, 3, none, 60, .active, [⟨1, 3, 0⟩, ⟨2, 3, 0⟩]⟩]
  events := []

def confirmedTwo : Ledger where
  now := 0
  allocations := [{ purchase 1 3 with consumedQuantity := 3 }, { purchase 2 5 with consumedQuantity := 1 }]
  reservations := [⟨0, none, flatRate, 3, some 2, 60, .confirmed, [⟨1, 3, 3⟩, ⟨2, 3, 1⟩]⟩]
  events := [⟨0, 0, 2 * 10 ^ 9, 4, none, [⟨1, 3⟩, ⟨2, 1⟩], []⟩]

/-- A reservation of three holds six units over both purchases; confirming two of it consumes four. -/
theorem wallet_ledger_holds_four : Run noPlans (fun wallet part whole => wallet * part / whole) twoPurchases confirmedTwo ∧
    ∀ row ∈ confirmedTwo.allocations, row.heldQuantity = heldBy confirmedTwo.reservations row.id ∧
      row.consumedQuantity + row.heldQuantity ≤ row.quantity := by
  have fresh : Fresh noPlans twoPurchases := ⟨by decide, by decide, ⟨by decide, by decide⟩, rfl, rfl⟩
  have reserved : reserve flatRate none ['3'] 60 true twoPurchases = .ok reservedThree := by decide
  have confirmed : confirm noPlans 0 ['2'] true reservedThree = .ok confirmedTwo := by decide
  have run : Run noPlans (fun wallet part whole => wallet * part / whole) twoPurchases confirmedTwo :=
    .step (.step .start (.reserve flatRate none ['3'] 60 true) reserved) (.confirm 0 ['2'] true) confirmed
  exact ⟨run, (wallet_ledger_holds fresh run).1⟩

end Quotum.Metering
