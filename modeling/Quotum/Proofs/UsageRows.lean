import Quotum.Proofs.Metering

/-! What usage does to a row it can spend: it settles a part of the row's hold, or takes of what the row can still give. Kept levels
change nothing but allowances, so this holds of every row of another kind. -/

namespace Quotum.Metering
open General KeptLevels

variable {deductions : List Deduction} {row : Allocation} {entity : Option Nat}

/-- What a row can still give to usage. -/
def spendable (now : Time) (row : Allocation) : Nat :=
  if row.isOpen now = true then row.available.toNat else 0

inductive RowSpends (now : Time) (consume release : Nat) (row : Allocation) : Allocation → Prop where
  | settles (held : release ≤ row.heldQuantity) (within : consume ≤ release + spendable now row) :
      RowSpends now consume release row (settled consume release row)
  | takes (consumed held : Nat) (quiet : consume = 0 ∧ release = 0) (within : consumed + held ≤ spendable now row) :
      RowSpends now consume release row { row with
        consumedQuantity := row.consumedQuantity + consumed
        heldQuantity := row.heldQuantity + held }

/-- Rows after one write of usage. -/
def RowsSpend (now : Time) (consume release : AllocationId → Nat) (rows result : List Allocation) : Prop :=
  ∃ change : Allocation → Allocation, result = rows.map change ∧
    (∀ row ∈ rows, (change row).id = row.id ∧ (change row).sourceKind = row.sourceKind) ∧
    ∀ row ∈ rows, row.sourceKind ≠ .subscription → RowSpends now (consume row.id) (release row.id) row (change row)

def noQuantity : AllocationId → Nat :=
  fun _ => 0

section Rows
variable {now : Time} {rows : List Allocation} {space : Allocation → Nat}

theorem closed_spendable (closed : row.isOpen now = false) : spendable now row = 0 := by
  rw [spendable, if_neg (Bool.eq_false_iff.mp closed)]

theorem reversed_closed {row : Allocation} (reversed : row.reversedAt.isSome = true) : row.isOpen now = false := by
  rw [Allocation.isOpen, Option.isNone_eq_false_iff.mpr reversed]
  rfl

theorem rowsSpend_self : RowsSpend now noQuantity noQuantity rows rows := by
  refine ⟨id, (List.map_id rows).symm, fun _ _ => ⟨rfl, rfl⟩, fun row _ _ => ?_⟩
  exact .takes 0 0 ⟨rfl, rfl⟩ (Nat.zero_le _)

theorem rowsSpend_ids {consume release : AllocationId → Nat} {result : List Allocation}
    (spends : RowsSpend now consume release rows result) : result.map Allocation.id = rows.map Allocation.id := by
  obtain ⟨change, rfl, ids, -⟩ := spends
  rw [List.map_map]
  exact List.map_congr_left fun row member => (ids row member).1

/-- A kept level shrinks nothing but allowances. -/
theorem shrunk_other {catalog : Catalog} {ids : List AllocationId} {others : List Allocation} {row : Allocation}
    (other : row.sourceKind ≠ .subscription) : shrunk catalog now ids others row = row := by
  rw [shrunk, if_neg]
  rintro ⟨member, -⟩
  simp only [isMember, Bool.and_eq_true, beq_iff_eq] at member
  exact other member.1.1.1.1

private theorem pouredOn_le {amount : Nat} (unique : (rows.map Allocation.id).Nodup)
    (member : row ∈ rows) : pouredOn (pour space amount rows) row.id ≤ space row := by
  have inside : row ∈ (pour space amount rows).map Prod.fst := by
    rw [pour_rows]
    exact member
  obtain ⟨⟨same, taken⟩, entry, rfl⟩ := List.mem_map.mp inside
  have keys : ((pour space amount rows).map fun entry => entry.1.id).Nodup := by
    rw [pour_keys Allocation.id]
    exact unique
  rw [pouredOn, totalAt_unique keys entry]
  exact pour_le entry

private theorem pouredOn_absent {amount : Nat} {id : AllocationId} (absent : id ∉ rows.map Allocation.id) :
    pouredOn (pour space amount rows) id = 0 := by
  apply totalAt_absent
  rwa [pour_keys Allocation.id]

/-- A row of the ledger gives a plan no more than it can still give. -/
private theorem planned_room {wallet quantity : Nat} (unique : (rows.map Allocation.id).Nodup)
    (planned : planDeductions (lockAllocations now wallet entity rows) quantity = .ok deductions)
    (member : row ∈ rows) : deductedOn deductions row.id ≤ spendable now row := by
  have locked : ((lockAllocations now wallet entity rows).map Allocation.id).Nodup := locked_unique unique
  have deducted : deductedOn deductions row.id =
      pouredOn (pour (fun row => row.available.toNat) quantity (lockAllocations now wallet entity rows)) row.id := by
    simp only [planDeductions] at planned
    split at planned
    · cases planned
      rw [deductedOn, pouredOn]
      generalize pour (fun row => row.available.toNat) quantity (lockAllocations now wallet entity rows) = poured
      induction poured with
      | nil => rfl
      | cons entry rest ih =>
        rw [List.filter_cons, totalAt_cons, ← ih]
        split
        · rw [List.map_cons, totalAt_cons]
        · next empty =>
          have zero : entry.2 = 0 := by simpa using empty
          rw [zero, ite_self, zero_add]
    · cases planned
  rw [deducted, spendable]
  by_cases inside : row ∈ lockAllocations now wallet entity rows
  · rw [if_pos (mem_lockAllocations.mp inside).2.2]
    exact pouredOn_le locked inside
  · rw [pouredOn_absent]
    · exact Nat.zero_le _
    · intro again
      obtain ⟨other, listed, same⟩ := List.mem_map.mp again
      have known := (mem_lockAllocations.mp listed).1
      exact inside (List.inj_on_of_nodup_map unique known member same ▸ listed)

/-- A plan consumes on each row no more than it releases and the row can still give. -/
theorem plan_within {wallet walletQuantity : Nat} {holds : List Hold} {changes : List Change}
    (unique : (rows.map Allocation.id).Nodup)
    (planned : planConfirmation (lockAllAllocationRows wallet entity rows) holds walletQuantity now = some changes)
    (member : row ∈ rows) : consumedBy changes row.id ≤ releasedBy changes row.id + spendable now row := by
  have locked : ((lockAllAllocationRows wallet entity rows).map Allocation.id).Nodup := locked_unique unique
  obtain ⟨keys, released, -⟩ := plan_inv locked planned
  by_cases inside : row ∈ lockAllAllocationRows wallet entity rows
  · rw [released row inside]
    simp only [planConfirmation] at planned
    split at planned
    · cases planned
    · cases planned
      have consumed := @totalAt_unique _ _ _ _ _ Change.allocation Change.consume _ (keys ▸ locked) _ (List.mem_map_of_mem inside)
      rw [consumedBy]
      refine consumed.le.trans (Nat.add_le_add (pouredOn_le locked inside) ?_)
      exact pouredOn_le locked inside
  · have absent : row.id ∉ changes.map Change.allocation := by
      rw [keys]
      intro again
      obtain ⟨other, listed, same⟩ := List.mem_map.mp again
      have known := (mem_lockAllAllocationRows.mp listed).1
      exact inside (List.inj_on_of_nodup_map unique known member same ▸ listed)
    rw [consumedBy, totalAt_absent absent]
    exact Nat.zero_le _

end Rows

section Writes
variable {catalog : Catalog} {now : Time} {rows result : List Allocation}

theorem settled_rows {consume release : AllocationId → Nat} {ids : List AllocationId}
    (each : ∀ row ∈ rows, release row.id ≤ row.heldQuantity)
    (within : ∀ row ∈ rows, consume row.id ≤ release row.id + spendable now row)
    (shrinks : shrinkKeptLevels catalog now ids (rows.map fun row => settled (consume row.id) (release row.id) row) = .ok result) :
    RowsSpend now consume release rows result := by
  rw [shrink_inv shrinks, List.map_map]
  refine ⟨_, rfl, fun row _ => ?_, fun row member other => ?_⟩
  · obtain ⟨quantity, same⟩ := @shrunk_same catalog now ids
      (rows.map fun row => settled (consume row.id) (release row.id) row) (settled (consume row.id) (release row.id) row)
    rw [Function.comp_apply, same]
    exact ⟨rfl, rfl⟩
  · have kept := @shrunk_other now catalog ids (rows.map fun row => settled (consume row.id) (release row.id) row)
      (settled (consume row.id) (release row.id) row) other
    rw [Function.comp_apply, kept]
    exact .settles (each row member) (within row member)

theorem released_rows {ledger next : Ledger} {reservation : Reservation} {status : ReservationStatus}
    (released : releaseReservationHolds catalog reservation status ledger = .ok next) :
    RowsSpend ledger.now noQuantity (openOn reservation.holds) ledger.allocations next.allocations ∧ next.now = ledger.now := by
  obtain ⟨ids, allocations, each, shrinks, rfl⟩ := releaseReservationHolds_inv released
  exact ⟨settled_rows (fun row member => (each row member).1) (fun _ _ => Nat.zero_le _) shrinks, rfl⟩

theorem spent_rows {wallet quantity : Nat} (unique : (rows.map Allocation.id).Nodup)
    (planned : planDeductions (lockAllocations now wallet entity rows) quantity = .ok deductions) :
    RowsSpend now noQuantity noQuantity rows (rows.map (spentRow deductions)) := by
  refine ⟨_, rfl, fun _ _ => ⟨rfl, rfl⟩, fun row member _ => ?_⟩
  exact .takes (deductedOn deductions row.id) 0 ⟨rfl, rfl⟩ (planned_room unique planned member)

theorem held_rows {wallet quantity : Nat} (unique : (rows.map Allocation.id).Nodup)
    (planned : planDeductions (lockAllocations now wallet entity rows) quantity = .ok deductions) :
    RowsSpend now noQuantity noQuantity rows (rows.map (heldRow deductions)) := by
  refine ⟨_, rfl, fun _ _ => ⟨rfl, rfl⟩, fun row member _ => ?_⟩
  have space := planned_room unique planned member
  exact .takes 0 (deductedOn deductions row.id) ⟨rfl, rfl⟩ ((Nat.zero_add _).le.trans space)

end Writes

def UsageWrite (ledger next : Ledger) : Prop :=
  (∃ consume release, RowsSpend ledger.now consume release ledger.allocations next.allocations) ∧ ledger.now ≤ next.now

def Operation.corrects : Operation → Bool
  | .correct .. => true
  | _ => false

section Operations
variable {catalog : Catalog} {proportion : Nat → Nat → Nat → Nat} {ledger next : Ledger}

private theorem release_write {reservation : Reservation} {status : ReservationStatus}
    (released : releaseReservationHolds catalog reservation status ledger = .ok next) : UsageWrite ledger next := by
  obtain ⟨rows, now⟩ := released_rows released
  exact ⟨⟨_, _, rows⟩, now.ge⟩

private theorem still_write (same : next.allocations = ledger.allocations) (later : ledger.now ≤ next.now) : UsageWrite ledger next := by
  refine ⟨⟨noQuantity, noQuantity, ?_⟩, later⟩
  rw [same]
  exact rowsSpend_self

theorem usage_writes {operation : Operation} (spends : operation.corrects = false)
    (unique : (ledger.allocations.map Allocation.id).Nodup) (applied : operation.apply catalog proportion ledger = .ok next) :
    Relation.ReflTransGen UsageWrite ledger next := by
  cases operation with
  | wait later =>
    cases applied
    exact .single (still_write rfl (le_max_left _ _))
  | consume rate entity quantity admitted =>
    rcases consume_inv applied with rfl | ⟨event, -, -, -, -, planned, -, rfl⟩
    · exact .refl
    · exact .single ⟨⟨_, _, spent_rows unique planned⟩, le_refl _⟩
  | recordLimitUsage rate window quantity =>
    obtain ⟨event, -, -, -, -, -, rfl⟩ := recordLimitUsage_inv applied
    exact .single (still_write rfl (le_refl _))
  | reserve rate entity quantity expiresIn admitted =>
    rcases reserve_inv applied with rfl | ⟨reservation, walletQuantity, deductions, -, -, -, -, -, planned, -, rfl⟩
    · exact .refl
    · exact .single ⟨⟨_, _, held_rows unique planned⟩, le_refl _⟩
  | confirm reservation quantity admitted =>
    obtain ⟨reservation, -, rfl | ⟨-, released | ⟨_, _, event, changes, ids, allocations, -, -, planned, -, -, -, -, -, each, shrinks, rfl⟩⟩⟩ :=
      confirm_inv applied
    · exact .refl
    · exact .single (release_write released)
    · refine .single ⟨⟨_, _, settled_rows (fun row member => (each row member).1) (fun row member => ?_) shrinks⟩, le_refl _⟩
      exact plan_within unique planned member
  | release id =>
    rcases release_inv applied with rfl | ⟨reservation, status, -, -, -, released⟩
    · exact .refl
    · exact .single (release_write released)
  | expire =>
    rw [Operation.apply, expireSubjectReservations] at applied
    generalize ledger.reservations.filter _ = overdue at applied
    clear unique
    induction overdue generalizing ledger with
    | nil =>
      cases applied
      exact .refl
    | cons reservation rest ih =>
      rw [List.foldlM_cons] at applied
      obtain ⟨middle, first, applied⟩ := bind_ok applied
      exact .head (release_write first) (ih applied)
  | correct resumes event quantity => cases spends

end Operations

end Quotum.Metering
