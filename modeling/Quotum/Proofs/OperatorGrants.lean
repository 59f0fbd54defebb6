import Quotum.OperatorGrants
import Quotum.Proofs.UsageRows

/-! A revoked operator grant stays revoked, over every run of usage, grants, debits and revocations. -/

namespace Quotum.OperatorGrants
open General Decimal Metering KeptLevels

/-- What usage does to an operator's row: it settles a part of the hold, or moves what is consumed and held within the room. -/
inductive RowStep (now : Time) (consume release : Nat) (row : Allocation) : Allocation → Prop where
  | settles (held : release ≤ row.heldQuantity) (within : consume ≤ release + spendable now row) :
      RowStep now consume release row (settled consume release row)
  | moves (consumed held : Nat) (quiet : consume = 0 ∧ release = 0)
      (within : consumed + held ≤ row.consumedQuantity + row.heldQuantity + spendable now row)
      (kept : row.reversedAt.isSome = true → consumed = row.consumedQuantity ∧ held = row.heldQuantity) :
      RowStep now consume release row { row with consumedQuantity := consumed, heldQuantity := held }

/-- Rows after one write of usage. -/
def RowsStep (now : Time) (consume release : AllocationId → Nat) (rows result : List Allocation) : Prop :=
  ∃ change : Allocation → Allocation, result = rows.map change ∧ (∀ row ∈ rows, (change row).id = row.id) ∧
    ∀ row ∈ rows, row.sourceKind = .operator → RowStep now (consume row.id) (release row.id) row (change row)

section Rows
variable {now : Time} {rows result : List Allocation}

private theorem rowsStep_ids {consume release : AllocationId → Nat}
    (step : RowsStep now consume release rows result) : result.map Allocation.id = rows.map Allocation.id := by
  obtain ⟨change, rfl, ids, -⟩ := step
  rw [List.map_map]
  exact List.map_congr_left ids

private theorem spends_step {consume release : AllocationId → Nat}
    (spends : RowsSpend now consume release rows result) : RowsStep now consume release rows result := by
  obtain ⟨change, rfl, ids, each⟩ := spends
  refine ⟨change, rfl, fun row member => (ids row member).1, fun row member operator => ?_⟩
  have other : row.sourceKind ≠ .subscription := by
    rw [operator]
    nofun
  have spent := each row member other
  generalize change row = after at spent
  cases spent with
  | settles held within => exact .settles held within
  | takes consumed held quiet within =>
    refine .moves _ _ quiet (by omega) fun reversed => ?_
    rw [closed_spendable (reversed_closed reversed)] at within
    omega

end Rows

section Usage
variable {catalog : Catalog} {now : Time} {rows result : List Allocation} {resumes : AllocationId → Bool}

/-- What a correction does to operators' rows: it lowers what they consumed, and leaves revoked ones alone. -/
def Lowered (rows result : List Allocation) : Prop :=
  ∃ change : Allocation → Allocation, result = rows.map change ∧ (∀ row ∈ rows, (change row).id = row.id) ∧
    ∀ row ∈ rows, row.sourceKind = .operator → ∃ consumed ≤ row.consumedQuantity,
      change row = { row with consumedQuantity := consumed } ∧ (row.reversedAt.isSome = true → consumed = row.consumedQuantity)

private theorem lowered_self (rows : List Allocation) : Lowered rows rows :=
  ⟨id, (List.map_id rows).symm, fun _ _ => rfl, fun row _ _ => ⟨row.consumedQuantity, le_refl _, rfl, fun _ => rfl⟩⟩

private theorem lowered_trans {middle : List Allocation} (first : Lowered rows middle) (second : Lowered middle result) : Lowered rows result := by
  obtain ⟨change, rfl, ids, lowers⟩ := first
  obtain ⟨after, rfl, later, lowersAfter⟩ := second
  refine ⟨after ∘ change, List.map_map, fun row member => ?_, fun row member operator => ?_⟩
  · exact (later _ (List.mem_map_of_mem member)).trans (ids row member)
  · obtain ⟨consumed, below, here, whole⟩ := lowers row member operator
    have inside := List.mem_map_of_mem (f := change) member
    have still : (change row).sourceKind = .operator := by
      rw [here]
      exact operator
    obtain ⟨rest, least, there, wholeAfter⟩ := lowersAfter (change row) inside still
    rw [here] at there least wholeAfter
    refine ⟨rest, least.trans below, ?_, fun reversed => (wholeAfter reversed).trans (whole reversed)⟩
    rw [Function.comp_apply, here, there]

private theorem restored_rows {id : AllocationId} {quantity : Nat} (unique : (rows.map Allocation.id).Nodup)
    (restored : restoreAllocation catalog now resumes id quantity rows = .ok result) : Lowered rows result := by
  rw [restoreAllocation] at restored
  split at restored
  · cases restored
    exact lowered_self rows
  · next row found =>
    obtain ⟨member, same⟩ := findAt_inv found
    split at restored
    · cases restored
    · next spendable =>
      split at restored
      · split at restored
        · rw [shrink_inv restored, updateAt, List.map_map]
          refine ⟨_, rfl, fun other _ => ?_, fun other inside operator => ?_⟩
          · obtain ⟨taken, shrunken⟩ := @shrunk_same catalog now [id]
              (updateAt Allocation.id id (fun row => { row with consumedQuantity := row.consumedQuantity - quantity }) rows)
              (if other.id = id then { other with consumedQuantity := other.consumedQuantity - quantity } else other)
            rw [updateAt] at shrunken
            rw [Function.comp_apply, shrunken]
            split <;> rfl
          · rw [Function.comp_apply]
            by_cases here : other.id = id
            · obtain rfl := List.inj_on_of_nodup_map unique inside member (here.trans same.symm)
              rw [if_pos here]
              exact ⟨other.consumedQuantity - quantity, Nat.sub_le _ _, shrunk_other (by rw [operator]; rintro ⟨⟩),
                fun reversed => absurd ⟨operator, reversed⟩ spendable⟩
            · rw [if_neg here]
              exact ⟨other.consumedQuantity, le_refl _, shrunk_other (by rw [operator]; rintro ⟨⟩), fun _ => rfl⟩
        · cases restored
      · cases restored
        exact lowered_self rows

private theorem lowered_ids (lowered : Lowered rows result) : result.map Allocation.id = rows.map Allocation.id := by
  obtain ⟨change, rfl, ids, -⟩ := lowered
  rw [List.map_map]
  exact List.map_congr_left ids

private theorem reversed_rows {restored : AllocationId → Nat} {deductions receipt : List Deduction}
    {remaining : Nat} (unique : (rows.map Allocation.id).Nodup)
    (reversed : reverseDeductions catalog now resumes restored deductions remaining rows = .ok (result, receipt)) :
    Lowered rows result := by
  induction deductions generalizing remaining rows receipt with
  | nil =>
    rw [reverseDeductions] at reversed
    split at reversed
    · cases reversed
      exact lowered_self _
    · cases reversed
  | cons deduction rest ih =>
    rw [reverseDeductions] at reversed
    split at reversed
    · cases reversed
      exact lowered_self _
    · split at reversed
      · exact ih unique reversed
      · obtain ⟨middle, first, reversed⟩ := bind_ok reversed
        obtain ⟨⟨final, others⟩, second, reversed⟩ := bind_ok reversed
        cases reversed
        have lowered := restored_rows unique first
        exact lowered_trans lowered (ih (lowered_ids lowered ▸ unique) second)

private theorem corrected_rows {proportion : Nat → Nat → Nat → Nat} {id : Nat} {input : Text}
    {ledger next : Ledger} (unique : (ledger.allocations.map Allocation.id).Nodup)
    (corrected : Metering.correct catalog proportion resumes id input ledger = .ok next) :
    Lowered ledger.allocations next.allocations ∧ next.now = ledger.now := by
  obtain ⟨original, requested, allocations, receipt, -, -, -, reversed, rfl⟩ := correct_inv corrected
  refine ⟨?_, rfl⟩
  rw [reverseOriginalDeductions] at reversed
  split at reversed
  · cases reversed
    exact lowered_self _
  · split at reversed
    · cases reversed
      exact lowered_self _
    · exact reversed_rows unique reversed

private theorem lowered_step (lowered : Lowered rows result) : RowsStep now noQuantity noQuantity rows result := by
  obtain ⟨change, rfl, ids, lowers⟩ := lowered
  refine ⟨change, rfl, ids, fun row member operator => ?_⟩
  obtain ⟨consumed, below, same, whole⟩ := lowers row member operator
  rw [same]
  exact .moves consumed row.heldQuantity ⟨rfl, rfl⟩ (by omega) fun reversed => ⟨whole reversed, rfl⟩

end Usage

def UsageStep (state next : AdjustedLedger) : Prop :=
  ∃ consume release, RowsStep state.ledger.now consume release state.ledger.allocations next.ledger.allocations ∧
    state.ledger.now ≤ next.ledger.now ∧ next.grants = settleGrants consume release state.ledger.allocations state.grants

private theorem settleGrants_none (rows : List Allocation) (grants : List OperatorGrant) :
    settleGrants noQuantity noQuantity rows grants = grants := by
  rw [settleGrants]
  refine (List.map_congr_left fun grant _ => ?_).trans (List.map_id grants)
  rw [settleGrant]
  split
  · rw [if_neg fun moved => absurd moved.2.2 (lt_irrefl _)]
    rfl
  · rfl

section Steps
variable {catalog : Catalog} {proportion : Nat → Nat → Nat → Nat} {state next : AdjustedLedger}

private theorem still_step {ledger : Ledger} (rows : RowsStep state.ledger.now noQuantity noQuantity state.ledger.allocations ledger.allocations)
    (later : state.ledger.now ≤ ledger.now) : UsageStep state { state with ledger } :=
  ⟨noQuantity, noQuantity, rows, later, (settleGrants_none _ _).symm⟩

private theorem release_step {reservation : Reservation} {status : ReservationStatus}
    (released : releaseReservationHolds catalog reservation status state = .ok next) : UsageStep state next := by
  rw [releaseReservationHolds] at released
  obtain ⟨ledger, written, released⟩ := bind_ok released
  cases released
  obtain ⟨rows, now⟩ := released_rows written
  exact ⟨noQuantity, openOn reservation.holds, spends_step rows, now.ge, rfl⟩

private theorem confirm_step {id : Nat} {input : Text} {admitted : Bool} (unique : (state.ledger.allocations.map Allocation.id).Nodup)
    (confirmed : confirm catalog id input admitted state = .ok next) : UsageStep state next := by
  rw [confirm] at confirmed
  obtain ⟨ledger, written, confirmed⟩ := bind_ok confirmed
  cases confirmed
  have same : ∀ grants, grants = state.grants → UsageStep state { state with ledger := state.ledger, grants } := by
    rintro _ rfl
    exact still_step (spends_step rowsSpend_self) (le_refl _)
  rw [confirmedGrants]
  rw [Metering.confirm] at written
  cases found : findAt Reservation.id id state.ledger.reservations with
  | none =>
    rw [found] at written
    cases written
  | some reservation =>
    simp only [found] at written ⊢
    obtain ⟨quantity, valid, written⟩ := bind_ok written
    obtain ⟨units, -, written⟩ := bind_ok written
    cases status : reservation.status with
    | confirmed =>
      simp only [status] at written
      split at written
      · cases written
        exact same _ (if_pos (by rintro ⟨⟩))
      · cases written
    | expired =>
      simp only [status] at written
      cases written
      exact same _ (if_pos (by rintro ⟨⟩))
    | released =>
      simp only [status] at written
      cases written
    | active =>
      simp only [status] at written
      rw [if_neg (not_not.mpr rfl)]
      split at written
      · next due =>
        rw [if_pos due]
        obtain ⟨rows, now⟩ := released_rows written
        exact ⟨noQuantity, openOn reservation.holds, spends_step rows, now.ge, rfl⟩
      · next early =>
        rw [if_neg early]
        split at written
        · cases written
        · obtain ⟨walletQuantity, charged, written⟩ := bind_ok written
          have charge : (positiveDecimal input "quantity" reservation.rate.meterScale >>=
              calculateWalletQuantity reservation.rate) = .ok walletQuantity := by
            rw [valid]
            exact charged
          simp only [confirmationChanges, charge]
          cases planned : planConfirmation (lockAllAllocationRows reservation.rate.wallet reservation.entity state.ledger.allocations)
              reservation.holds walletQuantity state.ledger.now with
          | none =>
            simp only [planned, ite_self] at written ⊢
            cases written
            exact same _ rfl
          | some changes =>
            simp only [planned] at written ⊢
            cases admitted with
            | false =>
              cases written
              exact same _ rfl
            | true =>
              simp only [Bool.not_true, Bool.false_eq_true, if_false] at written
              obtain ⟨allocations, applied, written⟩ := bind_ok written
              obtain ⟨recorded, -, written⟩ := bind_ok written
              cases written
              obtain ⟨settledRows, settles, shrinks⟩ := bind_ok applied
              obtain ⟨rows, each⟩ := @mapM_settle (consumedBy changes) (releasedBy changes) _ _ settles
              rw [rows] at shrinks
              exact ⟨consumedBy changes, releasedBy changes, spends_step (settled_rows (fun row member => (each row member).1)
                (fun row member => plan_within unique planned member) shrinks), le_refl _, rfl⟩

private theorem meter_steps {operation : Operation} (unique : (state.ledger.allocations.map Allocation.id).Nodup)
    (done : meterUsage catalog proportion state operation = .ok next) : Relation.ReflTransGen UsageStep state next := by
  have plain : ∀ {other : Operation} {ledger : Ledger}, other.apply catalog proportion state.ledger = .ok ledger →
      RowsStep state.ledger.now noQuantity noQuantity state.ledger.allocations ledger.allocations ∧ state.ledger.now ≤ ledger.now →
      Relation.ReflTransGen UsageStep state { state with ledger } :=
    fun _ step => .single (still_step step.1 step.2)
  cases operation with
  | wait later =>
    obtain ⟨ledger, applied, done⟩ := bind_ok done
    cases done
    refine plain applied ?_
    cases applied
    exact ⟨(spends_step rowsSpend_self), le_max_left _ _⟩
  | consume rate entity quantity admitted =>
    obtain ⟨ledger, applied, done⟩ := bind_ok done
    cases done
    refine plain applied ?_
    rcases consume_inv applied with rfl | ⟨event, -, -, -, -, planned, -, rfl⟩
    · exact ⟨(spends_step rowsSpend_self), le_refl _⟩
    · exact ⟨spends_step (spent_rows unique planned), le_refl _⟩
  | recordLimitUsage rate window quantity =>
    obtain ⟨ledger, applied, done⟩ := bind_ok done
    cases done
    refine plain applied ?_
    obtain ⟨event, -, -, -, -, -, rfl⟩ := recordLimitUsage_inv applied
    exact ⟨(spends_step rowsSpend_self), le_refl _⟩
  | reserve rate entity quantity expiresIn admitted =>
    obtain ⟨ledger, applied, done⟩ := bind_ok done
    cases done
    refine plain applied ?_
    rcases reserve_inv applied with rfl | ⟨reservation, walletQuantity, deductions, -, -, -, -, -, planned, -, rfl⟩
    · exact ⟨(spends_step rowsSpend_self), le_refl _⟩
    · exact ⟨spends_step (held_rows unique planned), le_refl _⟩
  | confirm reservation quantity admitted => exact .single (confirm_step unique done)
  | release id =>
    rw [meterUsage, release] at done
    split at done
    · cases done
    · split at done
      · exact .single (release_step done)
      · cases done
        exact .refl
  | expire =>
    rw [meterUsage, expireSubjectReservations] at done
    generalize state.ledger.reservations.filter _ = overdue at done
    clear plain unique
    induction overdue generalizing state with
    | nil =>
      cases done
      exact .refl
    | cons reservation rest ih =>
      rw [List.foldlM_cons] at done
      obtain ⟨middle, first, done⟩ := bind_ok done
      exact .head (release_step first) (ih done)
  | correct resumes event quantity =>
    obtain ⟨ledger, applied, done⟩ := bind_ok done
    cases done
    refine plain applied ?_
    obtain ⟨lowered, now⟩ := corrected_rows unique applied
    exact ⟨lowered_step lowered, now.ge⟩

end Steps

/-- A grant and its allocation: within its quantity until it is revoked, and after that used up, or expired when it was revoked. -/
structure GrantRow (now : Time) (grant : OperatorGrant) (row : Allocation) : Prop where
  id : row.id = grant.allocation
  operator : row.sourceKind = .operator
  within : row.reversedQuantity + row.consumedQuantity + row.heldQuantity ≤ row.quantity
  live : grant.revocation = none → row.reversedAt = none
  taken : row.reversedAt.isSome = true → row.quantity = row.reversedQuantity + row.consumedQuantity + row.heldQuantity
  lapsed : ∀ revocation, grant.revocation = some revocation → row.reversedAt = none →
    expired now row = true ∧ revocation.revokedQuantity = 0

/-- What every run keeps of the grants of an account. -/
structure Sound (state : AdjustedLedger) : Prop where
  rows : (state.ledger.allocations.map Allocation.id).Nodup
  numbered : state.grants.map OperatorGrant.id = List.range state.grants.length
  apart : (state.grants.map OperatorGrant.allocation).Nodup
  backed : ∀ grant ∈ state.grants, ∃ row ∈ state.ledger.allocations, GrantRow state.ledger.now grant row

theorem Sound.grants {state : AdjustedLedger} (sound : Sound state) : (state.grants.map OperatorGrant.id).Nodup := by
  rw [sound.numbered]
  exact List.nodup_range

/-- What a revoked grant's row keeps over later writes: its quantity, and what was reversed since its revocation as revoked. -/
structure Follows (grant : OperatorGrant) (row : Allocation) (after : OperatorGrant) (result : Allocation) : Prop where
  number : after.id = grant.id
  allocation : after.allocation = grant.allocation
  quantity : result.quantity = row.quantity
  reversedAt : result.reversedAt = row.reversedAt
  revoked : ∀ revocation, grant.revocation = some revocation → ∃ later, after.revocation = some later ∧
    result.reversedQuantity + revocation.revokedQuantity = row.reversedQuantity + later.revokedQuantity

theorem Follows.self (grant : OperatorGrant) (row : Allocation) : Follows grant row grant row :=
  ⟨rfl, rfl, rfl, rfl, fun revocation known => ⟨revocation, known, rfl⟩⟩

section Rows
variable {now later : Time} {grant : OperatorGrant} {row : Allocation}

private theorem expired_later (order : now ≤ later) (lapsed : expired now row = true) : expired later row = true := by
  rw [expired, Option.any_eq_true] at *
  obtain ⟨expiry, known, due⟩ := lapsed
  exact ⟨expiry, known, decide_eq_true ((of_decide_eq_true due).trans order)⟩

private theorem expired_closed (lapsed : expired now row = true) : row.isOpen now = false := by
  rw [Bool.eq_false_iff]
  intro opened
  rw [Allocation.isOpen, Bool.and_eq_true] at opened
  rw [expired, Option.any_eq_true] at lapsed
  obtain ⟨expiry, known, due⟩ := lapsed
  have open_ := opened.2
  rw [known] at open_
  have early : now < expiry := of_decide_eq_true open_
  exact absurd (of_decide_eq_true due) (Nat.not_le.mpr early)

private theorem room_le (within : row.reversedQuantity + row.consumedQuantity + row.heldQuantity ≤ row.quantity) :
    row.reversedQuantity + row.consumedQuantity + row.heldQuantity + spendable now row ≤ row.quantity := by
  rw [spendable]
  split
  · rw [Allocation.available]
    omega
  · omega

theorem GrantRow.waits (held : GrantRow now grant row) (order : now ≤ later) : GrantRow later grant row :=
  { held with lapsed := fun revocation known alive =>
      ⟨expired_later order (held.lapsed revocation known alive).1, (held.lapsed revocation known alive).2⟩ }

section Settled
variable {rows : List Allocation} (unique : (rows.map Allocation.id).Nodup) (member : row ∈ rows) (held : GrantRow now grant row)
  {consume release : AllocationId → Nat} (covered : release row.id ≤ row.heldQuantity)
  (within : consume row.id ≤ release row.id + spendable now row)
include unique member held covered within

private theorem settled_alive (alive : row.reversedAt = none) :
    GrantRow now (settleGrant consume release rows grant) (settled (consume row.id) (release row.id) row) ∧
      Follows grant row (settleGrant consume release rows grant) (settled (consume row.id) (release row.id) row) := by
  have found : findAt Allocation.id grant.allocation rows = some row := held.id ▸ findAt_member unique member
  have space := @room_le now row held.within
  have kept : settleGrant consume release rows grant = grant := by
    rw [settleGrant, found]
    cases grant.revocation with
    | none => rfl
    | some revocation =>
      dsimp only
      rw [alive, if_neg fun all => nomatch all.2.1]
  have reversed : (settled (consume row.id) (release row.id) row).reversedQuantity = row.reversedQuantity := by
    rw [settled]
    dsimp only
    rw [alive, if_neg fun both => nomatch both.2]
    rfl
  rw [kept]
  refine ⟨⟨held.id, held.operator, ?_, held.live, fun revoked => ?_, held.lapsed⟩,
    ⟨rfl, rfl, rfl, rfl, fun revocation known => ⟨revocation, known, ?_⟩⟩⟩
  · rw [reversed, settled]
    dsimp only
    omega
  · rw [settled] at revoked
    dsimp only at revoked
    rw [alive] at revoked
    cases revoked
  · rw [reversed]

private theorem settled_revoked (dead : row.reversedAt.isSome = true) :
    GrantRow now (settleGrant consume release rows grant) (settled (consume row.id) (release row.id) row) ∧
      Follows grant row (settleGrant consume release rows grant) (settled (consume row.id) (release row.id) row) := by
  have found : findAt Allocation.id grant.allocation rows = some row := held.id ▸ findAt_member unique member
  have full := closed_spendable (@reversed_closed now row dead)
  have whole := held.taken dead
  have reversed : (settled (consume row.id) (release row.id) row).reversedQuantity =
      row.reversedQuantity + (release row.id - consume row.id) := by
    rw [settled]
    dsimp only
    rw [if_pos ⟨held.operator, dead⟩]
  have total : (settled (consume row.id) (release row.id) row).reversedQuantity +
      (settled (consume row.id) (release row.id) row).consumedQuantity +
      (settled (consume row.id) (release row.id) row).heldQuantity = row.quantity := by
    rw [reversed, settled]
    dsimp only
    omega
  obtain ⟨revocation, known⟩ : ∃ revocation, grant.revocation = some revocation := by
    apply Option.ne_none_iff_exists'.mp
    intro unrevoked
    rw [held.live unrevoked] at dead
    cases dead
  have after : settleGrant consume release rows grant = { grant with
      revocation := some { revocation with
        revokedQuantity := revocation.revokedQuantity + (release row.id - consume row.id) } } := by
    rw [settleGrant, known, found]
    dsimp only
    split
    · rfl
    · next still =>
      have least : ¬ consume row.id < release row.id := fun less => still ⟨held.operator, dead, less⟩
      rw [Nat.sub_eq_zero_of_le (not_lt.mp least), add_zero, ← known]
  rw [after]
  refine ⟨⟨held.id, held.operator, total.le, nofun, fun _ => total.symm, fun _ _ alive => ?_⟩,
    ⟨rfl, rfl, rfl, rfl, fun other same => ⟨_, rfl, ?_⟩⟩⟩
  · have still : row.reversedAt = none := alive
    rw [still] at dead
    cases dead
  · rw [known] at same
    cases same
    rw [reversed]
    dsimp only
    omega

end Settled

private theorem stepped_grant {rows : List Allocation} (unique : (rows.map Allocation.id).Nodup) (member : row ∈ rows)
    (held : GrantRow now grant row) {consume release : AllocationId → Nat} {result : Allocation}
    (step : RowStep now (consume row.id) (release row.id) row result) :
    GrantRow now (settleGrant consume release rows grant) result ∧ Follows grant row (settleGrant consume release rows grant) result := by
  cases step with
  | settles covered within =>
    cases dead : row.reversedAt with
    | none => exact settled_alive unique member held covered within dead
    | some instant =>
      have reversed : row.reversedAt.isSome = true := by
        rw [dead]
        rfl
      exact settled_revoked unique member held covered within reversed
  | moves consumed holds quiet within kept =>
    have found : findAt Allocation.id grant.allocation rows = some row := held.id ▸ findAt_member unique member
    have still : settleGrant consume release rows grant = grant := by
      rw [settleGrant, found]
      cases grant.revocation with
      | none => rfl
      | some revocation =>
        dsimp only
        rw [quiet.1, quiet.2, if_neg fun all => absurd all.2.2 (lt_irrefl 0)]
    have space := @room_le now row held.within
    rw [still]
    refine ⟨⟨held.id, held.operator, ?_, held.live, fun reversed => ?_, held.lapsed⟩,
      ⟨rfl, rfl, rfl, rfl, fun revocation known => ⟨revocation, known, rfl⟩⟩⟩
    · dsimp only
      omega
    · obtain ⟨rfl, rfl⟩ := kept reversed
      exact held.taken reversed

end Rows

def Keeps (state next : AdjustedLedger) : Prop :=
  ∀ grant ∈ state.grants, grant.revocation.isSome = true → ∀ row ∈ state.ledger.allocations, row.id = grant.allocation →
    ∃ after ∈ next.grants, ∃ result ∈ next.ledger.allocations, result.id = after.allocation ∧ Follows grant row after result

theorem Keeps.refl (state : AdjustedLedger) : Keeps state state :=
  fun grant member _ row inside same => ⟨grant, member, row, inside, same, .self grant row⟩

theorem Follows.trans {grant middle after : OperatorGrant} {row between result : Allocation}
    (first : Follows grant row middle between) (second : Follows middle between after result) : Follows grant row after result := by
  refine ⟨second.number.trans first.number, second.allocation.trans first.allocation, second.quantity.trans first.quantity,
    second.reversedAt.trans first.reversedAt, fun revocation known => ?_⟩
  obtain ⟨revoked, here, early⟩ := first.revoked revocation known
  obtain ⟨later, there, late⟩ := second.revoked revoked here
  exact ⟨later, there, by omega⟩

theorem Keeps.trans {state middle next : AdjustedLedger} (first : Keeps state middle) (second : Keeps middle next) : Keeps state next := by
  intro grant member revoked row inside same
  obtain ⟨after, known, result, listed, key, follows⟩ := first grant member revoked row inside same
  obtain ⟨revocation, some⟩ := Option.isSome_iff_exists.mp revoked
  obtain ⟨later, still, -⟩ := follows.revoked revocation some
  have stillRevoked : after.revocation.isSome = true := by
    rw [still]
    rfl
  obtain ⟨last, there, final, present, end_, next⟩ := second after known stillRevoked result listed key
  exact ⟨last, there, final, present, end_, follows.trans next⟩

section Preserved
variable {catalog : Catalog} {proportion : Nat → Nat → Nat → Nat} {registry : Registry} {state next : AdjustedLedger}
  {rows : List Allocation} {lines : List DebitLine}

private theorem settleGrant_fields (consume release : AllocationId → Nat) (rows : List Allocation) (grant : OperatorGrant) :
    (settleGrant consume release rows grant).id = grant.id ∧
      (settleGrant consume release rows grant).allocation = grant.allocation := by
  rw [settleGrant]
  split
  · split <;> exact ⟨rfl, rfl⟩
  · exact ⟨rfl, rfl⟩

theorem usage_sound (sound : Sound state) (step : UsageStep state next) : Sound next ∧ Keeps state next := by
  obtain ⟨consume, release, rows, later, grants⟩ := step
  have ids := rowsStep_ids rows
  obtain ⟨change, changed, -, steps⟩ := rows
  have numbers : next.grants.map OperatorGrant.id = state.grants.map OperatorGrant.id := by
    rw [grants, settleGrants, List.map_map]
    exact List.map_congr_left fun grant _ => (settleGrant_fields consume release _ grant).1
  have allocations : next.grants.map OperatorGrant.allocation = state.grants.map OperatorGrant.allocation := by
    rw [grants, settleGrants, List.map_map]
    exact List.map_congr_left fun grant _ => (settleGrant_fields consume release _ grant).2
  refine ⟨⟨ids ▸ sound.rows, ?_, allocations ▸ sound.apart, ?_⟩, ?_⟩
  · rw [numbers, sound.numbered, grants, settleGrants, List.length_map]
  · intro after member
    rw [grants] at member
    obtain ⟨grant, known, rfl⟩ := List.mem_map.mp member
    obtain ⟨row, inside, held⟩ := sound.backed grant known
    have moved := stepped_grant sound.rows inside held (steps row inside held.operator)
    exact ⟨change row, changed ▸ List.mem_map_of_mem inside, moved.1.waits later⟩
  · intro grant member _ row inside same
    obtain ⟨backing, listed, held⟩ := sound.backed grant member
    obtain rfl := List.inj_on_of_nodup_map sound.rows inside listed (same.trans held.id.symm)
    have moved := stepped_grant sound.rows inside held (steps row inside held.operator)
    exact ⟨_, grants ▸ List.mem_map_of_mem member, change row, changed ▸ List.mem_map_of_mem inside, moved.1.id, moved.2⟩

private theorem meter_sound (sound : Sound state) {operation : Operation} (done : meterUsage catalog proportion state operation = .ok next) :
    Sound next ∧ Keeps state next := by
  have steps := meter_steps sound.rows done
  clear done
  induction steps with
  | refl => exact ⟨sound, .refl state⟩
  | tail _ step ih =>
    obtain ⟨middle, kept⟩ := ih
    obtain ⟨after, moved⟩ := usage_sound middle step
    exact ⟨after, kept.trans moved⟩

theorem nextAllocation_fresh (rows : List Allocation) : ∀ row ∈ rows, row.id < nextAllocation rows := by
  intro row member
  rw [nextAllocation]
  induction rows with
  | nil => cases member
  | cons first rest ih =>
    rw [List.map_cons, List.foldr_cons]
    rcases List.mem_cons.mp member with rfl | later
    · exact Nat.lt_succ_of_le (Nat.le_max_left _ _)
    · exact (ih later).trans_le (Nat.succ_le_succ (Nat.le_max_right _ _))

theorem grant_sound (sound : Sound state) {input : OperatorGrantInput} (done : recordGrant registry input state = .ok next) :
    Sound next ∧ Keeps state next := by
  rw [recordGrant] at done
  obtain ⟨feature, -, done⟩ := bind_ok done
  obtain ⟨_, -, done⟩ := bind_ok done
  obtain ⟨quantity, -, done⟩ := bind_ok done
  obtain ⟨entity, -, done⟩ := bind_ok done
  obtain ⟨_, -, done⟩ := bind_ok done
  obtain ⟨units, -, done⟩ := bind_ok done
  obtain ⟨row, checked, done⟩ := bind_ok done
  have made := (checkRow_inv checked).1
  cases done
  have fresh := nextAllocation_fresh state.ledger.allocations
  have key : row.id = nextAllocation state.ledger.allocations := by
    rw [made]
    rfl
  refine ⟨⟨?_, ?_, ?_, ?_⟩, ?_⟩
  · rw [List.map_append, List.map_singleton]
    refine List.nodup_append.mpr ⟨sound.rows, List.nodup_singleton _, fun id old other new => ?_⟩
    obtain ⟨known, inside, rfl⟩ := List.mem_map.mp old
    rw [List.mem_singleton.mp new, key]
    exact (fresh known inside).ne
  · rw [List.map_append, List.map_singleton, sound.numbered, List.length_append, List.length_singleton, List.range_succ]
  · rw [List.map_append, List.map_singleton]
    refine List.nodup_append.mpr ⟨sound.apart, List.nodup_singleton _, fun id old other new => ?_⟩
    obtain ⟨grant, member, rfl⟩ := List.mem_map.mp old
    obtain ⟨known, inside, held⟩ := sound.backed grant member
    rw [List.mem_singleton.mp new, ← held.id]
    exact (fresh known inside).ne
  · intro grant member
    rcases List.mem_append.mp member with old | new
    · obtain ⟨known, inside, held⟩ := sound.backed grant old
      exact ⟨known, List.mem_append_left _ inside, held⟩
    · rw [List.mem_singleton.mp new]
      refine ⟨row, List.mem_append_right _ (List.mem_singleton_self row), key, ?_, ?_, fun _ => ?_, fun reversed => ?_, nofun⟩
      · rw [made]
        rfl
      · rw [made]
        exact Nat.zero_le _
      · rw [made]
        rfl
      · rw [made] at reversed
        cases reversed
  · intro grant member _ known inside same
    exact ⟨grant, List.mem_append_left _ member, known, List.mem_append_left _ inside, same, .self grant known⟩

private theorem requireDistinct_inv {checked : Unit} (distinct : requireDistinct lines = .ok checked) :
    (lines.map DebitLine.allocation).Nodup := by
  induction lines with
  | nil => exact List.nodup_nil
  | cons line rest ih =>
    rw [requireDistinct] at distinct
    split at distinct
    · cases distinct
    · next single =>
      rw [List.map_cons, List.nodup_cons]
      refine ⟨fun again => single ?_, ih distinct⟩
      obtain ⟨other, member, same⟩ := List.mem_map.mp again
      exact List.any_eq_true.mpr ⟨other, member, decide_eq_true same⟩

private theorem debitLine_inv {now : Time} {line : DebitLine} {deduction : Deduction}
    (debited : debitLine registry now rows line = .ok deduction) :
    deduction.allocation = line.allocation ∧ ∃ target ∈ rows, target.id = line.allocation ∧ target.reversedAt = none ∧
      expired now target = false ∧ (deduction.quantity : Int) ≤ target.available := by
  rw [debitLine] at debited
  obtain ⟨target, found, debited⟩ := bind_ok debited
  obtain ⟨_, debitable, debited⟩ := bind_ok debited
  obtain ⟨quantity, -, debited⟩ := bind_ok debited
  obtain ⟨units, -, debited⟩ := bind_ok debited
  obtain ⟨_, enough, debited⟩ := bind_ok debited
  cases debited
  rw [debitTarget] at found
  split at found
  · cases found
  · next row known =>
    cases found
    obtain ⟨member, same⟩ := findAt_inv known
    rw [requireDebitable] at debitable
    split at debitable
    · cases debitable
    · next allowed =>
      rw [debitRefusal] at allowed
      split at allowed
      · cases allowed
      · next alive =>
        split at allowed
        · cases allowed
        · next current =>
          rw [requireAvailable] at enough
          split at enough
          · cases enough
          · next covered =>
            refine ⟨rfl, target, member, same, ?_, Bool.eq_false_iff.mpr current, not_lt.mp covered⟩
            exact Option.not_isSome_iff_eq_none.mp alive

private theorem debited_rows {now : Time} {deductions : List Deduction}
    (unique : (rows.map Allocation.id).Nodup) (distinct : (lines.map DebitLine.allocation).Nodup)
    (debited : lines.mapM (debitLine registry now rows) = .ok deductions) {row : Allocation} (member : row ∈ rows) :
    deductedOn deductions row.id = 0 ∨
      row.reversedAt = none ∧ expired now row = false ∧ (deductedOn deductions row.id : Int) ≤ row.available := by
  have pairs := mapM_ok debited
  have keys : deductions.map Deduction.allocation = lines.map DebitLine.allocation := by
    clear debited distinct
    induction pairs with
    | nil => rfl
    | cons here _ ih => rw [List.map_cons, List.map_cons, (debitLine_inv here).1, ih]
  by_cases named : row.id ∈ deductions.map Deduction.allocation
  · right
    obtain ⟨deduction, listed, same⟩ := List.mem_map.mp named
    obtain ⟨line, -, here⟩ := (paired pairs).2 deduction listed
    obtain ⟨key, target, inside, found, alive, current, covered⟩ := debitLine_inv here
    obtain rfl := List.inj_on_of_nodup_map unique inside member (found.trans (key.symm.trans same))
    have taken : deductedOn deductions target.id = deduction.quantity := by
      rw [← same]
      exact totalAt_unique (keys ▸ distinct) listed
    rw [taken]
    exact ⟨alive, current, covered⟩
  · exact .inl (totalAt_absent named)

private theorem debit_sound (sound : Sound state) {rawInput : AdministrativeDebitInput}
    (done : debitAllocations registry rawInput state = .ok next) : Sound next ∧ Keeps state next := by
  rw [debitAllocations] at done
  obtain ⟨input, normal, done⟩ := bind_ok done
  have distinct : (input.allocations.map DebitLine.allocation).Nodup := by
    rw [normalizeAdministrativeDebitInput] at normal
    obtain ⟨_, -, normal⟩ := bind_ok normal
    obtain ⟨lines, -, normal⟩ := bind_ok normal
    obtain ⟨_, once, normal⟩ := bind_ok normal
    obtain ⟨reason, -, normal⟩ := bind_ok normal
    cases normal
    exact requireDistinct_inv once
  split at done
  · split at done
    · cases done
      exact ⟨sound, .refl state⟩
    · cases done
  · rw [recordDebit] at done
    obtain ⟨lines, debited, done⟩ := bind_ok done
    obtain ⟨allocations, written, done⟩ := bind_ok done
    cases done
    obtain ⟨rows, -⟩ := mapM_checkRow written
    have taken := fun row (member : row ∈ state.ledger.allocations) =>
      @debited_rows registry _ _ _ _ sound.rows distinct debited row member
    have still : ∀ row ∈ state.ledger.allocations, row.reversedAt.isSome = true ∨ expired state.ledger.now row = true →
        debitRow lines row = row := by
      intro row member closed
      rcases taken row member with none | ⟨alive, current, -⟩
      · rw [debitRow, none]
        rfl
      · rcases closed with reversed | lapsed
        · rw [alive] at reversed
          cases reversed
        · rw [current] at lapsed
          cases lapsed
    refine ⟨⟨?_, sound.numbered, sound.apart, fun grant known => ?_⟩, fun grant known revoked row inside same => ?_⟩
    · rw [rows, List.map_map]
      exact sound.rows
    · obtain ⟨row, inside, held⟩ := sound.backed grant known
      refine ⟨debitRow lines row, rows ▸ List.mem_map_of_mem inside, held.id, held.operator, ?_, held.live, fun reversed => ?_,
        held.lapsed⟩
      · have before := held.within
        rw [debitRow]
        dsimp only
        rcases taken row inside with none | ⟨-, -, covered⟩
        · omega
        · rw [Allocation.available] at covered
          omega
      · rw [still row inside (.inl reversed)]
        exact held.taken reversed
    · obtain ⟨backing, listed, held⟩ := sound.backed grant known
      obtain rfl := List.inj_on_of_nodup_map sound.rows inside listed (same.trans held.id.symm)
      have closed : row.reversedAt.isSome = true ∨ expired state.ledger.now row = true := by
        cases dead : row.reversedAt with
        | none =>
          obtain ⟨revocation, some⟩ := Option.isSome_iff_exists.mp revoked
          exact .inr (held.lapsed revocation some dead).1
        | some instant => exact .inl rfl
      refine ⟨grant, known, row, ?_, same, .self grant row⟩
      have moved := List.mem_map_of_mem (f := debitRow lines) inside
      rw [still row inside closed] at moved
      exact rows ▸ moved

/-- The first revocation of a grant records what it reversed, which is nothing of an expired allocation. -/
structure Revokes (grant : OperatorGrant) (row : Allocation) (input : OperatorGrantRevokeInput) (state next : AdjustedLedger) : Prop where
  unrevoked : grant.revocation = none
  member : row ∈ state.ledger.allocations
  key : row.id = grant.allocation
  outcome : (expired state.ledger.now row = true ∧
      next = { state with grants := withRevocation grant.id ⟨state.ledger.now, 0, input⟩ state.grants }) ∨
    (expired state.ledger.now row = false ∧ next = { state with
      ledger := { state.ledger with
        allocations := updateAt Allocation.id row.id (revokedRow state.ledger.now) state.ledger.allocations }
      grants := withRevocation grant.id ⟨state.ledger.now,
        (revokedRow state.ledger.now row).reversedQuantity - row.reversedQuantity, input⟩ state.grants })

private theorem revoke_inv {rawInput : OperatorGrantRevokeInput} (done : revokeOperatorGrant rawInput state = .ok next) :
    ∃ grant, findAt OperatorGrant.id rawInput.grant state.grants = some grant ∧
      (grant.revocation.isSome = true ∧ next = state ∨ ∃ row input, Revokes grant row input state next) := by
  rw [revokeOperatorGrant] at done
  obtain ⟨reason, -, done⟩ := bind_ok done
  dsimp only at done
  split at done
  · cases done
  · next grant found =>
    refine ⟨grant, found, ?_⟩
    split at done
    · cases done
    · rw [revokeGrant] at done
      cases known : grant.revocation with
      | some revocation =>
        simp only [known] at done
        split at done
        · cases done
        · split at done
          · cases done
          · cases done
            exact .inl ⟨rfl, rfl⟩
      | none =>
        simp only [known] at done
        split at done
        · cases done
        · next row here =>
          obtain ⟨member, key⟩ := findAt_inv here
          refine .inr ⟨row, { rawInput with reason }, known, member, key, ?_⟩
          rw [revokeRow] at done
          dsimp only at done
          split at done
          · next lapsed =>
            cases done
            exact .inl ⟨lapsed, rfl⟩
          · next current =>
            obtain ⟨reversed, checked, done⟩ := bind_ok done
            rw [(checkRow_inv checked).1] at done
            cases done
            exact .inr ⟨Bool.eq_false_iff.mpr current, rfl⟩

structure RevokedNow (grant : OperatorGrant) (row : Allocation) (state next : AdjustedLedger) (after : OperatorGrant)
    (result : Allocation) : Prop where
  member : after ∈ next.grants
  inside : result ∈ next.ledger.allocations
  key : result.id = after.allocation
  number : after.id = grant.id
  allocation : after.allocation = grant.allocation
  quantity : result.quantity = row.quantity
  reversed : (expired state.ledger.now row = true ∧ result.reversedAt = none) ∨
    (expired state.ledger.now row = false ∧ result.reversedAt.isSome = true)
  revoked : ∃ revocation, after.revocation = some revocation ∧
    result.reversedQuantity = row.reversedQuantity + revocation.revokedQuantity

private theorem revoked_other {id : Nat} {revocation : Revocation} {grants : List OperatorGrant} {after : OperatorGrant}
    (member : after ∈ withRevocation id revocation grants) :
    ∃ grant ∈ grants, (grant.id = id ∧ after = { grant with revocation := some revocation }) ∨ (grant.id ≠ id ∧ after = grant) :=
  mem_updateAt.mp member

private theorem withRevocation_fields (id : Nat) (revocation : Revocation) (grants : List OperatorGrant) :
    (withRevocation id revocation grants).map OperatorGrant.id = grants.map OperatorGrant.id ∧
      (withRevocation id revocation grants).map OperatorGrant.allocation = grants.map OperatorGrant.allocation ∧
      (withRevocation id revocation grants).length = grants.length := by
  have ids : ∀ grant : OperatorGrant, ({ grant with revocation := some revocation } : OperatorGrant).id = grant.id := fun _ => rfl
  refine ⟨updateAt_keys ids grants, ?_, List.length_map _⟩
  rw [withRevocation, updateAt, List.map_map]
  refine List.map_congr_left fun grant _ => ?_
  rw [Function.comp_apply]
  split <;> rfl

private theorem revokes_sound (sound : Sound state) {grant : OperatorGrant} {row : Allocation} {input : OperatorGrantRevokeInput}
    (known : grant ∈ state.grants) (revokes : Revokes grant row input state next) :
    Sound next ∧ Keeps state next ∧ ∃ after result, RevokedNow grant row state next after result := by
  obtain ⟨backing, listed, held⟩ := sound.backed grant known
  obtain rfl := List.inj_on_of_nodup_map sound.rows revokes.member listed (revokes.key.trans held.id.symm)
  have alive := held.live revokes.unrevoked
  have apart : ∀ other ∈ state.grants, other.id ≠ grant.id → other.allocation ≠ grant.allocation := by
    intro other member differs same
    exact differs (congrArg OperatorGrant.id (List.inj_on_of_nodup_map sound.apart member known same))
  rcases revokes.outcome with ⟨lapsed, rfl⟩ | ⟨current, rfl⟩
  · obtain ⟨ids, allocations, length⟩ := withRevocation_fields grant.id ⟨state.ledger.now, 0, input⟩ state.grants
    refine ⟨⟨sound.rows, ?_, allocations ▸ sound.apart, fun after member => ?_⟩, fun other member revoked found inside same => ?_,
      { grant with revocation := some ⟨state.ledger.now, 0, input⟩ }, row, ?_⟩
    · exact ids.trans (length.symm ▸ sound.numbered)
    · obtain ⟨old, before, ⟨same, rfl⟩ | ⟨-, rfl⟩⟩ := revoked_other member
      · obtain rfl := List.inj_on_of_nodup_map sound.grants before known same
        refine ⟨row, listed, held.id, held.operator, held.within, nofun, held.taken, fun revocation made _ => ?_⟩
        cases made
        exact ⟨lapsed, rfl⟩
      · exact sound.backed after before
    · have differs : other.id ≠ grant.id := by
        intro equal
        obtain rfl := List.inj_on_of_nodup_map sound.grants member known equal
        rw [revokes.unrevoked] at revoked
        cases revoked
      exact ⟨other, mem_updateAt.mpr ⟨other, member, .inr ⟨differs, rfl⟩⟩, found, inside, same, .self other found⟩
    · exact ⟨mem_updateAt.mpr ⟨grant, known, .inl ⟨rfl, rfl⟩⟩, listed, held.id, rfl, rfl, rfl, .inl ⟨lapsed, alive⟩, _, rfl, rfl⟩
  · generalize revocation_eq : (⟨state.ledger.now, (revokedRow state.ledger.now row).reversedQuantity - row.reversedQuantity,
      input⟩ : Revocation) = revocation
    obtain ⟨ids, allocations, length⟩ := withRevocation_fields grant.id revocation state.grants
    have taken : (revokedRow state.ledger.now row).reversedQuantity = row.quantity - row.consumedQuantity - row.heldQuantity := by
      have within := held.within
      exact max_eq_left (by omega)
    have whole : row.quantity =
        (revokedRow state.ledger.now row).reversedQuantity + row.consumedQuantity + row.heldQuantity := by
      have within := held.within
      rw [taken]
      omega
    have inside : revokedRow state.ledger.now row ∈
        updateAt Allocation.id row.id (revokedRow state.ledger.now) state.ledger.allocations :=
      mem_updateAt.mpr ⟨row, listed, .inl ⟨rfl, rfl⟩⟩
    have others : ∀ other ∈ state.ledger.allocations, other.id ≠ row.id →
        other ∈ updateAt Allocation.id row.id (revokedRow state.ledger.now) state.ledger.allocations :=
      fun other member differs => mem_updateAt.mpr ⟨other, member, .inr ⟨differs, rfl⟩⟩
    refine ⟨⟨?_, ?_, allocations ▸ sound.apart, fun after member => ?_⟩, fun other member revoked found there same => ?_,
      { grant with revocation := some revocation }, revokedRow state.ledger.now row, ?_⟩
    · have same : ∀ other, (revokedRow state.ledger.now other).id = other.id := fun _ => rfl
      dsimp only
      rw [updateAt_keys same]
      exact sound.rows
    · exact ids.trans (length.symm ▸ sound.numbered)
    · obtain ⟨old, before, ⟨same, rfl⟩ | ⟨differs, rfl⟩⟩ := revoked_other member
      · obtain rfl := List.inj_on_of_nodup_map sound.grants before known same
        exact ⟨_, inside, held.id, held.operator, whole.ge, nofun, fun _ => whole, fun _ _ alive => nomatch alive⟩
      · obtain ⟨found, there, backed⟩ := sound.backed after before
        refine ⟨found, others found there fun equal => ?_, backed⟩
        exact apart after before differs (backed.id.symm.trans (equal.trans held.id))
    · have differs : other.id ≠ grant.id := by
        intro equal
        obtain rfl := List.inj_on_of_nodup_map sound.grants member known equal
        rw [revokes.unrevoked] at revoked
        cases revoked
      refine ⟨other, mem_updateAt.mpr ⟨other, member, .inr ⟨differs, rfl⟩⟩, found, others found there fun equal => ?_, same,
        .self other found⟩
      exact apart other member differs (same.symm.trans (equal.trans held.id))
    · refine ⟨mem_updateAt.mpr ⟨grant, known, .inl ⟨rfl, rfl⟩⟩, inside, held.id, rfl, rfl, rfl, .inr ⟨current, rfl⟩, revocation, rfl, ?_⟩
      rw [← revocation_eq]
      have least : row.reversedQuantity ≤ (revokedRow state.ledger.now row).reversedQuantity := le_max_right _ _
      dsimp only
      omega

private theorem adjust_sound (sound : Sound state) {adjustment : Adjustment}
    (done : adjustment.apply catalog proportion registry state = .ok next) : Sound next ∧ Keeps state next := by
  cases adjustment with
  | grant input =>
    obtain ⟨normal, -, given⟩ := bind_ok (show (normalizeOperatorGrantInput input >>= _) = .ok next from done)
    split at given
    · split at given
      · cases given
        exact ⟨sound, .refl state⟩
      · cases given
    · exact grant_sound sound given
  | revoke input =>
    obtain ⟨grant, found, ⟨-, rfl⟩ | ⟨row, normal, revokes⟩⟩ := revoke_inv done
    · exact ⟨sound, .refl next⟩
    · obtain ⟨after, kept, -⟩ := revokes_sound sound (findAt_inv found).1 revokes
      exact ⟨after, kept⟩
  | debit input => exact debit_sound sound done
  | meter operation => exact meter_sound sound done

end Preserved

/-- The states that adjustments and usage lead to, in any order. -/
inductive AdjustedRun (catalog : Catalog) (proportion : Nat → Nat → Nat → Nat) (registry : Registry) (start : AdjustedLedger) :
    AdjustedLedger → Prop where
  | start : AdjustedRun catalog proportion registry start start
  | step {state next : AdjustedLedger} (run : AdjustedRun catalog proportion registry start state) (adjustment : Adjustment)
      (applied : adjustment.apply catalog proportion registry state = .ok next) : AdjustedRun catalog proportion registry start next

section Runs
variable {catalog : Catalog} {proportion : Nat → Nat → Nat → Nat} {registry : Registry} {start state next : AdjustedLedger}

theorem run_sound (sound : Sound start) (run : AdjustedRun catalog proportion registry start next) : Sound next ∧ Keeps start next := by
  induction run with
  | start => exact ⟨sound, .refl start⟩
  | step _ adjustment applied ih =>
    obtain ⟨after, kept⟩ := adjust_sound ih.1 applied
    exact ⟨after, ih.2.trans kept⟩

private theorem start_sound (ungranted : start.grants = []) (unique : (start.ledger.allocations.map Allocation.id).Nodup) : Sound start := by
  refine ⟨unique, ?_, ?_, fun grant member => ?_⟩
  · rw [ungranted]
    rfl
  · rw [ungranted]
    exact List.nodup_nil
  · rw [ungranted] at member
    cases member

/-- Usage never spends or holds a row that is reversed or expired. -/
private theorem closed_unspendable {now : Time} {row : Allocation} (closed : row.reversedAt.isSome = true ∨ expired now row = true)
    (wallet : Nat) (entity : Option Nat) (rows : List Allocation) : row ∉ lockAllocations now wallet entity rows := by
  intro locked
  have opened := (mem_lockAllocations.mp locked).2.2
  rcases closed with reversed | lapsed
  · rw [reversed_closed reversed] at opened
    cases opened
  · rw [expired_closed lapsed] at opened
    cases opened

/-- From its revocation on, whatever usage, adjustments and settlements follow, an operator grant's allocation is reversed, consumed or
held in full, what was reversed since is what is recorded as revoked, and none of it is spendable. An allocation that had expired when
its grant was revoked has nothing recorded as revoked. -/
theorem revoked_grant_stays (ungranted : start.grants = []) (unique : (start.ledger.allocations.map Allocation.id).Nodup)
    (run : AdjustedRun catalog proportion registry start state) {rawInput : OperatorGrantRevokeInput}
    (revokes : revokeOperatorGrant rawInput state = .ok next) {later : AdjustedLedger}
    (continued : AdjustedRun catalog proportion registry next later) :
    ∃ grant row, findAt OperatorGrant.id rawInput.grant state.grants = some grant ∧
      findAt Allocation.id grant.allocation state.ledger.allocations = some row ∧
      (grant.revocation = none → ∃ final result revocation,
        findAt OperatorGrant.id rawInput.grant later.grants = some final ∧ final.revocation = some revocation ∧
        findAt Allocation.id grant.allocation later.ledger.allocations = some result ∧
        result.quantity = row.quantity ∧
        result.reversedQuantity = row.reversedQuantity + revocation.revokedQuantity ∧
        result.reversedQuantity ≤ result.quantity ∧
        (∀ wallet entity, result ∉ lockAllocations later.ledger.now wallet entity later.ledger.allocations) ∧
        (expired state.ledger.now row = false →
          result.quantity = result.reversedQuantity + result.consumedQuantity + result.heldQuantity) ∧
        (expired state.ledger.now row = true → revocation.revokedQuantity = 0)) := by
  have sound := (run_sound (start_sound ungranted unique) run).1
  obtain ⟨grant, found, outcome⟩ := revoke_inv revokes
  obtain ⟨known, number⟩ := findAt_inv found
  obtain ⟨row, listed, held⟩ := sound.backed grant known
  refine ⟨grant, row, found, held.id ▸ findAt_member sound.rows listed, fun unrevoked => ?_⟩
  rcases outcome with ⟨revoked, -⟩ | ⟨other, input, effect⟩
  · rw [unrevoked] at revoked
    cases revoked
  · obtain rfl := List.inj_on_of_nodup_map sound.rows effect.member listed (effect.key.trans held.id.symm)
    obtain ⟨soundNext, -, after, between, done⟩ := revokes_sound sound known effect
    obtain ⟨soundLater, kept⟩ := run_sound soundNext continued
    obtain ⟨revocation, made, reversed⟩ := done.revoked
    have isRevoked : after.revocation.isSome = true := by
      rw [made]
      rfl
    obtain ⟨final, there, result, inside, key, follows⟩ := kept after done.member isRevoked between done.inside done.key
    obtain ⟨last, still, moved⟩ := follows.revoked revocation made
    obtain ⟨backing, present, backed⟩ := soundLater.backed final there
    obtain rfl := List.inj_on_of_nodup_map soundLater.rows inside present (key.trans backed.id.symm)
    have place : final.allocation = grant.allocation := follows.allocation.trans done.allocation
    have named : final.id = rawInput.grant := follows.number.trans (done.number.trans number)
    have within := backed.within
    refine ⟨final, result, last, named ▸ findAt_member soundLater.grants there, still,
      (key.trans place) ▸ findAt_member soundLater.rows inside, follows.quantity.trans done.quantity, by omega, by omega, ?_, ?_, ?_⟩
    · intro wallet entity
      apply closed_unspendable
      rcases done.reversed with ⟨-, alive⟩ | ⟨-, dead⟩
      · exact .inr (backed.lapsed last still (follows.reversedAt.trans alive)).1
      · exact .inl (follows.reversedAt ▸ dead)
    · intro current
      rcases done.reversed with ⟨lapsed, -⟩ | ⟨-, dead⟩
      · rw [current] at lapsed
        cases lapsed
      · exact backed.taken (follows.reversedAt ▸ dead)
    · intro lapsed
      rcases done.reversed with ⟨-, alive⟩ | ⟨current, -⟩
      · exact (backed.lapsed last still (follows.reversedAt.trans alive)).2
      · rw [lapsed] at current
        cases current

end Runs

section Sample

def credits : Feature := ⟨1, 0, true⟩

def openRegistry : Registry where
  feature := fun _ => some credits
  entity := fun _ => none
  creditScale := fun _ => 0
  purchased := fun _ => false

def noPlans : Catalog := ⟨[], List.nodup_nil, fun _ => false, fun _ _ _ => false⟩

def rounding (wallet part whole : Nat) : Nat :=
  wallet * part / whole

def creditRate : RateDecision := ⟨0, 1, 0, .flat, ['1'], []⟩

def grantTen (expiresAt : Option Time) : OperatorGrantInput :=
  ⟨"credits".toList, "10".toList, none, expiresAt, "goodwill".toList, "grant".toList⟩

def revokeIt : OperatorGrantRevokeInput := ⟨0, "mistake".toList, "revoke".toList⟩

def unadjusted : AdjustedLedger := ⟨⟨0, [], [], []⟩, [], []⟩

def tenRow (expiresAt : Option Time) (reversed consumed held : Nat) (reversedAt : Option Time) : Allocation :=
  { operatorAllocation 1 credits none 10 expiresAt 0 with
    reversedQuantity := reversed
    consumedQuantity := consumed
    heldQuantity := held
    reversedAt := reversedAt }

def tenGrant (expiresAt : Option Time) (revocation : Option Revocation) : OperatorGrant :=
  ⟨0, 1, grantTen expiresAt, revocation⟩

def sixHeld (status : ReservationStatus) (confirmed : Option Nat) (consumed : Nat) : Reservation :=
  ⟨0, none, creditRate, 6, confirmed, 60, status, [⟨1, 6, consumed⟩]⟩

def granted (now : Time) (expiresAt : Option Time) : AdjustedLedger :=
  ⟨⟨now, [tenRow expiresAt 0 0 0 none], [], []⟩, [tenGrant expiresAt none], []⟩

def held : AdjustedLedger :=
  ⟨⟨0, [tenRow none 0 0 6 none], [sixHeld .active none 0], []⟩, [tenGrant none none], []⟩

def revoked : AdjustedLedger :=
  ⟨⟨0, [tenRow none 4 0 6 (some 0)], [sixHeld .active none 0], []⟩, [tenGrant none (some ⟨0, 4, revokeIt⟩)], []⟩

def settledLater : AdjustedLedger :=
  ⟨⟨0, [tenRow none 8 2 0 (some 0)], [sixHeld .confirmed (some 2) 2], [⟨0, 0, 2000000000, 2, none, [⟨1, 2⟩], []⟩]⟩,
    [tenGrant none (some ⟨0, 8, revokeIt⟩)], []⟩

private theorem granted_run (expiresAt : Option Time) (future : requireFuture 0 expiresAt = .ok ()) :
    AdjustedRun noPlans rounding openRegistry unadjusted (granted 0 expiresAt) := by
  refine .step .start (.grant (grantTen expiresAt)) ?_
  have normal : normalizeOperatorGrantInput (grantTen expiresAt) = .ok (grantTen expiresAt) := by
    have reason : requireReason "goodwill".toList = .ok "goodwill".toList := by decide
    have key : requireFeatureKey "credits".toList = .ok "credits".toList := by decide
    have quantity : canonicalDecimal "10".toList "quantity" 9 = .ok "10".toList := by decide
    simp only [normalizeOperatorGrantInput, grantTen, reason, key, quantity, ok_bind]
    rfl
  have read : positiveDecimal "10".toList "quantity" 0 = .ok "10".toList := by decide
  have units : decimalToUnits "10".toList 0 = .ok 10 := by decide
  rw [Adjustment.apply, grantOperatorBalance, normal]
  simp only [ok_bind, unadjusted, List.find?_nil, recordGrant, requireActiveFeature, openRegistry, requireSpendable, credits, if_true,
    grantTen, read, resolveEntityId, future, units]
  rfl

private theorem revoked_done : revokeOperatorGrant revokeIt held = .ok revoked := by
  decide

end Sample

/-- A reservation of six keeps its hold over the revocation; confirming two of it reverses the four it frees. -/
theorem revoked_grant_stays_settled : ∃ final result revocation,
    findAt OperatorGrant.id 0 settledLater.grants = some final ∧ final.revocation = some revocation ∧
    findAt Allocation.id 1 settledLater.ledger.allocations = some result ∧
    result.reversedQuantity = 0 + revocation.revokedQuantity ∧
    result.quantity = result.reversedQuantity + result.consumedQuantity + result.heldQuantity := by
  have reserved : AdjustedRun noPlans rounding openRegistry unadjusted held :=
    .step (granted_run none rfl) (.meter (.reserve creditRate none "6".toList 60 true))
      (show meterUsage noPlans rounding (granted 0 none) (.reserve creditRate none "6".toList 60 true) = .ok held by decide)
  have confirmed : AdjustedRun noPlans rounding openRegistry revoked settledLater :=
    .step .start (.meter (.confirm 0 "2".toList true))
      (show confirm noPlans 0 "2".toList true revoked = .ok settledLater by decide)
  have unique : (unadjusted.ledger.allocations.map Allocation.id).Nodup := List.nodup_nil
  obtain ⟨grant, row, found, here, stays⟩ := revoked_grant_stays rfl unique reserved revoked_done confirmed
  cases found
  cases here
  obtain ⟨final, result, revocation, there, known, listed, -, reversed, -, -, whole, -⟩ := stays rfl
  exact ⟨final, result, revocation, there, known, listed, reversed, whole rfl⟩

/-- A grant that expired before it was revoked keeps what it never gave. -/
theorem lapsed_grant_unreversed : ∃ state next, AdjustedRun noPlans rounding openRegistry unadjusted state ∧
    revokeOperatorGrant revokeIt state = .ok next ∧ ∃ grant ∈ next.grants, grant.revocation.isSome = true ∧
    ∃ row ∈ next.ledger.allocations, row.id = grant.allocation ∧
      row.quantity ≠ row.reversedQuantity + row.consumedQuantity + row.heldQuantity := by
  have waited : AdjustedRun noPlans rounding openRegistry unadjusted (granted 10 (some 5)) :=
    .step (granted_run (some 5) rfl) (.meter (.wait 10)) rfl
  have done : revokeOperatorGrant revokeIt (granted 10 (some 5)) = .ok
      { granted 10 (some 5) with grants := [tenGrant (some 5) (some ⟨10, 0, revokeIt⟩)] } := by
    decide
  exact ⟨_, _, waited, done, _, List.mem_cons_self, rfl, _, List.mem_cons_self, rfl, by decide⟩

end Quotum.OperatorGrants
