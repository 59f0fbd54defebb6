import Quotum.OperatorGrants

/-! Rollovers: what an allowance leaves unused at its end moves to an allocation of its own, up to the item's maximum. -/

namespace Quotum.Rollovers
open General Metering
open OperatorGrants (nextAllocation expired)

structure RolloverPolicy where
  revision : Nat
  maxQuantity : Option Nat
  /-- When what was rolled over at an instant expires, unless it is kept forever. -/
  expiry : Option (Time → Time)
  reset : Time → Time

structure Rollover where
  allocation : AllocationId
  origin : AllocationId
  policyRevision : Nat
  deriving DecidableEq

structure RolledLedger where
  ledger : Ledger
  rollovers : List Rollover
  processed : List AllocationId
  deriving DecidableEq

/-- The rollovers one maximum is for: those of one subscription's item, for one entity or the account. -/
structure Pool where
  subscription : Option Nat
  planItem : Option Nat
  entity : Option Nat
  deriving DecidableEq

def poolOf (row : Allocation) : Pool :=
  ⟨row.subscription, row.planItem, row.entity⟩

def inPool (pool : Pool) (row : Allocation) : Bool :=
  row.sourceKind == .rollover && decide (poolOf row = pool)

def remainder (origin : Allocation) : Nat :=
  ((origin.quantity : Int) - origin.reversedQuantity - origin.consumedQuantity).toNat

def activeRollover (now : Time) (pool : Pool) (rows : List Allocation) : Int :=
  ((rows.filter fun row => inPool pool row && row.isOpen now).map Allocation.available).sum

def rolloverUnits (policy : RolloverPolicy) (now : Time) (origin : Allocation) (rows : List Allocation) : Except Failure Nat :=
  match policy.maxQuantity with
  | none => .ok (remainder origin)
  | some cap =>
    let active := activeRollover now (poolOf origin) rows
    if active < 0 then .error (.invalidRequest "active rollover balance must be a non-negative decimal string")
    else .ok (min (remainder origin) (cap - active.toNat))

def rolloverStart (origin : Allocation) : Time :=
  (origin.periodEndAt.or origin.expiresAt).getD 0

def rolloverAllocation (id : AllocationId) (policy : RolloverPolicy) (origin : Allocation) (units : Nat) (now : Time) : Allocation where
  id
  subscription := origin.subscription
  planItem := origin.planItem
  feature := origin.feature
  entity := origin.entity
  sourceKind := .rollover
  quantity := units
  reversedQuantity := 0
  consumedQuantity := 0
  heldQuantity := 0
  periodStartAt := some (rolloverStart origin)
  periodEndAt := some (policy.reset (rolloverStart origin))
  expiresAt := policy.expiry.map fun expiry => expiry (rolloverStart origin)
  reversedAt := none
  createdAt := now

/-- An allowance has one rollover, and a second is not inserted. -/
def insertRollover (policy : RolloverPolicy) (origin : Allocation) (units : Nat) (state : RolledLedger) :
    Except Failure RolledLedger :=
  if units = 0 ∨ state.rollovers.any (fun rollover => decide (rollover.origin = origin.id)) = true then .ok state
  else do
    let id := nextAllocation state.ledger.allocations
    let row ← checkRow (rolloverAllocation id policy origin units state.ledger.now)
    .ok { state with
      ledger := { state.ledger with allocations := state.ledger.allocations ++ [row] }
      rollovers := state.rollovers ++ [{ allocation := id, origin := origin.id, policyRevision := policy.revision }] }

section Materialize
variable (policies : Nat → Option RolloverPolicy)

/-- Whether an expired allowance is still to be rolled over. What is held on it waits until it settles. -/
def awaitsRollover (state : RolledLedger) (row : Allocation) : Bool :=
  row.sourceKind == .subscription && row.subscription.isSome && row.reversedAt.isNone && expired state.ledger.now row &&
    row.heldQuantity == 0 && !state.processed.contains row.id && (row.planItem.bind policies).isSome

/-- Rows that wait for another transaction, or whose customer or subscription does, are skipped. -/
def rolloverOrigins (limit : Nat) (busy : Allocation → Bool) (state : RolledLedger) : List Allocation :=
  (((state.ledger.allocations.filter (awaitsRollover policies state)).insertionSort
    fun row other => spendsBefore row other).take limit).filter fun row => !busy row

def rollOver (state : RolledLedger) (origin : Allocation) : Except Failure RolledLedger :=
  match origin.planItem.bind policies with
  | none => .ok state
  | some policy => do
    let units ← rolloverUnits policy state.ledger.now origin state.ledger.allocations
    let rolled ← insertRollover policy origin units state
    .ok { rolled with processed := rolled.processed ++ [origin.id] }

/-- Rolls over the expired allowances that wait for it, in one transaction. -/
def materializeExpiredRollovers (limit : Nat) (busy : Allocation → Bool) (state : RolledLedger) : Except Failure RolledLedger :=
  (rolloverOrigins policies limit busy state).foldlM (rollOver policies) state

end Materialize

/-- An allocation that anything but a rollover gives the account. -/
def grantAllocation (row : Allocation) (state : RolledLedger) : Except Failure RolledLedger :=
  if row.sourceKind = .rollover then .error (.internal "a rollover has an origin")
  else do
    let granted ← checkRow { row with
      id := nextAllocation state.ledger.allocations
      reversedQuantity := 0
      consumedQuantity := 0
      heldQuantity := 0
      reversedAt := none
      createdAt := state.ledger.now }
    .ok { state with ledger := { state.ledger with allocations := state.ledger.allocations ++ [granted] } }

def meterUsage (catalog : Catalog) (proportion : Nat → Nat → Nat → Nat) (state : RolledLedger) (operation : Metering.Operation) :
    Except Failure RolledLedger := do
  let ledger ← operation.apply catalog proportion state.ledger
  .ok { state with ledger }

/-- An account before its first allocation. -/
def opened (now : Time) : RolledLedger :=
  ⟨⟨now, [], [], []⟩, [], []⟩

end Quotum.Rollovers
