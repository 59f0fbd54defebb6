import Quotum.Metering

/-! Operator grants: an allocation given without a payment, taken back by debits and by its revocation. What a settlement frees of a
revoked grant is revoked with it. -/

namespace Quotum.OperatorGrants
open General Decimal Metering

def adjustmentReasonMaxLength : Nat := 500

def administrativeDebitMaxAllocations : Nat := 20

structure OperatorGrantInput where
  featureKey : Text
  quantity : Text
  entityId : Option Text
  expiresAt : Option Time
  reason : Text
  idempotencyKey : Text
  deriving DecidableEq

structure OperatorGrantRevokeInput where
  grant : Nat
  reason : Text
  idempotencyKey : Text
  deriving DecidableEq

structure DebitLine where
  allocation : AllocationId
  quantity : Text
  deriving DecidableEq

structure AdministrativeDebitInput where
  allocations : List DebitLine
  reason : Text
  idempotencyKey : Text
  deriving DecidableEq

structure Revocation where
  revokedAt : Time
  revokedQuantity : Nat
  request : OperatorGrantRevokeInput
  deriving DecidableEq

structure OperatorGrant where
  id : Nat
  allocation : AllocationId
  request : OperatorGrantInput
  revocation : Option Revocation
  deriving DecidableEq

structure AdministrativeDebit where
  request : AdministrativeDebitInput
  allocations : List Deduction
  deriving DecidableEq

structure AdjustedLedger where
  ledger : Ledger
  grants : List OperatorGrant
  debits : List AdministrativeDebit
  deriving DecidableEq

/-- An active feature. Usage spends a grant of a metered consumable one that it reads its balance from. -/
structure Feature where
  id : Nat
  creditScale : Nat
  spendable : Bool
  deriving DecidableEq

/-- What adjustments read of a project: its active features, an account's entities, the scales of allocations' features, and the
allocations that a purchase gave. -/
structure Registry where
  feature : Text → Option Feature
  entity : Text → Option Nat
  creditScale : Nat → Nat
  purchased : AllocationId → Bool

def expired (now : Time) (row : Allocation) : Bool :=
  row.expiresAt.any fun expiry => decide (expiry ≤ now)

def requireReason (value : Text) : Except Failure Text :=
  let reason := trim value
  if reason = [] ∨ adjustmentReasonMaxLength < reason.length then
    .error (.invalidRequest s!"reason must contain between 1 and {adjustmentReasonMaxLength} characters")
  else .ok reason

def requireFeatureKey (value : Text) : Except Failure Text :=
  if trim value = [] then .error (.invalidRequest "featureKey is required") else .ok (trim value)

section Grant
variable (registry : Registry)

def normalizeOperatorGrantInput (input : OperatorGrantInput) : Except Failure OperatorGrantInput := do
  let featureKey ← requireFeatureKey input.featureKey
  let quantity ← canonicalDecimal input.quantity "quantity" 9
  let reason ← requireReason input.reason
  let entityId := (input.entityId.map trim).filter fun id => decide (id ≠ [])
  .ok { input with featureKey, quantity, entityId, reason }

def requireActiveFeature (key : Text) : Except Failure Feature :=
  match registry.feature key with
  | none => .error (.invalidRequest s!"Metered feature {String.ofList key} was not found")
  | some feature => .ok feature

def requireSpendable (feature : Feature) : Except Failure Unit :=
  if feature.spendable = true then .ok ()
  else .error (.invalidRequest "Operator grants give quantity of a consumable feature that usage spends only")

def resolveEntityId : Option Text → Except Failure (Option Nat)
  | none => .ok none
  | some external =>
    match registry.entity external with
    | none => .error (.invalidRequest s!"Entity {String.ofList external} was not found for the billing account")
    | some entity => .ok (some entity)

def requireFuture (now : Time) (expiresAt : Option Time) : Except Failure Unit :=
  if expiresAt.all (fun expiry => decide (now < expiry)) = true then .ok ()
  else .error (.invalidRequest "expiresAt must be in the future")

def nextAllocation (rows : List Allocation) : AllocationId :=
  (rows.map Allocation.id).foldr max 0 + 1

def operatorAllocation (id : AllocationId) (feature : Feature) (entity : Option Nat) (quantity : Nat) (expiresAt : Option Time)
    (now : Time) : Allocation where
  id
  subscription := none
  planItem := none
  feature := feature.id
  entity
  sourceKind := .operator
  quantity
  reversedQuantity := 0
  consumedQuantity := 0
  heldQuantity := 0
  periodStartAt := none
  periodEndAt := none
  expiresAt
  reversedAt := none
  createdAt := now

def recordGrant (input : OperatorGrantInput) (state : AdjustedLedger) : Except Failure AdjustedLedger := do
  let feature ← requireActiveFeature registry input.featureKey
  requireSpendable feature
  let quantity ← positiveDecimal input.quantity "quantity" feature.creditScale
  let entity ← resolveEntityId registry input.entityId
  requireFuture state.ledger.now input.expiresAt
  let units ← decimalToUnits quantity feature.creditScale
  let id := nextAllocation state.ledger.allocations
  let row ← checkRow (operatorAllocation id feature entity units input.expiresAt state.ledger.now)
  .ok { state with
    ledger := { state.ledger with allocations := state.ledger.allocations ++ [row] }
    grants := state.grants ++ [{ id := state.grants.length, allocation := id, request := input, revocation := none }] }

def grantOperatorBalance (rawInput : OperatorGrantInput) (state : AdjustedLedger) : Except Failure AdjustedLedger := do
  let input ← normalizeOperatorGrantInput rawInput
  match state.grants.find? fun grant => decide (grant.request.idempotencyKey = input.idempotencyKey) with
  | some replay =>
    if replay.request = input then .ok state
    else .error (.conflict "Idempotency key was reused with a different operator grant")
  | none => recordGrant registry input state

end Grant

section Revoke

/-- What a revocation takes back: all that is neither consumed nor held. -/
def revokedRow (now : Time) (row : Allocation) : Allocation :=
  { row with
    reversedQuantity := max (row.quantity - row.consumedQuantity - row.heldQuantity) row.reversedQuantity
    reversedAt := some (row.reversedAt.getD now) }

def withRevocation (id : Nat) (revocation : Revocation) (grants : List OperatorGrant) : List OperatorGrant :=
  updateAt OperatorGrant.id id (fun grant => { grant with revocation := some revocation }) grants

/-- The first revocation of a grant. An allocation that has expired is left as it is. -/
def revokeRow (grant : OperatorGrant) (input : OperatorGrantRevokeInput) (row : Allocation) (state : AdjustedLedger) :
    Except Failure AdjustedLedger :=
  let now := state.ledger.now
  if expired now row = true then
    .ok { state with grants := withRevocation grant.id ⟨now, 0, input⟩ state.grants }
  else do
    let reversed ← checkRow (revokedRow now row)
    let revokedQuantity := reversed.reversedQuantity - row.reversedQuantity
    .ok { state with
      ledger := { state.ledger with
        allocations := updateAt Allocation.id row.id (revokedRow now) state.ledger.allocations }
      grants := withRevocation grant.id ⟨now, revokedQuantity, input⟩ state.grants }

def revokeGrant (grant : OperatorGrant) (input : OperatorGrantRevokeInput) (state : AdjustedLedger) : Except Failure AdjustedLedger :=
  match grant.revocation with
  | some revocation =>
    if revocation.request.idempotencyKey ≠ input.idempotencyKey then .error (.conflict "Operator grant has already been revoked")
    else if revocation.request ≠ input then .error (.conflict "Idempotency key was reused with a different revocation")
    else .ok state
  | none =>
    match findAt Allocation.id grant.allocation state.ledger.allocations with
    | none => .error (.internal s!"operator grant {grant.id} has no allocation")
    | some row => revokeRow grant input row state

def keyHeld (id : Nat) (key : Text) (grants : List OperatorGrant) : Bool :=
  grants.any fun grant =>
    decide (grant.id ≠ id) && grant.revocation.any fun revocation => decide (revocation.request.idempotencyKey = key)

/-- Takes back what a grant still gives. -/
def revokeOperatorGrant (rawInput : OperatorGrantRevokeInput) (state : AdjustedLedger) : Except Failure AdjustedLedger := do
  let reason ← requireReason rawInput.reason
  let input := { rawInput with reason }
  match findAt OperatorGrant.id input.grant state.grants with
  | none => .error (.invalidRequest "Operator grant was not found")
  | some grant =>
    if keyHeld grant.id input.idempotencyKey state.grants = true then
      .error (.conflict "Idempotency key was reused with a different revocation")
    else revokeGrant grant input state

end Revoke

section Debit
variable (registry : Registry)

def requireLines (lines : List DebitLine) : Except Failure Unit :=
  if lines = [] ∨ administrativeDebitMaxAllocations < lines.length then
    .error (.invalidRequest s!"allocations must name between 1 and {administrativeDebitMaxAllocations} allocations")
  else .ok ()

def requireDistinct : List DebitLine → Except Failure Unit
  | [] => .ok ()
  | line :: rest =>
    if rest.any (fun other => decide (other.allocation = line.allocation)) = true then
      .error (.invalidRequest s!"allocation {line.allocation} is named more than once")
    else requireDistinct rest

def canonicalLine (line : DebitLine) : Except Failure DebitLine := do
  let quantity ← canonicalDecimal line.quantity "quantity" 9
  .ok { line with quantity }

def normalizeAdministrativeDebitInput (input : AdministrativeDebitInput) : Except Failure AdministrativeDebitInput := do
  requireLines input.allocations
  let lines ← input.allocations.mapM canonicalLine
  let allocations := lines.insertionSort fun line other => line.allocation ≤ other.allocation
  requireDistinct allocations
  let reason ← requireReason input.reason
  .ok { input with allocations, reason }

/-- Why an allocation cannot be debited. -/
def debitRefusal (now : Time) (target : Allocation) : Option String :=
  if target.reversedAt.isSome = true then some "reversed"
  else if expired now target = true then some "expired"
  else if target.sourceKind = .purchase ∨ target.sourceKind = .topup ∨ registry.purchased target.id = true then
    some "provider_purchase"
  else none

def requireDebitable (now : Time) (target : Allocation) : Except Failure Unit :=
  match debitRefusal registry now target with
  | some _ => .error (.conflict "Allocation cannot be debited")
  | none => .ok ()

def requireAvailable (target : Allocation) (units : Nat) : Except Failure Unit :=
  if target.available < units then .error (.conflict "Debit exceeds the allocation's available quantity") else .ok ()

def debitTarget (line : DebitLine) (rows : List Allocation) : Except Failure Allocation :=
  match findAt Allocation.id line.allocation rows with
  | none => .error (.invalidRequest "Allocation was not found")
  | some target => .ok target

def debitLine (now : Time) (rows : List Allocation) (line : DebitLine) : Except Failure Deduction := do
  let target ← debitTarget line rows
  requireDebitable registry now target
  let scale := registry.creditScale target.feature
  let quantity ← positiveDecimal line.quantity "quantity" scale
  let units ← decimalToUnits quantity scale
  requireAvailable target units
  .ok ⟨line.allocation, units⟩

def debitRow (lines : List Deduction) (row : Allocation) : Allocation :=
  { row with reversedQuantity := row.reversedQuantity + deductedOn lines row.id }

def recordDebit (input : AdministrativeDebitInput) (state : AdjustedLedger) : Except Failure AdjustedLedger := do
  let lines ← input.allocations.mapM (debitLine registry state.ledger.now state.ledger.allocations)
  let allocations ← state.ledger.allocations.mapM fun row => checkRow (debitRow lines row)
  .ok { state with
    ledger := { state.ledger with allocations }
    debits := state.debits ++ [{ request := input, allocations := lines }] }

/-- Takes a quantity back from named allocations, all or nothing. -/
def debitAllocations (rawInput : AdministrativeDebitInput) (state : AdjustedLedger) : Except Failure AdjustedLedger := do
  let input ← normalizeAdministrativeDebitInput rawInput
  match state.debits.find? fun debit => decide (debit.request.idempotencyKey = input.idempotencyKey) with
  | some replay =>
    if replay.request = input then .ok state
    else .error (.conflict "Idempotency key was reused with a different debit")
  | none => recordDebit registry input state

end Debit

section Settle

/-- A grant once a settlement released and consumed quantities of its allocation: what was freed of a revoked one is revoked. -/
def settleGrant (consume release : AllocationId → Nat) (rows : List Allocation) (grant : OperatorGrant) : OperatorGrant :=
  match grant.revocation, findAt Allocation.id grant.allocation rows with
  | some revocation, some row =>
    if row.sourceKind = .operator ∧ row.reversedAt.isSome = true ∧ consume row.id < release row.id then
      { grant with
        revocation := some { revocation with
          revokedQuantity := revocation.revokedQuantity + (release row.id - consume row.id) } }
    else grant
  | _, _ => grant

def settleGrants (consume release : AllocationId → Nat) (rows : List Allocation) (grants : List OperatorGrant) : List OperatorGrant :=
  grants.map (settleGrant consume release rows)

variable (catalog : Catalog)

def releaseReservationHolds (reservation : Reservation) (status : ReservationStatus) (state : AdjustedLedger) :
    Except Failure AdjustedLedger := do
  let ledger ← Metering.releaseReservationHolds catalog reservation status state.ledger
  .ok { state with
    ledger
    grants := settleGrants (fun _ => 0) (openOn reservation.holds) state.ledger.allocations state.grants }

def confirmationChanges (reservation : Reservation) (input : Text) (admitted : Bool) (ledger : Ledger) : Option (List Change) :=
  match positiveDecimal input "quantity" reservation.rate.meterScale >>= calculateWalletQuantity reservation.rate with
  | .error _ => none
  | .ok walletQuantity =>
    if admitted = true then
      planConfirmation (lockAllAllocationRows reservation.rate.wallet reservation.entity ledger.allocations) reservation.holds
        walletQuantity ledger.now
    else none

/-- The grants once a confirmation went through. -/
def confirmedGrants (id : Nat) (input : Text) (admitted : Bool) (state : AdjustedLedger) : List OperatorGrant :=
  match findAt Reservation.id id state.ledger.reservations with
  | none => state.grants
  | some reservation =>
    if reservation.status ≠ .active then state.grants
    else if reservation.expiresAt ≤ state.ledger.now then
      settleGrants (fun _ => 0) (openOn reservation.holds) state.ledger.allocations state.grants
    else
      match confirmationChanges reservation input admitted state.ledger with
      | none => state.grants
      | some changes => settleGrants (consumedBy changes) (releasedBy changes) state.ledger.allocations state.grants

def confirm (id : Nat) (input : Text) (admitted : Bool) (state : AdjustedLedger) : Except Failure AdjustedLedger := do
  let ledger ← Metering.confirm catalog id input admitted state.ledger
  .ok { state with ledger, grants := confirmedGrants id input admitted state }

def release (id : Nat) (state : AdjustedLedger) : Except Failure AdjustedLedger :=
  match findAt Reservation.id id state.ledger.reservations with
  | none => .error (.invalidRequest s!"Reservation {id} was not found")
  | some reservation =>
    if reservation.status = .active then
      releaseReservationHolds catalog reservation (if reservation.expiresAt ≤ state.ledger.now then .expired else .released) state
    else .ok state

def expireSubjectReservations (state : AdjustedLedger) : Except Failure AdjustedLedger :=
  (state.ledger.reservations.filter fun row => row.status = .active ∧ row.expiresAt ≤ state.ledger.now).foldlM
    (fun current reservation => releaseReservationHolds catalog reservation .expired current) state

end Settle

inductive Adjustment where
  | grant (input : OperatorGrantInput)
  | revoke (input : OperatorGrantRevokeInput)
  | debit (input : AdministrativeDebitInput)
  | meter (operation : Operation)

def meterUsage (catalog : Catalog) (proportion : Nat → Nat → Nat → Nat) (state : AdjustedLedger) (operation : Operation) :
    Except Failure AdjustedLedger :=
  match operation with
  | .confirm reservation quantity admitted => confirm catalog reservation quantity admitted state
  | .release reservation => release catalog reservation state
  | .expire => expireSubjectReservations catalog state
  | other => do
    let ledger ← other.apply catalog proportion state.ledger
    .ok { state with ledger }

def Adjustment.apply (catalog : Catalog) (proportion : Nat → Nat → Nat → Nat) (registry : Registry) (state : AdjustedLedger) :
    Adjustment → Except Failure AdjustedLedger
  | .grant input => grantOperatorBalance registry input state
  | .revoke input => revokeOperatorGrant input state
  | .debit input => debitAllocations registry input state
  | .meter operation => meterUsage catalog proportion state operation

end Quotum.OperatorGrants
