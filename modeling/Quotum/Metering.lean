import Quotum.KeptLevels
import Quotum.Pricing
import Quotum.General.Table

/-! The wallet ledger of one account: usage is spent from or held on allocations, holds are settled
by a confirmation or given back, and corrections restore what an event spent. -/

namespace Quotum.Metering
open General Decimal Pricing KeptLevels

structure Deduction where
  allocation : AllocationId
  quantity : Nat
  deriving DecidableEq

structure Hold where
  allocation : AllocationId
  heldQuantity : Nat
  consumedQuantity : Nat
  deriving DecidableEq

inductive ReservationStatus where
  | active
  | confirmed
  | released
  | expired
  deriving DecidableEq

structure RateDecision where
  meterScale : Nat
  wallet : Nat
  walletScale : Nat
  pricingModel : RateCardModel
  ratePerUnit : Text
  tiers : List RateCardTier
  deriving DecidableEq

structure Reservation where
  id : Nat
  entity : Option Nat
  rate : RateDecision
  requestedQuantity : Nat
  confirmedQuantity : Option Nat
  expiresAt : Time
  status : ReservationStatus
  holds : List Hold
  deriving DecidableEq

structure Correction where
  quantity : Nat
  walletQuantity : Int
  receipt : List Deduction
  deriving DecidableEq

/-- A consume or confirm event, whose quantity is in the units of its column. An event of a metered
limit names its usage window and spends from no allocation. -/
structure UsageEvent where
  id : Nat
  meterScale : Nat
  quantity : Nat
  walletQuantity : Nat
  usageWindow : Option Nat
  deductions : List Deduction
  corrections : List Correction
  deriving DecidableEq

def UsageEvent.corrected (correction : Correction) (event : UsageEvent) : UsageEvent :=
  { event with corrections := event.corrections ++ [correction] }

structure Ledger where
  now : Time
  allocations : List Allocation
  reservations : List Reservation
  events : List UsageEvent
  deriving DecidableEq

def checkViolation : Failure :=
  .internal "new row for relation balance_allocations violates check constraint"

def checkRow (row : Allocation) : Except Failure Allocation :=
  if row.checked then .ok row else .error checkViolation

section Spend
variable (now : Time) (wallet : Nat) (entity : Option Nat)

/-- The earliest expiry first, an entity's own before the pool, then the oldest. -/
def spendsBefore (row other : Allocation) : Bool :=
  let older := decide (row.createdAt < other.createdAt) || (row.createdAt == other.createdAt && decide (row.id ≤ other.id))
  let nearer := if row.entity.isNone == other.entity.isNone then older else other.entity.isNone
  match row.expiresAt, other.expiresAt with
  | some first, some second => decide (first < second) || (first == second && nearer)
  | some _, none => true
  | none, some _ => false
  | none, none => nearer

def inWallet (row : Allocation) : Bool :=
  row.feature == wallet && (row.entity.isNone || row.entity == entity)

def lockAllAllocationRows (rows : List Allocation) : List Allocation :=
  (rows.filter (inWallet wallet entity)).insertionSort fun row other => spendsBefore row other

def lockAllocations (rows : List Allocation) : List Allocation :=
  (rows.filter fun row => inWallet wallet entity row && row.isOpen now).insertionSort
    fun row other => spendsBefore row other

def balanceAvailable (rows : List Allocation) : Nat :=
  (rows.map Allocation.available).sum.toNat

end Spend

def pouredOn (poured : List (Allocation × Nat)) (id : AllocationId) : Nat :=
  totalAt (fun entry => entry.1.id) Prod.snd id poured

def planDeductions (rows : List Allocation) (quantity : Nat) : Except Failure (List Deduction) :=
  let poured := pour (fun row => row.available.toNat) quantity rows
  if given poured = quantity then
    .ok ((poured.filter fun entry => 0 < entry.2).map fun entry => ⟨entry.1.id, entry.2⟩)
  else .error (.internal "Allocation deduction did not cover the approved quantity")

def deductedOn (deductions : List Deduction) (id : AllocationId) : Nat :=
  totalAt Deduction.allocation Deduction.quantity id deductions

def applyConsumed (deductions : List Deduction) (rows : List Allocation) : Except Failure (List Allocation) :=
  rows.mapM fun row => checkRow { row with consumedQuantity := row.consumedQuantity + deductedOn deductions row.id }

def applyHeld (deductions : List Deduction) (rows : List Allocation) : Except Failure (List Allocation) :=
  rows.mapM fun row => checkRow { row with heldQuantity := row.heldQuantity + deductedOn deductions row.id }

def calculateWalletQuantity (rate : RateDecision) (quantity : Text) : Except Failure Nat := do
  let rendered ← calculateRateCardQuantity quantity rate.pricingModel rate.ratePerUnit rate.tiers rate.meterScale
    rate.walletScale
  decimalToUnits rendered rate.walletScale

/-- Spends a quantity at once. The account's controls admit it or leave everything as it was. -/
def consume (rate : RateDecision) (entity : Option Nat) (input : Text) (admitted : Bool) (ledger : Ledger) :
    Except Failure Ledger := do
  let quantity ← positiveDecimal input "quantity" rate.meterScale
  let walletQuantity ← calculateWalletQuantity rate quantity
  let rows := lockAllocations ledger.now rate.wallet entity ledger.allocations
  if balanceAvailable rows < walletQuantity || !admitted then return ledger
  else
    let deductions ← planDeductions rows walletQuantity
    let allocations ← applyConsumed deductions ledger.allocations
    return { ledger with
      allocations := allocations
      events := ledger.events ++ [{
        id := ledger.events.length
        meterScale := rate.meterScale
        quantity := ← decimalToUnits quantity columnScale
        walletQuantity := walletQuantity
        usageWindow := none
        deductions := deductions
        corrections := [] }] }

/-- Usage of a metered limit, consumed or confirmed: it is counted on its window and spends from no allocation. -/
def recordLimitUsage (rate : RateDecision) (window : Nat) (input : Text) (ledger : Ledger) : Except Failure Ledger := do
  let quantity ← positiveDecimal input "quantity" rate.meterScale
  return { ledger with
    events := ledger.events ++ [{
      id := ledger.events.length
      meterScale := rate.meterScale
      quantity := ← decimalToUnits quantity columnScale
      walletQuantity := ← decimalToUnits quantity rate.meterScale
      usageWindow := some window
      deductions := []
      corrections := [] }] }

/-- Holds a quantity until it is confirmed, released or expires. -/
def reserve (rate : RateDecision) (entity : Option Nat) (input : Text) (expiresIn : Nat) (admitted : Bool)
    (ledger : Ledger) : Except Failure Ledger := do
  let quantity ← positiveDecimal input "quantity" rate.meterScale
  let walletQuantity ← calculateWalletQuantity rate quantity
  let rows := lockAllocations ledger.now rate.wallet entity ledger.allocations
  if balanceAvailable rows < walletQuantity || !admitted then return ledger
  else
    let deductions ← planDeductions rows walletQuantity
    let allocations ← applyHeld deductions ledger.allocations
    return { ledger with
      allocations := allocations
      reservations := ledger.reservations ++ [{
        id := ledger.reservations.length
        entity := entity
        rate := rate
        requestedQuantity := ← decimalToUnits quantity rate.meterScale
        confirmedQuantity := none
        expiresAt := ledger.now + expiresIn
        status := .active
        holds := deductions.map fun deduction => ⟨deduction.allocation, deduction.quantity, 0⟩ }] }

section Settle

def holdOn (holds : List Hold) (id : AllocationId) : Nat :=
  totalAt Hold.allocation Hold.heldQuantity id holds

/-- What holds still keep from one allocation. -/
def openOn (holds : List Hold) (id : AllocationId) : Nat :=
  totalAt Hold.allocation (fun hold => hold.heldQuantity - hold.consumedQuantity) id holds

/-- Moves `release` out of a row's hold and `consume` into what it consumed. What a revoked operator
grant frees is revoked as well. -/
def settleHeldQuantity (consume release : Nat) (row : Allocation) : Except Failure Allocation :=
  if row.heldQuantity < release then .error checkViolation
  else checkRow { row with
    consumedQuantity := row.consumedQuantity + consume
    heldQuantity := row.heldQuantity - release
    reversedQuantity := row.reversedQuantity +
      if row.sourceKind = .operator ∧ row.reversedAt.isSome then release - consume else 0 }

structure Change where
  allocation : AllocationId
  consume : Nat
  release : Nat
  deriving DecidableEq

/-- A confirmation settles against the reservation's own holds first, then against free quantity. -/
def planConfirmation (rows : List Allocation) (holds : List Hold) (walletQuantity : Nat) (now : Time) :
    Option (List Change) :=
  let held := pour (fun row => holdOn holds row.id) walletQuantity rows
  let free := pour (fun row => if row.isOpen now then row.available.toNat else 0) (walletQuantity - given held) rows
  if given held + given free < walletQuantity then none
  else some (rows.map fun row => ⟨row.id, pouredOn held row.id + pouredOn free row.id, holdOn holds row.id⟩)

def consumedBy (changes : List Change) (id : AllocationId) : Nat :=
  totalAt Change.allocation Change.consume id changes

def releasedBy (changes : List Change) (id : AllocationId) : Nat :=
  totalAt Change.allocation Change.release id changes

variable (catalog : Catalog) (now : Time)

def applyConfirmation (changes : List Change) (rows : List Allocation) : Except Failure (List Allocation) := do
  let settled ← rows.mapM fun row => settleHeldQuantity (consumedBy changes row.id) (releasedBy changes row.id) row
  shrinkKeptLevels catalog now ((changes.filter fun change => change.consume < change.release).map Change.allocation) settled

/-- Gives back what a reservation still holds. -/
def releaseHolds (holds : List Hold) (rows : List Allocation) : Except Failure (List Allocation) := do
  let settled ← rows.mapM fun row => settleHeldQuantity 0 (openOn holds row.id) row
  shrinkKeptLevels catalog now ((holds.filter fun hold => hold.consumedQuantity < hold.heldQuantity).map Hold.allocation)
    settled

def releaseReservationHolds (reservation : Reservation) (status : ReservationStatus) (ledger : Ledger) :
    Except Failure Ledger := do
  let allocations ← releaseHolds catalog ledger.now reservation.holds ledger.allocations
  return { ledger with
    allocations := allocations
    reservations := updateAt Reservation.id reservation.id (fun row => { row with status := status }) ledger.reservations }

def confirm (id : Nat) (input : Text) (admitted : Bool) (ledger : Ledger) : Except Failure Ledger := do
  match findAt Reservation.id id ledger.reservations with
  | none => .error (.invalidRequest s!"Reservation {id} was not found")
  | some reservation =>
    let rate := reservation.rate
    let quantity ← positiveDecimal input "quantity" rate.meterScale
    let units ← decimalToUnits quantity rate.meterScale
    match reservation.status with
    | .confirmed =>
      if reservation.confirmedQuantity = some units then return ledger
      else .error (.conflict "Reservation was confirmed with different usage facts")
    | .expired => return ledger
    | .released => .error (.conflict "Reservation has been released")
    | .active =>
      if reservation.expiresAt ≤ ledger.now then releaseReservationHolds catalog reservation .expired ledger
      else if units > reservation.requestedQuantity then
        .error (.conflict "Confirmed quantity exceeds the reserved authorization")
      else
        let walletQuantity ← calculateWalletQuantity rate quantity
        let rows := lockAllAllocationRows rate.wallet reservation.entity ledger.allocations
        match planConfirmation rows reservation.holds walletQuantity ledger.now with
        | none => return ledger
        | some changes =>
          if !admitted then return ledger
          else
            let allocations ← applyConfirmation catalog ledger.now changes ledger.allocations
            return { ledger with
              allocations := allocations
              reservations := updateAt Reservation.id reservation.id
                (fun row => { row with
                  status := .confirmed
                  confirmedQuantity := some units
                  holds := row.holds.map fun hold => { hold with
                    consumedQuantity :=
                      min (consumedBy changes hold.allocation) (releasedBy changes hold.allocation) } })
                ledger.reservations
              events := ledger.events ++ [{
                id := ledger.events.length
                meterScale := rate.meterScale
                quantity := ← decimalToUnits quantity columnScale
                walletQuantity := walletQuantity
                usageWindow := none
                deductions := (changes.filter fun change => 0 < change.consume).map fun change =>
                  ⟨change.allocation, change.consume⟩
                corrections := [] }] }

def release (id : Nat) (ledger : Ledger) : Except Failure Ledger :=
  match findAt Reservation.id id ledger.reservations with
  | none => .error (.invalidRequest s!"Reservation {id} was not found")
  | some reservation =>
    if reservation.status = .active then
      releaseReservationHolds catalog reservation (if reservation.expiresAt ≤ ledger.now then .expired else .released) ledger
    else .ok ledger

/-- Reclaims the holds of every reservation that has run out. -/
def expireSubjectReservations (ledger : Ledger) : Except Failure Ledger :=
  (ledger.reservations.filter fun row => row.status = .active ∧ row.expiresAt ≤ ledger.now).foldlM
    (fun current reservation => releaseReservationHolds catalog reservation .expired current) ledger

end Settle

section Correct
variable (catalog : Catalog) (now : Time)

/-- Takes a restored quantity off what an allocation consumed, when the allocation is still open or its
default plan resumes it. -/
def restoreAllocation (resumes : AllocationId → Bool) (id : AllocationId) (quantity : Nat) (rows : List Allocation) :
    Except Failure (List Allocation) :=
  match findAt Allocation.id id rows with
  | none => .ok rows
  | some row =>
    if row.sourceKind = .operator ∧ row.reversedAt.isSome then
      .error (.conflict "The usage being corrected was spent from an operator grant that has been revoked")
    else if row.isOpen now || (row.reversedAt.isNone && resumes id) then
      if quantity ≤ row.consumedQuantity then
        shrinkKeptLevels catalog now [id]
          (updateAt Allocation.id id (fun row => { row with consumedQuantity := row.consumedQuantity - quantity }) rows)
      else .error (.internal "Correction receipt exceeds the allocation's consumed quantity")
    else .ok rows

/-- Restores a quantity over what an event deducted and earlier corrections have not restored yet. -/
def reverseDeductions (resumes : AllocationId → Bool) (restored : AllocationId → Nat) :
    List Deduction → Nat → List Allocation → Except Failure (List Allocation × List Deduction)
  | [], remaining, rows =>
    if remaining = 0 then .ok (rows, [])
    else .error (.internal "Original deduction receipt does not cover the correction quantity")
  | deduction :: rest, remaining, rows =>
    if remaining = 0 then .ok (rows, [])
    else if deduction.quantity ≤ restored deduction.allocation then
      reverseDeductions resumes restored rest remaining rows
    else do
      let quantity := min (deduction.quantity - restored deduction.allocation) remaining
      let rows ← restoreAllocation catalog now resumes deduction.allocation quantity rows
      let (rows, receipt) ← reverseDeductions resumes restored rest (remaining - quantity) rows
      return (rows, ⟨deduction.allocation, quantity⟩ :: receipt)

def restoredOn (corrections : List Correction) (id : AllocationId) : Nat :=
  (corrections.map fun correction => deductedOn correction.receipt id).sum

def reverseOriginalDeductions (resumes : AllocationId → Bool) (original : UsageEvent) (walletQuantity : Nat)
    (rows : List Allocation) : Except Failure (List Allocation × List Deduction) :=
  if walletQuantity = 0 then .ok (rows, [])
  else if original.usageWindow.isSome ∧ original.deductions = [] then .ok (rows, [])
  else reverseDeductions catalog now resumes (restoredOn original.corrections) original.deductions walletQuantity rows

/-- The wallet share of a correction: what is left when it corrects the rest, and otherwise the
event's wallet quantity in proportion, as the database divides and rounds it, within what is left. -/
def correctionWalletQuantity (proportion : Nat → Nat → Nat → Nat) (original : UsageEvent) (requested : Nat) : Int :=
  let remaining : Int := original.quantity - ((original.corrections.map Correction.quantity).sum : Nat)
  let remainingWallet : Int := original.walletQuantity - (original.corrections.map Correction.walletQuantity).sum
  if (requested : Int) = remaining then remainingWallet
  else min (proportion original.walletQuantity requested original.quantity : Int) remainingWallet

def correct (proportion : Nat → Nat → Nat → Nat) (resumes : AllocationId → Bool) (id : Nat) (input : Text)
    (ledger : Ledger) : Except Failure Ledger := do
  match findAt UsageEvent.id id ledger.events with
  | none => .error (.invalidRequest s!"Usage event {id} was not found")
  | some original =>
    let quantity ← positiveDecimal input "quantity" original.meterScale
    let requested ← decimalToUnits quantity columnScale
    if (requested : Int) > original.quantity - ((original.corrections.map Correction.quantity).sum : Nat) then
      .error (.conflict "Usage correction exceeds the original unreversed quantity")
    else
      let walletQuantity := correctionWalletQuantity proportion original requested
      if walletQuantity < 0 then .error (.invalidRequest "decimal must be a non-negative decimal string")
      else
        let (allocations, receipt) ←
          reverseOriginalDeductions catalog ledger.now resumes original walletQuantity.toNat ledger.allocations
        return { ledger with
          allocations := allocations
          events := updateAt UsageEvent.id original.id (UsageEvent.corrected ⟨requested, walletQuantity, receipt⟩)
            ledger.events }

end Correct

inductive Operation where
  | wait (later : Time)
  | consume (rate : RateDecision) (entity : Option Nat) (quantity : Text) (admitted : Bool)
  | recordLimitUsage (rate : RateDecision) (window : Nat) (quantity : Text)
  | reserve (rate : RateDecision) (entity : Option Nat) (quantity : Text) (expiresIn : Nat) (admitted : Bool)
  | confirm (reservation : Nat) (quantity : Text) (admitted : Bool)
  | release (reservation : Nat)
  | expire
  | correct (resumes : AllocationId → Bool) (event : Nat) (quantity : Text)

def Operation.apply (catalog : Catalog) (proportion : Nat → Nat → Nat → Nat) (ledger : Ledger) :
    Operation → Except Failure Ledger
  | .wait later => .ok { ledger with now := max ledger.now later }
  | .consume rate entity quantity admitted => Metering.consume rate entity quantity admitted ledger
  | .recordLimitUsage rate window quantity => Metering.recordLimitUsage rate window quantity ledger
  | .reserve rate entity quantity expiresIn admitted => Metering.reserve rate entity quantity expiresIn admitted ledger
  | .confirm reservation quantity admitted => Metering.confirm catalog reservation quantity admitted ledger
  | .release reservation => Metering.release catalog reservation ledger
  | .expire => expireSubjectReservations catalog ledger
  | .correct resumes event quantity => Metering.correct catalog proportion resumes event quantity ledger

end Quotum.Metering
