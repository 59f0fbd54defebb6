import Quotum.Allocations
import Quotum.General.Table

/-! How a write spends from the wallet rows that it locked, and how a confirmation settles its holds against them.
The rows carry the text of their columns. -/

namespace Quotum.SpendPlans
open General Decimal

structure AllocationOrigin where
  entityId : Option Text
  sourceKind : SourceKind
  sourceKey : Text
  rolloverOriginAllocationId : Option AllocationId
  carryOverOriginAllocationId : Option AllocationId
  rolloverPolicyRevision : Option Nat
  periodStartAt : Option Int
  periodEndAt : Option Int
  expiresAt : Option Int
  createdAt : Int
  deriving DecidableEq

structure AllocationRow where
  id : AllocationId
  quantity : Text
  reversedQuantity : Text
  consumedQuantity : Text
  heldQuantity : Text
  reversedAt : Option Int
  closed : Bool
  origin : AllocationOrigin
  deriving DecidableEq

structure FeatureRow where
  key : Text
  unit : Text
  creditScale : Nat
  deriving DecidableEq

structure AllocationBreakdown where
  allocationId : AllocationId
  quantity : Text
  reversed : Text
  consumed : Text
  held : Text
  available : Text
  origin : AllocationOrigin
  deriving DecidableEq

structure FiniteMeteringBalance where
  featureKey : Text
  unit : Text
  scale : Nat
  granted : Text
  consumed : Text
  held : Text
  available : Text
  breakdown : List AllocationBreakdown
  deriving DecidableEq

def readUnits (column : Text) (field : String) (scale : Nat) : Except Failure Nat := do
  decimalToUnits (← databaseDecimal column field scale) scale

/-- The rows that a write locks: each allocation once, and none marked as closed. -/
structure LockedRows where
  rows : List AllocationRow
  distinct : (rows.map AllocationRow.id).Nodup
  unmarked : ∀ row ∈ rows, row.closed = false

/-- What a row can still give, which a partial refund may leave negative. -/
def rowAvailable (scale : Nat) (row : AllocationRow) : Except Failure Int := do
  let quantity ← readUnits row.quantity "allocation quantity" scale
  let reversed ← readUnits row.reversedQuantity "allocation reversed" scale
  let consumed ← readUnits row.consumedQuantity "allocation consumed" scale
  let held ← readUnits row.heldQuantity "allocation held" scale
  return (quantity : Int) - reversed - consumed - held

structure BalanceTotals where
  granted : Int
  consumed : Nat
  held : Nat
  deriving DecidableEq

/-- Adds a row to the totals. A closed allocation still backs its open holds and nothing else. -/
def addRow (scale : Nat) (totals : BalanceTotals) (row : AllocationRow) : Except Failure BalanceTotals := do
  let rowHeld ← readUnits row.heldQuantity "allocation held" scale
  if row.closed then
    return { totals with granted := totals.granted + rowHeld, held := totals.held + rowHeld }
  else
    let quantity ← readUnits row.quantity "allocation quantity" scale
    let reversed ← readUnits row.reversedQuantity "allocation reversed" scale
    let consumed ← readUnits row.consumedQuantity "allocation consumed" scale
    return {
      granted := totals.granted + ((quantity : Int) - reversed)
      consumed := totals.consumed + consumed
      held := totals.held + rowHeld }

def breakdownRow (scale : Nat) (row : AllocationRow) : Except Failure AllocationBreakdown := do
  let quantity ← readUnits row.quantity "allocation quantity" scale
  let reversed ← readUnits row.reversedQuantity "allocation reversed" scale
  let rowConsumed ← readUnits row.consumedQuantity "allocation consumed" scale
  let rowHeld ← readUnits row.heldQuantity "allocation held" scale
  let available : Int := if row.closed then 0 else (quantity : Int) - reversed - rowConsumed - rowHeld
  return {
    allocationId := row.id
    quantity := unitsToDecimal quantity scale
    reversed := unitsToDecimal reversed scale
    consumed := unitsToDecimal rowConsumed scale
    held := unitsToDecimal rowHeld scale
    available := unitsToDecimal (if available > 0 then available else 0) scale
    origin := row.origin }

def balanceFromRows (feature : FeatureRow) (rows : List AllocationRow) : Except Failure FiniteMeteringBalance := do
  let scale := feature.creditScale
  let totals ← rows.foldlM (addRow scale) ⟨0, 0, 0⟩
  let breakdown ← rows.mapM (breakdownRow scale)
  let available := if totals.granted > totals.consumed + totals.held then totals.granted - totals.consumed - totals.held else 0
  return {
    featureKey := feature.key
    unit := feature.unit
    scale := scale
    granted := unitsToDecimal totals.granted scale
    consumed := unitsToDecimal totals.consumed scale
    held := unitsToDecimal totals.held scale
    available := unitsToDecimal available scale
    breakdown := breakdown }

inductive DecisionReason where
  | allowed
  | insufficientBalance
  deriving DecidableEq

structure MeteringDecision where
  allowed : Bool
  reason : DecisionReason
  requestedQuantity : Text
  walletQuantity : Text
  balance : FiniteMeteringBalance
  deriving DecidableEq

def buildDecision (requestedQuantity walletQuantity : Text) (balance : FiniteMeteringBalance) : Except Failure MeteringDecision := do
  let available ← decimalToUnits balance.available balance.scale
  let wanted ← decimalToUnits walletQuantity balance.scale
  let allowed := decide (available ≥ wanted)
  return {
    allowed := allowed
    reason := if allowed then .allowed else .insufficientBalance
    requestedQuantity := requestedQuantity
    walletQuantity := walletQuantity
    balance := balance }

structure AllocationDeduction where
  allocationId : AllocationId
  quantity : Text
  sourceKind : SourceKind
  sourceKey : Text
  expiresAt : Option Int
  deriving DecidableEq

def allocationDeduction (row : AllocationRow) (quantity : Text) : AllocationDeduction where
  allocationId := row.id
  quantity := quantity
  sourceKind := row.origin.sourceKind
  sourceKey := row.origin.sourceKey
  expiresAt := row.origin.expiresAt

/-- Walks the rows while something remains: the deductions, and what no row covers. -/
def takeFromRows (scale : Nat) : Nat → List AllocationRow → Except Failure (List AllocationDeduction × Nat)
  | remaining, [] => .ok ([], remaining)
  | remaining, row :: rest =>
    if remaining = 0 then .ok ([], 0)
    else do
      let available ← rowAvailable scale row
      let taken := if available < remaining then available else remaining
      if taken ≤ 0 then takeFromRows scale remaining rest
      else
        let (deductions, left) ← takeFromRows scale (remaining - taken.toNat) rest
        return (allocationDeduction row (unitsToDecimal taken scale) :: deductions, left)

def planDeductions (rows : List AllocationRow) (scale : Nat) (quantity : Text) : Except Failure (List AllocationDeduction) := do
  let wanted ← decimalToUnits quantity scale
  let (deductions, left) ← takeFromRows scale wanted rows
  if left ≠ 0 then .error (.internal "Allocation deduction did not cover the approved quantity") else return deductions

/-- The column a write spends on: `consumed_quantity` or `held_quantity`. -/
inductive SpendColumn where
  | consumed
  | held
  deriving DecidableEq

def AllocationRow.column (row : AllocationRow) : SpendColumn → Text
  | .consumed => row.consumedQuantity
  | .held => row.heldQuantity

def AllocationRow.setColumn (row : AllocationRow) (text : Text) : SpendColumn → AllocationRow
  | .consumed => { row with consumedQuantity := text }
  | .held => { row with heldQuantity := text }

/-- What is taken of a row; of two deductions the later one counts. -/
def takenOf (deductions : List AllocationDeduction) (row : AllocationRow) : Option Text :=
  (findAt AllocationDeduction.allocationId row.id deductions.reverse).map AllocationDeduction.quantity

def deductedRow (deductions : List AllocationDeduction) (scale : Nat) (column : SpendColumn) (row : AllocationRow) :
    Except Failure AllocationRow :=
  match takenOf deductions row with
  | none => .ok row
  | some quantity => do
    let current ← readUnits (row.column column) "allocation" scale
    let taken ← decimalToUnits quantity scale
    return row.setColumn (unitsToDecimal (current + taken : Nat) scale) column

/-- The locked rows as they stand after the deductions. -/
def deductedRows (rows : List AllocationRow) (deductions : List AllocationDeduction) (scale : Nat) (column : SpendColumn) :
    Except Failure (List AllocationRow) :=
  rows.mapM (deductedRow deductions scale column)

structure ReservationAllocationRow where
  allocationId : AllocationId
  heldQuantity : Text
  consumedQuantity : Text
  deriving DecidableEq

def readHolds (scale : Nat) (holds : List ReservationAllocationRow) : Except Failure (List (AllocationId × Nat)) :=
  holds.mapM fun hold => do return (hold.allocationId, ← readUnits hold.heldQuantity "reservation hold" scale)

/-- What a reservation holds on an allocation; of two holds the later one counts. -/
def holdOn (holds : List (AllocationId × Nat)) (id : AllocationId) : Option Nat :=
  (findAt Prod.fst id holds.reverse).map Prod.snd

structure RowChange where
  row : AllocationRow
  consume : Nat
  release : Nat
  deriving DecidableEq

def settleHolds (holds : List (AllocationId × Nat)) : Nat → List AllocationRow → List RowChange × Nat
  | remaining, [] => ([], remaining)
  | remaining, row :: rest =>
    let held := (holdOn holds row.id).getD 0
    let consumed := if held < remaining then held else remaining
    let (changes, left) := settleHolds holds (remaining - consumed) rest
    (⟨row, consumed, held⟩ :: changes, left)

def isLive (now : Int) (row : AllocationRow) : Bool :=
  row.reversedAt.isNone && row.origin.expiresAt.all fun expiry => decide (now < expiry)

def spendFree (scale : Nat) (now : Int) : Nat → List RowChange → Except Failure (List RowChange × Nat)
  | remaining, [] => .ok ([], remaining)
  | remaining, change :: rest =>
    if remaining = 0 then .ok (change :: rest, 0)
    else if isLive now change.row then do
      let free ← rowAvailable scale change.row
      let extra := if free < remaining then free else remaining
      if extra ≤ 0 then
        let (changes, left) ← spendFree scale now remaining rest
        return (change :: changes, left)
      else
        let (changes, left) ← spendFree scale now (remaining - extra.toNat) rest
        return ({ change with consume := change.consume + extra.toNat } :: changes, left)
    else do
      let (changes, left) ← spendFree scale now remaining rest
      return (change :: changes, left)

structure ConfirmationChange where
  allocationId : AllocationId
  consume : Nat
  release : Nat
  hasHold : Bool
  deriving DecidableEq

structure ConfirmationPlan where
  changes : List ConfirmationChange
  deductions : List AllocationDeduction
  deriving DecidableEq

def insufficientBalance : Failure := .conflict "Insufficient balance to confirm reservation"

def planConfirmation (allocations : List AllocationRow) (reservationAllocations : List ReservationAllocationRow) (scale : Nat)
    (walletQuantity : Text) (now : Int) : Except Failure ConfirmationPlan := do
  let holds ← readHolds scale reservationAllocations
  let wanted ← decimalToUnits walletQuantity scale
  let (settled, uncovered) := settleHolds holds wanted allocations
  let (changes, remaining) ← spendFree scale now uncovered settled
  if remaining > 0 then .error insufficientBalance
  else
    let planned := changes.filter fun change => !(change.consume = 0 && change.release = 0)
    return {
      changes := planned.map fun change => ⟨change.row.id, change.consume, change.release, (holdOn holds change.row.id).isSome⟩
      deductions := (planned.filter fun change => decide (change.consume > 0)).map fun change =>
        allocationDeduction change.row (unitsToDecimal change.consume scale) }

end Quotum.SpendPlans
