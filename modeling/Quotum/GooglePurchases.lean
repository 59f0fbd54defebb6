import Quotum.General.Table
import Quotum.Mutations
import Quotum.ResetAllocations

/-! One consumable purchase token of Google Play: its purchase, the balance allocations it funds, and the two reports that
take credits back, a snapshot of the purchase and a voided-purchase notification. Quantities are in units of their column. -/

namespace Quotum.GooglePurchases
open General Mutations ResetAllocations

def columnDigits : Nat := 9

def scaleUnit (scale : Nat) : Nat :=
  10 ^ (columnDigits - scale)

structure TopupOption where
  id : Nat
  scale : Nat
  quantity : Nat
  expiry : Expiry
  scaled : scaleUnit scale ∣ quantity

/-- What the token's store product gives: its credit amount, and the option that a published binding names. -/
structure Product where
  creditAmount : Nat
  option : Option TopupOption

/-- An allocation that the purchase funds. Its source key names the option and the purchase. -/
structure TopupAllocation where
  optionId : Nat
  scale : Nat
  quantity : Nat
  reversedQuantity : Nat
  consumedQuantity : Nat
  heldQuantity : Nat
  expiresAt : Option Int
  reversedAt : Option Int
  deriving DecidableEq

structure StoredPurchase where
  row : PurchaseRow
  reversedAmount : Nat
  reversedCreditAmount : Nat
  deriving DecidableEq

structure TokenState where
  product : Product
  purchase : Option StoredPurchase
  allocations : List TopupAllocation

structure PurchaseSnapshot where
  input : PurchaseInput
  quantity : Int
  refundableQuantity : Option Int
  deriving DecidableEq

inductive RefundType where
  | full
  | quantityBased
  deriving DecidableEq

structure VoidedPurchase where
  refundType : RefundType
  quantity : Option Int
  refundableQuantity : Option Int
  eventTime : Int
  deriving DecidableEq

def roundedQuotient (numerator denominator : Nat) : Nat :=
  (2 * numerator + denominator) / (2 * denominator)

def reversedShare (scale quantity reversedCreditAmount totalCreditAmount : Nat) : Nat :=
  roundedQuotient (quantity * reversedCreditAmount) (totalCreditAmount * scaleUnit scale) * scaleUnit scale

namespace TopupAllocation

def spendable (now : Int) (allocation : TopupAllocation) : Nat :=
  if allocation.reversedAt.isNone && allocation.expiresAt.all fun expiry => decide (now < expiry) then
    allocation.quantity - allocation.reversedQuantity - allocation.consumedQuantity - allocation.heldQuantity
  else 0

def reverse (reversedAt : Int) (allocation : TopupAllocation) : TopupAllocation :=
  { allocation with
    reversedQuantity := allocation.quantity
    reversedAt := allocation.reversedAt.or (some reversedAt) }

def setReversal (reversedCreditAmount totalCreditAmount : Nat) (reversedAt : Int) (allocation : TopupAllocation) : TopupAllocation :=
  { allocation with
    reversedQuantity := reversedShare allocation.scale allocation.quantity reversedCreditAmount totalCreditAmount
    reversedAt := if reversedCreditAmount = totalCreditAmount then allocation.reversedAt.or (some reversedAt) else none }

def use (consumed held : Nat) (allocation : TopupAllocation) : TopupAllocation :=
  if consumed + held ≤ allocation.quantity then
    { allocation with consumedQuantity := consumed, heldQuantity := held }
  else allocation

end TopupAllocation

def granted (option : TopupOption) (multiplier : Nat) (purchasedAt : Int) : TopupAllocation where
  optionId := option.id
  scale := option.scale
  quantity := option.quantity * multiplier
  reversedQuantity := 0
  consumedQuantity := 0
  heldQuantity := 0
  expiresAt := storedExpiresAt purchasedAt option.expiry
  reversedAt := none

def isGranted (optionId : Nat) (allocations : List TopupAllocation) : Bool :=
  allocations.any fun allocation => allocation.optionId == optionId

/-- Grants the bound option's quantity once for each unit of the purchase, unless the purchase has that option's grant. -/
def materializeTopupAllocation (product : Product) (multiplier : Nat) (purchasedAt : Int) (allocations : List TopupAllocation) :
    List TopupAllocation :=
  match product.option with
  | none => allocations
  | some option =>
    if isGranted option.id allocations = true then allocations else allocations ++ [granted option multiplier purchasedAt]

def reversePurchaseAllocations (reversedAt : Int) (allocations : List TopupAllocation) : List TopupAllocation :=
  allocations.map (TopupAllocation.reverse reversedAt)

def setPurchaseAllocationReversal (reversedCreditAmount totalCreditAmount : Nat) (reversedAt : Int)
    (allocations : List TopupAllocation) : Except Failure (List TopupAllocation) :=
  if totalCreditAmount < 1 ∨ totalCreditAmount < reversedCreditAmount then
    .error (.internal "Purchase allocation reversal ratio is invalid")
  else .ok (allocations.map (TopupAllocation.setReversal reversedCreditAmount totalCreditAmount reversedAt))

/-- The input of a snapshot that invalidates a recorded purchase: it is of the recorded account and product. -/
def PurchaseSnapshot.targeting (row : PurchaseRow) (snapshot : PurchaseSnapshot) : PurchaseInput :=
  { snapshot.input with
    customerId := row.customerId
    productId := row.productId
    storeProductId := row.storeProductId
    subscriptionId := row.subscriptionId }

def storePurchase (stored : Option StoredPurchase) (row : PurchaseRow) : StoredPurchase where
  row := row
  reversedAmount := (stored.map StoredPurchase.reversedAmount).getD 0
  reversedCreditAmount := (stored.map StoredPurchase.reversedCreditAmount).getD 0

/-- Records a snapshot of the purchase. One that invalidates a purchase which is not recorded is skipped. -/
def recordGooglePurchase (snapshot : PurchaseSnapshot) (state : TokenState) : Except Failure TokenState :=
  if snapshot.quantity ≤ 0 then .error (.internal "p_quantity must be greater than zero")
  else if snapshot.refundableQuantity.any (fun refundable => decide (refundable < 0)) = true then
    .error (.internal "p_refundable_quantity must not be negative")
  else if snapshot.input.status = .completed then do
    let row ← upsertPurchase snapshot.input (state.purchase.map StoredPurchase.row)
    .ok { state with
      purchase := some (storePurchase state.purchase row)
      allocations :=
        materializeTopupAllocation state.product snapshot.quantity.toNat snapshot.input.purchasedAt state.allocations }
  else match state.purchase with
  | none => .ok state
  | some stored => do
    let row ← upsertPurchase (snapshot.targeting stored.row) (some stored.row)
    .ok { state with
      purchase := some (storePurchase state.purchase row)
      allocations :=
        reversePurchaseAllocations (snapshot.input.invalidatedAt.getD snapshot.input.purchasedAt) state.allocations }

/-- The quantity of the purchase that is reversed after a notification: never less than before, and only of a purchase that
was granted. -/
def nextReversedQuantity (stored : StoredPurchase) (refundType : RefundType) (quantity refundableQuantity : Nat) : Nat :=
  if stored.row.status = .completed ∨ 0 < stored.reversedAmount then
    min quantity (max stored.reversedAmount (if refundType = .full then quantity else quantity - refundableQuantity))
  else stored.reversedAmount

def StoredPurchase.void (quantity next creditAmount : Nat) (eventTime : Int) (stored : StoredPurchase) : StoredPurchase where
  row := if quantity ≤ next then
      { stored.row with
        status := .voided
        invalidatedAt := some eventTime
        invalidationReason := some "voided_purchase".toList }
    else stored.row
  reversedAmount := next
  reversedCreditAmount := next * creditAmount

/-- Records a voided-purchase notification. One whose purchase is not recorded is skipped. -/
def recordGoogleVoidedPurchase (notification : VoidedPurchase) (state : TokenState) : Except Failure TokenState :=
  match state.purchase with
  | none => .ok state
  | some stored =>
    match notification.quantity with
    | none => .error (.internal "Google consumable refund quantity state is required")
    | some quantity =>
      if quantity ≤ 0 ∨ (notification.refundType = .quantityBased ∧ notification.refundableQuantity = none) then
        .error (.internal "Google consumable refund quantity state is required")
      else if notification.refundableQuantity.any
          (fun refundable => decide (refundable < 0) || decide (quantity < refundable)) = true then
        .error (.internal "Google consumable refundable quantity is invalid")
      else do
        let next := nextReversedQuantity stored notification.refundType quantity.toNat
          (notification.refundableQuantity.getD 0).toNat
        let allocations ← setPurchaseAllocationReversal (next * state.product.creditAmount)
          (quantity.toNat * state.product.creditAmount) notification.eventTime state.allocations
        .ok { state with
          purchase := some (stored.void quantity.toNat next state.product.creditAmount notification.eventTime)
          allocations := allocations }

inductive TokenStep where
  | snapshot (report : PurchaseSnapshot)
  | voided (notification : VoidedPurchase)
  | publish (product : Product)
  | use (optionId consumed held : Nat)

def TokenStep.apply (state : TokenState) : TokenStep → Except Failure TokenState
  | .snapshot report => recordGooglePurchase report state
  | .voided notification => recordGoogleVoidedPurchase notification state
  | .publish product => .ok { state with product := product }
  | .use optionId consumed held =>
    .ok { state with
      allocations := updateAt TopupAllocation.optionId optionId (TopupAllocation.use consumed held) state.allocations }

end Quotum.GooglePurchases
