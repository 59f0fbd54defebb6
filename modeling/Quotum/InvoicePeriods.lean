import Quotum.CatalogPrice

/-! Usage invoice periods: a closed period is charged once from every window of its
identity, and later changes of usage append rated adjustments. -/

namespace Quotum.InvoicePeriods
open Decimal Pricing CatalogPrice

abbrev EventId := Nat

inductive InvoiceStatus where
  | pending
  | credited
  deriving DecidableEq

structure UsageInvoicePeriodRow where
  usageQuantity : Text
  includedQuantity : Text
  billableQuantity : Text
  billingUnits : Text
  unitAmountMinor : Int
  amountMinor : Int
  currency : String
  status : InvoiceStatus
  deriving DecidableEq

structure UsageInvoiceAdjustment where
  event : EventId
  quantity : Int
  amountMinor : Int
  currency : String
  status : InvoiceStatus
  deriving DecidableEq

def invoiceStatus (amountMinor : Int) : InvoiceStatus :=
  if amountMinor = 0 then .credited else .pending

def calculatePersistedPriceCharge (price : PriceComponentRow) (usageQuantity includedQuantity billingUnits : Text)
    (unitAmountMinor : Int) : Except Failure UsageCharge :=
  match price.pricingModel with
  | .flat => calculateUsageCharge usageQuantity includedQuantity billingUnits unitAmountMinor columnScale
  | .tiered model =>
    calculateTieredUsageCharge usageQuantity includedQuantity billingUnits model (readPriceTiers price) columnScale

def periodCharge (includedQuantity : Nat) (price : PriceComponentRow) (windows : List Nat) :
    Except Failure UsageCharge :=
  calculatePersistedPriceCharge price (unitsToDecimal (Int.ofNat windows.sum) columnScale)
    (columnText includedQuantity) (columnText price.billingUnits) price.unitAmountMinor

/-- An existing period is kept as invoiced; a period without a closed window is not invoiceable. -/
def materializeUsageInvoicePeriod (includedQuantity : Nat) (price : PriceComponentRow) (windows : List Nat)
    (existing : Option UsageInvoicePeriodRow) : Except Failure (Option UsageInvoicePeriodRow) :=
  if windows.length = 0 then .ok none
  else do
    let charge ← periodCharge includedQuantity price windows
    return some (existing.getD {
      usageQuantity := charge.usageQuantity
      includedQuantity := charge.includedQuantity
      billableQuantity := charge.billableQuantity
      billingUnits := columnText price.billingUnits
      unitAmountMinor := price.unitAmountMinor
      amountMinor := charge.amountMinor
      currency := price.currency
      status := invoiceStatus charge.amountMinor })

/-- Appends a rated adjustment: the charge for the invoiced usage with every earlier adjustment,
subtracted from the charge after the change. One event is adjusted once. -/
def recordUsageInvoicePeriodAdjustment (price : PriceComponentRow) (period : UsageInvoicePeriodRow)
    (adjustments : List UsageInvoiceAdjustment) (event : EventId) (quantityDelta : Int) :
    Except Failure (Int × List UsageInvoiceAdjustment) := do
  let stored ← databaseDecimal period.usageQuantity "closed period usage" columnScale
  let effectiveUsageUnits := Int.ofNat (← decimalToUnits stored columnScale) +
    (adjustments.map UsageInvoiceAdjustment.quantity).sum
  let adjustedUsageUnits := effectiveUsageUnits + quantityDelta
  if adjustedUsageUnits < 0 then .error (.internal "Closed-period correction exceeds invoiceable usage")
  else
    let before ← calculatePersistedPriceCharge price (unitsToDecimal effectiveUsageUnits columnScale)
      period.includedQuantity period.billingUnits period.unitAmountMinor
    let after ← calculatePersistedPriceCharge price (unitsToDecimal adjustedUsageUnits columnScale)
      period.includedQuantity period.billingUnits period.unitAmountMinor
    let amountDelta := after.amountMinor - before.amountMinor
    let adjustment : UsageInvoiceAdjustment :=
      ⟨event, quantityDelta, amountDelta, period.currency, invoiceStatus amountDelta⟩
    return (amountDelta,
      if (adjustments.map UsageInvoiceAdjustment.event).contains event then adjustments
      else adjustments ++ [adjustment])

/-- A change of usage after the period's invoice: a correction takes a quantity back, a
confirmation of a reservation that outlived the window adds one. -/
inductive LateChange where
  | correction (quantity : Nat)
  | confirmation (quantity : Nat)
  deriving DecidableEq

def LateChange.quantityDelta : LateChange → Int
  | .correction quantity => -Int.ofNat quantity
  | .confirmation quantity => Int.ofNat quantity

/-- The adjustments an invoiced period can have, with the net usage the changes leave. Each change
is recorded under a usage event of its own. -/
inductive Adjusted (price : PriceComponentRow) (period : UsageInvoicePeriodRow) (invoiced : Int) :
    Int → List UsageInvoiceAdjustment → Prop
  | invoice : Adjusted price period invoiced invoiced []
  | change {usage : Int} {adjustments recorded : List UsageInvoiceAdjustment} {event : EventId} {amountDelta : Int}
      (earlier : Adjusted price period invoiced usage adjustments) (late : LateChange)
      (fresh : event ∉ adjustments.map UsageInvoiceAdjustment.event)
      (accepted : recordUsageInvoicePeriodAdjustment price period adjustments event late.quantityDelta =
        .ok (amountDelta, recorded)) :
      Adjusted price period invoiced (usage + late.quantityDelta) recorded

end Quotum.InvoicePeriods
