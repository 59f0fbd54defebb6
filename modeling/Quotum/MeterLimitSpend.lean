import Quotum.CatalogPrice

/-! What usage over a meter limit's included quantity costs, and the spend a change of
usage adds to a budget. -/

namespace Quotum.MeterLimitSpend
open Decimal Pricing CatalogPrice

inductive OveragePolicy where
  | blocked
  | allowed
  deriving DecidableEq

structure MeterLimitDecision where
  creditScale : Nat
  limit : Text
  overagePolicy : OveragePolicy
  overagePrice : Option MeteredOveragePrice
  unlimited : Bool
  deriving DecidableEq

structure SpendDelta where
  spendMinorDelta : Int
  currency : Option String
  deriving DecidableEq

def calculateMeteredOverageCharge (meterLimit : MeterLimitDecision) (usageQuantity : Text) :
    Except Failure UsageCharge :=
  match meterLimit.overagePrice with
  | none => calculateUsageCharge usageQuantity meterLimit.limit ['1'] 0 meterLimit.creditScale
  | some price =>
    match price.pricingModel with
    | .flat =>
      calculateUsageCharge usageQuantity meterLimit.limit price.billingUnits price.unitAmountMinor
        meterLimit.creditScale
    | .tiered model =>
      calculateTieredUsageCharge usageQuantity meterLimit.limit price.billingUnits model price.tiers
        meterLimit.creditScale

/-- The limit of an item that allows overage: such a limit never sums, so it is the item's own quantity. -/
def overageMeterLimit (item : MeteredItemRow) : Except Failure MeterLimitDecision := do
  let quantity ← databaseDecimal (columnText item.quantity) "meter limit" item.creditScale
  let units ← decimalToUnits quantity item.creditScale
  let price ← resolveMeteredOveragePrice item.price
  return {
    creditScale := item.creditScale
    limit := unitsToDecimal units item.creditScale
    overagePolicy := .allowed
    overagePrice := some price
    unlimited := false }

def meterLimitSpendDelta (meterLimit : MeterLimitDecision) (consumed quantity : Text) : Except Failure SpendDelta :=
  match meterLimit.overagePrice with
  | none => .ok ⟨0, none⟩
  | some price => do
    let scale := meterLimit.creditScale
    let currentUnits ← decimalToUnits consumed scale
    let nextUnits := currentUnits + (← decimalToUnits quantity scale)
    let current ← calculateMeteredOverageCharge meterLimit (unitsToDecimal currentUnits scale)
    let next ← calculateMeteredOverageCharge meterLimit (unitsToDecimal nextUnits scale)
    return ⟨next.amountMinor - current.amountMinor, some price.currency⟩

def spendCandidates (includedUnits currentUnits lastUnits scale : Nat) : List PriceTier → Except Failure (List Nat)
  | [] => .ok []
  | tier :: rest =>
    match tier.upToQuantity with
    | none => spendCandidates includedUnits currentUnits lastUnits scale rest
    | some bound => do
      let boundary := includedUnits + (← decimalToUnits bound scale)
      let others ← spendCandidates includedUnits currentUnits lastUnits scale rest
      return if boundary > currentUnits ∧ boundary < lastUnits then boundary :: others else others

def maximumCharge (meterLimit : MeterLimitDecision) (maximum : Int) : List Nat → Except Failure Int
  | [] => .ok maximum
  | candidate :: rest => do
    let charge ← calculateMeteredOverageCharge meterLimit (unitsToDecimal candidate meterLimit.creditScale)
    maximumCharge meterLimit (if charge.amountMinor > maximum then charge.amountMinor else maximum) rest

/-- Quotes a nonnegative budget for a reservation. A volume quote covers the most expensive
partial confirmation, including the charge just before a tier drops. -/
def meterLimitReservationSpend (meterLimit : MeterLimitDecision) (consumed held quantity : Text) :
    Except Failure SpendDelta :=
  let scale := meterLimit.creditScale
  match meterLimit.overagePrice with
  | some price =>
    if price.pricingModel = .tiered .volume then do
      let currentUnits ← decimalToUnits consumed scale
      let lastUnits := currentUnits + (← decimalToUnits quantity scale)
      let includedUnits ← decimalToUnits meterLimit.limit scale
      let current ← calculateMeteredOverageCharge meterLimit consumed
      let boundaries ← spendCandidates includedUnits currentUnits lastUnits scale price.tiers
      let maximum ← maximumCharge meterLimit current.amountMinor (lastUnits :: boundaries)
      return ⟨maximum - current.amountMinor, some price.currency⟩
    else do
      let counted := (← decimalToUnits consumed scale) + (← decimalToUnits held scale)
      meterLimitSpendDelta meterLimit (unitsToDecimal counted scale) quantity
  | none => do
    let counted := (← decimalToUnits consumed scale) + (← decimalToUnits held scale)
    meterLimitSpendDelta meterLimit (unitsToDecimal counted scale) quantity

end Quotum.MeterLimitSpend
