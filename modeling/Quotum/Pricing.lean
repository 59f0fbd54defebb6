import Quotum.Decimal

/-! Rate-card quantities and usage charges. A charge is computed in integer units of
a scale and rounds half up to the minor unit; a rate card rounds up to the wallet scale. -/

namespace Quotum.Pricing
open Decimal

structure UsageCharge where
  usageQuantity : Text
  includedQuantity : Text
  billableQuantity : Text
  amountMinor : Int
  deriving DecidableEq

structure PriceTier where
  upToQuantity : Option Text
  unitAmountMinor : Int
  flatAmountMinor : Option Int
  deriving DecidableEq

structure RateCardTier where
  upToQuantity : Option Text
  ratePerUnit : Text
  deriving DecidableEq

inductive TieredModel where
  | graduated
  | volume
  deriving DecidableEq

inductive PricingModel where
  | flat
  | tiered (model : TieredModel)
  deriving DecidableEq

inductive RateCardModel where
  | flat
  | graduated
  deriving DecidableEq

structure Tier where
  upTo : Option Nat
  unitAmountMinor : Nat
  flatAmountMinor : Nat
  deriving DecidableEq

structure RateTier where
  upTo : Option Nat
  ratePerUnit : Nat
  deriving DecidableEq

def rateScale : Nat := 18

/-- Each request's wallet charge rounds up to the wallet scale. -/
def rateNumeratorToQuantity (numerator meterScale walletScale : Nat) : Text :=
  let denominator := 10 ^ (meterScale + rateScale - walletScale)
  unitsToDecimal (Int.ofNat ((numerator + denominator - 1) / denominator)) walletScale

def normalizeRateCardTiersFrom (meterScale previous : Nat) : List RateCardTier → Except Failure (List RateTier)
  | [] => .ok []
  | tier :: rest => do
    let upTo ← match tier.upToQuantity with
      | none => pure none
      | some bound => do
        pure (some (← decimalToUnits (← canonicalDecimal bound "tier upToQuantity" meterScale) meterScale))
    if upTo = none ∧ rest ≠ [] then
      .error (.invalidRequest "Only the final rate-card tier can be unbounded")
    else if upTo.any (fun bound => decide (bound ≤ previous)) then
      .error (.invalidRequest "Rate-card tier boundaries must be strictly increasing")
    else if rest = [] ∧ upTo ≠ none then
      .error (.invalidRequest "The final rate-card tier must be unbounded")
    else
      let ratePerUnit ← decimalToUnits (← canonicalDecimal tier.ratePerUnit "tier ratePerUnit" rateScale) rateScale
      if ratePerUnit ≤ 0 then .error (.invalidRequest "Tier ratePerUnit must be greater than zero")
      else
        return ⟨upTo, ratePerUnit⟩ :: (← normalizeRateCardTiersFrom meterScale (upTo.getD previous) rest)

def normalizeRateCardTiers (tiers : List RateCardTier) (meterScale : Nat) : Except Failure (List RateTier) :=
  if tiers = [] then .error (.invalidRequest "Graduated rate-card pricing requires tiers")
  else normalizeRateCardTiersFrom meterScale 0 tiers

/-- Where a tier ends for a quantity: its own bound, or the quantity when that comes first. -/
def upperBound (upTo : Option Nat) (quantity : Nat) : Nat :=
  match upTo with
  | none => quantity
  | some bound => if bound > quantity then quantity else bound

def graduatedRate (quantity lowerBound : Nat) : List RateTier → Nat
  | [] => 0
  | tier :: rest =>
    let upper := upperBound tier.upTo quantity
    let tierQuantity := if upper > lowerBound then upper - lowerBound else 0
    let charged := if tierQuantity > 0 then tierQuantity * tier.ratePerUnit else 0
    if upper = quantity then charged else charged + graduatedRate quantity upper rest

def calculateRateCardQuantity (quantityText : Text) (pricingModel : RateCardModel) (ratePerUnit : Text)
    (tiers : List RateCardTier) (meterScale walletScale : Nat) : Except Failure Text := do
  let quantity ← decimalToUnits (← canonicalDecimal quantityText "quantity" meterScale) meterScale
  match pricingModel with
  | .flat =>
    if tiers ≠ [] then .error (.invalidRequest "Flat rate-card pricing cannot use tiers")
    else
      let rate ← decimalToUnits (← canonicalDecimal ratePerUnit "ratePerUnit" rateScale) rateScale
      return rateNumeratorToQuantity (quantity * rate) meterScale walletScale
  | .graduated =>
    let normalized ← normalizeRateCardTiers tiers meterScale
    return rateNumeratorToQuantity (graduatedRate quantity 0 normalized) meterScale walletScale

def roundedAmount (numerator billingUnits : Nat) : Nat :=
  (numerator + billingUnits / 2) / billingUnits

def billableUnits (usage included : Nat) : Nat :=
  if usage > included then usage - included else 0

def calculateUsageCharge (usageQuantity includedQuantity billingUnitsText : Text) (unitAmountMinor : Int)
    (scale : Nat) : Except Failure UsageCharge := do
  let usage ← decimalToUnits (← canonicalDecimal usageQuantity "usageQuantity" scale) scale
  let included ← decimalToUnits (← canonicalDecimal includedQuantity "includedQuantity" scale) scale
  let billingUnits ← decimalToUnits (← canonicalDecimal billingUnitsText "billingUnits" scale) scale
  if billingUnits ≤ 0 then .error (.invalidRequest "billingUnits must be greater than zero")
  else if unitAmountMinor < 0 then .error (.invalidRequest "unitAmountMinor must be nonnegative")
  else
    let billable := billableUnits usage included
    return {
      usageQuantity := unitsToDecimal usage scale
      includedQuantity := unitsToDecimal included scale
      billableQuantity := unitsToDecimal billable scale
      amountMinor := Int.ofNat (roundedAmount (billable * unitAmountMinor.toNat) billingUnits) }

def normalizeTiersFrom (scale previous : Nat) : List PriceTier → Except Failure (List Tier)
  | [] => .ok []
  | tier :: rest =>
    if tier.unitAmountMinor < 0 ∨ tier.flatAmountMinor.getD 0 < 0 then
      .error (.invalidRequest "Tier amounts must be nonnegative")
    else do
      let upTo ← match tier.upToQuantity with
        | none => pure none
        | some bound => do
          pure (some (← decimalToUnits (← canonicalDecimal bound "tier upToQuantity" scale) scale))
      if upTo = none ∧ rest ≠ [] then
        .error (.invalidRequest "Only the final pricing tier can be unbounded")
      else if upTo.any (fun bound => decide (bound ≤ previous)) then
        .error (.invalidRequest "Pricing tier boundaries must be strictly increasing")
      else if rest = [] ∧ upTo ≠ none then
        .error (.invalidRequest "The final pricing tier must be unbounded")
      else
        return ⟨upTo, tier.unitAmountMinor.toNat, (tier.flatAmountMinor.getD 0).toNat⟩ ::
          (← normalizeTiersFrom scale (upTo.getD previous) rest)

def normalizeTiers (tiers : List PriceTier) (scale : Nat) : Except Failure (List Tier) :=
  if tiers = [] then .error (.invalidRequest "Tiered pricing requires at least one tier")
  else normalizeTiersFrom scale 0 tiers

def Tier.charge (tier : Tier) (quantity billingUnits : Nat) : Nat :=
  quantity * tier.unitAmountMinor + tier.flatAmountMinor * billingUnits

def Tier.covers (tier : Tier) (billable : Nat) : Bool :=
  match tier.upTo with
  | none => true
  | some bound => decide (billable ≤ bound)

def volumeNumerator (billable billingUnits : Nat) (tiers : List Tier) : Except Failure Nat :=
  match tiers.find? (fun tier => tier.covers billable) with
  | none => .error (.invalidRequest "Tier table does not cover usage")
  | some tier => .ok (tier.charge billable billingUnits)

def graduatedNumerator (billable billingUnits lowerBound : Nat) : List Tier → Nat
  | [] => 0
  | tier :: rest =>
    let upper := upperBound tier.upTo billable
    let tierQuantity := if upper > lowerBound then upper - lowerBound else 0
    let charged := if tierQuantity > 0 then tier.charge tierQuantity billingUnits else 0
    if upper = billable then charged else charged + graduatedNumerator billable billingUnits upper rest

def tieredNumerator (model : TieredModel) (billable billingUnits : Nat) (tiers : List Tier) : Except Failure Nat :=
  if billable > 0 then
    match model with
    | .volume => volumeNumerator billable billingUnits tiers
    | .graduated => .ok (graduatedNumerator billable billingUnits 0 tiers)
  else .ok 0

def calculateTieredUsageCharge (usageQuantity includedQuantity billingUnitsText : Text) (model : TieredModel)
    (priceTiers : List PriceTier) (scale : Nat) : Except Failure UsageCharge := do
  let usage ← decimalToUnits (← canonicalDecimal usageQuantity "usageQuantity" scale) scale
  let included ← decimalToUnits (← canonicalDecimal includedQuantity "includedQuantity" scale) scale
  let billingUnits ← decimalToUnits (← canonicalDecimal billingUnitsText "billingUnits" scale) scale
  if billingUnits ≤ 0 then .error (.invalidRequest "billingUnits must be greater than zero")
  else
    let tiers ← normalizeTiers priceTiers scale
    let billable := billableUnits usage included
    let numerator ← tieredNumerator model billable billingUnits tiers
    return {
      usageQuantity := unitsToDecimal usage scale
      includedQuantity := unitsToDecimal included scale
      billableQuantity := unitsToDecimal billable scale
      amountMinor := Int.ofNat (roundedAmount numerator billingUnits) }

end Quotum.Pricing
