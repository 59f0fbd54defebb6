import Quotum.Pricing

/-! Metered prices: what catalog validation accepts, the rows it publishes, and the
price a meter limit reads back from them. -/

namespace Quotum.CatalogPrice
open Decimal Pricing

structure CatalogPriceIntent where
  unitAmountMinor : Int
  currency : String
  minimumQuantity : Int
  maximumQuantity : Option Int
  billingUnits : Text
  pricingModel : Option PricingModel
  tiers : Option (List PriceTier)
  deriving DecidableEq

structure NormalizedPrice where
  unitAmountMinor : Int
  currency : String
  minimumQuantity : Int
  maximumQuantity : Option Int
  billingUnits : Text
  pricingModel : PricingModel
  tiers : List PriceTier
  deriving DecidableEq

def maxInt4 : Int := 2147483647

def isSafeInteger (value : Int) : Bool :=
  decide (-(maxSafeInteger : Int) ≤ value) && decide (value ≤ maxSafeInteger)

def validateBoundariesFrom (label : String) (previous : Nat) : List (Option Text) → Except Failure Unit
  | [] => .ok ()
  | none :: rest =>
    if rest ≠ [] then .error (.invalidRequest s!"{label} only the final tier can be unbounded")
    else .ok ()
  | some boundary :: rest => do
    let units ← decimalToUnits boundary columnScale
    if units ≤ previous then .error (.invalidRequest s!"{label} tier boundaries must be strictly increasing")
    else validateBoundariesFrom label units rest

def validateTierBoundaries (pricingModel : PricingModel) (boundaries : List (Option Text)) (label : String) :
    Except Failure Unit :=
  match pricingModel with
  | .flat =>
    if boundaries.length > 0 then .error (.invalidRequest s!"{label} flat pricing cannot use tiers") else .ok ()
  | .tiered _ =>
    if boundaries.length = 0 then .error (.invalidRequest s!"{label} tiered pricing requires tiers")
    else do
      validateBoundariesFrom label 0 boundaries
      if boundaries.getLast? ≠ some none then .error (.invalidRequest s!"{label} final tier must be unbounded")
      else return ()

def normalizeTier (label : String) (tier : PriceTier) : Except Failure PriceTier :=
  if ¬isSafeInteger tier.unitAmountMinor ∨ tier.unitAmountMinor < 0 then
    .error (.invalidRequest s!"{label} tier unitAmountMinor must be nonnegative")
  else if ¬isSafeInteger (tier.flatAmountMinor.getD 0) ∨ tier.flatAmountMinor.getD 0 < 0 then
    .error (.invalidRequest s!"{label} tier flatAmountMinor must be nonnegative")
  else do
    let upToQuantity ← tier.upToQuantity.mapM fun bound => positiveDecimal bound s!"{label} tier boundary" columnScale
    return ⟨upToQuantity, tier.unitAmountMinor, some (tier.flatAmountMinor.getD 0)⟩

/-- Metered prices are validated at the scale of the price columns, whatever the feature's own scale. -/
def normalizePrice (price : CatalogPriceIntent) (label : String) : Except Failure NormalizedPrice :=
  if ¬isSafeInteger price.unitAmountMinor ∨ price.unitAmountMinor < 0 then
    .error (.invalidRequest s!"{label} unitAmountMinor must be a nonnegative safe integer")
  else if ¬isSafeInteger price.minimumQuantity ∨ price.minimumQuantity < 1 then
    .error (.invalidRequest s!"{label} minimumQuantity must be a positive integer")
  else if price.maximumQuantity.any (fun maximum => ¬isSafeInteger maximum ∨ maximum < price.minimumQuantity) then
    .error (.invalidRequest s!"{label} maximumQuantity must be at least minimumQuantity")
  else if price.minimumQuantity > maxInt4 ∨ price.maximumQuantity.getD 0 > maxInt4 then
    .error (.invalidRequest s!"{label} quantities cannot exceed {maxInt4}")
  else do
    let pricingModel := price.pricingModel.getD .flat
    let tiers ← (price.tiers.getD []).mapM (normalizeTier label)
    validateTierBoundaries pricingModel (tiers.map PriceTier.upToQuantity) label
    let billingUnits ← positiveDecimal price.billingUnits s!"{label} billingUnits" columnScale
    return {
      unitAmountMinor := price.unitAmountMinor
      currency := price.currency
      minimumQuantity := price.minimumQuantity
      maximumQuantity := price.maximumQuantity
      billingUnits, pricingModel, tiers }

structure PriceTierRow where
  upToQuantity : Option Nat
  unitAmountMinor : Int
  flatAmountMinor : Int
  deriving DecidableEq

structure PriceComponentRow where
  pricingModel : PricingModel
  billingUnits : Nat
  unitAmountMinor : Int
  currency : String
  tiers : List PriceTierRow
  deriving DecidableEq

def publishTier (tier : PriceTier) : Except Failure PriceTierRow := do
  let upToQuantity ← tier.upToQuantity.mapM fun bound => decimalToUnits bound columnScale
  return ⟨upToQuantity, tier.unitAmountMinor, tier.flatAmountMinor.getD 0⟩

/-- The rows a normalized price is stored as: every decimal fits its column exactly. -/
def publishPrice (price : NormalizedPrice) : Except Failure PriceComponentRow := do
  let billingUnits ← decimalToUnits price.billingUnits columnScale
  let tiers ← price.tiers.mapM publishTier
  return ⟨price.pricingModel, billingUnits, price.unitAmountMinor, price.currency, tiers⟩

def PriceTierRow.read (row : PriceTierRow) : PriceTier :=
  ⟨row.upToQuantity.map columnText, row.unitAmountMinor, some row.flatAmountMinor⟩

def readPriceTiers (row : PriceComponentRow) : List PriceTier :=
  row.tiers.map PriceTierRow.read

structure MeteredOveragePrice where
  pricingModel : PricingModel
  billingUnits : Text
  unitAmountMinor : Int
  currency : String
  tiers : List PriceTier
  deriving DecidableEq

def resolveMeteredOveragePrice (row : PriceComponentRow) : Except Failure MeteredOveragePrice := do
  let billingUnits ← databaseDecimal (columnText row.billingUnits) "overage billing units" columnScale
  return {
    pricingModel := row.pricingModel
    billingUnits
    unitAmountMinor := row.unitAmountMinor
    currency := row.currency.toUpper
    tiers := if row.pricingModel = .flat then [] else readPriceTiers row }

structure MeteredItemRow where
  creditScale : Nat
  quantity : Nat
  price : PriceComponentRow
  deriving DecidableEq

/-- The item's quantity is held at the feature's credit scale; its price is not. -/
def publishMeteredItem (plan feature : String) (creditScale : Nat) (quantity : Text) (price : CatalogPriceIntent) :
    Except Failure MeteredItemRow :=
  if creditScale > columnScale then
    .error (.invalidRequest s!"Feature {feature} creditScale must be between 0 and 9")
  else do
    let itemQuantity ← positiveDecimal quantity "plan item quantity" columnScale
    let normalized ← normalizePrice price s!"price for {feature}"
    let _ ← positiveDecimal itemQuantity s!"Plan {plan} item {feature} quantity" creditScale
    return ⟨creditScale, ← decimalToUnits itemQuantity columnScale, ← publishPrice normalized⟩

end Quotum.CatalogPrice
