import Quotum.CatalogPrice
import Quotum.Metering

/-! Rate cards: what catalog validation accepts, the rows it publishes, and the rate that usage of a meter is charged at. -/

namespace Quotum.RateCards
open Decimal Pricing CatalogPrice Metering

structure CatalogRateCardIntent where
  ratePerUnit : Text
  pricingModel : Option RateCardModel
  tiers : Option (List RateCardTier)
  deriving DecidableEq

structure NormalizedRateCard where
  ratePerUnit : Text
  pricingModel : RateCardModel
  tiers : List RateCardTier
  deriving DecidableEq

def pricedAs : RateCardModel → PricingModel
  | .flat => .flat
  | .graduated => .tiered .graduated

def normalizeRateTier (tier : RateCardTier) : Except Failure RateCardTier := do
  let upToQuantity ← tier.upToQuantity.mapM fun bound => positiveDecimal bound "rate-card tier boundary" columnScale
  let ratePerUnit ← positiveDecimal tier.ratePerUnit "rate-card tier rate" rateScale
  return ⟨upToQuantity, ratePerUnit⟩

def normalizeRateCard (entry : CatalogRateCardIntent) : Except Failure NormalizedRateCard := do
  let pricingModel := entry.pricingModel.getD .flat
  let tiers ← (entry.tiers.getD []).mapM normalizeRateTier
  validateTierBoundaries (pricedAs pricingModel) (tiers.map RateCardTier.upToQuantity) "rate card"
  let ratePerUnit ← positiveDecimal entry.ratePerUnit "ratePerUnit" rateScale
  return { ratePerUnit, pricingModel, tiers }

structure RateCardTierRow where
  upToQuantity : Option Nat
  ratePerUnit : Nat
  deriving DecidableEq

structure RateCardRow where
  pricingModel : RateCardModel
  ratePerUnit : Nat
  tiers : List RateCardTierRow
  deriving DecidableEq

def publishRateTier (tier : RateCardTier) : Except Failure RateCardTierRow := do
  let upToQuantity ← tier.upToQuantity.mapM fun bound => decimalToUnits bound columnScale
  return ⟨upToQuantity, ← decimalToUnits tier.ratePerUnit rateScale⟩

def publishRateCard (card : NormalizedRateCard) : Except Failure RateCardRow := do
  let ratePerUnit ← decimalToUnits card.ratePerUnit rateScale
  let tiers ← card.tiers.mapM publishRateTier
  return ⟨card.pricingModel, ratePerUnit, tiers⟩

def RateCardTierRow.read (row : RateCardTierRow) : RateCardTier :=
  ⟨row.upToQuantity.map columnText, unitsToDecimal row.ratePerUnit rateScale⟩

def readRateCardTiers (row : RateCardRow) : List RateCardTier :=
  row.tiers.map RateCardTierRow.read

def rateDecisionFromRow (row : RateCardRow) (meterScale wallet walletScale : Nat) : RateDecision where
  meterScale := meterScale
  wallet := wallet
  walletScale := walletScale
  pricingModel := row.pricingModel
  ratePerUnit := unitsToDecimal row.ratePerUnit rateScale
  tiers := if row.pricingModel = .graduated then readRateCardTiers row else []

end Quotum.RateCards
