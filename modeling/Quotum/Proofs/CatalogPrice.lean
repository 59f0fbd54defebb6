import Quotum.CatalogPrice
import Quotum.General.Outcomes
import Quotum.Proofs.Pricing

/-! A published metered price is usable at the scale of its columns, and a coarser
scale can use it exactly when its decimals need no more digits than that. -/

namespace Quotum.CatalogPrice
open Decimal Pricing General

variable {label : String} {rows : List PriceTierRow} {tiers : List PriceTier}

/-- The decimals of a price need no more digits than a scale has. -/
def FitsScale (price : CatalogPriceIntent) (scale : Nat) : Prop :=
  fractionDigits price.billingUnits ≤ scale ∧ FineTiers scale (price.tiers.getD [])

structure StoredTier (tier : PriceTier) (row : PriceTierRow) : Prop where
  bound : row.upToQuantity = tier.upToQuantity.map (worth · columnScale)
  fits : ∀ bound, tier.upToQuantity = some bound → Fits bound columnScale
  unit : 0 ≤ row.unitAmountMinor
  flat : 0 ≤ row.flatAmountMinor

private theorem bound_inv {bound result : Option Text}
    (read : bound.mapM (fun value => positiveDecimal value label columnScale) = .ok result) :
    result = bound.map canonicalText ∧ ∀ value, bound = some value → Fits value columnScale := by
  cases bound with
  | none =>
    cases read
    exact ⟨rfl, by simp⟩
  | some value =>
    cases parsed : positiveDecimal value label columnScale with
    | error failure => simp [Option.mapM, parsed] at read
    | ok canonical =>
      obtain ⟨fits, -, rfl⟩ := positiveDecimal_inv parsed
      simp only [Option.mapM, parsed] at read
      cases read
      exact ⟨rfl, by rintro _ ⟨⟩; exact fits⟩

private theorem normalizeTier_inv {tier result : PriceTier} (read : normalizeTier label tier = .ok result) :
    result = ⟨tier.upToQuantity.map canonicalText, tier.unitAmountMinor, some (tier.flatAmountMinor.getD 0)⟩ ∧
      (∀ bound, tier.upToQuantity = some bound → Fits bound columnScale) ∧
      0 ≤ tier.unitAmountMinor ∧ 0 ≤ tier.flatAmountMinor.getD 0 := by
  unfold normalizeTier at read
  split at read
  · cases read
  · next unit =>
    split at read
    · cases read
    · next flat =>
      obtain ⟨bound, parsed, stored⟩ := bind_ok read
      obtain ⟨rfl, fits⟩ := bound_inv parsed
      cases stored
      refine ⟨rfl, fits, ?_, ?_⟩
      · simp only [not_or, not_lt] at unit
        exact unit.2
      · simp only [not_or, not_lt] at flat
        exact flat.2

private theorem publishTier_inv {tier : PriceTier} {row : PriceTierRow}
    (fits : ∀ bound, tier.upToQuantity = some bound → Fits bound columnScale)
    (published : publishTier ⟨tier.upToQuantity.map canonicalText, tier.unitAmountMinor, some (tier.flatAmountMinor.getD 0)⟩ =
      .ok row) :
    row = ⟨tier.upToQuantity.map (worth · columnScale), tier.unitAmountMinor, tier.flatAmountMinor.getD 0⟩ := by
  rcases tier with ⟨upToQuantity, unitAmountMinor, flatAmountMinor⟩
  cases upToQuantity with
  | none =>
    cases published
    rfl
  | some bound =>
    have held := fits bound rfl
    simp only [publishTier, Option.mapM, Option.map_some, decimalToUnits_ok held.canonical.isDecimal held.canonical.fine,
      canonical_worth held.isDecimal] at published
    cases published
    rfl

private theorem stored_tiers {normalized : List PriceTier}
    (checked : tiers.mapM (normalizeTier label) = .ok normalized) (published : normalized.mapM publishTier = .ok rows) :
    List.Forall₂ StoredTier tiers rows := by
  have first := mapM_ok checked
  have second := mapM_ok published
  clear checked published
  induction first generalizing rows with
  | nil =>
    cases second
    exact .nil
  | cons read _ ih =>
    cases second with
    | cons stored later =>
      obtain ⟨rfl, fits, unit, flat⟩ := normalizeTier_inv read
      rw [publishTier_inv fits stored]
      exact .cons ⟨rfl, fits, unit, flat⟩ (ih later)

private theorem normalized_bounds {normalized : List PriceTier} (checked : tiers.mapM (normalizeTier label) = .ok normalized) :
    normalized.map PriceTier.upToQuantity = tiers.map fun tier => tier.upToQuantity.map canonicalText := by
  have steps := mapM_ok checked
  clear checked
  induction steps with
  | nil => rfl
  | cons read _ ih =>
    obtain ⟨rfl, -⟩ := normalizeTier_inv read
    rw [List.map_cons, List.map_cons, ih]

private theorem stored_good {previous : Nat} (stored : List.Forall₂ StoredTier tiers rows)
    (rising : validateBoundariesFrom label previous (tiers.map fun tier => tier.upToQuantity.map canonicalText) = .ok ())
    (final : rows = [] ∨ (tiers.map fun tier => tier.upToQuantity.map canonicalText).getLast? = some none) :
    GoodTiers columnScale previous (rows.map PriceTierRow.read) := by
  induction stored generalizing previous with
  | nil => trivial
  | @cons tier row tiers rows here later ih =>
    rcases tier with ⟨upToQuantity, unitAmountMinor, flatAmountMinor⟩
    obtain ⟨bound, fits, unit, flat⟩ := here
    refine ⟨unit, flat, ?_⟩
    cases upToQuantity with
    | none =>
      simp only [PriceTierRow.read, bound, Option.map_none]
      cases later with
      | nil => rfl
      | cons _ _ => simp [validateBoundariesFrom] at rising
    | some boundary =>
      have held := fits boundary rfl
      simp only [PriceTierRow.read, bound, Option.map_some]
      simp only [List.map_cons, Option.map_some, validateBoundariesFrom, bind, Except.bind,
        decimalToUnits_ok held.canonical.isDecimal held.canonical.fine, canonical_worth held.isDecimal] at rising
      split at rising
      · cases rising
      · next above =>
        have same : worth (columnText (worth boundary columnScale)) columnScale = worth boundary columnScale := by
          rw [column_worth, magnitude_worth]
        have unbounded := final.resolve_left (by simp)
        cases later with
        | nil => simp at unbounded
        | cons next others =>
          refine ⟨stored_fits held, by rw [same]; omega, by simp, ?_⟩
          rw [same]
          exact ih rising (Or.inr (by simpa using unbounded))

def UsableTiers (model : PricingModel) (rows : List PriceTierRow) : Prop :=
  match model with
  | .flat => rows = []
  | .tiered _ => rows ≠ [] ∧ GoodTiers columnScale 0 (rows.map PriceTierRow.read)

structure Published (creditScale : Nat) (quantity : Text) (intent : CatalogPriceIntent) (item : MeteredItemRow) : Prop where
  scale : creditScale ≤ columnScale
  held : item.creditScale = creditScale
  fits : Fits quantity creditScale
  quantity : item.quantity = worth quantity columnScale
  billing : Fits intent.billingUnits columnScale
  billingUnits : item.price.billingUnits = worth intent.billingUnits columnScale
  positive : 0 < item.price.billingUnits
  unit : 0 ≤ item.price.unitAmountMinor
  tiers : List.Forall₂ StoredTier (intent.tiers.getD []) item.price.tiers
  rate : UsableTiers item.price.pricingModel item.price.tiers

private theorem boundaries_inv {model : PricingModel} (stored : List.Forall₂ StoredTier tiers rows)
    (validated : validateTierBoundaries model (tiers.map fun tier => tier.upToQuantity.map canonicalText) label = .ok ()) :
    UsableTiers model rows := by
  cases model with
  | flat =>
    cases stored with
    | nil => rfl
    | cons _ _ => simp [validateTierBoundaries] at validated
  | tiered model =>
    simp only [validateTierBoundaries] at validated
    split at validated
    · cases validated
    · next some =>
      obtain ⟨⟨⟩, rising, validated⟩ := bind_ok validated
      split at validated
      · cases validated
      · next final =>
        refine ⟨?_, stored_good stored rising (Or.inr (not_not.mp final))⟩
        rintro rfl
        cases stored
        exact some rfl

private theorem priced_inv {intent : CatalogPriceIntent} {normalized : NormalizedPrice}
    {row : PriceComponentRow} (priced : normalizePrice intent label = .ok normalized)
    (stored : publishPrice normalized = .ok row) :
    Fits intent.billingUnits columnScale ∧ 0 ≤ row.unitAmountMinor ∧
      row.billingUnits = worth intent.billingUnits columnScale ∧ 0 < row.billingUnits ∧
      List.Forall₂ StoredTier (intent.tiers.getD []) row.tiers ∧ UsableTiers row.pricingModel row.tiers := by
  unfold normalizePrice at priced
  split at priced
  · cases priced
  · next amount =>
    iterate 3 (split at priced; cases priced)
    obtain ⟨tiers, checked, priced⟩ := bind_ok priced
    obtain ⟨⟨⟩, validated, priced⟩ := bind_ok priced
    obtain ⟨billingUnits, positive, priced⟩ := bind_ok priced
    cases priced
    obtain ⟨fits, above, rfl⟩ := positiveDecimal_inv positive
    simp only [publishPrice, decimalToUnits_ok fits.canonical.isDecimal fits.canonical.fine,
      canonical_worth fits.isDecimal] at stored
    obtain ⟨_, ⟨⟩, stored⟩ := bind_ok stored
    obtain ⟨rows, published, stored⟩ := bind_ok stored
    cases stored
    rw [normalized_bounds checked] at validated
    have tiersStored := stored_tiers checked published
    simp only [not_or, not_lt] at amount
    exact ⟨fits, amount.2, rfl, above, tiersStored, boundaries_inv tiersStored validated⟩

theorem publish_inv {plan feature : String} {creditScale : Nat} {quantity : Text} {intent : CatalogPriceIntent}
    {item : MeteredItemRow} (published : publishMeteredItem plan feature creditScale quantity intent = .ok item) :
    Published creditScale quantity intent item := by
  unfold publishMeteredItem at published
  split at published
  · cases published
  · next scale =>
    obtain ⟨itemQuantity, checked, published⟩ := bind_ok published
    obtain ⟨normalized, priced, published⟩ := bind_ok published
    obtain ⟨coarse, held, published⟩ := bind_ok published
    obtain ⟨units, read, published⟩ := bind_ok published
    obtain ⟨row, stored, published⟩ := bind_ok published
    cases published
    obtain ⟨fits, -, rfl⟩ := positiveDecimal_inv checked
    obtain ⟨coarser, -, -⟩ := positiveDecimal_inv held
    rw [decimalToUnits_ok fits.canonical.isDecimal fits.canonical.fine, canonical_worth fits.isDecimal] at read
    cases read
    have fine : fractionDigits quantity ≤ creditScale := by
      rw [← canonical_fractionDigits fits.isDecimal]
      exact coarser.fine
    obtain ⟨billing, unit, rest⟩ := priced_inv priced stored
    exact {
      scale := by omega
      held := rfl
      fits := ⟨fits.isDecimal, fine, fits.bounded⟩
      quantity := rfl
      billing, unit
      billingUnits := rest.1
      positive := rest.2.1
      tiers := rest.2.2.1
      rate := rest.2.2.2 }

end Quotum.CatalogPrice
