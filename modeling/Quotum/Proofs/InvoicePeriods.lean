import Quotum.InvoicePeriods
import Quotum.Proofs.CatalogPrice
import Quotum.General.Outcomes
import Quotum.Proofs.Pricing

/-! Authorization and invoice charge the same usage the same, as long as the price fits
the feature's scale, and adjustments bring an invoiced period to its final charge. -/

namespace Quotum.InvoicePeriods
open Decimal Pricing CatalogPrice MeterLimitSpend General

def authorizedAmount (item : MeteredItemRow) (usage : Nat) : Except Failure Int := do
  let meterLimit ← overageMeterLimit item
  let charge ← calculateMeteredOverageCharge meterLimit (unitsToDecimal usage meterLimit.creditScale)
  return charge.amountMinor

def itemTiers (item : MeteredItemRow) : List PriceTier :=
  if item.price.pricingModel = .flat then [] else readPriceTiers item.price

private theorem stored_fine {scale : Nat} {tiers : List PriceTier} {rows : List PriceTierRow}
    (stored : List.Forall₂ StoredTier tiers rows) (below : scale ≤ columnScale) :
    FineTiers scale (rows.map PriceTierRow.read) ↔ FineTiers scale tiers := by
  unfold FineTiers
  induction stored with
  | nil => simp
  | @cons tier row tiers rows here _ ih =>
    rw [List.map_cons, List.forall_mem_cons, List.forall_mem_cons, ih]
    refine and_congr_left fun _ => ?_
    cases same : tier.upToQuantity with
    | none => simp [PriceTierRow.read, here.bound, same]
    | some bound =>
      simp only [PriceTierRow.read, here.bound, same, Option.map_some, Option.some.injEq, forall_eq']
      exact column_holds_coarser (here.fits bound same) below

section Published
variable {creditScale : Nat} {quantity : Text} {intent : CatalogPriceIntent} {item : MeteredItemRow}
  (published : Published creditScale quantity intent item)
include published

private theorem column_bounded : item.quantity < 10 ^ (maxInputIntegerDigits + columnScale) := by
  rw [published.quantity]
  exact (published.fits.finer published.scale).worth_lt

private theorem quantity_column :
    fractionDigits (columnText item.quantity) ≤ creditScale ∧
      item.quantity = worth (columnText item.quantity) creditScale * 10 ^ (columnScale - creditScale) := by
  have fine : fractionDigits (columnText item.quantity) ≤ creditScale := by
    rw [published.quantity, column_holds_coarser (published.fits.finer published.scale) published.scale]
    exact published.fits.fine
  refine ⟨fine, ?_⟩
  rw [← worth_finer fine published.scale, column_worth, magnitude_worth]

private theorem authorized_charge (usage : Nat) :
    authorizedAmount item usage = do
      let charge ← chargeAt item.price.pricingModel (magnitudeToDecimal usage creditScale)
        (magnitudeToDecimal (worth (columnText item.quantity) creditScale) creditScale)
        (canonicalText (columnText item.price.billingUnits)) item.price.unitAmountMinor (itemTiers item) creditScale
      return charge.amountMinor := by
  obtain ⟨fine, -⟩ := quantity_column published
  have isDecimal := column_isDecimal item.quantity
  have digits : fractionDigits (columnText item.price.billingUnits) ≤ columnScale := by
    rw [column_fractionDigits]
    exact magnitude_fits _ _
  have limit : overageMeterLimit item = .ok {
      creditScale := creditScale
      limit := magnitudeToDecimal (worth (columnText item.quantity) creditScale) creditScale
      overagePolicy := .allowed
      overagePrice := some {
        pricingModel := item.price.pricingModel
        billingUnits := canonicalText (columnText item.price.billingUnits)
        unitAmountMinor := item.price.unitAmountMinor
        currency := item.price.currency.toUpper
        tiers := itemTiers item }
      unlimited := false } := by
    simp only [overageMeterLimit, resolveMeteredOveragePrice, databaseDecimal, published.held,
      unboundedDecimal_ok isDecimal fine, unboundedDecimal_ok (column_isDecimal _) digits,
      decimalToUnits_ok (canonical_isDecimal isDecimal) ((canonical_fractionDigits isDecimal).trans_le fine),
      canonical_worth isDecimal, ok_bind, pure, Except.pure, unitsToDecimal_nat, itemTiers]
  rw [authorizedAmount, limit, ok_bind, metered_charge rfl, unitsToDecimal_nat]

private theorem billing_fine :
    fractionDigits (columnText item.price.billingUnits) ≤ creditScale ↔ fractionDigits intent.billingUnits ≤ creditScale := by
  rw [published.billingUnits]
  exact column_holds_coarser published.billing published.scale

private theorem billing_fits : Fits (columnText item.price.billingUnits) columnScale := by
  rw [published.billingUnits]
  exact stored_fits published.billing

private theorem tiers_good {model : TieredModel} (tiered : item.price.pricingModel = .tiered model) :
    itemTiers item = readPriceTiers item.price ∧ readPriceTiers item.price ≠ [] ∧
      GoodTiers columnScale 0 (readPriceTiers item.price) := by
  have rate := published.rate
  rw [tiered] at rate
  exact ⟨by simp [itemTiers, tiered], by simpa [readPriceTiers] using rate.1, rate.2⟩

private theorem authorized_chargeable {usage : Nat} (bounded : usage < 10 ^ (maxInputIntegerDigits + creditScale)) :
    Chargeable item.price.pricingModel (magnitudeToDecimal usage creditScale)
      (magnitudeToDecimal (worth (columnText item.quantity) creditScale) creditScale)
      (canonicalText (columnText item.price.billingUnits)) item.price.unitAmountMinor (itemTiers item) creditScale ↔
      FitsScale intent creditScale := by
  have isDecimal := column_isDecimal item.price.billingUnits
  obtain ⟨extra, split⟩ := Nat.exists_eq_add_of_le published.scale
  constructor
  · intro chargeable
    have fine := chargeable.billing.fine
    rw [canonical_fractionDigits isDecimal, billing_fine published] at fine
    refine ⟨fine, (stored_fine published.tiers published.scale).mp ?_⟩
    cases model : item.price.pricingModel with
    | flat =>
      have empty := published.rate
      rw [model] at empty
      simp [FineTiers, show item.price.tiers = [] from empty]
    | tiered tieredModel =>
      obtain ⟨same, -, good⟩ := tiers_good published model
      have rate := chargeable.rate
      simp only [model, same] at rate
      rw [split] at good
      exact (good_coarser (by rwa [Nat.zero_mul])).mp rate.2
  · rintro ⟨fine, tiersFine⟩
    rw [← billing_fine published] at fine
    have held : Fits (columnText item.price.billingUnits) creditScale :=
      ⟨isDecimal, fine, (billing_fits published).bounded⟩
    have units := worth_finer fine published.scale
    rw [column_worth, magnitude_worth] at units
    refine ⟨magnitude_holds bounded, magnitude_holds ?_, held.canonical, ?_, ?_⟩
    · exact Fits.worth_lt ⟨column_isDecimal _, (quantity_column published).1, (column_fits (column_bounded published)).bounded⟩
    · rw [canonical_worth isDecimal]
      have positive := published.positive
      rw [units] at positive
      exact Nat.pos_of_mul_pos_right positive
    · cases model : item.price.pricingModel with
      | flat => exact published.unit
      | tiered tieredModel =>
        obtain ⟨same, some, good⟩ := tiers_good published model
        rw [split] at good
        simp only [same]
        exact ⟨some, (good_coarser (by rwa [Nat.zero_mul])).mpr ((stored_fine published.tiers published.scale).mpr tiersFine)⟩

private theorem itemTiers_eq : itemTiers item = readPriceTiers item.price := by
  cases model : item.price.pricingModel with
  | flat =>
    have empty := published.rate
    rw [model] at empty
    simp [itemTiers, readPriceTiers, show item.price.tiers = [] from empty]
  | tiered tieredModel => exact (tiers_good published model).1

end Published

private theorem persisted_charge (price : PriceComponentRow) (usage included billingUnits : Text) (unitAmountMinor : Int) :
    calculatePersistedPriceCharge price usage included billingUnits unitAmountMinor =
      chargeAt price.pricingModel usage included billingUnits unitAmountMinor (readPriceTiers price) columnScale := by
  rcases price with ⟨pricingModel, units, amount, currency, tiers⟩
  cases pricingModel with
  | flat => rfl
  | tiered model => rfl

def invoicedAmount (item : MeteredItemRow) (usage : Nat) : Nat :=
  (tableAt item.price.pricingModel (columnText item.price.billingUnits) item.price.unitAmountMinor
    (readPriceTiers item.price) columnScale).amount item.quantity usage

section Invoiced
variable {creditScale : Nat} {quantity : Text} {intent : CatalogPriceIntent} {item : MeteredItemRow}
  (published : Published creditScale quantity intent item)
include published

private theorem invoice_chargeable {usage included : Text} (fits : Fits usage columnScale) (held : Fits included columnScale) :
    Chargeable item.price.pricingModel usage included (columnText item.price.billingUnits) item.price.unitAmountMinor
      (readPriceTiers item.price) columnScale := by
  refine ⟨fits, held, billing_fits published, ?_, ?_⟩
  · rw [column_worth, magnitude_worth]
    exact published.positive
  · cases model : item.price.pricingModel with
    | flat => exact published.unit
    | tiered tieredModel => exact (tiers_good published model).2

private theorem invoice_charge {usage included : Text} (fits : Fits usage columnScale) (held : Fits included columnScale)
    (same : worth included columnScale = item.quantity) :
    calculatePersistedPriceCharge item.price usage included (columnText item.price.billingUnits) item.price.unitAmountMinor =
      .ok {
        usageQuantity := magnitudeToDecimal (worth usage columnScale) columnScale
        includedQuantity := magnitudeToDecimal item.quantity columnScale
        billableQuantity := magnitudeToDecimal (billableUnits (worth usage columnScale) item.quantity) columnScale
        amountMinor := invoicedAmount item (worth usage columnScale) } := by
  have charged := chargeAt_ok (invoice_chargeable published fits held)
  rw [same] at charged
  rw [invoicedAmount, ← charged, persisted_charge]

private theorem period_charge {windows : List Nat} (bounded : windows.sum < 10 ^ (maxInputIntegerDigits + columnScale)) :
    periodCharge item.quantity item.price windows = .ok {
      usageQuantity := magnitudeToDecimal windows.sum columnScale
      includedQuantity := magnitudeToDecimal item.quantity columnScale
      billableQuantity := magnitudeToDecimal (billableUnits windows.sum item.quantity) columnScale
      amountMinor := invoicedAmount item windows.sum } := by
  have charged := invoice_charge published (magnitude_holds bounded) (column_fits (column_bounded published))
    (by rw [column_worth, magnitude_worth])
  rw [magnitude_worth] at charged
  rw [periodCharge, Int.ofNat_eq_natCast, unitsToDecimal_nat, charged]

private theorem rated_usage {usage : Nat} {charge : UsageCharge}
    (rated : calculatePersistedPriceCharge item.price (magnitudeToDecimal usage columnScale)
      (magnitudeToDecimal item.quantity columnScale) (columnText item.price.billingUnits) item.price.unitAmountMinor =
      .ok charge) :
    usage < 10 ^ (maxInputIntegerDigits + columnScale) ∧ charge.amountMinor = invoicedAmount item usage := by
  have bounded : usage < 10 ^ (maxInputIntegerDigits + columnScale) := by
    rw [persisted_charge] at rated
    exact (magnitude_bounded _ _).mp (chargeAt_inv rated).usage.bounded
  rw [invoice_charge published (magnitude_holds bounded) (magnitude_holds (column_bounded published))
    (magnitude_worth _ _), magnitude_worth] at rated
  cases rated
  exact ⟨bounded, rfl⟩

/-- A usage costs the same at both scales when the price fits the coarser one. -/
private theorem authorized_agrees {usage : Nat} (bounded : usage < 10 ^ (maxInputIntegerDigits + creditScale)) :
    authorizedAmount item usage = .ok ↑(invoicedAmount item (usage * 10 ^ (columnScale - creditScale))) ↔
      FitsScale intent creditScale := by
  rw [authorized_charge published]
  have isDecimal := column_isDecimal item.price.billingUnits
  constructor
  · intro charged
    obtain ⟨charge, charged, -⟩ := bind_ok charged
    exact (authorized_chargeable published bounded).mp (chargeAt_inv charged)
  · intro fine
    have chargeable := (authorized_chargeable published bounded).mpr fine
    rw [chargeAt_ok chargeable, ok_bind, magnitude_worth, magnitude_worth]
    have digits := (billing_fine published).mpr fine.1
    have positive := chargeable.positive
    rw [canonical_worth isDecimal] at positive
    have finer := @amount_finer item.price.pricingModel _ item.price.unitAmountMinor _ _ digits positive
      ((stored_fine published.tiers published.scale).mpr fine.2) (columnScale - creditScale)
      (worth (columnText item.quantity) creditScale) usage
    rw [Nat.add_sub_cancel' published.scale, ← (quantity_column published).2] at finer
    rw [invoicedAmount, show readPriceTiers item.price = item.price.tiers.map PriceTierRow.read from rfl, finer]
    simp only [tableAt, canonical_worth isDecimal, itemTiers_eq published]
    rfl

private def invoicedPeriod (item : MeteredItemRow) (usage : Nat) : UsageInvoicePeriodRow where
  usageQuantity := magnitudeToDecimal usage columnScale
  includedQuantity := magnitudeToDecimal item.quantity columnScale
  billableQuantity := magnitudeToDecimal (billableUnits usage item.quantity) columnScale
  billingUnits := columnText item.price.billingUnits
  unitAmountMinor := item.price.unitAmountMinor
  amountMinor := invoicedAmount item usage
  currency := item.price.currency
  status := invoiceStatus (invoicedAmount item usage)

private theorem materialize_charge {windows : List Nat} (closed : windows ≠ [])
    (bounded : windows.sum < 10 ^ (maxInputIntegerDigits + columnScale)) :
    materializeUsageInvoicePeriod item.quantity item.price windows none = .ok (some (invoicedPeriod item windows.sum)) := by
  rw [materializeUsageInvoicePeriod, if_neg (by simpa using closed), period_charge published bounded]
  rfl

private theorem adjustment_charge {invoiced : Nat} {usage : Int} {adjustments recorded : List UsageInvoiceAdjustment}
    {event : EventId} {quantityDelta amountDelta : Int} (nonnegative : 0 ≤ usage)
    (total : usage = invoiced + (adjustments.map UsageInvoiceAdjustment.quantity).sum)
    (fresh : event ∉ adjustments.map UsageInvoiceAdjustment.event)
    (accepted : recordUsageInvoicePeriodAdjustment item.price (invoicedPeriod item invoiced) adjustments event quantityDelta =
      .ok (amountDelta, recorded)) :
    0 ≤ usage + quantityDelta ∧ (usage + quantityDelta).toNat < 10 ^ (maxInputIntegerDigits + columnScale) ∧
      amountDelta = invoicedAmount item (usage + quantityDelta).toNat - invoicedAmount item usage.toNat ∧
      recorded = adjustments ++ [⟨event, quantityDelta, amountDelta, item.price.currency, invoiceStatus amountDelta⟩] := by
  unfold recordUsageInvoicePeriodAdjustment at accepted
  simp only [invoicedPeriod, databaseDecimal,
    unboundedDecimal_ok (magnitude_isDecimal invoiced columnScale) (magnitude_fits _ _), magnitude_canonical, ok_bind,
    decimalToUnits_ok (magnitude_isDecimal invoiced columnScale) (magnitude_fits _ _), magnitude_worth,
    Int.ofNat_eq_natCast, ← total] at accepted
  split at accepted
  · cases accepted
  · next enough =>
    obtain ⟨before, rated, accepted⟩ := bind_ok accepted
    obtain ⟨after, rerated, accepted⟩ := bind_ok accepted
    cases accepted
    obtain ⟨earlier, rfl⟩ := Int.eq_ofNat_of_zero_le nonnegative
    obtain ⟨later, moved⟩ := Int.eq_ofNat_of_zero_le (Int.not_lt.mp enough)
    rw [moved, unitsToDecimal_nat] at rerated
    rw [unitsToDecimal_nat] at rated
    obtain ⟨-, first⟩ := rated_usage published rated
    obtain ⟨bounded, second⟩ := rated_usage published rerated
    rw [first, second, moved, if_neg (by simpa using fresh)]
    exact ⟨Int.natCast_nonneg _, bounded, rfl, rfl⟩

private theorem adjusted_charge {invoiced : Nat} (bounded : invoiced < 10 ^ (maxInputIntegerDigits + columnScale))
    {usage : Int} {adjustments : List UsageInvoiceAdjustment}
    (adjusted : Adjusted item.price (invoicedPeriod item invoiced) invoiced usage adjustments) :
    0 ≤ usage ∧ usage.toNat < 10 ^ (maxInputIntegerDigits + columnScale) ∧
      usage = invoiced + (adjustments.map UsageInvoiceAdjustment.quantity).sum ∧
      invoicedAmount item invoiced + (adjustments.map UsageInvoiceAdjustment.amountMinor).sum =
        (invoicedAmount item usage.toNat : Int) := by
  induction adjusted with
  | invoice => exact ⟨Int.natCast_nonneg _, by simpa using bounded, by simp, by simp⟩
  | change _ late fresh accepted ih =>
    obtain ⟨nonnegative, -, total, charged⟩ := ih
    obtain ⟨enough, held, rfl, rfl⟩ := adjustment_charge published nonnegative total fresh accepted
    simp only [List.map_append, List.map_cons, List.map_nil, List.sum_append, List.sum_singleton]
    refine ⟨enough, held, ?_, ?_⟩
    · rw [← add_assoc, ← total]
    · rw [← add_assoc, charged, add_sub_cancel]

end Invoiced

/-- Authorization and invoice charge a net usage the same exactly when the price's decimals fit the
feature's credit scale; whatever the price, late changes adjust the invoice to the final charge. -/
theorem authorization_agrees_with_invoice {plan feature : String} {creditScale : Nat} {quantity : Text}
    {intent : CatalogPriceIntent} {item : MeteredItemRow}
    (published : publishMeteredItem plan feature creditScale quantity intent = .ok item)
    {usage : Nat} (bounded : usage < 10 ^ (maxInputIntegerDigits + creditScale))
    {windows : List Nat} (closed : windows ≠ []) (net : windows.sum = usage * 10 ^ (columnScale - creditScale)) :
    ∃ period, materializeUsageInvoicePeriod item.quantity item.price windows none = .ok (some period) ∧
      (authorizedAmount item usage = .ok period.amountMinor ↔ FitsScale intent creditScale) ∧
      ∀ final adjustments, Adjusted item.price period windows.sum final adjustments →
        ∃ charge, periodCharge item.quantity item.price [final.toNat] = .ok charge ∧
          period.amountMinor + (adjustments.map UsageInvoiceAdjustment.amountMinor).sum = charge.amountMinor := by
  have published := publish_inv published
  have held : windows.sum < 10 ^ (maxInputIntegerDigits + columnScale) := by
    have scale := published.scale
    have split : maxInputIntegerDigits + columnScale = maxInputIntegerDigits + creditScale + (columnScale - creditScale) := by
      omega
    rw [net, split, pow_add]
    exact Nat.mul_lt_mul_of_pos_right bounded (Nat.pow_pos (by omega))
  refine ⟨invoicedPeriod item windows.sum, materialize_charge published closed held, ?_, ?_⟩
  · rw [show (invoicedPeriod item windows.sum).amountMinor = invoicedAmount item windows.sum from rfl, net]
    exact authorized_agrees published bounded
  · intro final adjustments adjusted
    obtain ⟨-, inside, -, charged⟩ := adjusted_charge published held adjusted
    have single : [final.toNat].sum < 10 ^ (maxInputIntegerDigits + columnScale) := by simpa using inside
    refine ⟨_, period_charge published single, ?_⟩
    simpa [invoicedPeriod] using charged

def graduatedIntent (billingUnits : Text) : CatalogPriceIntent where
  unitAmountMinor := 0
  currency := "usd"
  minimumQuantity := 1
  maximumQuantity := none
  billingUnits := billingUnits
  pricingModel := some (.tiered .graduated)
  tiers := some [⟨some ['1', '0'], 2, some 5⟩, ⟨none, 1, none⟩]

def graduatedItem (billingUnits : Nat) : MeteredItemRow where
  creditScale := 0
  quantity := 100 * 10 ^ columnScale
  price := {
    pricingModel := .tiered .graduated
    billingUnits := billingUnits
    unitAmountMinor := 0
    currency := "usd"
    tiers := [⟨some (10 * 10 ^ columnScale), 2, 5⟩, ⟨none, 1, 0⟩] }

theorem authorization_agrees_on_whole_units :
    ∃ period, materializeUsageInvoicePeriod (graduatedItem (10 ^ columnScale)).quantity
        (graduatedItem (10 ^ columnScale)).price [115 * 10 ^ columnScale] none = .ok (some period) ∧
      (authorizedAmount (graduatedItem (10 ^ columnScale)) 115 = .ok period.amountMinor ↔
        FitsScale (graduatedIntent ['1']) 0) ∧
      ∀ final adjustments,
        Adjusted (graduatedItem (10 ^ columnScale)).price period (115 * 10 ^ columnScale : Nat) final adjustments →
        ∃ charge, periodCharge (graduatedItem (10 ^ columnScale)).quantity (graduatedItem (10 ^ columnScale)).price
            [final.toNat] = .ok charge ∧
          period.amountMinor + (adjustments.map UsageInvoiceAdjustment.amountMinor).sum = charge.amountMinor :=
  @authorization_agrees_with_invoice "pro" "tokens" 0 ['1', '0', '0'] (graduatedIntent ['1'])
    (graduatedItem (10 ^ columnScale)) rfl 115 (by decide) [115 * 10 ^ columnScale] (by decide) (by decide)

/-- Half billing units are published and invoiced, and never authorized at a whole credit scale. -/
theorem half_units_not_authorized :
    ¬ ∀ (plan feature : String) (creditScale : Nat) (quantity : Text) (intent : CatalogPriceIntent)
      (item : MeteredItemRow) (usage : Nat) (period : UsageInvoicePeriodRow),
      publishMeteredItem plan feature creditScale quantity intent = .ok item →
      materializeUsageInvoicePeriod item.quantity item.price [usage * 10 ^ (columnScale - creditScale)] none =
        .ok (some period) →
      authorizedAmount item usage = .ok period.amountMinor := by
  intro all
  obtain ⟨period, invoiced⟩ : ∃ period, materializeUsageInvoicePeriod (graduatedItem 500000000).quantity
      (graduatedItem 500000000).price [115 * 10 ^ columnScale] none = .ok (some period) := ⟨_, rfl⟩
  obtain ⟨failure, rejected⟩ : ∃ failure, authorizedAmount (graduatedItem 500000000) 115 = .error failure := ⟨_, rfl⟩
  have agreed := all "pro" "tokens" 0 ['1', '0', '0'] (graduatedIntent ['0', '.', '5']) (graduatedItem 500000000) 115
    period rfl invoiced
  rw [rejected] at agreed
  cases agreed

end Quotum.InvoicePeriods
