import Quotum.MeterLimitSpend
import Quotum.Proofs.Decimal

/-! A charge depends on the value of its decimals and not on the scale they are read at. -/

namespace Quotum.Pricing
open Decimal

private theorem roundedAmount_scale {billingUnits factor : Nat} (numerator : Nat) (positive : 0 < billingUnits)
    (growth : 0 < factor) : roundedAmount (numerator * factor) (billingUnits * factor) = roundedAmount numerator billingUnits := by
  have lower : roundedAmount numerator billingUnits * billingUnits ≤ numerator + billingUnits / 2 :=
    Nat.div_mul_le_self _ _
  have upper : numerator + billingUnits / 2 < (roundedAmount numerator billingUnits + 1) * billingUnits := by
    rw [Nat.add_mul, Nat.one_mul]
    exact Nat.lt_div_mul_add positive
  generalize roundedAmount numerator billingUnits = amount at lower upper
  have half : billingUnits / 2 * factor ≤ billingUnits * factor / 2 := by
    rw [Nat.le_div_iff_mul_le (by omega), Nat.mul_right_comm]
    exact Nat.mul_le_mul_right _ (Nat.div_mul_le_self _ _)
  have above : billingUnits * factor / 2 < (billingUnits / 2 + 1) * factor := by
    rw [Nat.div_lt_iff_lt_mul (by omega), Nat.mul_right_comm]
    exact Nat.mul_lt_mul_of_pos_right (by omega) growth
  unfold roundedAmount
  apply Nat.div_eq_of_lt_le
  · calc
      amount * (billingUnits * factor) = amount * billingUnits * factor := (Nat.mul_assoc _ _ _).symm
      _ ≤ (numerator + billingUnits / 2) * factor := Nat.mul_le_mul_right _ lower
      _ ≤ numerator * factor + billingUnits * factor / 2 := by rw [Nat.add_mul]; omega
  · calc
      numerator * factor + billingUnits * factor / 2 < numerator * factor + (billingUnits / 2 + 1) * factor := by omega
      _ = (numerator + billingUnits / 2 + 1) * factor := by ring
      _ ≤ (amount + 1) * billingUnits * factor := Nat.mul_le_mul_right _ upper
      _ = (amount + 1) * (billingUnits * factor) := Nat.mul_assoc _ _ _

structure PriceTable where
  billingUnits : Nat
  model : PricingModel
  unitAmountMinor : Nat
  tiers : List Tier

def PriceTable.numerator (table : PriceTable) (billable : Nat) : Nat :=
  match table.model with
  | .flat => billable * table.unitAmountMinor
  | .tiered .graduated => if billable > 0 then graduatedNumerator billable table.billingUnits 0 table.tiers else 0
  | .tiered .volume =>
    if billable > 0 then
      ((table.tiers.find? (fun tier => tier.covers billable)).map (fun tier => tier.charge billable table.billingUnits)).getD 0
    else 0

def PriceTable.amount (table : PriceTable) (included usage : Nat) : Nat :=
  roundedAmount (table.numerator (billableUnits usage included)) table.billingUnits

def Tier.scaled (factor : Nat) (tier : Tier) : Tier :=
  { tier with upTo := tier.upTo.map (· * factor) }

def PriceTable.scaled (factor : Nat) (table : PriceTable) : PriceTable :=
  { table with billingUnits := table.billingUnits * factor, tiers := table.tiers.map (Tier.scaled factor) }

theorem billable_sub (usage included : Nat) : billableUnits usage included = usage - included := by
  unfold billableUnits
  split <;> omega

private theorem billable_scaled (usage included factor : Nat) :
    billableUnits (usage * factor) (included * factor) = billableUnits usage included * factor := by
  rw [billable_sub, billable_sub, Nat.sub_mul]

private theorem charge_scaled (factor : Nat) (tier : Tier) (quantity billingUnits : Nat) :
    (tier.scaled factor).charge (quantity * factor) (billingUnits * factor) = tier.charge quantity billingUnits * factor := by
  simp only [Tier.charge, Tier.scaled]
  ring

section Scaled
variable {factor : Nat} (growth : 0 < factor)
include growth

private theorem covers_scaled (tier : Tier) (billable : Nat) :
    (tier.scaled factor).covers (billable * factor) = tier.covers billable := by
  unfold Tier.covers Tier.scaled
  cases tier.upTo with
  | none => rfl
  | some bound => simpa using Nat.mul_le_mul_right_iff growth

private theorem upper_scaled (upTo : Option Nat) (quantity : Nat) :
    upperBound (upTo.map (· * factor)) (quantity * factor) = upperBound upTo quantity * factor := by
  unfold upperBound
  cases upTo with
  | none => rfl
  | some bound =>
    simp only [Option.map_some]
    by_cases beyond : bound > quantity
    · rw [if_pos beyond, if_pos (Nat.mul_lt_mul_of_pos_right beyond growth)]
    · rw [if_neg beyond, if_neg (by have := Nat.mul_le_mul_right factor (Nat.not_lt.mp beyond); omega)]

private theorem graduated_scaled (billable billingUnits : Nat) (tiers : List Tier) (lowerBound : Nat) :
    graduatedNumerator (billable * factor) (billingUnits * factor) (lowerBound * factor) (tiers.map (Tier.scaled factor)) =
      graduatedNumerator billable billingUnits lowerBound tiers * factor := by
  induction tiers generalizing lowerBound with
  | nil => simp [graduatedNumerator]
  | cons tier rest ih =>
    have upper : upperBound (tier.scaled factor).upTo (billable * factor) = upperBound tier.upTo billable * factor :=
      upper_scaled growth tier.upTo billable
    have more : ∀ a b : Nat, a * factor > b * factor ↔ a > b := fun a b => Nat.mul_lt_mul_right growth
    have positive : ∀ a : Nat, a * factor > 0 ↔ a > 0 := fun a => by simpa using more a 0
    have same : upperBound tier.upTo billable * factor = billable * factor ↔ upperBound tier.upTo billable = billable :=
      Nat.mul_left_inj (by omega)
    simp only [graduatedNumerator, List.map_cons, upper, more, ← Nat.sub_mul, same, ih]
    by_cases above : upperBound tier.upTo billable > lowerBound
    · simp only [if_pos above, positive, charge_scaled factor]
      split <;> split <;> ring
    · simp only [if_neg above, Nat.lt_irrefl, gt_iff_lt, if_false]
      split <;> ring

private theorem numerator_scaled (table : PriceTable) (billable : Nat) :
    (table.scaled factor).numerator (billable * factor) = table.numerator billable * factor := by
  have positive : billable * factor > 0 ↔ billable > 0 := by simp [growth]
  rcases table with ⟨billingUnits, model, unit, tiers⟩
  simp only [PriceTable.numerator, PriceTable.scaled]
  match model with
  | .flat => ring
  | .tiered .graduated =>
    simp only [positive]
    split
    · simpa using graduated_scaled growth billable billingUnits tiers 0
    · simp
  | .tiered .volume =>
    simp only [positive]
    split
    · rw [List.find?_map]
      have same : ((fun tier : Tier => tier.covers (billable * factor)) ∘ Tier.scaled factor) =
          fun tier => tier.covers billable := funext fun tier => covers_scaled growth tier billable
      rw [same]
      cases tiers.find? (fun tier => tier.covers billable) with
      | none => simp
      | some tier => simpa using charge_scaled factor tier billable billingUnits
    · simp

/-- The same usage charged at a finer scale costs the same. -/
private theorem PriceTable.amount_scaled (table : PriceTable) (positive : 0 < table.billingUnits) (included usage : Nat) :
    (table.scaled factor).amount (included * factor) (usage * factor) = table.amount included usage := by
  unfold PriceTable.amount
  rw [billable_scaled, numerator_scaled growth]
  exact roundedAmount_scale _ positive growth

end Scaled

def PriceTier.at (scale : Nat) (tier : PriceTier) : Tier :=
  ⟨tier.upToQuantity.map (worth · scale), tier.unitAmountMinor.toNat, (tier.flatAmountMinor.getD 0).toNat⟩

/-- A tier table a scale can hold: bounds rise from a previous one and only the last tier has none. -/
def GoodTiers (scale : Nat) : Nat → List PriceTier → Prop
  | _, [] => True
  | previous, tier :: rest =>
    0 ≤ tier.unitAmountMinor ∧ 0 ≤ tier.flatAmountMinor.getD 0 ∧
      match tier.upToQuantity with
      | none => rest = []
      | some bound => Fits bound scale ∧ previous < worth bound scale ∧ rest ≠ [] ∧ GoodTiers scale (worth bound scale) rest

theorem normalizeTiersFrom_ok {scale previous : Nat} {tiers : List PriceTier} (good : GoodTiers scale previous tiers) :
    normalizeTiersFrom scale previous tiers = .ok (tiers.map (PriceTier.at scale)) := by
  induction tiers generalizing previous with
  | nil => rfl
  | cons tier rest ih =>
    obtain ⟨unit, flat, bounds⟩ := good
    rcases tier with ⟨upToQuantity, unitAmountMinor, flatAmountMinor⟩
    simp only [normalizeTiersFrom]
    rw [if_neg (by simp only at unit flat; omega)]
    cases upToQuantity with
    | none =>
      simp only at bounds
      subst bounds
      rfl
    | some bound =>
      obtain ⟨fits, above, more, later⟩ := bounds
      simp only [pure_bind]
      rw [fits.read_bind]
      simp [more, above, ih later, PriceTier.at, bind, Except.bind, pure, Except.pure]

private theorem normalizeTiersFrom_inv {scale previous : Nat} {tiers : List PriceTier} {result : List Tier}
    (read : normalizeTiersFrom scale previous tiers = .ok result) : GoodTiers scale previous tiers := by
  induction tiers generalizing previous result with
  | nil => trivial
  | cons tier rest ih =>
    rcases tier with ⟨upToQuantity, unitAmountMinor, flatAmountMinor⟩
    simp only [normalizeTiersFrom] at read
    split at read
    · cases read
    · next amounts =>
      refine ⟨by simp only; omega, by simp only; omega, ?_⟩
      cases upToQuantity with
      | none =>
        simp only [pure_bind] at read
        by_cases last : rest = []
        · exact last
        · simp [last] at read
      | some bound =>
        simp only [pure_bind] at read
        obtain ⟨fits, next⟩ := read_inv read
        by_cases last : rest = []
        · subst last
          simp at next
          split at next <;> cases next
        · by_cases above : worth bound scale ≤ previous
          · simp [above] at next
          · cases later : normalizeTiersFrom scale (worth bound scale) rest with
            | error failure => simp [last, above, later, bind, Except.bind] at next
            | ok others => exact ⟨fits, by omega, last, ih later⟩

/-- The bounds of a tier table need no more digits than a scale has. -/
def FineTiers (scale : Nat) (tiers : List PriceTier) : Prop :=
  ∀ tier ∈ tiers, ∀ bound, tier.upToQuantity = some bound → fractionDigits bound ≤ scale

/-- A table usable at a finer scale is usable at a coarser one exactly when its bounds fit there. -/
theorem good_coarser {scale extra previous : Nat} {tiers : List PriceTier}
    (good : GoodTiers (scale + extra) (previous * 10 ^ extra) tiers) :
    GoodTiers scale previous tiers ↔ FineTiers scale tiers := by
  induction tiers generalizing previous with
  | nil => simp [GoodTiers, FineTiers]
  | cons tier rest ih =>
    rcases tier with ⟨upToQuantity, unitAmountMinor, flatAmountMinor⟩
    obtain ⟨unit, flat, bounds⟩ := good
    cases upToQuantity with
    | none =>
      simp only at bounds
      subst bounds
      simp only [GoodTiers, FineTiers, List.mem_singleton, forall_eq]
      exact ⟨fun _ => by simp, fun _ => ⟨unit, flat, trivial⟩⟩
    | some bound =>
      obtain ⟨fits, above, more, later⟩ := bounds
      constructor
      · rintro ⟨-, -, held, -, -, coarse⟩
        rw [worth_scale held.fine] at later
        intro tier member value same
        rcases List.mem_cons.mp member with rfl | inside
        · cases same
          exact held.fine
        · exact (ih later).mp coarse tier inside value same
      · intro fine
        have held := fine _ List.mem_cons_self bound rfl
        rw [worth_scale held] at later above
        refine ⟨unit, flat, ⟨fits.isDecimal, held, fits.bounded⟩, Nat.lt_of_mul_lt_mul_right above, more, ?_⟩
        exact (ih later).mpr fun tier inside => fine tier (by simp [inside])

private theorem tiers_finer {scale : Nat} {tiers : List PriceTier} (fine : FineTiers scale tiers) (extra : Nat) :
    tiers.map (PriceTier.at (scale + extra)) = (tiers.map (PriceTier.at scale)).map (Tier.scaled (10 ^ extra)) := by
  rw [List.map_map]
  apply List.map_congr_left
  intro tier member
  rcases tier with ⟨upToQuantity, unitAmountMinor, flatAmountMinor⟩
  cases upToQuantity with
  | none => rfl
  | some bound => simp [PriceTier.at, Tier.scaled, worth_scale (fine _ member bound rfl) extra]

/-- A usable tier table ends in a tier that covers every quantity. -/
private theorem good_covers {scale previous : Nat} {tiers : List PriceTier} (good : GoodTiers scale previous tiers)
    (some : tiers ≠ []) (billable : Nat) :
    ((tiers.map (PriceTier.at scale)).find? (fun tier => tier.covers billable)).isSome := by
  induction tiers generalizing previous with
  | nil => exact absurd rfl some
  | cons tier rest ih =>
    rcases tier with ⟨upToQuantity, unitAmountMinor, flatAmountMinor⟩
    obtain ⟨-, -, bounds⟩ := good
    rw [List.map_cons, List.find?_cons]
    split
    · rfl
    · next uncovered =>
      cases upToQuantity with
      | none => cases uncovered
      | some bound => exact ih bounds.2.2.2 bounds.2.2.1

private theorem tieredNumerator_ok {billable : Nat} (model : TieredModel) (billingUnits unitAmountMinor : Nat)
    {tiers : List Tier} (covered : ∀ billable, (tiers.find? (fun tier => tier.covers billable)).isSome) :
    tieredNumerator model billable billingUnits tiers =
      .ok ((⟨billingUnits, .tiered model, unitAmountMinor, tiers⟩ : PriceTable).numerator billable) := by
  obtain ⟨tier, found⟩ := Option.isSome_iff_exists.mp (covered billable)
  cases model with
  | graduated =>
    simp only [tieredNumerator, PriceTable.numerator]
    split <;> rfl
  | volume =>
    simp only [tieredNumerator, PriceTable.numerator, volumeNumerator, found]
    split <;> rfl

def chargeAt (model : PricingModel) (usage included billingUnits : Text) (unitAmountMinor : Int)
    (tiers : List PriceTier) (scale : Nat) : Except Failure UsageCharge :=
  match model with
  | .flat => calculateUsageCharge usage included billingUnits unitAmountMinor scale
  | .tiered tieredModel => calculateTieredUsageCharge usage included billingUnits tieredModel tiers scale

structure Chargeable (model : PricingModel) (usage included billingUnits : Text) (unitAmountMinor : Int)
    (tiers : List PriceTier) (scale : Nat) : Prop where
  usage : Fits usage scale
  included : Fits included scale
  billing : Fits billingUnits scale
  positive : 0 < worth billingUnits scale
  rate : match model with
    | .flat => 0 ≤ unitAmountMinor
    | .tiered _ => tiers ≠ [] ∧ GoodTiers scale 0 tiers

def tableAt (model : PricingModel) (billingUnits : Text) (unitAmountMinor : Int) (tiers : List PriceTier)
    (scale : Nat) : PriceTable :=
  ⟨worth billingUnits scale, model, unitAmountMinor.toNat, tiers.map (PriceTier.at scale)⟩

section Charge
variable {model : PricingModel} {usage included billingUnits : Text} {unitAmountMinor : Int}
  {tiers : List PriceTier} {scale : Nat}

theorem chargeAt_ok (chargeable : Chargeable model usage included billingUnits unitAmountMinor tiers scale) :
    chargeAt model usage included billingUnits unitAmountMinor tiers scale = .ok {
      usageQuantity := magnitudeToDecimal (worth usage scale) scale
      includedQuantity := magnitudeToDecimal (worth included scale) scale
      billableQuantity := magnitudeToDecimal (billableUnits (worth usage scale) (worth included scale)) scale
      amountMinor :=
        (tableAt model billingUnits unitAmountMinor tiers scale).amount (worth included scale) (worth usage scale) } := by
  obtain ⟨fitsUsage, fitsIncluded, fitsBilling, positive, rate⟩ := chargeable
  match model with
  | .flat =>
    simp only [chargeAt, calculateUsageCharge]
    rw [fitsUsage.read_bind, fitsIncluded.read_bind, fitsBilling.read_bind, if_neg (by omega),
      if_neg (by simp only at rate; omega)]
    simp only [PriceTable.amount, PriceTable.numerator, tableAt, pure, Except.pure, unitsToDecimal_nat, Int.ofNat_eq_natCast]
  | .tiered tieredModel =>
    obtain ⟨some, good⟩ := rate
    simp only [chargeAt, calculateTieredUsageCharge]
    rw [fitsUsage.read_bind, fitsIncluded.read_bind, fitsBilling.read_bind, if_neg (by omega),
      normalizeTiers, if_neg some, normalizeTiersFrom_ok good]
    simp only [bind, Except.bind,
      tieredNumerator_ok tieredModel _ unitAmountMinor.toNat (fun billable => good_covers good some billable)]
    simp only [PriceTable.amount, tableAt, pure, Except.pure, unitsToDecimal_nat, Int.ofNat_eq_natCast]

theorem chargeAt_inv {charge : UsageCharge}
    (charged : chargeAt model usage included billingUnits unitAmountMinor tiers scale = .ok charge) :
    Chargeable model usage included billingUnits unitAmountMinor tiers scale := by
  cases model with
  | flat =>
    simp only [chargeAt, calculateUsageCharge] at charged
    obtain ⟨fitsUsage, charged⟩ := read_inv charged
    obtain ⟨fitsIncluded, charged⟩ := read_inv charged
    obtain ⟨fitsBilling, charged⟩ := read_inv charged
    split at charged
    · cases charged
    · next positive =>
      split at charged
      · cases charged
      · next unit => exact ⟨fitsUsage, fitsIncluded, fitsBilling, by omega, by simp only; omega⟩
  | tiered tieredModel =>
    simp only [chargeAt, calculateTieredUsageCharge] at charged
    obtain ⟨fitsUsage, charged⟩ := read_inv charged
    obtain ⟨fitsIncluded, charged⟩ := read_inv charged
    obtain ⟨fitsBilling, charged⟩ := read_inv charged
    split at charged
    · cases charged
    · next positive =>
      cases normalized : normalizeTiers tiers scale with
      | error failure => simp [normalized, bind, Except.bind] at charged
      | ok result =>
        unfold normalizeTiers at normalized
        split at normalized
        · cases normalized
        · next some =>
          exact ⟨fitsUsage, fitsIncluded, fitsBilling, by omega, some, normalizeTiersFrom_inv normalized⟩

end Charge

/-- A price whose decimals a scale holds charges the same at every finer scale. -/
theorem amount_finer {model : PricingModel} {billingUnits : Text} {unitAmountMinor : Int} {tiers : List PriceTier}
    {scale : Nat} (fits : fractionDigits billingUnits ≤ scale) (positive : 0 < worth billingUnits scale)
    (fine : FineTiers scale tiers) (extra included usage : Nat) :
    (tableAt model billingUnits unitAmountMinor tiers (scale + extra)).amount (included * 10 ^ extra) (usage * 10 ^ extra) =
      (tableAt model billingUnits unitAmountMinor tiers scale).amount included usage := by
  rw [← PriceTable.amount_scaled (Nat.pow_pos (n := extra) (show 0 < 10 by omega)) _ positive included usage]
  simp only [tableAt, PriceTable.scaled, worth_scale fits, tiers_finer fine]

end Quotum.Pricing

namespace Quotum.MeterLimitSpend
open Decimal Pricing CatalogPrice

theorem metered_charge {meterLimit : MeterLimitDecision} {price : MeteredOveragePrice}
    (priced : meterLimit.overagePrice = some price) (usageQuantity : Text) :
    calculateMeteredOverageCharge meterLimit usageQuantity =
      chargeAt price.pricingModel usageQuantity meterLimit.limit price.billingUnits price.unitAmountMinor price.tiers
        meterLimit.creditScale := by
  rcases meterLimit with ⟨creditScale, limit, overagePolicy, overagePrice, unlimited⟩
  rcases price with ⟨pricingModel, billingUnits, unitAmountMinor, currency, tiers⟩
  cases priced
  cases pricingModel with
  | flat => rfl
  | tiered model => rfl

end Quotum.MeterLimitSpend
