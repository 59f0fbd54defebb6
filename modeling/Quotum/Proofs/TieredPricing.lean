import Quotum.Proofs.SpendQuotes

/-! A tiered charge is the exact total of its tiers, rounded half up once. -/

namespace Quotum.Pricing
open Decimal General MeterLimitSpend

def unitsValue (units scale : Nat) : ℚ :=
  units / 10 ^ scale

/-- What a quantity costs in one tier: the tier's price for each billing unit, and its flat amount once the tier is entered. -/
def tierTotal (billingUnits : ℚ) (tier : Tier) (quantity : ℚ) : ℚ :=
  quantity / billingUnits * tier.unitAmountMinor + if 0 < quantity then tier.flatAmountMinor else 0

section Totals
variable {billingUnits : Nat}

private theorem roundedAmount_half (numerator : Nat) (positive : 0 < billingUnits) :
    (roundedAmount numerator billingUnits : Int) = ⌊(numerator / billingUnits : ℚ) + 1 / 2⌋ := by
  have doubled : (numerator / billingUnits : ℚ) + 1 / 2 = ((2 * numerator + billingUnits : Nat) : ℚ) / ((2 * billingUnits : Nat) : ℚ) := by
    have nonzero : (billingUnits : ℚ) ≠ 0 := by exact_mod_cast positive.ne'
    push_cast
    field_simp
  have halved : (2 * numerator + billingUnits) / 2 = numerator + billingUnits / 2 := by omega
  rw [doubled, Rat.floor_natCast_div_natCast, ← Int.natCast_div, ← Nat.div_div_eq_div_mul, halved]
  rfl

private theorem unitsValue_pos {units scale : Nat} : 0 < unitsValue units scale ↔ 0 < units := by
  have power : (0 : ℚ) < 10 ^ scale := by positivity
  rw [unitsValue, div_pos_iff_of_pos_right power, Nat.cast_pos]

private theorem unitsValue_div (scale units : Nat) : unitsValue units scale / unitsValue billingUnits scale = units / billingUnits := by
  have power : (10 ^ scale : ℚ) ≠ 0 := by positivity
  exact div_div_div_cancel_right₀ power _ _

private theorem Tier.charge_total (positive : 0 < billingUnits) (scale : Nat) (tier : Tier) {quantity : Nat} (entered : 0 < quantity) :
    (tier.charge quantity billingUnits / billingUnits : ℚ) =
      tierTotal (unitsValue billingUnits scale) tier (unitsValue quantity scale) := by
  have nonzero : (billingUnits : ℚ) ≠ 0 := by exact_mod_cast positive.ne'
  rw [tierTotal, if_pos (unitsValue_pos.mpr entered), unitsValue_div, Tier.charge]
  push_cast
  field_simp

private theorem Tier.asks_total (positive : 0 < billingUnits) (scale : Nat) (tier : Tier) (quantity : Nat) :
    (tier.asks billingUnits quantity / billingUnits : ℚ) =
      tierTotal (unitsValue billingUnits scale) tier (unitsValue quantity scale) := by
  by_cases entered : 0 < quantity
  · rw [Tier.asks, if_pos entered, tier.charge_total positive scale entered]
  · obtain rfl := Nat.eq_zero_of_not_pos entered
    rw [Tier.asks, if_neg entered, tierTotal, if_neg (fun some_ => entered (unitsValue_pos.mp some_)), unitsValue_div]
    simp

private theorem sum_total (positive : 0 < billingUnits) (scale billable : Nat) (entries : List (Nat × Tier)) :
    (((entries.map fun entry => Tier.asks billingUnits entry.2 (Brackets.share Tier.upTo billable entry)).sum : Nat) / billingUnits : ℚ) =
      (entries.map fun entry =>
        tierTotal (unitsValue billingUnits scale) entry.2 (unitsValue (Brackets.share Tier.upTo billable entry) scale)).sum := by
  induction entries with
  | nil => simp
  | cons entry rest ih =>
    rw [List.map_cons, List.sum_cons, List.map_cons, List.sum_cons, Nat.cast_add, add_div, ih, entry.2.asks_total positive scale]

end Totals

theorem GoodTiers.rising {scale previous : Nat} {tiers : List PriceTier} (good : GoodTiers scale previous tiers) :
    Brackets.Rising Tier.upTo previous (tiers.map (PriceTier.at scale)) := by
  induction tiers generalizing previous with
  | nil => trivial
  | cons tier rest ih =>
    obtain ⟨-, -, bounds⟩ := good
    rw [List.map_cons, Brackets.Rising]
    cases ends : tier.upToQuantity with
    | none =>
      rw [ends] at bounds
      rw [bounds, PriceTier.at, ends]
      rfl
    | some bound =>
      rw [ends] at bounds
      obtain ⟨-, above, more, later⟩ := bounds
      rw [PriceTier.at, ends]
      refine ⟨above, ?_, ih later⟩
      rwa [Ne, List.map_eq_nil_iff]

/-- What a charge of a tier table is: its billable quantity, the tiers that hold it, and the one rounding of their exact total. -/
structure TieredCharge (usage included billingUnits : Text) (model : TieredModel) (tiers : List Tier) (scale : Nat)
    (charge : UsageCharge) : Prop where
  billable : charge.billableQuantity = magnitudeToDecimal (worth usage scale - worth included scale) scale
  rising : Brackets.Rising Tier.upTo 0 tiers
  /-- Each unit is in exactly one tier. -/
  once : ∀ unit, 0 < unit → (Brackets.placed Tier.upTo 0 tiers).countP (Brackets.holds Tier.upTo unit) = 1
  covered : ∀ billable units, ∃ numerator, tieredNumerator model billable units tiers = .ok numerator
  free : worth usage scale ≤ worth included scale → charge.amountMinor = 0
  graduated : model = .graduated → charge.amountMinor = ⌊((Brackets.placed Tier.upTo 0 tiers).map fun entry =>
    tierTotal (unitsValue (worth billingUnits scale) scale) entry.2
      (unitsValue (Brackets.share Tier.upTo (worth usage scale - worth included scale) entry) scale)).sum + 1 / 2⌋
  volume : model = .volume → worth included scale < worth usage scale → ∃ entry ∈ Brackets.placed Tier.upTo 0 tiers,
    Brackets.holds Tier.upTo (worth usage scale - worth included scale) entry = true ∧
      charge.amountMinor = ⌊tierTotal (unitsValue (worth billingUnits scale) scale) entry.2
        (unitsValue (worth usage scale - worth included scale) scale) + 1 / 2⌋

section Numerators
variable {tiers : List Tier}

private theorem covers_all (billable : Nat) (tier : Tier) : tier.covers billable = tier.upTo.all fun bound => decide (billable ≤ bound) := by
  rw [Tier.covers]
  cases tier.upTo with
  | none => rfl
  | some bound => rfl

private theorem covering_tier (rising : Brackets.Rising Tier.upTo 0 tiers) (some_ : tiers ≠ []) {billable : Nat} (used : 0 < billable) :
    ∃ entry ∈ Brackets.placed Tier.upTo 0 tiers, Brackets.holds Tier.upTo billable entry = true ∧
      (tiers.find? fun tier => tier.covers billable) = some entry.2 := by
  simp only [covers_all]
  exact Brackets.placed_find used rising some_

private theorem tieredNumerator_covered (rising : Brackets.Rising Tier.upTo 0 tiers) (some_ : tiers ≠ []) (model : TieredModel)
    (billable billingUnits : Nat) : ∃ numerator, tieredNumerator model billable billingUnits tiers = .ok numerator := by
  by_cases used : billable > 0
  · cases model with
    | graduated => exact ⟨_, if_pos used⟩
    | volume =>
      obtain ⟨entry, -, -, found⟩ := covering_tier rising some_ used
      have charged : volumeNumerator billable billingUnits tiers = .ok (entry.2.charge billable billingUnits) := by
        rw [volumeNumerator, found]
      exact ⟨_, (if_pos used).trans charged⟩
  · cases model with
    | graduated | volume => exact ⟨_, if_neg used⟩

end Numerators

private theorem graduatedNumerator_total {tiers : List Tier} (rising : Brackets.Rising Tier.upTo 0 tiers) {billingUnits : Nat}
    (positive : 0 < billingUnits) (scale billable : Nat) :
    (graduatedNumerator billable billingUnits 0 tiers / billingUnits : ℚ) =
      ((Brackets.placed Tier.upTo 0 tiers).map fun entry =>
        tierTotal (unitsValue billingUnits scale) entry.2 (unitsValue (Brackets.share Tier.upTo billable entry) scale)).sum := by
  have free (tier : Tier) : tier.asks billingUnits 0 = 0 := if_neg (Nat.lt_irrefl 0)
  rw [graduatedNumerator_walk, Brackets.walk_sum free (Nat.zero_le _) rising]
  exact sum_total positive scale billable _

section Charges
variable {usage included billingUnits : Text} {model : TieredModel} {priceTiers : List PriceTier} {scale : Nat} {charge : UsageCharge}

private theorem tableAt_amount (positive : 0 < worth billingUnits scale) (included usage : Nat) :
    ((tableAt (.tiered model) billingUnits 0 priceTiers scale).amount included usage : Int) =
      ⌊((tableAt (.tiered model) billingUnits 0 priceTiers scale).numerator (usage - included) / worth billingUnits scale : ℚ) + 1 / 2⌋ := by
  rw [PriceTable.amount, billable_sub]
  exact roundedAmount_half _ positive

private theorem tieredCharge_of (chargeable : Chargeable (.tiered model) usage included billingUnits 0 priceTiers scale) :
    TieredCharge usage included billingUnits model (priceTiers.map (PriceTier.at scale)) scale {
      usageQuantity := magnitudeToDecimal (worth usage scale) scale
      includedQuantity := magnitudeToDecimal (worth included scale) scale
      billableQuantity := magnitudeToDecimal (billableUnits (worth usage scale) (worth included scale)) scale
      amountMinor := (tableAt (.tiered model) billingUnits 0 priceTiers scale).amount (worth included scale) (worth usage scale) } := by
  obtain ⟨some_, good⟩ := chargeable.rate
  have rising := good.rising
  have tiered : priceTiers.map (PriceTier.at scale) ≠ [] := by rwa [Ne, List.map_eq_nil_iff]
  have positive := chargeable.positive
  exact {
    billable := by rw [billable_sub]
    rising
    once := fun unit above => Brackets.placed_once above rising tiered
    covered := tieredNumerator_covered rising tiered model
    free := by
      intro covered
      have nothing : (tableAt (.tiered model) billingUnits 0 priceTiers scale).numerator 0 = 0 := by
        cases model with
        | graduated | volume => rfl
      rw [tableAt_amount positive, Nat.sub_eq_zero_of_le covered, nothing, Nat.cast_zero, zero_div, zero_add]
      norm_num
    graduated := by
      rintro rfl
      have free (tier : Tier) : tier.asks (worth billingUnits scale) 0 = 0 := if_neg (Nat.lt_irrefl 0)
      have numerator (billable : Nat) : (tableAt (.tiered .graduated) billingUnits 0 priceTiers scale).numerator billable =
          graduatedNumerator billable (worth billingUnits scale) 0 (priceTiers.map (PriceTier.at scale)) := by
        by_cases used : billable > 0
        · exact if_pos used
        · rw [Nat.eq_zero_of_not_pos used, graduatedNumerator_walk, Brackets.walk_nothing free]
          rfl
      rw [tableAt_amount positive, numerator, graduatedNumerator_total rising positive scale]
    volume := by
      rintro rfl above
      have used := Nat.sub_pos_of_lt above
      obtain ⟨entry, member, held, found⟩ := covering_tier rising tiered used
      have numerator : (tableAt (.tiered .volume) billingUnits 0 priceTiers scale).numerator (worth usage scale - worth included scale) =
          entry.2.charge (worth usage scale - worth included scale) (worth billingUnits scale) := by
        simp only [PriceTable.numerator, tableAt, if_pos used, found, Option.map_some, Option.getD_some]
      refine ⟨entry, member, held, ?_⟩
      rw [tableAt_amount positive, numerator, entry.2.charge_total positive scale used] }

/-- A tiered charge is what its table says: the exact total over the tiers for a graduated price, and of the one tier that holds the
quantity for a volume price, rounded half up. Another usage is charged by the same table, and more usage costs no less when it is
graduated. A meter limit's overage is charged so. -/
theorem tiered_charge :
    (∀ usage included billingUnits model priceTiers scale charge,
      calculateTieredUsageCharge usage included billingUnits model priceTiers scale = .ok charge →
        (∃ tiers, normalizeTiers priceTiers scale = .ok tiers ∧
          TieredCharge usage included billingUnits model tiers scale charge) ∧
        ∀ more, Fits more scale → ∃ next,
          calculateTieredUsageCharge more included billingUnits model priceTiers scale = .ok next ∧
            (model = .graduated → worth usage scale ≤ worth more scale → charge.amountMinor ≤ next.amountMinor)) ∧
    ∀ meterLimit price model usage, meterLimit.overagePrice = some price → price.pricingModel = .tiered model →
      calculateMeteredOverageCharge meterLimit usage =
        calculateTieredUsageCharge usage meterLimit.limit price.billingUnits model price.tiers meterLimit.creditScale := by
  refine ⟨?_, ?_⟩
  · intro usage included billingUnits model priceTiers scale charge charged
    have chargeable : Chargeable (.tiered model) usage included billingUnits 0 priceTiers scale := chargeAt_inv charged
    obtain ⟨some_, good⟩ := chargeable.rate
    have computed := charged.symm.trans (chargeAt_ok chargeable)
    cases computed
    refine ⟨⟨_, ?_, tieredCharge_of chargeable⟩, ?_⟩
    · rw [normalizeTiers, if_neg some_, normalizeTiersFrom_ok good]
    · intro more fits
      refine ⟨_, chargeAt_ok (chargeable.usage_other fits), ?_⟩
      rintro rfl below
      have billable : worth usage scale - worth included scale ≤ worth more scale - worth included scale :=
        Nat.sub_le_sub_right below _
      simp only [PriceTable.amount, billable_sub]
      apply Int.ofNat_le.mpr
      apply roundedAmount_mono
      apply PriceTable.numerator_mono _ billable
      rintro ⟨⟩
  · intro meterLimit price model usage priced tiered
    rw [metered_charge priced, tiered]
    rfl

end Charges

def twoTiers : List PriceTier :=
  [⟨some ['1', '0'], 1, some 100⟩, ⟨none, 3, some 7⟩]

theorem tiered_charge_two : ∃ charge tiers, calculateTieredUsageCharge ['2', '2'] ['2'] ['4'] .graduated twoTiers 2 = .ok charge ∧
    TieredCharge ['2', '2'] ['2'] ['4'] .graduated tiers 2 charge ∧ charge.amountMinor = 117 := by
  have charged : calculateTieredUsageCharge ['2', '2'] ['2'] ['4'] .graduated twoTiers 2 =
      .ok ⟨['2', '2'], ['2'], ['2', '0'], 117⟩ := by decide
  obtain ⟨⟨tiers, -, described⟩, -⟩ := tiered_charge.1 _ _ _ _ _ _ _ charged
  exact ⟨_, tiers, charged, described, rfl⟩

end Quotum.Pricing
