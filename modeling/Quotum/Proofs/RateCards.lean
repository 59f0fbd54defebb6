import Quotum.RateCards
import Quotum.General.Outcomes
import Quotum.Proofs.SpendQuotes

/-! A rate card's charge in units: the rates of the units it charges, rounded up once. It rises with the quantity, and a quantity that is
split costs no less. -/

namespace Quotum.Pricing
open Decimal General

def roundedUp (numerator denominator : Nat) : Nat :=
  (numerator + denominator - 1) / denominator

theorem roundedUp_mono (denominator : Nat) {less more : Nat} (below : less ≤ more) : roundedUp less denominator ≤ roundedUp more denominator :=
  Nat.div_le_div_right (by omega)

theorem roundedUp_pos {numerator denominator : Nat} (positive : 0 < denominator) (some : 0 < numerator) :
    0 < roundedUp numerator denominator :=
  Nat.div_pos (by omega) positive

theorem roundedUp_le {numerator denominator bound : Nat} (positive : 0 < denominator) (covered : numerator ≤ bound * denominator) :
    roundedUp numerator denominator ≤ bound := by
  apply Nat.le_of_lt_succ
  apply Nat.div_lt_of_lt_mul
  rw [Nat.mul_succ, Nat.mul_comm]
  omega

theorem le_roundedUp {numerator denominator : Nat} (positive : 0 < denominator) : numerator ≤ roundedUp numerator denominator * denominator := by
  have whole := Nat.div_add_mod (numerator + denominator - 1) denominator
  have rest := Nat.mod_lt (numerator + denominator - 1) positive
  unfold roundedUp
  rw [Nat.mul_comm]
  omega

/-- Parts that are rounded up cost no less than the whole. -/
theorem roundedUp_add (denominator : Nat) (positive : 0 < denominator) (first second : Nat) :
    roundedUp (first + second) denominator ≤ roundedUp first denominator + roundedUp second denominator := by
  apply roundedUp_le positive
  rw [Nat.add_mul]
  exact Nat.add_le_add (le_roundedUp positive) (le_roundedUp positive)

def tierCharge (quantity : Nat) (entry : Nat × RateTier) : Nat :=
  Brackets.share RateTier.upTo quantity entry * entry.2.ratePerUnit

theorem normalizeRateCardTiers_rising {meterScale previous : Nat} {tiers : List RateCardTier} {result : List RateTier}
    (read : normalizeRateCardTiersFrom meterScale previous tiers = .ok result) :
    Brackets.Rising RateTier.upTo previous result ∧ (∀ tier ∈ result, 0 < tier.ratePerUnit) ∧
      result.length = tiers.length := by
  induction tiers generalizing previous result with
  | nil =>
    cases read
    exact ⟨trivial, by simp, rfl⟩
  | cons tier rest ih =>
    rcases tier with ⟨upToQuantity, ratePerUnit⟩
    simp only [normalizeRateCardTiersFrom] at read
    cases upToQuantity with
    | none =>
      simp only [pure_bind] at read
      by_cases last : rest = []
      · subst last
        rw [if_neg (by simp), if_neg (by simp), if_neg (by simp)] at read
        obtain ⟨canonical, -, read⟩ := bind_ok read
        obtain ⟨rate, -, read⟩ := bind_ok read
        split at read
        · cases read
        · next positive =>
          cases read
          exact ⟨rfl, by simpa using Nat.pos_of_ne_zero (by simpa using positive), rfl⟩
      · rw [if_pos ⟨trivial, last⟩] at read
        cases read
    | some bound =>
      simp only [pure_bind] at read
      obtain ⟨fits, next⟩ := read_inv read
      rw [if_neg (by simp)] at next
      split at next
      · cases next
      · next above =>
        split at next
        · cases next
        · next more =>
          obtain ⟨canonical, -, next⟩ := bind_ok next
          obtain ⟨rate, -, next⟩ := bind_ok next
          split at next
          · cases next
          · next positive =>
            obtain ⟨others, later, next⟩ := bind_ok next
            cases next
            obtain ⟨rising, rates, same⟩ := ih later
            refine ⟨⟨by simpa using above, ?_, rising⟩, ?_, by rw [List.length_cons, List.length_cons, same]⟩
            · intro nothing
              rw [nothing] at same
              exact more ⟨List.eq_nil_of_length_eq_zero same.symm, by simp⟩
            · exact List.forall_mem_cons.mpr ⟨Nat.not_le.mp positive, rates⟩

theorem graduatedRate_walk (quantity lowerBound : Nat) (tiers : List RateTier) :
    graduatedRate quantity lowerBound tiers =
      Brackets.walk RateTier.upTo (fun tier units => units * tier.ratePerUnit) quantity lowerBound tiers := by
  induction tiers generalizing lowerBound with
  | nil => rfl
  | cons tier rest ih =>
    have part (upper : Nat) : (if upper > lowerBound then upper - lowerBound else 0) = upper - lowerBound := by
      split <;> omega
    have charged (units : Nat) : (if units > 0 then units * tier.ratePerUnit else 0) = units * tier.ratePerUnit := by
      split
      · rfl
      · next nothing => rw [Nat.eq_zero_of_not_pos nothing, Nat.zero_mul]
    simp only [graduatedRate, Brackets.walk, part, charged, upperBound_ending RateTier.upTo tier quantity, ih]
    split
    · rw [Nat.add_zero]
    · rfl

theorem graduatedRate_sum (quantity : Nat) {tiers : List RateTier} (rising : Brackets.Rising RateTier.upTo 0 tiers) :
    graduatedRate quantity 0 tiers = ((Brackets.placed RateTier.upTo 0 tiers).map (tierCharge quantity)).sum := by
  have free (tier : RateTier) : 0 * tier.ratePerUnit = 0 := Nat.zero_mul _
  rw [graduatedRate_walk]
  exact Brackets.walk_sum free (Nat.zero_le _) rising

theorem graduatedRate_mono {less more : Nat} (below : less ≤ more) (tiers : List RateTier) :
    graduatedRate less 0 tiers ≤ graduatedRate more 0 tiers := by
  have rises (tier : RateTier) : Monotone fun units => units * tier.ratePerUnit :=
    fun _ _ grows => Nat.mul_le_mul_right _ grows
  rw [graduatedRate_walk, graduatedRate_walk]
  exact Brackets.walk_mono rises below 0 tiers

theorem graduatedRate_pos {quantity : Nat} (some_ : 0 < quantity) {tiers : List RateTier}
    (rising : Brackets.Rising RateTier.upTo 0 tiers) (rates : ∀ tier ∈ tiers, 0 < tier.ratePerUnit) (tiered : tiers ≠ []) :
    0 < graduatedRate quantity 0 tiers := by
  cases tiers with
  | nil => exact absurd rfl tiered
  | cons tier rest =>
    have positive := rates tier List.mem_cons_self
    rw [Brackets.Rising] at rising
    have reaches : 0 < upperBound tier.upTo quantity := by
      unfold upperBound
      split
      · exact some_
      · next bound ends =>
        rw [ends] at rising
        split
        · exact some_
        · exact rising.1
    simp only [graduatedRate, Nat.sub_zero, if_pos reaches]
    have charged := Nat.mul_pos reaches positive
    split <;> omega

end Quotum.Pricing

namespace Quotum.RateCards
open Decimal Pricing CatalogPrice Metering General

section Charges
variable {rate : RateDecision}

def denominator (rate : RateDecision) : Nat :=
  10 ^ (rate.meterScale + rateScale - rate.walletScale)

theorem denominator_pos (rate : RateDecision) : 0 < denominator rate :=
  Nat.pow_pos (by omega)

/-- What a rate charges for a quantity in units, before it is rounded. -/
def Rates (rate : RateDecision) (numerator : Nat → Nat) : Prop :=
  match rate.pricingModel with
  | .flat => ∀ quantity, numerator quantity = quantity * worth rate.ratePerUnit rateScale
  | .graduated => ∃ tiers, normalizeRateCardTiers rate.tiers rate.meterScale = .ok tiers ∧
      ∀ quantity, numerator quantity = graduatedRate quantity 0 tiers

theorem charge_text (rate : RateDecision) (numerator : Nat) :
    decimalToUnits (rateNumeratorToQuantity numerator rate.meterScale rate.walletScale) rate.walletScale =
      .ok (roundedUp numerator (denominator rate)) :=
  units_round_trip _ _

theorem charge_inv {text : Text} {units : Nat} (charged : calculateWalletQuantity rate text = .ok units) :
    Fits text rate.meterScale ∧ ∃ numerator, Rates rate numerator ∧ ∀ other, Fits other rate.meterScale →
      calculateWalletQuantity rate other = .ok (roundedUp (numerator (worth other rate.meterScale)) (denominator rate)) := by
  unfold calculateWalletQuantity calculateRateCardQuantity at charged
  obtain ⟨rendered, charged, -⟩ := bind_ok charged
  obtain ⟨fits, charged⟩ := read_inv charged
  refine ⟨fits, ?_⟩
  unfold Rates
  cases model : rate.pricingModel with
  | flat =>
    simp only [model] at charged
    split at charged
    · cases charged
    · next untiered =>
      obtain ⟨rates, -⟩ := read_inv charged
      refine ⟨fun quantity => quantity * worth rate.ratePerUnit rateScale, fun _ => rfl, ?_⟩
      intro other holds
      unfold calculateWalletQuantity calculateRateCardQuantity
      rw [holds.read_bind, model]
      simp only
      rw [if_neg untiered, rates.read_bind, pure_bind]
      exact charge_text rate _
  | graduated =>
    simp only [model] at charged
    obtain ⟨tiers, normalized, -⟩ := bind_ok charged
    refine ⟨fun quantity => graduatedRate quantity 0 tiers, ⟨tiers, normalized, fun _ => rfl⟩, ?_⟩
    intro other holds
    unfold calculateWalletQuantity calculateRateCardQuantity
    rw [holds.read_bind, model]
    simp only [normalized, ok_bind, pure_bind]
    exact charge_text rate _

theorem charge_units {text : Text} {units : Nat} (charged : calculateWalletQuantity rate text = .ok units) :
    ∃ numerator, Rates rate numerator ∧ units = roundedUp (numerator (worth text rate.meterScale)) (denominator rate) := by
  obtain ⟨fits, numerator, rates, charges⟩ := charge_inv charged
  exact ⟨numerator, rates, Except.ok.inj (charged.symm.trans (charges text fits))⟩

theorem normalizeRateCardTiers_inv {meterScale : Nat} {tiers : List RateCardTier} {result : List RateTier}
    (read : normalizeRateCardTiers tiers meterScale = .ok result) :
    Brackets.Rising RateTier.upTo 0 result ∧ (∀ tier ∈ result, 0 < tier.ratePerUnit) ∧ result ≠ [] := by
  unfold normalizeRateCardTiers at read
  split at read
  · cases read
  · next tiered =>
    obtain ⟨rising, rates, same⟩ := normalizeRateCardTiers_rising read
    refine ⟨rising, rates, ?_⟩
    rintro rfl
    exact tiered (List.eq_nil_of_length_eq_zero same.symm)

theorem Rates.mono {numerator : Nat → Nat} (rates : Rates rate numerator) {less more : Nat} (below : less ≤ more) :
    numerator less ≤ numerator more := by
  unfold Rates at rates
  split at rates
  · rw [rates, rates]
    exact Nat.mul_le_mul_right _ below
  · obtain ⟨tiers, -, same⟩ := rates
    rw [same, same]
    exact graduatedRate_mono below tiers

/-- A positive quantity is charged for. A flat rate is positive where it was validated, tiers are checked by the charge itself. -/
theorem Rates.positive {numerator : Nat → Nat} (rates : Rates rate numerator)
    (flat : rate.pricingModel = .flat → 0 < worth rate.ratePerUnit rateScale) {quantity : Nat} (some_ : 0 < quantity) :
    0 < numerator quantity := by
  unfold Rates at rates
  split at rates
  · next model =>
    rw [rates]
    exact Nat.mul_pos some_ (flat model)
  · obtain ⟨tiers, normalized, same⟩ := rates
    obtain ⟨rising, rates, tiered⟩ := normalizeRateCardTiers_inv normalized
    rw [same]
    exact graduatedRate_pos some_ rising rates tiered

end Charges

section Cards
variable {entry : CatalogRateCardIntent} {card : NormalizedRateCard} {row : RateCardRow}

theorem published_rate (validated : normalizeRateCard entry = .ok card) (published : publishRateCard card = .ok row) :
    0 < row.ratePerUnit ∧ row.pricingModel = card.pricingModel := by
  unfold normalizeRateCard at validated
  obtain ⟨tiers, -, validated⟩ := bind_ok validated
  obtain ⟨-, -, validated⟩ := bind_ok validated
  obtain ⟨ratePerUnit, positive, validated⟩ := bind_ok validated
  cases validated
  unfold publishRateCard at published
  obtain ⟨units, reads, published⟩ := bind_ok published
  obtain ⟨rows, -, published⟩ := bind_ok published
  cases published
  exact ⟨positiveDecimal_units positive reads, rfl⟩

/-- What usage is charged by a validated card: less for less, something for anything, no less when a flat quantity is split, and at graduated
rates each unit in exactly one tier. -/
theorem rate_card_charge (validated : normalizeRateCard entry = .ok card) (published : publishRateCard card = .ok row)
    (meterScale wallet walletScale : Nat) :
    (∀ input confirmed reserved less more held, positiveDecimal input "quantity" meterScale = .ok confirmed →
      decimalToUnits confirmed meterScale = .ok less → decimalToUnits reserved meterScale = .ok more → less ≤ more →
        calculateWalletQuantity (rateDecisionFromRow row meterScale wallet walletScale) reserved = .ok held →
          ∃ charge, calculateWalletQuantity (rateDecisionFromRow row meterScale wallet walletScale) confirmed = .ok charge ∧ charge ≤ held) ∧
    (∀ text quantity charge, decimalToUnits text meterScale = .ok quantity → 0 < quantity →
      calculateWalletQuantity (rateDecisionFromRow row meterScale wallet walletScale) text = .ok charge → 0 < charge) ∧
    (card.pricingModel = .flat → ∀ first second whole a b x y z, decimalToUnits first meterScale = .ok a →
      decimalToUnits second meterScale = .ok b → decimalToUnits whole meterScale = .ok (a + b) →
        calculateWalletQuantity (rateDecisionFromRow row meterScale wallet walletScale) first = .ok x →
          calculateWalletQuantity (rateDecisionFromRow row meterScale wallet walletScale) second = .ok y →
            calculateWalletQuantity (rateDecisionFromRow row meterScale wallet walletScale) whole = .ok z → z ≤ x + y) ∧
    (card.pricingModel = .graduated → ∀ text quantity charge, decimalToUnits text meterScale = .ok quantity →
      calculateWalletQuantity (rateDecisionFromRow row meterScale wallet walletScale) text = .ok charge →
        ∃ tiers, normalizeRateCardTiers (readRateCardTiers row) meterScale = .ok tiers ∧
          (∀ unit, 0 < unit → (Brackets.placed RateTier.upTo 0 tiers).countP (Brackets.holds RateTier.upTo unit) = 1) ∧
            charge = roundedUp ((Brackets.placed RateTier.upTo 0 tiers).map (tierCharge quantity)).sum
              (10 ^ (meterScale + rateScale - walletScale))) := by
  obtain ⟨positive, model⟩ := published_rate validated published
  generalize same : rateDecisionFromRow row meterScale wallet walletScale = rate
  obtain rfl : meterScale = rate.meterScale := by rw [← same]; rfl
  refine ⟨?_, ?_, ?_, ?_⟩
  · intro input confirmed reserved less more held parsed readsLess readsMore below charged
    obtain ⟨fits, numerator, rates, charges⟩ := charge_inv charged
    obtain ⟨-, -, rfl⟩ := decimalToUnits_inv readsLess
    obtain ⟨-, -, rfl⟩ := decimalToUnits_inv readsMore
    obtain ⟨holds, -, rfl⟩ := positiveDecimal_inv parsed
    refine ⟨_, charges _ holds.canonical, ?_⟩
    rw [Except.ok.inj (charged.symm.trans (charges reserved fits))]
    exact roundedUp_mono _ (rates.mono below)
  · intro text quantity charge reads some_ charged
    obtain ⟨numerator, rates, rfl⟩ := charge_units charged
    obtain ⟨-, -, rfl⟩ := decimalToUnits_inv reads
    apply roundedUp_pos (denominator_pos rate)
    apply rates.positive _ some_
    intro _
    rw [← same]
    simpa only [rateDecisionFromRow, unitsToDecimal_nat, magnitude_worth] using positive
  · intro flat first second whole a b x y z readsFirst readsSecond readsWhole chargedFirst chargedSecond chargedWhole
    obtain ⟨numerator, rates, rfl⟩ := charge_units chargedWhole
    obtain ⟨other, ratesFirst, rfl⟩ := charge_units chargedFirst
    obtain ⟨another, ratesSecond, rfl⟩ := charge_units chargedSecond
    obtain ⟨-, -, rfl⟩ := decimalToUnits_inv readsFirst
    obtain ⟨-, -, rfl⟩ := decimalToUnits_inv readsSecond
    obtain ⟨-, -, sum⟩ := decimalToUnits_inv readsWhole
    have priced : rate.pricingModel = .flat := by
      rw [← same]
      exact model.trans flat
    unfold Rates at rates ratesFirst ratesSecond
    rw [priced] at rates ratesFirst ratesSecond
    rw [rates, ratesFirst, ratesSecond, ← sum, Nat.add_mul]
    exact roundedUp_add _ (denominator_pos rate) _ _
  · intro graduated text quantity charge reads charged
    obtain ⟨numerator, rates, rfl⟩ := charge_units charged
    obtain ⟨-, -, rfl⟩ := decimalToUnits_inv reads
    have priced : rate.pricingModel = .graduated := by
      rw [← same]
      exact model.trans graduated
    have tiersOf : rate.tiers = readRateCardTiers row := by
      rw [← same] at priced ⊢
      exact if_pos priced
    have scaled : walletScale = rate.walletScale := by
      rw [← same]
      rfl
    unfold Rates at rates
    rw [priced, tiersOf] at rates
    obtain ⟨tiers, normalized, same⟩ := rates
    obtain ⟨rising, -, tiered⟩ := normalizeRateCardTiers_inv normalized
    refine ⟨tiers, normalized, fun unit above => Brackets.placed_once above rising tiered, ?_⟩
    rw [same, graduatedRate_sum _ rising, scaled]
    rfl

def tieredEntry : CatalogRateCardIntent :=
  ⟨['1'], some .graduated, some [⟨some ['1', '0'], ['0', '.', '5']⟩, ⟨none, ['0', '.', '2', '5']⟩]⟩

def tieredRow : RateCardRow :=
  ⟨.graduated, 10 ^ 18, [⟨some (10 ^ 10), 5 * 10 ^ 17⟩, ⟨none, 25 * 10 ^ 16⟩]⟩

theorem rate_card_charge_tiered :
    ∃ charge, calculateWalletQuantity (rateDecisionFromRow tieredRow 0 0 1) ['7'] = .ok charge ∧ charge ≤ 55 := by
  have validated : normalizeRateCard tieredEntry =
      .ok ⟨['1'], .graduated, [⟨some ['1', '0'], ['0', '.', '5']⟩, ⟨none, ['0', '.', '2', '5']⟩]⟩ := by decide
  have published : publishRateCard ⟨['1'], .graduated, [⟨some ['1', '0'], ['0', '.', '5']⟩, ⟨none, ['0', '.', '2', '5']⟩]⟩ =
      .ok tieredRow := by decide
  have confirmed : positiveDecimal ['7'] "quantity" 0 = .ok ['7'] := by decide
  have less : decimalToUnits ['7'] 0 = .ok 7 := by decide
  have more : decimalToUnits ['1', '2'] 0 = .ok 12 := by decide
  have held : calculateWalletQuantity (rateDecisionFromRow tieredRow 0 0 1) ['1', '2'] = .ok 55 := by decide
  exact (rate_card_charge validated published 0 0 1).1 _ _ _ _ _ _ confirmed less more (by decide) held

end Cards

end Quotum.RateCards
