import Quotum.General.Brackets
import Quotum.General.Outcomes
import Quotum.Proofs.Pricing

/-! The quote of a reservation covers what any part of it is confirmed for. A flat or graduated charge rises with the usage. A volume
charge rises within a tier only, so the quote also looks at the bounds it may stop below. -/

namespace Quotum.Pricing
open Decimal General

variable {less more : Nat}

theorem roundedAmount_mono (billingUnits : Nat) (below : less ≤ more) :
    roundedAmount less billingUnits ≤ roundedAmount more billingUnits :=
  Nat.div_le_div_right (Nat.add_le_add_right below _)

private theorem Tier.charge_mono (tier : Tier) (billingUnits : Nat) (below : less ≤ more) :
    tier.charge less billingUnits ≤ tier.charge more billingUnits :=
  Nat.add_le_add_right (Nat.mul_le_mul_right _ below) _

theorem upperBound_ending {α : Type} (upTo : α → Option Nat) (row : α) (quantity : Nat) :
    upperBound (upTo row) quantity = Brackets.ending upTo quantity row := by
  rw [Brackets.ending]
  cases upTo row with
  | none => rfl
  | some bound =>
    simp only [upperBound, Option.elim_some]
    split <;> omega

def Tier.asks (billingUnits : Nat) (tier : Tier) (quantity : Nat) : Nat :=
  if quantity > 0 then tier.charge quantity billingUnits else 0

private theorem Tier.asks_mono (billingUnits : Nat) (tier : Tier) : Monotone (tier.asks billingUnits) := by
  intro less more below
  unfold Tier.asks
  split
  · rw [if_pos (by omega)]
    exact tier.charge_mono billingUnits below
  · exact Nat.zero_le _

theorem graduatedNumerator_walk (billable billingUnits lowerBound : Nat) (tiers : List Tier) :
    graduatedNumerator billable billingUnits lowerBound tiers =
      Brackets.walk Tier.upTo (Tier.asks billingUnits) billable lowerBound tiers := by
  induction tiers generalizing lowerBound with
  | nil => rfl
  | cons tier rest ih =>
    have part (upper : Nat) : (if upper > lowerBound then upper - lowerBound else 0) = upper - lowerBound := by
      split <;> omega
    simp only [graduatedNumerator, Brackets.walk, part, upperBound_ending Tier.upTo tier billable, ih]
    rw [← Tier.asks]
    split
    · rw [Nat.add_zero]
    · rfl

/-- A graduated charge never falls, whatever the tiers. -/
private theorem graduatedNumerator_mono (billingUnits : Nat) (below : less ≤ more) (lowerBound : Nat) (tiers : List Tier) :
    graduatedNumerator less billingUnits lowerBound tiers ≤ graduatedNumerator more billingUnits lowerBound tiers := by
  rw [graduatedNumerator_walk, graduatedNumerator_walk]
  exact Brackets.walk_mono (Tier.asks_mono billingUnits) below lowerBound tiers

/-- A flat or graduated charge never falls. -/
theorem PriceTable.numerator_mono {table : PriceTable} (rising : table.model ≠ .tiered .volume) (below : less ≤ more) :
    table.numerator less ≤ table.numerator more := by
  unfold PriceTable.numerator
  split
  · exact Nat.mul_le_mul_right _ below
  · split
    · rw [if_pos (by omega)]
      exact graduatedNumerator_mono _ below 0 _
    · exact Nat.zero_le _
  · next volume => exact absurd volume rising

/-- A volume charge that a larger quantity does not cover is covered by the bound of its own tier, which comes before. -/
private theorem PriceTable.numerator_peak {table : PriceTable} (volume : table.model = .tiered .volume) (below : less ≤ more) :
    table.numerator less ≤ table.numerator more ∨
      ∃ tier ∈ table.tiers, ∃ bound, tier.upTo = some bound ∧ less ≤ bound ∧ bound < more ∧ table.numerator less ≤ table.numerator bound := by
  unfold PriceTable.numerator
  rw [volume]
  simp only
  by_cases some_ : less > 0
  · rw [if_pos some_, if_pos (show more > 0 by omega)]
    cases found : table.tiers.find? fun tier => tier.covers less with
    | none => exact .inl (Nat.zero_le _)
    | some tier =>
      obtain ⟨covers, before, after, split, others⟩ := List.find?_eq_some_iff_append.mp found
      -- the tiers in front end below the smaller quantity
      have first {quantity : Nat} (reaches : less ≤ quantity) (covered : tier.covers quantity = true) :
          (table.tiers.find? fun tier => tier.covers quantity) = some tier := by
        refine List.find?_eq_some_iff_append.mpr ⟨covered, before, after, split, ?_⟩
        intro other inside
        have passed := others other inside
        unfold Tier.covers at passed ⊢
        cases ending : other.upTo with
        | none => simp [ending] at passed
        | some bound =>
          simp only [ending, Bool.not_eq_true', decide_eq_false_iff_not] at passed ⊢
          omega
      by_cases still : tier.covers more = true
      · left
        rw [first below still]
        exact tier.charge_mono _ below
      · right
        cases ending : tier.upTo with
        | none => simp [Tier.covers, ending] at still
        | some bound =>
          simp only [Tier.covers, ending, decide_eq_true_eq] at still covers
          have member : tier ∈ table.tiers := by simp [split]
          refine ⟨tier, member, bound, ending, covers, by omega, ?_⟩
          rw [if_pos (by omega), first covers (by simp [Tier.covers, ending])]
          exact tier.charge_mono _ covers
  · rw [if_neg some_]
    exact .inl (Nat.zero_le _)

/-- The same price charges any other usage that the scale can hold. -/
theorem Chargeable.usage_other {model : PricingModel} {usage other included billingUnits : Text} {unitAmountMinor : Int}
    {tiers : List PriceTier} {scale : Nat} (chargeable : Chargeable model usage included billingUnits unitAmountMinor tiers scale)
    (fits : Fits other scale) : Chargeable model other included billingUnits unitAmountMinor tiers scale :=
  ⟨fits, chargeable.included, chargeable.billing, chargeable.positive, chargeable.rate⟩

end Quotum.Pricing

namespace Quotum.MeterLimitSpend
open Decimal Pricing CatalogPrice General

variable {text : Text}

section Charges
variable {meterLimit : MeterLimitDecision} {price : MeteredOveragePrice} {charge : UsageCharge}

def MeterLimitDecision.table (meterLimit : MeterLimitDecision) (price : MeteredOveragePrice) : PriceTable :=
  tableAt price.pricingModel price.billingUnits price.unitAmountMinor price.tiers meterLimit.creditScale

def MeterLimitDecision.amountOf (meterLimit : MeterLimitDecision) (price : MeteredOveragePrice) (usage : Nat) : Nat :=
  (meterLimit.table price).amount (worth meterLimit.limit meterLimit.creditScale) usage

/-- A usage that is charged can be, and so can every smaller one. -/
private theorem charged_below (priced : meterLimit.overagePrice = some price)
    (charged : calculateMeteredOverageCharge meterLimit text = .ok charge) {units : Nat}
    (below : units ≤ worth text meterLimit.creditScale) :
    ∃ other, calculateMeteredOverageCharge meterLimit (unitsToDecimal units meterLimit.creditScale) = .ok other ∧
      other.amountMinor = meterLimit.amountOf price units := by
  rw [metered_charge priced] at charged
  have chargeable := chargeAt_inv charged
  have fits : Fits (unitsToDecimal units meterLimit.creditScale) meterLimit.creditScale := by
    rw [unitsToDecimal_nat]
    exact magnitude_holds (below.trans_lt chargeable.usage.worth_lt)
  refine ⟨_, (metered_charge priced _).trans (chargeAt_ok (chargeable.usage_other fits)), ?_⟩
  rw [unitsToDecimal_nat, magnitude_worth]
  rfl

private theorem charged_amount (priced : meterLimit.overagePrice = some price)
    (charged : calculateMeteredOverageCharge meterLimit text = .ok charge) :
    charge.amountMinor = meterLimit.amountOf price (worth text meterLimit.creditScale) := by
  rw [metered_charge priced] at charged
  rw [chargeAt_ok (chargeAt_inv charged)] at charged
  cases charged
  rfl

private theorem charged_units (priced : meterLimit.overagePrice = some price) {units : Nat}
    (charged : calculateMeteredOverageCharge meterLimit (unitsToDecimal units meterLimit.creditScale) = .ok charge) :
    charge.amountMinor = meterLimit.amountOf price units := by
  have amount := charged_amount priced charged
  rwa [unitsToDecimal_nat, magnitude_worth] at amount

private theorem amountOf_mono (rising : price.pricingModel ≠ .tiered .volume) (below : less ≤ more) :
    meterLimit.amountOf price less ≤ meterLimit.amountOf price more := by
  apply roundedAmount_mono
  apply PriceTable.numerator_mono rising
  rw [billable_sub, billable_sub]
  omega

/-- A usage under a volume price costs no more than the last one, or than one at the bound of its tier before it. -/
private theorem amountOf_peak (volume : price.pricingModel = .tiered .volume) {included : Nat}
    (reads : decimalToUnits meterLimit.limit meterLimit.creditScale = .ok included) (below : less ≤ more) :
    meterLimit.amountOf price less ≤ meterLimit.amountOf price more ∨
      ∃ tier ∈ price.tiers, ∃ text, tier.upToQuantity = some text ∧ less ≤ included + worth text meterLimit.creditScale ∧
        included + worth text meterLimit.creditScale < more ∧
          meterLimit.amountOf price less ≤ meterLimit.amountOf price (included + worth text meterLimit.creditScale) := by
  obtain ⟨-, -, rfl⟩ := decimalToUnits_inv reads
  have wider : billableUnits less (worth meterLimit.limit meterLimit.creditScale) ≤
      billableUnits more (worth meterLimit.limit meterLimit.creditScale) := by
    rw [billable_sub, billable_sub]
    omega
  have table : (meterLimit.table price).model = .tiered .volume := volume
  rcases PriceTable.numerator_peak table wider with whole | ⟨tier, member, bound, ends, within, before, covered⟩
  · exact .inl (roundedAmount_mono _ whole)
  · right
    obtain ⟨priceTier, inside, rfl⟩ := List.mem_map.mp member
    obtain ⟨text, named, rfl⟩ := Option.map_eq_some_iff.mp ends
    rw [billable_sub] at within before
    refine ⟨priceTier, inside, text, named, by omega, by omega, roundedAmount_mono _ ?_⟩
    rw [billable_sub (_ + _), Nat.add_sub_cancel_left]
    exact covered

end Charges

section Quotes
variable {meterLimit : MeterLimitDecision}

/-- The bounds of tiers between the committed usage and the last one are among the candidates. -/
private theorem spendCandidates_mem {included current last scale : Nat} {tiers : List PriceTier} {boundaries : List Nat}
    (found : spendCandidates included current last scale tiers = .ok boundaries) {tier : PriceTier} (member : tier ∈ tiers)
    (ends : tier.upToQuantity = some text) (above : current < included + worth text scale) (before : included + worth text scale < last) :
    included + worth text scale ∈ boundaries := by
  induction tiers generalizing boundaries with
  | nil => cases member
  | cons first rest ih =>
    unfold spendCandidates at found
    split at found
    · next open_ =>
      rcases List.mem_cons.mp member with rfl | later
      · rw [open_] at ends
        cases ends
      · exact ih found later
    · next bound bounded =>
      obtain ⟨units, reads, found⟩ := bind_ok found
      obtain ⟨others, rests, found⟩ := bind_ok found
      cases found
      rcases List.mem_cons.mp member with rfl | later
      · obtain rfl := Option.some.inj (bounded.symm.trans ends)
        obtain ⟨-, -, rfl⟩ := decimalToUnits_inv reads
        rw [if_pos ⟨above, before⟩]
        exact List.mem_cons_self
      · have kept := ih rests later
        split
        · exact List.mem_cons_of_mem _ kept
        · exact kept

private theorem maximumCharge_covers {start maximum : Int} {candidates : List Nat}
    (found : maximumCharge meterLimit start candidates = .ok maximum) : start ≤ maximum ∧ ∀ candidate ∈ candidates, ∃ charge,
      calculateMeteredOverageCharge meterLimit (unitsToDecimal candidate meterLimit.creditScale) = .ok charge ∧
        charge.amountMinor ≤ maximum := by
  induction candidates generalizing start with
  | nil =>
    cases found
    exact ⟨le_rfl, nofun⟩
  | cons first rest ih =>
    unfold maximumCharge at found
    obtain ⟨charge, charged, found⟩ := bind_ok found
    obtain ⟨above, covers⟩ := ih found
    have kept : start ≤ maximum ∧ charge.amountMinor ≤ maximum := by
      split at above <;> omega
    refine ⟨kept.1, ?_⟩
    intro candidate member
    rcases List.mem_cons.mp member with rfl | later
    · exact ⟨charge, charged, kept.2⟩
    · exact covers candidate later

/-- The spend of a part of a quantity, when the quote starts from the same usage. -/
private theorem delta_of {price : MeteredOveragePrice} (priced : meterLimit.overagePrice = some price) {consumed confirmed : Text}
    {current part : Nat} (reads : decimalToUnits consumed meterLimit.creditScale = .ok current)
    (readsPart : decimalToUnits confirmed meterLimit.creditScale = .ok part) {charge : UsageCharge}
    (charged : calculateMeteredOverageCharge meterLimit text = .ok charge) (below : current + part ≤ worth text meterLimit.creditScale) :
    ∃ delta, meterLimitSpendDelta meterLimit consumed confirmed = .ok delta ∧
      delta.spendMinorDelta = meterLimit.amountOf price (current + part) - meterLimit.amountOf price current ∧
        delta.currency = some price.currency := by
  obtain ⟨before, chargedBefore, same⟩ := charged_below priced charged (show current ≤ _ by omega)
  obtain ⟨after, chargedAfter, sameAfter⟩ := charged_below priced charged below
  unfold meterLimitSpendDelta
  rw [priced]
  simp only [reads, readsPart, chargedBefore, chargedAfter, ok_bind]
  exact ⟨_, rfl, by rw [same, sameAfter], rfl⟩

/-- A quote with nothing else on hold covers the spend of every part of the reserved quantity that is confirmed, in the same currency. -/
theorem quote_covers_settlement {consumed held reserved confirmed : Text} {quote : SpendDelta} {quantity part : Nat}
    (quoted : meterLimitReservationSpend meterLimit consumed held reserved = .ok quote)
    (free : decimalToUnits held meterLimit.creditScale = .ok 0)
    (readsReserved : decimalToUnits reserved meterLimit.creditScale = .ok quantity)
    (readsConfirmed : decimalToUnits confirmed meterLimit.creditScale = .ok part) (within : part ≤ quantity) :
    ∃ delta, meterLimitSpendDelta meterLimit consumed confirmed = .ok delta ∧ delta.spendMinorDelta ≤ quote.spendMinorDelta ∧
      delta.currency = quote.currency := by
  unfold meterLimitReservationSpend at quoted
  cases priced : meterLimit.overagePrice with
  | none =>
    simp only [priced] at quoted
    obtain ⟨current, -, quoted⟩ := bind_ok quoted
    obtain ⟨holds, -, quoted⟩ := bind_ok quoted
    simp only [meterLimitSpendDelta, priced] at quoted ⊢
    cases quoted
    exact ⟨_, rfl, le_rfl, rfl⟩
  | some price =>
    simp only [priced] at quoted
    split at quoted
    · next volume =>
      obtain ⟨current, reads, quoted⟩ := bind_ok quoted
      obtain ⟨reservedUnits, again, quoted⟩ := bind_ok quoted
      obtain rfl := Except.ok.inj (readsReserved.symm.trans again)
      obtain ⟨included, readsLimit, quoted⟩ := bind_ok quoted
      obtain ⟨charge, charged, quoted⟩ := bind_ok quoted
      obtain ⟨boundaries, bounded, quoted⟩ := bind_ok quoted
      obtain ⟨maximum, highest, quoted⟩ := bind_ok quoted
      cases quoted
      obtain ⟨above, covers⟩ := maximumCharge_covers highest
      obtain ⟨last, chargedLast, below⟩ := covers _ List.mem_cons_self
      have start := charged_amount priced charged
      rw [← (decimalToUnits_inv reads).2.2] at start
      have ends := charged_units priced chargedLast
      obtain ⟨delta, settled, spends, currency⟩ := delta_of priced reads readsConfirmed chargedLast (by
        rw [unitsToDecimal_nat, magnitude_worth]
        omega)
      refine ⟨delta, settled, ?_, currency⟩
      dsimp only
      rcases amountOf_peak volume readsLimit (show current + part ≤ current + quantity by omega) with
        whole | ⟨tier, member, text, named, reaches, before, peak⟩
      · omega
      · by_cases ahead : current < included + worth text meterLimit.creditScale
        · obtain ⟨other, chargedOther, lower⟩ := covers _ (List.mem_cons_of_mem _ (spendCandidates_mem bounded member named ahead before))
          have amount := charged_units priced chargedOther
          omega
        · -- a bound that is not ahead of the committed usage leaves nothing to confirm
          have nothing : current + part = current := by omega
          rw [nothing] at spends
          omega
    · next rising =>
      obtain ⟨current, reads, quoted⟩ := bind_ok quoted
      obtain ⟨holds, again, quoted⟩ := bind_ok quoted
      obtain rfl := Except.ok.inj (free.symm.trans again)
      have units : decimalToUnits (unitsToDecimal (current + 0 : Nat) meterLimit.creditScale) meterLimit.creditScale = .ok current :=
        units_round_trip _ _
      unfold meterLimitSpendDelta at quoted
      simp only [priced, units, readsReserved, ok_bind] at quoted
      obtain ⟨before, chargedBefore, quoted⟩ := bind_ok quoted
      obtain ⟨after, chargedAfter, quoted⟩ := bind_ok quoted
      cases quoted
      obtain ⟨delta, settled, spends, currency⟩ := delta_of priced reads readsConfirmed chargedAfter (by
        rw [unitsToDecimal_nat, magnitude_worth]
        omega)
      refine ⟨delta, settled, ?_, currency⟩
      have first := charged_units priced chargedBefore
      have last := charged_units priced chargedAfter
      have grows : meterLimit.amountOf price (current + part) ≤ meterLimit.amountOf price (current + quantity) :=
        amountOf_mono rising (by omega)
      dsimp only
      omega

/-- A volume price that falls from ten to one after five units over an allowance of two. -/
def fallingLimit : MeterLimitDecision :=
  ⟨0, ['2'], .allowed, some ⟨.tiered .volume, ['1'], 0, "EUR", [⟨some ['5'], 10, none⟩, ⟨none, 1, none⟩]⟩, false⟩

theorem quote_covers_settlement_falling : ∃ delta, meterLimitSpendDelta fallingLimit ['0'] ['7'] = .ok delta ∧
    delta.spendMinorDelta ≤ 50 ∧ delta.currency = some "EUR" := by
  have quoted : meterLimitReservationSpend fallingLimit ['0'] ['0'] ['1', '0'] = .ok ⟨50, some "EUR"⟩ := by decide
  have reserved : decimalToUnits ['1', '0'] fallingLimit.creditScale = .ok 10 := by decide
  have confirmed : decimalToUnits ['7'] fallingLimit.creditScale = .ok 7 := by decide
  exact quote_covers_settlement quoted (by decide) reserved confirmed (by decide)

end Quotes

end Quotum.MeterLimitSpend
