import Quotum.CadenceRules
import Quotum.Pricing

/-! Prices of Checkout lines with a discount code: a percentage rounds each line, a fixed amount is split across the lines in proportion. -/

namespace Quotum.CommercialPricing
open Decimal Pricing Cadences

/-- The double nearest to a whole number, the even one of two that are as near. Every whole number up to 2^53 is one itself. -/
def toNumber (value : Nat) : Nat :=
  if value ≤ 2 ^ 53 then value
  else
    let step := 2 ^ (Nat.log2 value - 52)
    let below := value / step
    let rest := value % step
    if step < 2 * rest ∨ (2 * rest = step ∧ below % 2 = 1) then (below + 1) * step else below * step

def sumNumbers (values : List Nat) : Nat :=
  values.foldl (fun sum value => toNumber (sum + value)) 0

inductive DiscountDuration where
  | once
  | repeating
  | forever
  deriving DecidableEq

structure CurrencyAmount where
  currency : Text
  amountOffMinor : Int
  deriving DecidableEq

inductive DiscountTerms where
  | percent (percentOffBps : Int)
  | amount (amounts : List CurrencyAmount)
  deriving DecidableEq

structure PromotionDiscount where
  terms : DiscountTerms
  duration : DiscountDuration
  durationMonths : Option Int
  deriving DecidableEq

inductive PricingFailure where
  | invalidTerms (detail : String)
  | currencyNotSupported
  | invalidQuantity (message : String)
  deriving DecidableEq

section Terms
variable (toUpperCase : Text → Text)

def requiredPositiveInteger (value : Option Int) (field : String) : Except PricingFailure Int :=
  match value with
  | some value =>
    if value.natAbs ≤ maxSafeInteger ∧ 0 < value then .ok value
    else .error (.invalidTerms s!"{field} must be a positive integer")
  | none => .error (.invalidTerms s!"{field} must be a positive integer")

def currencyPattern (currency : Text) : Bool :=
  currency.length == 3 && currency.all fun char => decide ('A' ≤ char) && decide (char ≤ 'Z')

def maxCurrencies : Nat := 20

def normalizeAmount (amount : CurrencyAmount) : Except PricingFailure CurrencyAmount :=
  let currency := toUpperCase (trim amount.currency)
  if !currencyPattern currency then .error (.invalidTerms "currency must be a three-letter code")
  else do return ⟨currency, ← requiredPositiveInteger (some amount.amountOffMinor) "amountOffMinor"⟩

def normalizeMonths (duration : DiscountDuration) (durationMonths : Option Int) : Except PricingFailure (Option Int) :=
  match duration, durationMonths with
  | .repeating, months => do return some (← requiredPositiveInteger months "durationMonths")
  | _, none => .ok none
  | _, some _ => .error (.invalidTerms "durationMonths is only allowed for repeating discounts")

def normalizeTerms (terms : DiscountTerms) : Except PricingFailure DiscountTerms :=
  match terms with
  | .percent bps => do
    let percentOffBps ← requiredPositiveInteger (some bps) "percentOffBps"
    if 10000 < percentOffBps then .error (.invalidTerms "percentOffBps must be at most 10000") else return .percent percentOffBps
  | .amount amounts =>
    if amounts.length = 0 ∨ maxCurrencies < amounts.length then
      .error (.invalidTerms s!"amount discounts need 1 to {maxCurrencies} currencies")
    else do
      let normalized ← amounts.mapM (normalizeAmount toUpperCase)
      let sorted := normalized.insertionSort fun left right => left.currency ≤ right.currency
      if ¬(sorted.map CurrencyAmount.currency).Nodup then .error (.invalidTerms "amount discounts must use distinct currencies")
      else return .amount sorted

def normalizeDiscount (discount : PromotionDiscount) : Except PricingFailure PromotionDiscount := do
  let durationMonths ← normalizeMonths discount.duration discount.durationMonths
  if durationMonths.any fun months => decide (36 < months) then .error (.invalidTerms "durationMonths must be at most 36")
  else
    let terms ← normalizeTerms toUpperCase discount.terms
    return ⟨terms, discount.duration, durationMonths⟩

def discountAmountFor (amounts : List CurrencyAmount) (currency : Option Text) : Except PricingFailure Nat :=
  match amounts.find? fun amount => currency.any fun currency => amount.currency == toUpperCase currency with
  | some amount => .ok amount.amountOffMinor.toNat
  | none => .error .currencyNotSupported

end Terms

structure Remainder where
  index : Nat
  remainder : Nat
  deriving DecidableEq

/-- The largest remainder first, the lower index on ties. -/
def Remainder.before (left right : Remainder) : Prop :=
  right.remainder < left.remainder ∨ left.remainder = right.remainder ∧ left.index ≤ right.index

instance (left right : Remainder) : Decidable (left.before right) :=
  inferInstanceAs (Decidable (right.remainder < left.remainder ∨ left.remainder = right.remainder ∧ left.index ≤ right.index))

def remainderOrder (capped total : Nat) (subtotals : List Nat) : List Remainder :=
  (subtotals.zipIdx.map fun entry => ⟨entry.2, capped * entry.1 % total⟩).insertionSort Remainder.before

/-- Hands one leftover unit to each line in an order, until nothing is left. -/
def handOut (leftover : Nat) (discounts : List Nat) : List Remainder → Nat × List Nat
  | [] => (leftover, discounts)
  | entry :: rest =>
    if leftover = 0 then (leftover, discounts) else handOut (leftover - 1) (discounts.modify entry.index (· + 1)) rest

def percentDiscounts (bps : Nat) (subtotals : List Nat) : List Nat :=
  subtotals.map fun subtotal => (subtotal * bps + 5000) / 10000

def floorShares (capped total : Nat) (subtotals : List Nat) : List Nat :=
  subtotals.map fun subtotal => capped * subtotal / total

/-- What is left of a fixed amount after the loop, and the part of each line. -/
def splitAmount (amount : Nat) (subtotals : List Nat) : Nat × List Nat :=
  let total := subtotals.sum
  let capped := if amount < total then amount else total
  if total = 0 then (0, subtotals.map fun _ => 0)
  else
    let shares := floorShares capped total subtotals
    handOut (capped - shares.sum) shares (remainderOrder capped total subtotals)

structure DiscountedLines where
  lineDiscountsMinor : List (Option Nat)
  discountTotalMinor : Option Nat
  deriving DecidableEq

section Lines
variable (toUpperCase : Text → Text)

def lineDiscounts (subtotals : List Nat) (terms : DiscountTerms) (currency : Option Text) : Except PricingFailure (List Nat) :=
  match terms with
  | .percent bps => .ok (percentDiscounts bps.toNat subtotals)
  | .amount amounts => do
    let amount ← discountAmountFor toUpperCase amounts currency
    return (splitAmount amount subtotals).2

/-- Discounts line subtotals the way Stripe does for one coupon. A line that Stripe prices leaves every discount to Stripe. -/
def applyDiscountToLines (subtotalsMinor : List (Option Nat)) (discount : PromotionDiscount) (currency : Option Text) :
    Except PricingFailure DiscountedLines :=
  if subtotalsMinor.any Option.isNone then .ok ⟨subtotalsMinor.map fun _ => none, none⟩
  else do
    let subtotals := subtotalsMinor.map fun subtotal => subtotal.getD 0
    let discounts ← lineDiscounts toUpperCase subtotals discount.terms currency
    let lineDiscountsMinor := discounts.map toNumber
    return ⟨lineDiscountsMinor.map some, some (sumNumbers lineDiscountsMinor)⟩

/-- A line as Checkout would sell it. Catalog prices and quantities are not negative. -/
structure CommercialLineItem where
  key : String
  label : String
  quantity : Nat
  unitAmountMinor : Nat
  currency : Text
  interval : Option CadenceUnit
  intervalCount : Option Nat
  pricingModel : PricingModel
  deriving DecidableEq

structure PricedLine where
  line : CommercialLineItem
  subtotalMinor : Option Nat
  discountMinor : Option Nat
  totalMinor : Option Int
  deriving DecidableEq

structure CommercialPromotion where
  promotionKey : String
  promotionName : String
  promotionCodeId : String
  code : String
  discount : PromotionDiscount
  deriving DecidableEq

structure PreviewDiscount where
  percentOffBps : Option Int
  amountOffMinor : Option Nat
  currency : Option Text
  duration : DiscountDuration
  durationMonths : Option Int
  deriving DecidableEq

structure CommercialPreviewPromotion where
  promotionKey : String
  promotionName : String
  promotionCodeId : String
  code : String
  discount : PreviewDiscount
  deriving DecidableEq

inductive DiscountStatus where
  | none
  | applies
  | ended
  | providerCalculated
  deriving DecidableEq

structure CommercialPreviewNextCycle where
  interval : Cadence
  currency : Option Text
  subtotalMinor : Option Nat
  discountMinor : Option Nat
  totalMinor : Option Int
  discountStatus : DiscountStatus
  deriving DecidableEq

inductive AmountStatus where
  | exact
  | providerCalculated
  deriving DecidableEq

inductive PromotionCodeEntry where
  | none
  | code
  | hosted
  deriving DecidableEq

structure PricedCommercialPreview where
  lineItems : List PricedLine
  subtotalMinor : Option Nat
  discountTotalMinor : Option Nat
  estimatedTotalMinor : Option Int
  amountStatus : AmountStatus
  promotionCodeEntry : PromotionCodeEntry
  promotion : Option CommercialPreviewPromotion
  nextCycle : Option CommercialPreviewNextCycle
  warnings : List String
  deriving DecidableEq

def amountOutOfRange (subject : String) : PricingFailure :=
  .invalidQuantity s!"{subject} exceeds {maxSafeInteger} minor units; lower a quantity"

/-- A flat line's subtotal, which is refused where a number could not hold it. -/
def flatSubtotalMinor (line : CommercialLineItem) : Except PricingFailure Nat :=
  if line.unitAmountMinor ≤ maxSafeInteger ∧ line.quantity ≤ maxSafeInteger ∧ line.unitAmountMinor * line.quantity ≤ maxSafeInteger then
    .ok (line.unitAmountMinor * line.quantity)
  else .error (amountOutOfRange s!"The total for {line.key}")

def lineSubtotal (line : CommercialLineItem) : Except PricingFailure (Option Nat) :=
  match line.pricingModel with
  | .flat => do return some (← flatSubtotalMinor line)
  | .tiered _ => .ok none

/-- Whether a recurring discount still applies on the invoice after the first billing interval. -/
def discountAppliesNextCycle (discount : PromotionDiscount) (interval : Cadence) : Bool :=
  match discount.duration with
  | .forever => true
  | .once => false
  | .repeating =>
    let months := (discount.durationMonths.getD 0).toNat
    if months < 1 then false
    else match canonicalCadence interval with
      | .months span => decide (span < months)
      | .hours hours => decide (hours < minCalendarSpanHours months)

def nextCycle (interval : Cadence) (currency : Option Text) (subtotalMinor firstCycleDiscountMinor : Option Nat)
    (promotion : Option CommercialPromotion) : CommercialPreviewNextCycle :=
  match subtotalMinor, firstCycleDiscountMinor with
  | some subtotal, some discount =>
    let applies := promotion.any fun promotion => discountAppliesNextCycle promotion.discount interval
    let discountMinor := if applies then discount else 0
    ⟨interval, currency, some subtotal, some discountMinor, some (subtotal - discountMinor),
      if promotion.isNone then .none else if applies then .applies else .ended⟩
  | _, _ => ⟨interval, currency, none, none, none, if promotion.isNone then .none else .providerCalculated⟩

def previewDiscount (discount : PromotionDiscount) (currency : Option Text) : Except PricingFailure PreviewDiscount :=
  match discount.terms with
  | .percent bps => .ok ⟨some bps, none, none, discount.duration, discount.durationMonths⟩
  | .amount amounts => do
    let amountOffMinor ← discountAmountFor toUpperCase amounts currency
    return ⟨none, some amountOffMinor, currency.map toUpperCase, discount.duration, discount.durationMonths⟩

def previewPromotion (promotion : CommercialPromotion) (currency : Option Text) : Except PricingFailure CommercialPreviewPromotion := do
  let preview ← previewDiscount toUpperCase promotion.discount currency
  return ⟨promotion.promotionKey, promotion.promotionName, promotion.promotionCodeId, promotion.code, preview⟩

def priceLine (line : CommercialLineItem) (subtotal discounted : Option Nat) : PricedLine where
  line := line
  subtotalMinor := subtotal
  discountMinor := discounted
  totalMinor := do return (← subtotal : Nat) - (← discounted : Nat)

def exactSubtotal (subtotals : List (Option Nat)) : Except PricingFailure (Option Nat) :=
  if subtotals.any Option.isNone then .ok none
  else
    let total := (subtotals.map fun subtotal => subtotal.getD 0).sum
    if maxSafeInteger < total then .error (amountOutOfRange "The subtotal") else .ok (some total)

def pricingWarnings (exact promoted hostedEntry : Bool) : List String :=
  (if exact then []
    else [if promoted then "Stripe calculates tiered line totals and their discount during Checkout."
      else "Stripe calculates tiered line totals during Checkout."]) ++
  if hostedEntry then
    ["Customer-entered promotion codes are validated and priced by Stripe; this preview excludes them."]
  else []

/-- The discount of a preview. Without a promotion every exact amount is nothing. -/
def previewDiscounts (subtotals : List (Option Nat)) (subtotalMinor : Option Nat) (promotion : Option CommercialPromotion)
    (currency : Option Text) : Except PricingFailure DiscountedLines :=
  match promotion with
  | none => .ok ⟨subtotals.map fun subtotal => subtotal.map fun _ => 0, subtotalMinor.map fun _ => 0⟩
  | some promotion => applyDiscountToLines toUpperCase subtotals promotion.discount currency

structure CommercialLinesInput where
  lines : List CommercialLineItem
  currency : Option Text
  recurringInterval : Option Cadence
  promotion : Option CommercialPromotion
  hostedEntry : Bool
  deriving DecidableEq

def priceCommercialLines (input : CommercialLinesInput) : Except PricingFailure PricedCommercialPreview := do
  let subtotals ← input.lines.mapM lineSubtotal
  let subtotalMinor ← exactSubtotal subtotals
  let discounted ← previewDiscounts toUpperCase subtotals subtotalMinor input.promotion input.currency
  let lineItems := (input.lines.zip (subtotals.zip discounted.lineDiscountsMinor)).map fun entry =>
    priceLine entry.1 entry.2.1 entry.2.2
  let promotion ← input.promotion.mapM fun promotion => previewPromotion toUpperCase promotion input.currency
  return {
    lineItems
    subtotalMinor
    discountTotalMinor := discounted.discountTotalMinor
    estimatedTotalMinor := do return (← subtotalMinor : Nat) - (← discounted.discountTotalMinor : Nat)
    amountStatus := if subtotals.any Option.isNone then .providerCalculated else .exact
    promotionCodeEntry := if input.promotion.isSome then .code else if input.hostedEntry then .hosted else .none
    promotion
    nextCycle := input.recurringInterval.map fun interval =>
      nextCycle interval input.currency subtotalMinor discounted.discountTotalMinor input.promotion
    warnings := pricingWarnings (!subtotals.any Option.isNone) input.promotion.isSome input.hostedEntry }

end Lines

end Quotum.CommercialPricing
