import Quotum.CommercialPricing
import Quotum.General.Outcomes

/-! A discount is split exactly. The remainders of the exact shares add up to the leftover units times the total, and each is below the total,
so there are at least as many lines with a remainder as units to hand out, and only such a line gets one. -/

namespace Quotum.CommercialPricing
open General Cadences Decimal Pricing

variable {subtotals discounts values : List Nat} {discount : PromotionDiscount} {currency : Option Text} {order : List Remainder}
  {leftover : Nat}

section Numbers

private theorem toNumber_exact {value : Nat} (small : value ≤ maxSafeInteger) : toNumber value = value := by
  unfold maxSafeInteger at small
  exact if_pos (by omega)

/-- A sum within the safe integers is added without rounding. -/
private theorem sumNumbers_exact (small : values.sum ≤ maxSafeInteger) : sumNumbers values = values.sum := by
  have from_ : ∀ (rest : List Nat) (sum : Nat), sum + rest.sum ≤ maxSafeInteger →
      rest.foldl (fun sum value => toNumber (sum + value)) sum = sum + rest.sum := by
    intro rest
    induction rest with
    | nil => exact fun _ _ => rfl
    | cons value rest ih =>
      intro sum small
      rw [List.sum_cons] at small
      rw [List.foldl_cons, toNumber_exact (show sum + value ≤ maxSafeInteger by omega), ih _ (by omega), List.sum_cons]
      omega
  exact (from_ values 0 (by omega)).trans (Nat.zero_add _)

private theorem map_toNumber (small : ∀ value ∈ values, value ≤ maxSafeInteger) : values.map toNumber = values := by
  rw [List.map_congr_left fun value member => toNumber_exact (small value member), List.map_id']

end Numbers

section Shares
variable {capped total : Nat}

private theorem shares_remainders (capped total : Nat) (subtotals : List Nat) :
    total * (floorShares capped total subtotals).sum + (subtotals.map fun subtotal => capped * subtotal % total).sum =
      capped * subtotals.sum := by
  induction subtotals with
  | nil => rfl
  | cons subtotal rest ih =>
    have parts := Nat.div_add_mod (capped * subtotal) total
    unfold floorShares at ih ⊢
    simp only [List.map_cons, List.sum_cons, Nat.mul_add]
    omega

private theorem shares_le (positive : 0 < subtotals.sum) (capped : Nat) :
    (floorShares capped subtotals.sum subtotals).sum ≤ capped := by
  have whole := shares_remainders capped subtotals.sum subtotals
  apply Nat.le_of_mul_le_mul_left _ positive
  rw [Nat.mul_comm _ capped]
  omega

private theorem sum_le_count {bound : Nat} (below : ∀ value ∈ values, value ≤ bound) :
    values.sum ≤ values.countP (fun value => decide (0 < value)) * bound := by
  induction values with
  | nil => exact Nat.zero_le _
  | cons value rest ih =>
    have later := ih fun other member => below other (List.mem_cons_of_mem _ member)
    have here := below value List.mem_cons_self
    rw [List.sum_cons, List.countP_cons, Nat.add_mul]
    split
    · omega
    · next zero =>
      have nothing : value = 0 := by simpa using zero
      omega

private theorem leftover_le (positive : 0 < subtotals.sum) (capped : Nat) :
    capped - (floorShares capped subtotals.sum subtotals).sum ≤
      (subtotals.map fun subtotal => capped * subtotal % subtotals.sum).countP fun value => decide (0 < value) := by
  have whole := shares_remainders capped subtotals.sum subtotals
  have bounded : ∀ value ∈ subtotals.map fun subtotal => capped * subtotal % subtotals.sum, value ≤ subtotals.sum := by
    intro value member
    obtain ⟨subtotal, -, rfl⟩ := List.mem_map.mp member
    exact (Nat.mod_lt _ positive).le
  have counted := sum_le_count bounded
  apply Nat.le_of_mul_le_mul_right _ positive
  calc
    (capped - (floorShares capped subtotals.sum subtotals).sum) * subtotals.sum =
        (subtotals.map fun subtotal => capped * subtotal % subtotals.sum).sum := by
      rw [Nat.sub_mul, ← whole, Nat.mul_comm _ subtotals.sum]
      omega
    _ ≤ _ := counted

instance : Std.Total Remainder.before where
  total left right := by
    unfold Remainder.before
    omega

instance : IsTrans Remainder Remainder.before where
  trans first second third before after := by
    unfold Remainder.before at *
    omega

private theorem remainderOrder_perm (capped total : Nat) (subtotals : List Nat) :
    (remainderOrder capped total subtotals).Perm (subtotals.zipIdx.map fun entry => ⟨entry.2, capped * entry.1 % total⟩) :=
  List.perm_insertionSort _ _

private theorem remainderOrder_sorted (capped total : Nat) (subtotals : List Nat) :
    (remainderOrder capped total subtotals).Pairwise Remainder.before :=
  List.pairwise_insertionSort _ _

/-- Each line is in the order once, with its own remainder. -/
private theorem remainderOrder_mem {entry : Remainder} (member : entry ∈ remainderOrder capped total subtotals) :
    ∃ subtotal, subtotals[entry.index]? = some subtotal ∧ entry.remainder = capped * subtotal % total := by
  obtain ⟨⟨subtotal, index⟩, inside, rfl⟩ := List.mem_map.mp ((remainderOrder_perm _ _ _).mem_iff.mp member)
  exact ⟨subtotal, List.mem_zipIdx_iff_getElem?.mp inside, rfl⟩

private theorem remainderOrder_indices (subtotals : List Nat) : ((remainderOrder capped total subtotals).map Remainder.index).Nodup := by
  rw [((remainderOrder_perm capped total subtotals).map Remainder.index).nodup_iff, List.map_map]
  have indices : subtotals.zipIdx.map (Remainder.index ∘ fun entry => ⟨entry.2, capped * entry.1 % total⟩) = subtotals.zipIdx.map Prod.snd :=
    List.map_congr_left fun _ _ => rfl
  rw [indices, List.zipIdx_map_snd]
  exact List.nodup_range'

private theorem remainderOrder_count (capped total : Nat) (subtotals : List Nat) :
    (remainderOrder capped total subtotals).countP (fun entry => decide (0 < entry.remainder)) =
      (subtotals.map fun subtotal => capped * subtotal % total).countP fun value => decide (0 < value) := by
  rw [(remainderOrder_perm capped total subtotals).countP_eq, List.countP_map, List.countP_map, ← List.zipIdx_map_fst 0 subtotals,
    List.countP_map]
  simp only [List.zipIdx_map_fst]
  rfl

/-- The entries that a sorted order puts in front have a remainder, while there are as many that have one. -/
private theorem take_positive (sorted : order.Pairwise Remainder.before)
    (enough : leftover ≤ order.countP fun entry => decide (0 < entry.remainder)) :
    ∀ entry ∈ order.take leftover, 0 < entry.remainder := by
  induction order generalizing leftover with
  | nil => simp
  | cons first rest ih =>
    obtain ⟨before, sortedRest⟩ := List.pairwise_cons.mp sorted
    cases leftover with
    | zero => simp
    | succ leftover =>
      have positive : 0 < first.remainder := by
        by_contra zero
        have none_ : (first :: rest).countP (fun entry => decide (0 < entry.remainder)) = 0 := by
          rw [List.countP_eq_zero]
          intro entry member
          rcases List.mem_cons.mp member with rfl | later
          · simpa using zero
          · have order := before entry later
            unfold Remainder.before at order
            simp only [decide_eq_true_eq]
            omega
        omega
      intro entry member
      rw [List.take_succ_cons] at member
      rcases List.mem_cons.mp member with rfl | later
      · exact positive
      · apply ih sortedRest _ entry later
        rw [List.countP_cons_of_pos (by simpa using positive)] at enough
        omega

end Shares

section HandOut

private theorem sum_modify {index : Nat} (inside : index < values.length) :
    (values.modify index (· + 1)).sum = values.sum + 1 := by
  induction values generalizing index with
  | nil => exact absurd inside (Nat.not_lt_zero _)
  | cons value rest ih =>
    cases index with
    | zero =>
      rw [List.modify_zero_cons, List.sum_cons, List.sum_cons]
      omega
    | succ index =>
      rw [List.modify_succ_cons, List.sum_cons, List.sum_cons, ih (Nat.lt_of_succ_lt_succ inside)]
      omega

private theorem within_modify (within : List.Forall₂ (· ≤ ·) discounts subtotals) {index : Nat}
    (room : ∀ discount subtotal, discounts[index]? = some discount → subtotals[index]? = some subtotal → discount < subtotal) :
    List.Forall₂ (· ≤ ·) (discounts.modify index (· + 1)) subtotals := by
  induction within generalizing index with
  | nil => simp
  | @cons discount subtotal discounts subtotals here later ih =>
    cases index with
    | zero => exact .cons (room discount subtotal rfl rfl) later
    | succ index => exact .cons here (ih room)

/-- The loop leaves nothing when there is a line for each unit. -/
private theorem handOut_left (leftover : Nat) (discounts : List Nat) (order : List Remainder) :
    (handOut leftover discounts order).1 = leftover - order.length := by
  induction order generalizing leftover discounts with
  | nil => rfl
  | cons entry rest ih =>
    unfold handOut
    split
    · omega
    · rw [ih, List.length_cons]
      omega

private theorem handOut_sum {discounts : List Nat} (inside : ∀ entry ∈ order, entry.index < discounts.length) :
    (handOut leftover discounts order).2.sum + (handOut leftover discounts order).1 = discounts.sum + leftover := by
  induction order generalizing leftover discounts with
  | nil => rfl
  | cons entry rest ih =>
    unfold handOut
    split
    · rfl
    · rw [ih fun other member => by
        rw [List.length_modify]
        exact inside other (List.mem_cons_of_mem _ member), sum_modify (inside entry List.mem_cons_self)]
      omega

private theorem handOut_within (within : List.Forall₂ (· ≤ ·) discounts subtotals) (distinct : (order.map Remainder.index).Nodup)
    (room : ∀ entry ∈ order.take leftover, ∀ discount subtotal, discounts[entry.index]? = some discount →
      subtotals[entry.index]? = some subtotal → discount < subtotal) :
    List.Forall₂ (· ≤ ·) (handOut leftover discounts order).2 subtotals := by
  induction order generalizing leftover discounts with
  | nil => exact within
  | cons entry rest ih =>
    obtain ⟨apart, distinctRest⟩ := List.nodup_cons.mp distinct
    unfold handOut
    split
    · exact within
    · next some_ =>
      obtain ⟨less, rfl⟩ := Nat.exists_eq_succ_of_ne_zero some_
      rw [List.take_succ_cons] at room
      apply ih (within_modify within (room entry List.mem_cons_self)) distinctRest
      intro other member discount subtotal found
      have elsewhere : entry.index ≠ other.index := by
        intro same
        exact apart (same ▸ List.mem_map_of_mem (List.mem_of_mem_take member))
      rw [List.getElem?_modify_ne _ _ elsewhere] at found
      exact room other (List.mem_cons_of_mem _ member) discount subtotal found

end HandOut

section Split

/-- A fixed amount is split exactly: nothing is left, the lines add up to the amount or to all there is, and no line gets more than it costs. -/
private theorem splitAmount_exact (amount : Nat) (subtotals : List Nat) :
    (splitAmount amount subtotals).1 = 0 ∧ (splitAmount amount subtotals).2.sum = min amount subtotals.sum ∧
      List.Forall₂ (· ≤ ·) (splitAmount amount subtotals).2 subtotals := by
  have capped : (if amount < subtotals.sum then amount else subtotals.sum) = min amount subtotals.sum := by
    split <;> omega
  unfold splitAmount
  simp only [capped]
  have most := Nat.min_le_right amount subtotals.sum
  generalize min amount subtotals.sum = capped at most ⊢
  split
  · next nothing =>
    refine ⟨rfl, ?_, ?_⟩
    · simp only [List.map_const', List.sum_replicate, smul_zero]
      omega
    · exact List.forall₂_map_left_iff.mpr (List.forall₂_same.mpr fun _ _ => Nat.zero_le _)
  · next some_ =>
    have positive := Nat.pos_of_ne_zero some_
    have counted := remainderOrder_count capped subtotals.sum subtotals
    have enough := leftover_le positive capped
    rw [← counted] at enough
    have shares := shares_le positive capped
    have left : (handOut (capped - (floorShares capped subtotals.sum subtotals).sum) (floorShares capped subtotals.sum subtotals)
        (remainderOrder capped subtotals.sum subtotals)).1 = 0 := by
      rw [handOut_left]
      exact Nat.sub_eq_zero_of_le (enough.trans List.countP_le_length)
    refine ⟨left, ?_, ?_⟩
    · have inside : ∀ entry ∈ remainderOrder capped subtotals.sum subtotals,
          entry.index < (floorShares capped subtotals.sum subtotals).length := by
        intro entry member
        obtain ⟨subtotal, found, -⟩ := remainderOrder_mem member
        rw [floorShares, List.length_map]
        exact (List.getElem?_eq_some_iff.mp found).1
      have whole := @handOut_sum _ (capped - (floorShares capped subtotals.sum subtotals).sum) _ inside
      rw [left] at whole
      omega
    · apply handOut_within _ (remainderOrder_indices subtotals)
      · intro entry member discount subtotal found named
        have remains := take_positive (remainderOrder_sorted _ _ _) enough entry member
        obtain ⟨other, same, remainder⟩ := remainderOrder_mem (List.mem_of_mem_take member)
        obtain rfl := Option.some.inj (same.symm.trans named)
        rw [floorShares, List.getElem?_map, named] at found
        cases found
        -- a share with a remainder is less than its line
        rw [Nat.div_lt_iff_lt_mul positive]
        have parts := Nat.div_add_mod (capped * other) subtotals.sum
        have bounded := Nat.mul_le_mul_right other most
        rw [Nat.mul_comm other]
        rcases Nat.lt_or_eq_of_le bounded with less | equal
        · exact less
        · rw [remainder, equal, Nat.mul_mod_right] at remains
          exact absurd remains (Nat.lt_irrefl 0)
      · apply List.forall₂_map_left_iff.mpr
        apply List.forall₂_same.mpr
        intro subtotal _
        exact Nat.div_le_of_le_mul (Nat.mul_le_mul_right _ most)

private theorem percentDiscounts_within {bps : Nat} (most : bps ≤ 10000) (subtotals : List Nat) :
    List.Forall₂ (· ≤ ·) (percentDiscounts bps subtotals) subtotals := by
  apply List.forall₂_map_left_iff.mpr
  apply List.forall₂_same.mpr
  intro subtotal _
  have whole := Nat.mul_le_mul_left subtotal most
  apply Nat.le_of_lt_succ
  apply Nat.div_lt_of_lt_mul
  omega

private theorem within_sum (within : List.Forall₂ (· ≤ ·) discounts subtotals) : discounts.sum ≤ subtotals.sum :=
  within.sum_le_sum

private theorem within_mem (within : List.Forall₂ (· ≤ ·) discounts subtotals) {bound : Nat}
    (small : ∀ subtotal ∈ subtotals, subtotal ≤ bound) : ∀ discount ∈ discounts, discount ≤ bound := by
  induction within with
  | nil => nofun
  | @cons discount subtotal _ _ here _ ih =>
    intro other member
    rcases List.mem_cons.mp member with rfl | later
    · exact here.trans (small subtotal List.mem_cons_self)
    · exact ih (fun value inside => small value (List.mem_cons_of_mem _ inside)) other later

end Split

section Discounts
variable {toUpperCase : Text → Text} {result : DiscountedLines}

private theorem requiredPositiveInteger_inv {value : Option Int} {field : String} {result : Int}
    (required : requiredPositiveInteger value field = .ok result) : 0 < result ∧ result.toNat ≤ maxSafeInteger := by
  unfold requiredPositiveInteger at required
  split at required
  · split at required
    · next valid =>
      cases required
      omega
    · cases required
  · cases required

/-- What the terms of a discount may be: at most everything, or amounts that are safe integers. -/
def ValidTerms : DiscountTerms → Prop
  | .percent bps => bps.toNat ≤ 10000
  | .amount amounts => ∀ amount ∈ amounts, amount.amountOffMinor.toNat ≤ maxSafeInteger

private theorem normalizeAmount_inv {amount result : CurrencyAmount} (valid : normalizeAmount toUpperCase amount = .ok result) :
    result.amountOffMinor.toNat ≤ maxSafeInteger := by
  unfold normalizeAmount at valid
  dsimp only at valid
  split at valid
  · cases valid
  · obtain ⟨required, positive, valid⟩ := bind_ok valid
    cases valid
    exact (requiredPositiveInteger_inv positive).2

private theorem normalizeTerms_inv {raw terms : DiscountTerms} (valid : normalizeTerms toUpperCase raw = .ok terms) : ValidTerms terms := by
  unfold normalizeTerms at valid
  split at valid
  · obtain ⟨bps, required, valid⟩ := bind_ok valid
    split at valid
    · cases valid
    · next most =>
      cases valid
      unfold ValidTerms
      omega
  · split at valid
    · cases valid
    · obtain ⟨normalized, each, valid⟩ := bind_ok valid
      dsimp only at valid
      split at valid
      · cases valid
      · cases valid
        intro amount member
        have inside := (List.mem_insertionSort _).mp member
        obtain ⟨source, -, from_⟩ := (paired (mapM_ok each)).2 amount inside
        exact normalizeAmount_inv from_

private theorem normalizeDiscount_inv {raw : PromotionDiscount} (valid : normalizeDiscount toUpperCase raw = .ok discount) :
    ValidTerms discount.terms := by
  unfold normalizeDiscount at valid
  obtain ⟨months, -, valid⟩ := bind_ok valid
  split at valid
  · cases valid
  · obtain ⟨terms, normalized, valid⟩ := bind_ok valid
    cases valid
    exact normalizeTerms_inv normalized

private theorem discountAmountFor_le {amounts : List CurrencyAmount} (valid : ValidTerms (.amount amounts)) {amount : Nat}
    (found : discountAmountFor toUpperCase amounts currency = .ok amount) : amount ≤ maxSafeInteger := by
  unfold discountAmountFor at found
  split at found
  · next entry named =>
    cases found
    exact valid entry (List.mem_of_find?_eq_some named)
  · cases found

def Within (subtotal discount : Option Nat) : Prop :=
  ∀ whole part, subtotal = some whole → discount = some part → part ≤ whole

structure ExactDiscounts (subtotals : List Nat) (discount : PromotionDiscount) (amountFor : Except PricingFailure Nat)
    (discounts : List Nat) (result : DiscountedLines) : Prop where
  lines : result.lineDiscountsMinor = discounts.map some
  within : List.Forall₂ (· ≤ ·) discounts subtotals
  whole : discounts.sum ≤ subtotals.sum
  safe : subtotals.sum ≤ maxSafeInteger → result.discountTotalMinor = some discounts.sum
  fixed : ∀ amounts amount, discount.terms = .amount amounts → amountFor = .ok amount →
    result.discountTotalMinor = some (min amount subtotals.sum) ∧ discounts.sum = min amount subtotals.sum ∧
      (splitAmount amount subtotals).1 = 0

def termAmounts : DiscountTerms → List CurrencyAmount
  | .percent _ => []
  | .amount amounts => amounts

private theorem lineDiscounts_exact (valid : ValidTerms discount.terms)
    (applied : lineDiscounts toUpperCase subtotals discount.terms currency = .ok discounts) :
    List.Forall₂ (· ≤ ·) discounts subtotals ∧ ∀ amounts amount, discount.terms = .amount amounts →
      discountAmountFor toUpperCase amounts currency = .ok amount → amount ≤ maxSafeInteger ∧
        discounts.sum = min amount subtotals.sum ∧ (splitAmount amount subtotals).1 = 0 := by
  unfold lineDiscounts at applied
  split at applied
  · next bps terms =>
    cases applied
    rw [terms] at valid
    refine ⟨percentDiscounts_within valid subtotals, ?_⟩
    intro amounts amount other
    rw [terms] at other
    cases other
  · next amounts terms =>
    obtain ⟨amount, found, applied⟩ := bind_ok applied
    cases applied
    rw [terms] at valid
    obtain ⟨nothing, whole, within⟩ := splitAmount_exact amount subtotals
    refine ⟨within, ?_⟩
    intro others another same named
    rw [terms] at same
    cases same
    obtain rfl := Except.ok.inj (found.symm.trans named)
    exact ⟨discountAmountFor_le valid found, whole, nothing⟩

private theorem applyDiscount_exact (valid : ValidTerms discount.terms)
    {subtotals : List (Option Nat)} (priced : ∀ subtotal, some subtotal ∈ subtotals → subtotal ≤ maxSafeInteger)
    (exact_ : none ∉ subtotals) (applied : applyDiscountToLines toUpperCase subtotals discount currency = .ok result) :
    ∃ discounts, ExactDiscounts (subtotals.map fun subtotal => subtotal.getD 0) discount
      (discountAmountFor toUpperCase (termAmounts discount.terms) currency) discounts result := by
  have known : subtotals.any Option.isNone = false := by
    rw [List.any_eq_false]
    intro subtotal member
    cases subtotal with
    | none => exact absurd member exact_
    | some _ => exact Bool.false_ne_true
  unfold applyDiscountToLines at applied
  rw [known, if_neg Bool.false_ne_true] at applied
  obtain ⟨discounts, split, applied⟩ := bind_ok applied
  cases applied
  obtain ⟨within, fixed⟩ := lineDiscounts_exact valid split
  have small : ∀ subtotal ∈ subtotals.map fun subtotal => subtotal.getD 0, subtotal ≤ maxSafeInteger := by
    intro subtotal member
    obtain ⟨source, inside, rfl⟩ := List.mem_map.mp member
    cases source with
    | none => exact Nat.zero_le _
    | some value => exact priced value inside
  have numbers : discounts.map toNumber = discounts := map_toNumber (within_mem within small)
  have whole := within_sum within
  refine ⟨discounts, ?_, within, whole, ?_, ?_⟩
  · exact congrArg (List.map some) numbers
  · intro safe
    dsimp only
    rw [numbers, sumNumbers_exact (whole.trans safe)]
  · intro amounts amount terms found
    rw [terms] at found
    obtain ⟨bounded, total, nothing⟩ := fixed amounts amount terms found
    refine ⟨?_, total, nothing⟩
    dsimp only
    rw [numbers, sumNumbers_exact (by omega), total]

private theorem applyDiscount_unknown {subtotals : List (Option Nat)} (unknown : none ∈ subtotals)
    (applied : applyDiscountToLines toUpperCase subtotals discount currency = .ok result) :
    result.lineDiscountsMinor = subtotals.map (fun _ => none) ∧ result.discountTotalMinor = none := by
  unfold applyDiscountToLines at applied
  rw [if_pos (List.any_eq_true.mpr ⟨none, unknown, rfl⟩)] at applied
  cases applied
  exact ⟨rfl, rfl⟩

end Discounts

section Prices
variable {toUpperCase : Text → Text} {subtotalMinor : Option Nat}

private theorem lineSubtotal_inv {line : CommercialLineItem} {subtotal : Option Nat} (priced : lineSubtotal line = .ok subtotal) :
    (line.pricingModel = .flat ↔ subtotal ≠ none) ∧ ∀ value, subtotal = some value → value ≤ maxSafeInteger := by
  unfold lineSubtotal at priced
  split at priced
  · next flat =>
    obtain ⟨value, product, priced⟩ := bind_ok priced
    cases priced
    unfold flatSubtotalMinor at product
    split at product
    · next small =>
      cases product
      refine ⟨⟨fun _ => Option.some_ne_none _, fun _ => flat⟩, ?_⟩
      rintro _ ⟨⟩
      exact small.2.2
    · cases product
  · next model tiered =>
    cases priced
    refine ⟨⟨fun flat => ?_, fun none_ => absurd rfl none_⟩, nofun⟩
    rw [tiered] at flat
    cases flat

structure Agrees (lines : List CommercialLineItem) (preview : PricedCommercialPreview) : Prop where
  items : preview.lineItems.map PricedLine.line = lines
  each : ∀ item ∈ preview.lineItems, ∀ subtotal, item.subtotalMinor = some subtotal → subtotal ≤ maxSafeInteger ∧
    ∀ discount, item.discountMinor = some discount → discount ≤ subtotal ∧ item.totalMinor = some ((subtotal : Int) - discount)
  flat : (∀ line ∈ lines, line.pricingModel = .flat) → ∃ (subtotals discounts : List Nat) (totals : List Int),
    preview.lineItems.map PricedLine.subtotalMinor = subtotals.map some ∧
    preview.lineItems.map PricedLine.discountMinor = discounts.map some ∧
    preview.lineItems.map PricedLine.totalMinor = totals.map some ∧
    preview.subtotalMinor = some subtotals.sum ∧ subtotals.sum ≤ maxSafeInteger ∧
    preview.discountTotalMinor = some discounts.sum ∧ discounts.sum ≤ subtotals.sum ∧
    preview.estimatedTotalMinor = some ((subtotals.sum : Int) - discounts.sum) ∧ totals.sum = (subtotals.sum : Int) - discounts.sum
  tiered : (∃ line ∈ lines, line.pricingModel ≠ .flat) →
    preview.subtotalMinor = none ∧ preview.discountTotalMinor = none ∧ preview.estimatedTotalMinor = none

/-- What the discount of a preview is, with or without a promotion. -/
structure Discounting (subtotals : List (Option Nat)) (discounted : DiscountedLines) : Prop where
  within : List.Forall₂ Within subtotals discounted.lineDiscountsMinor
  exact : none ∉ subtotals → (subtotals.map fun subtotal => subtotal.getD 0).sum ≤ maxSafeInteger → ∃ discounts : List Nat,
    discounted.lineDiscountsMinor = discounts.map some ∧ discounted.discountTotalMinor = some discounts.sum ∧
      List.Forall₂ (· ≤ ·) discounts (subtotals.map fun subtotal => subtotal.getD 0)
  unknown : none ∈ subtotals → discounted.discountTotalMinor = none

private theorem known_map {subtotals : List (Option Nat)} (known : none ∉ subtotals) :
    subtotals = (subtotals.map fun subtotal => subtotal.getD 0).map some := by
  induction subtotals with
  | nil => rfl
  | cons subtotal rest ih =>
    cases subtotal with
    | none => exact absurd List.mem_cons_self known
    | some value =>
      rw [List.map_cons, List.map_cons, ← ih fun inside => known (List.mem_cons_of_mem _ inside)]
      rfl

private theorem promoted_discounting (valid : ValidTerms discount.terms)
    {subtotals : List (Option Nat)} (priced : ∀ subtotal, some subtotal ∈ subtotals → subtotal ≤ maxSafeInteger) {result : DiscountedLines}
    (applied : applyDiscountToLines toUpperCase subtotals discount currency = .ok result) : Discounting subtotals result := by
  by_cases unknown : none ∈ subtotals
  · obtain ⟨lines, total⟩ := applyDiscount_unknown unknown applied
    refine ⟨?_, fun known => absurd unknown known, fun _ => total⟩
    rw [lines]
    apply List.forall₂_map_right_iff.mpr
    apply List.forall₂_same.mpr
    intro _ _ _ _ _ none_
    cases none_
  · obtain ⟨discounts, exact_⟩ := applyDiscount_exact valid priced unknown applied
    refine ⟨?_, fun _ safe => ⟨discounts, exact_.lines, exact_.safe safe, exact_.within⟩, fun inside => absurd inside unknown⟩
    have within := exact_.within
    rw [exact_.lines, known_map unknown]
    apply List.forall₂_map_left_iff.mpr
    apply List.forall₂_map_right_iff.mpr
    apply within.flip.imp
    intro subtotal discount less whole part named other
    cases named
    cases other
    exact less

private theorem plain_discounting {subtotals : List (Option Nat)} (subtotal : exactSubtotal subtotals = .ok subtotalMinor) :
    Discounting subtotals ⟨subtotals.map fun subtotal => subtotal.map fun _ => 0, subtotalMinor.map fun _ => 0⟩ := by
  refine ⟨?_, ?_, ?_⟩
  · apply List.forall₂_map_right_iff.mpr
    apply List.forall₂_same.mpr
    intro source _ whole part _ zero
    cases source with
    | none => cases zero
    | some _ =>
      cases zero
      exact Nat.zero_le _
  · intro known safe
    refine ⟨subtotals.map fun _ => 0, ?_, ?_, ?_⟩
    · dsimp only
      rw [List.map_map]
      apply List.map_congr_left
      intro source member
      cases source with
      | none => exact absurd member known
      | some _ => rfl
    · unfold exactSubtotal at subtotal
      split at subtotal
      · next unknown =>
        obtain ⟨source, member, none_⟩ := List.any_eq_true.mp unknown
        cases source with
        | none => exact absurd member known
        | some _ => cases none_
      · dsimp only at subtotal
        rw [if_neg (Nat.not_lt.mpr safe)] at subtotal
        cases subtotal
        simp
    · apply List.forall₂_map_left_iff.mpr
      apply List.forall₂_map_right_iff.mpr
      exact List.forall₂_same.mpr fun _ _ => Nat.zero_le _
  · intro unknown
    unfold exactSubtotal at subtotal
    rw [if_pos (List.any_eq_true.mpr ⟨none, unknown, rfl⟩)] at subtotal
    cases subtotal
    rfl

private theorem exactSubtotal_inv {subtotals : List (Option Nat)} (subtotal : exactSubtotal subtotals = .ok subtotalMinor) :
    (none ∈ subtotals → subtotalMinor = none) ∧ (none ∉ subtotals →
      (subtotals.map fun subtotal => subtotal.getD 0).sum ≤ maxSafeInteger ∧
        subtotalMinor = some (subtotals.map fun subtotal => subtotal.getD 0).sum) := by
  unfold exactSubtotal at subtotal
  split at subtotal
  · next unknown =>
    cases subtotal
    obtain ⟨source, member, none_⟩ := List.any_eq_true.mp unknown
    cases source with
    | none => exact ⟨fun _ => rfl, fun known => absurd member known⟩
    | some _ => cases none_
  · next known =>
    dsimp only at subtotal
    split at subtotal
    · cases subtotal
    · next safe =>
      cases subtotal
      exact ⟨fun unknown => absurd (List.any_eq_true.mpr ⟨none, unknown, rfl⟩) known, fun _ => ⟨Nat.not_lt.mp safe, rfl⟩⟩

private theorem totals_sum (within : List.Forall₂ (· ≤ ·) discounts subtotals) :
    ((subtotals.zip discounts).map fun entry => (entry.1 : Int) - entry.2).sum = (subtotals.sum : Int) - discounts.sum := by
  induction within with
  | nil => rfl
  | cons _ _ ih =>
    simp only [List.zip_cons_cons, List.map_cons, List.sum_cons, ih, Nat.cast_add]
    omega

private theorem priced_lines {lines : List CommercialLineItem} {subtotals discounts : List (Option Nat)} (same : lines.length = subtotals.length)
    (also : subtotals.length = discounts.length) {items : List PricedLine}
    (made : items = (lines.zip (subtotals.zip discounts)).map fun entry => priceLine entry.1 entry.2.1 entry.2.2) :
    items.map PricedLine.line = lines ∧ items.map PricedLine.subtotalMinor = subtotals ∧ items.map PricedLine.discountMinor = discounts ∧
      items.map PricedLine.totalMinor =
        (subtotals.zip discounts).map fun entry => do return ((← entry.1 : Nat) : Int) - (← entry.2 : Nat) := by
  have pairs : (subtotals.zip discounts).length = lines.length := by
    rw [List.length_zip, same, also, Nat.min_self]
  have firsts : (lines.zip (subtotals.zip discounts)).map Prod.fst = lines := List.map_fst_zip pairs.ge
  have seconds : (lines.zip (subtotals.zip discounts)).map Prod.snd = subtotals.zip discounts := List.map_snd_zip pairs.le
  subst made
  simp only [List.map_map]
  refine ⟨firsts, ?_, ?_, ?_⟩
  · calc
      _ = ((lines.zip (subtotals.zip discounts)).map Prod.snd).map Prod.fst := by
        rw [List.map_map]
        rfl
      _ = subtotals := by rw [seconds, List.map_fst_zip also.le]
  · calc
      _ = ((lines.zip (subtotals.zip discounts)).map Prod.snd).map Prod.snd := by
        rw [List.map_map]
        rfl
      _ = discounts := by rw [seconds, List.map_snd_zip also.ge]
  · calc
      _ = ((lines.zip (subtotals.zip discounts)).map Prod.snd).map fun entry =>
          (do return ((← entry.1 : Nat) : Int) - (← entry.2 : Nat) : Option Int) := by
        rw [List.map_map]
        rfl
      _ = _ := by rw [seconds]

private theorem price_agrees {input : CommercialLinesInput} {preview : PricedCommercialPreview}
    (valid : ∀ promotion, input.promotion = some promotion → ValidTerms promotion.discount.terms)
    (priced : priceCommercialLines toUpperCase input = .ok preview) : Agrees input.lines preview := by
  unfold priceCommercialLines at priced
  obtain ⟨subtotals, each, priced⟩ := bind_ok priced
  obtain ⟨subtotalMinor, subtotal, priced⟩ := bind_ok priced
  obtain ⟨discounted, discounts, priced⟩ := bind_ok priced
  obtain ⟨promotion, -, priced⟩ := bind_ok priced
  cases priced
  have pairs := mapM_ok each
  have small : ∀ subtotal, some subtotal ∈ subtotals → subtotal ≤ maxSafeInteger := by
    intro value member
    obtain ⟨line, -, one⟩ := (paired pairs).2 _ member
    exact (lineSubtotal_inv one).2 value rfl
  have discounting : Discounting subtotals discounted := by
    unfold previewDiscounts at discounts
    split at discounts
    · cases discounts
      exact plain_discounting subtotal
    · next chosen named => exact promoted_discounting (valid chosen named) small discounts
  obtain ⟨unknown, known⟩ := exactSubtotal_inv subtotal
  have parts := priced_lines pairs.length_eq discounting.within.length_eq rfl
  refine ⟨parts.1, ?_, ?_, ?_⟩
  · intro item member whole named
    obtain ⟨⟨line, source, part⟩, inside, rfl⟩ := List.mem_map.mp member
    have pair := (List.of_mem_zip inside).2
    obtain rfl : source = some whole := named
    refine ⟨small whole (List.of_mem_zip pair).1, ?_⟩
    intro discount other
    obtain rfl : part = some discount := other
    exact ⟨List.forall₂_zip discounting.within pair whole discount rfl rfl, rfl⟩
  · intro flat
    have exact_ : none ∉ subtotals := by
      intro inside
      obtain ⟨line, member, one⟩ := (paired pairs).2 _ inside
      exact (lineSubtotal_inv one).1.mp (flat line member) rfl
    obtain ⟨safe, total⟩ := known exact_
    obtain ⟨amounts, lines, sum, within⟩ := discounting.exact exact_ safe
    refine ⟨_, amounts, _, parts.2.1.trans (known_map exact_), parts.2.2.1.trans lines, ?_, total, safe, sum, within_sum within, ?_,
      totals_sum within⟩
    · refine parts.2.2.2.trans ?_
      rw [lines]
      conv_lhs => rw [known_map exact_]
      rw [List.zip_map, List.map_map, List.map_map]
      rfl
    · dsimp only
      rw [total, sum]
      rfl
  · rintro ⟨line, member, tiered⟩
    have inside : none ∈ subtotals := by
      obtain ⟨source, there, one⟩ := (paired pairs).1 line member
      cases source with
      | none => exact there
      | some value => exact absurd ((lineSubtotal_inv one).1.mpr (Option.some_ne_none _)) tiered
    dsimp only
    rw [unknown inside, discounting.unknown inside]
    exact ⟨rfl, rfl, rfl⟩

/-- Discounts of priced lines: a discount of every line within what it costs, a fixed amount split to the last unit, and a preview whose totals
are those of its lines. -/
theorem discounts_exact {raw discount : PromotionDiscount} (valid : normalizeDiscount toUpperCase raw = .ok discount) :
    (∀ currency subtotals result, (∀ subtotal, some subtotal ∈ subtotals → subtotal ≤ maxSafeInteger) →
      applyDiscountToLines toUpperCase subtotals discount currency = .ok result →
        (none ∈ subtotals → result.lineDiscountsMinor = subtotals.map (fun _ => none) ∧ result.discountTotalMinor = none) ∧
        (none ∉ subtotals → ∃ discounts, ExactDiscounts (subtotals.map fun subtotal => subtotal.getD 0) discount
          (discountAmountFor toUpperCase (termAmounts discount.terms) currency) discounts result)) ∧
    ∀ input preview, (∀ promotion, input.promotion = some promotion → promotion.discount = discount) →
      priceCommercialLines toUpperCase input = .ok preview → Agrees input.lines preview := by
  have terms := normalizeDiscount_inv valid
  refine ⟨?_, ?_⟩
  · intro currency subtotals result small applied
    exact ⟨fun unknown => applyDiscount_unknown unknown applied, fun exact_ => applyDiscount_exact terms small exact_ applied⟩
  · intro input preview promoted priced
    exact price_agrees (fun promotion named => promoted promotion named ▸ terms) priced

/-- One unit of a currency off four lines, one of them free. -/
theorem discounts_exact_euro : ∃ discounts, ExactDiscounts [0, 333, 1, 666] ⟨.amount [⟨['E', 'U', 'R'], 100⟩], .once, none⟩
    (discountAmountFor (List.map Char.toUpper) [⟨['E', 'U', 'R'], 100⟩] (some ['e', 'u', 'r'])) discounts
    ⟨[some 0, some 33, some 0, some 67], some 100⟩ := by
  have valid : normalizeDiscount (List.map Char.toUpper) ⟨.amount [⟨[' ', 'e', 'u', 'r'], 100⟩], .once, none⟩ =
      .ok ⟨.amount [⟨['E', 'U', 'R'], 100⟩], .once, none⟩ := by decide
  have applied : applyDiscountToLines (List.map Char.toUpper) [some 0, some 333, some 1, some 666]
      ⟨.amount [⟨['E', 'U', 'R'], 100⟩], .once, none⟩ (some ['e', 'u', 'r']) =
        .ok ⟨[some 0, some 33, some 0, some 67], some 100⟩ := by decide
  have small : ∀ subtotal, some subtotal ∈ [some 0, some 333, some 1, some 666] → subtotal ≤ maxSafeInteger := by
    intro subtotal member
    simp only [List.mem_cons, Option.some.injEq, List.not_mem_nil, or_false] at member
    unfold maxSafeInteger
    omega
  exact ((discounts_exact valid).1 _ _ _ small applied).2 (by decide)

end Prices

end Quotum.CommercialPricing
