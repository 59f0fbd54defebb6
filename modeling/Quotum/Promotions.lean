import Quotum.General.Outcomes
import Quotum.General.Table

/-! Promotion codes and their redemptions: uses reserved, applied, released, swept, recorded from hosted checkouts and
reversed, and the two counters that each code keeps of them. An operation is one transaction. -/

namespace Quotum.Promotions
open General

inductive PromotionChannel where
  | web
  | ios
  | android
  deriving DecidableEq

inductive PromotionRedemptionStatus where
  | reserved
  | applied
  | released
  | reversed
  deriving DecidableEq

inductive PromotionProvider where
  | quotum
  | stripe
  | apple
  | google
  deriving DecidableEq

inductive PromotionLimitViolation where
  | global
  | firstPurchase
  | notApplicable
  | inactive
  | expired
  deriving DecidableEq

inductive PromotionErrorCode where
  | codeNotFound
  | codeInactive
  | codeNotStarted
  | codeExpired
  | channelNotSupported
  | codeExhausted
  | codeAlreadyRedeemed
  | firstPurchaseOnly
  | idempotencyConflict
  | redemptionNotFound
  | redemptionAlreadyReversed
  | redemptionNotRevocable
  deriving DecidableEq

structure PromotionCode where
  id : Nat
  promotionActive : Bool
  allowedChannels : List PromotionChannel
  active : Bool
  startsAt : Option Int
  expiresAt : Option Int
  billingAccountId : Option Nat
  maxRedemptions : Option Int
  maxRedemptionsPerCustomer : Option Nat
  firstPurchaseOnly : Bool
  redeemedCount : Int
  reservedCount : Int
  deriving DecidableEq

inductive IdempotencyKey where
  | request (key : Nat)
  | checkout (sessionId : Nat)
  deriving DecidableEq

/-- What a redemption's hash is taken of. Every caller hashes the promotion code with the rest of its request, or a referral
reward, which names its code. -/
inductive RequestHash where
  | request (promotionCodeId rest : Nat)
  | checkout (sessionId : Nat)
  deriving DecidableEq

structure PromotionRedemption where
  id : Nat
  promotionCodeId : Nat
  customerId : Nat
  provider : PromotionProvider
  status : PromotionRedemptionStatus
  subscriptionChangeId : Option Nat
  purchaseId : Option Nat
  stripeCheckoutSessionId : Option Nat
  limitViolation : Option PromotionLimitViolation
  idempotencyKey : IdempotencyKey
  requestHash : RequestHash
  reservedUntil : Option Int
  deriving DecidableEq

structure PromotionState where
  codes : List PromotionCode
  redemptions : List PromotionRedemption
  deriving DecidableEq

structure Surroundings where
  now : Int
  openChange : Nat → Bool
  hasPurchased : Nat → Bool

structure ReserveInput where
  customerId : Nat
  billingAccountId : Nat
  promotionCodeId : Nat
  channel : PromotionChannel
  provider : PromotionProvider
  idempotencyKey : Nat
  rest : Nat
  reservedUntil : Option Int
  subscriptionChangeId : Option Nat
  deriving DecidableEq

def ReserveInput.requestHash (input : ReserveInput) : RequestHash :=
  .request input.promotionCodeId input.rest

structure ApplyInput where
  redemptionId : Nat
  purchaseId : Option Nat
  stripeCheckoutSessionId : Option Nat
  deriving DecidableEq

/-- A completed Checkout Session: the reservation it carried, and what each Stripe promotion code typed there maps to. -/
structure CheckoutPromotion where
  customerId : Nat
  purchaseId : Option Nat
  redemptionId : Option Nat
  checkoutSessionId : Nat
  promotionCodeIds : List (Option Nat)
  deriving DecidableEq

namespace PromotionCode

def promotionCodeUnavailability (code : PromotionCode) (now : Int) (billingAccountId : Nat) (channel : PromotionChannel) :
    Option PromotionErrorCode :=
  if code.billingAccountId.any fun owner => owner != billingAccountId then
    some .codeNotFound
  else if !code.active || !code.promotionActive then
    some .codeInactive
  else if code.startsAt.any fun start => decide (now < start) then
    some .codeNotStarted
  else if code.expiresAt.any fun expiry => decide (expiry ≤ now) then
    some .codeExpired
  else if !code.allowedChannels.contains channel then
    some .channelNotSupported
  else if code.maxRedemptions.any fun cap => decide (cap ≤ code.redeemedCount + code.reservedCount) then
    some .codeExhausted
  else none

def available (code : PromotionCode) (now : Int) : Bool :=
  code.promotionActive && code.active &&
  (code.startsAt.all fun start => decide (start ≤ now)) &&
  (code.expiresAt.all fun expiry => decide (now < expiry)) &&
  (code.maxRedemptions.all fun cap => decide (code.redeemedCount + code.reservedCount < cap))

def overCap (code : PromotionCode) : Bool :=
  code.maxRedemptions.any fun cap => decide (cap < code.redeemedCount + code.reservedCount)

def take (reserve : Bool) (code : PromotionCode) : PromotionCode :=
  { code with
    reservedCount := code.reservedCount + if reserve then 1 else 0
    redeemedCount := code.redeemedCount + if reserve then 0 else 1 }

def countRedeemed (code : PromotionCode) : PromotionCode :=
  { code with redeemedCount := code.redeemedCount + 1 }

def deactivate (code : PromotionCode) : PromotionCode :=
  { code with active := false }

end PromotionCode

namespace PromotionRedemption

def release (redemption : PromotionRedemption) : PromotionRedemption :=
  { redemption with status := .released }

@[simp] theorem release_status (redemption : PromotionRedemption) : redemption.release.status = .released :=
  rfl

@[simp] theorem release_promotionCodeId (redemption : PromotionRedemption) :
    redemption.release.promotionCodeId = redemption.promotionCodeId :=
  rfl

def reverse (redemption : PromotionRedemption) : PromotionRedemption :=
  { redemption with status := .reversed }

/-- The update of a released row, which takes a use again. -/
def reserveAgain (reservedUntil : Option Int) (redemption : PromotionRedemption) : PromotionRedemption :=
  if redemption.status = .released then
    { redemption with
      status := if reservedUntil.isSome then .reserved else .applied
      reservedUntil := reservedUntil }
  else redemption

def apply (input : ApplyInput) (violation : Option PromotionLimitViolation) (redemption : PromotionRedemption) :
    PromotionRedemption :=
  { redemption with
    status := .applied
    limitViolation := redemption.limitViolation.or violation
    purchaseId := input.purchaseId.or redemption.purchaseId
    stripeCheckoutSessionId := input.stripeCheckoutSessionId.or redemption.stripeCheckoutSessionId }

def attach (checkoutSessionId : Nat) (reservedUntil : Int) (redemption : PromotionRedemption) : PromotionRedemption :=
  if redemption.status = .reserved then
    { redemption with
      stripeCheckoutSessionId := redemption.stripeCheckoutSessionId.or (some checkoutSessionId)
      reservedUntil := some (redemption.reservedUntil.elim reservedUntil (max reservedUntil)) }
  else redemption

/-- A reservation whose deadline passed, unless an open subscription change still waits for it. -/
def isExpired (around : Surroundings) (redemption : PromotionRedemption) : Bool :=
  redemption.status == .reserved &&
  (redemption.reservedUntil.any fun deadline => decide (deadline ≤ around.now)) &&
  !redemption.subscriptionChangeId.any around.openChange

def takesUse (redemption : PromotionRedemption) : Bool :=
  redemption.status == .reserved || redemption.status == .applied || redemption.status == .reversed

def sweptBefore (first second : PromotionRedemption) : Prop :=
  toLex (first.reservedUntil.getD 0, first.id) ≤ toLex (second.reservedUntil.getD 0, second.id)

instance : DecidableRel sweptBefore :=
  fun first second => inferInstanceAs (Decidable (toLex (first.reservedUntil.getD 0, first.id) ≤ toLex (second.reservedUntil.getD 0, second.id)))

end PromotionRedemption

def freshId (redemptions : List PromotionRedemption) : Nat :=
  (redemptions.map PromotionRedemption.id).foldr max 0 + 1

def nonNegative (count : Int) : Int :=
  max count 0

section Operations
variable (clamp : Int → Int)

def PromotionCode.giveBack (count : Nat) (code : PromotionCode) : PromotionCode :=
  { code with reservedCount := clamp (code.reservedCount - count) }

def PromotionCode.confirm (status : PromotionRedemptionStatus) (code : PromotionCode) : PromotionCode :=
  { code with
    reservedCount := if status = .reserved then clamp (code.reservedCount - 1) else code.reservedCount
    redeemedCount := code.redeemedCount + 1 }

def releaseReservations (picked : PromotionRedemption → Bool) (state : PromotionState) : PromotionState where
  codes := state.codes.map fun code =>
    let count := state.redemptions.countP fun redemption => picked redemption && redemption.promotionCodeId == code.id
    if count = 0 then code else code.giveBack clamp count
  redemptions := state.redemptions.map fun redemption => if picked redemption then redemption.release else redemption

def reservation (input : ReserveInput) (redemptions : List PromotionRedemption) : PromotionRedemption where
  id := freshId redemptions
  promotionCodeId := input.promotionCodeId
  customerId := input.customerId
  provider := input.provider
  status := if input.reservedUntil.isSome then .reserved else .applied
  subscriptionChangeId := input.subscriptionChangeId
  purchaseId := none
  stripeCheckoutSessionId := none
  limitViolation := none
  idempotencyKey := .request input.idempotencyKey
  requestHash := input.requestHash
  reservedUntil := input.reservedUntil

/-- The redemption of a use taken: a new row, or the released row of the same request. -/
def storeUse (input : ReserveInput) (existing : Option PromotionRedemption) (redemptions : List PromotionRedemption) :
    List PromotionRedemption :=
  match existing with
  | none => redemptions ++ [reservation input redemptions]
  | some row => updateAt PromotionRedemption.id row.id (PromotionRedemption.reserveAgain input.reservedUntil) redemptions

/-- Takes one use of the code for a new redemption, or for the released one of the same request. -/
def takeUse (around : Surroundings) (input : ReserveInput) (existing : Option PromotionRedemption) (stored : PromotionState) :
    Except PromotionErrorCode PromotionState :=
  let state := releaseReservations clamp (fun redemption => redemption.customerId == input.customerId &&
    redemption.promotionCodeId == input.promotionCodeId && redemption.isExpired around) stored
  match findAt PromotionCode.id input.promotionCodeId state.codes with
  | none => .error .codeNotFound
  | some code =>
    match code.promotionCodeUnavailability around.now input.billingAccountId input.channel with
    | some unavailable => .error unavailable
    | none =>
      let used := state.redemptions.countP fun redemption => redemption.promotionCodeId == input.promotionCodeId &&
        redemption.customerId == input.customerId && redemption.takesUse
      if code.maxRedemptionsPerCustomer.any fun cap => decide (cap ≤ used) then
        .error .codeAlreadyRedeemed
      else if code.firstPurchaseOnly && around.hasPurchased input.customerId then
        .error .firstPurchaseOnly
      else if !code.available around.now then
        .error .codeExhausted
      else
        .ok {
          codes := updateAt PromotionCode.id input.promotionCodeId (PromotionCode.take input.reservedUntil.isSome) state.codes
          redemptions := storeUse input existing state.redemptions }

def reservePromotionRedemption (around : Surroundings) (input : ReserveInput) (state : PromotionState) :
    Except PromotionErrorCode PromotionState :=
  match state.redemptions.find? fun redemption => redemption.customerId == input.customerId &&
      redemption.idempotencyKey == .request input.idempotencyKey with
  | none => takeUse clamp around input none state
  | some existing =>
    if existing.requestHash ≠ input.requestHash then
      .error .idempotencyConflict
    else if existing.status ≠ .released then
      .ok state
    else takeUse clamp around input (some existing) state

/-- Counts the use of a redemption that the provider executed, also of one already released; an overrun is recorded. -/
def confirmUse (input : ApplyInput) (current : PromotionRedemption) (state : PromotionState) : PromotionState :=
  let codes := updateAt PromotionCode.id current.promotionCodeId (PromotionCode.confirm clamp current.status) state.codes
  let overCap := (findAt PromotionCode.id current.promotionCodeId codes).any PromotionCode.overCap
  let violation := if current.status = .released ∧ overCap then some .global else none
  { codes := codes
    redemptions := updateAt PromotionRedemption.id current.id (PromotionRedemption.apply input violation) state.redemptions }

def applyPromotionRedemption (input : ApplyInput) (state : PromotionState) : Except PromotionErrorCode PromotionState :=
  match findAt PromotionRedemption.id input.redemptionId state.redemptions with
  | none => .error .redemptionNotFound
  | some current =>
    if current.status = .applied ∨ current.status = .reversed then .ok state
    else .ok (confirmUse clamp input current state)

def releasePromotionRedemption (redemptionId : Nat) (state : PromotionState) : Except PromotionErrorCode PromotionState :=
  match findAt PromotionRedemption.id redemptionId state.redemptions with
  | none => .error .redemptionNotFound
  | some current =>
    if current.status ≠ .reserved then .ok state
    else
      .ok {
        codes := updateAt PromotionCode.id current.promotionCodeId (PromotionCode.giveBack clamp 1) state.codes
        redemptions := updateAt PromotionRedemption.id current.id PromotionRedemption.release state.redemptions }

/-- The expired reservations that the sweep takes, at most `limit` and none that another transaction has locked. -/
def sweptReservations (around : Surroundings) (locked : Nat → Bool) (limit : Nat) (redemptions : List PromotionRedemption) :
    List PromotionRedemption :=
  ((redemptions.filter fun redemption => redemption.isExpired around && !locked redemption.id).insertionSort
    PromotionRedemption.sweptBefore).take limit

def releaseExpiredPromotionReservations (around : Surroundings) (locked : Nat → Bool) (limit : Nat) (state : PromotionState) :
    PromotionState :=
  let expired := sweptReservations around locked limit state.redemptions
  releaseReservations clamp (fun redemption => expired.any fun swept => swept.id == redemption.id) state

def ownedRedemption (input : CheckoutPromotion) (state : PromotionState) : Option PromotionRedemption :=
  input.redemptionId.bind fun redemptionId => state.redemptions.find? fun redemption =>
    redemption.id == redemptionId && redemption.customerId == input.customerId &&
    redemption.stripeCheckoutSessionId.all fun session => session == input.checkoutSessionId

def hostedUse (input : CheckoutPromotion) (promotionCodeId : Nat) (limitViolation : Option PromotionLimitViolation)
    (redemptions : List PromotionRedemption) : PromotionRedemption where
  id := freshId redemptions
  promotionCodeId := promotionCodeId
  customerId := input.customerId
  provider := .stripe
  status := .applied
  subscriptionChangeId := none
  purchaseId := input.purchaseId
  stripeCheckoutSessionId := some input.checkoutSessionId
  limitViolation := limitViolation
  idempotencyKey := .checkout input.checkoutSessionId
  requestHash := .checkout input.checkoutSessionId
  reservedUntil := none

/-- Records the use of one Stripe promotion code, once for a checkout session and also past the cap. -/
def recordHostedUse (input : CheckoutPromotion) (state : PromotionState) (mapping : Option Nat) : PromotionState :=
  match mapping with
  | none => state
  | some promotionCodeId =>
    if state.redemptions.any fun redemption => redemption.customerId == input.customerId &&
        redemption.idempotencyKey == .checkout input.checkoutSessionId ||
        redemption.stripeCheckoutSessionId == some input.checkoutSessionId then state
    else
      let codes := updateAt PromotionCode.id promotionCodeId PromotionCode.countRedeemed state.codes
      let overCap := (findAt PromotionCode.id promotionCodeId codes).any PromotionCode.overCap
      { codes := codes
        redemptions := state.redemptions ++
          [hostedUse input promotionCodeId (if overCap then some .global else none) state.redemptions] }

def recordCheckoutPromotion (input : CheckoutPromotion) (state : PromotionState) : Except PromotionErrorCode PromotionState :=
  match ownedRedemption input state with
  | some owned => applyPromotionRedemption clamp ⟨owned.id, input.purchaseId, some input.checkoutSessionId⟩ state
  | none => .ok (input.promotionCodeIds.foldl (recordHostedUse input) state)

def reversePromotionRedemptionsForPurchase (purchaseId : Nat) (state : PromotionState) : PromotionState :=
  { state with
    redemptions := state.redemptions.map fun redemption =>
      if redemption.purchaseId = some purchaseId ∧ redemption.status = .applied then redemption.reverse else redemption }

def reversePromotionRedemption (redemptionId : Nat) (state : PromotionState) : Except PromotionErrorCode PromotionState :=
  match findAt PromotionRedemption.id redemptionId state.redemptions with
  | none => .error .redemptionNotFound
  | some current =>
    if current.status = .reversed then .error .redemptionAlreadyReversed
    else if current.status ≠ .applied ∨ current.provider ≠ .quotum then .error .redemptionNotRevocable
    else .ok { state with
      redemptions := updateAt PromotionRedemption.id current.id PromotionRedemption.reverse state.redemptions }

def attachPromotionCheckoutSession (redemptionId checkoutSessionId : Nat) (reservedUntil : Int) (state : PromotionState) :
    PromotionState :=
  { state with
    redemptions := updateAt PromotionRedemption.id redemptionId (PromotionRedemption.attach checkoutSessionId reservedUntil)
      state.redemptions }

def deactivatePromotionCode (promotionCodeId : Nat) (state : PromotionState) : PromotionState :=
  { state with codes := updateAt PromotionCode.id promotionCodeId PromotionCode.deactivate state.codes }

inductive PromotionOperation where
  | reserve (around : Surroundings) (input : ReserveInput)
  | apply (input : ApplyInput)
  | release (redemptionId : Nat)
  | sweep (around : Surroundings) (locked : Nat → Bool) (limit : Nat)
  | checkout (input : CheckoutPromotion)
  | refund (purchaseId : Nat)
  | revoke (redemptionId : Nat)
  | attach (redemptionId checkoutSessionId : Nat) (reservedUntil : Int)
  | deactivate (promotionCodeId : Nat)

def perform (operation : PromotionOperation) (state : PromotionState) : Except PromotionErrorCode PromotionState :=
  match operation with
  | .reserve around input => reservePromotionRedemption clamp around input state
  | .apply input => applyPromotionRedemption clamp input state
  | .release redemptionId => releasePromotionRedemption clamp redemptionId state
  | .sweep around locked limit => .ok (releaseExpiredPromotionReservations clamp around locked limit state)
  | .checkout input => recordCheckoutPromotion clamp input state
  | .refund purchaseId => .ok (reversePromotionRedemptionsForPurchase purchaseId state)
  | .revoke redemptionId => reversePromotionRedemption redemptionId state
  | .attach redemptionId checkoutSessionId reservedUntil =>
    .ok (attachPromotionCheckoutSession redemptionId checkoutSessionId reservedUntil state)
  | .deactivate promotionCodeId => .ok (deactivatePromotionCode promotionCodeId state)

/-- The state after an operation. One that fails is rolled back. -/
def after (state : PromotionState) (operation : PromotionOperation) : PromotionState :=
  match perform clamp operation state with
  | .ok next => next
  | .error _ => state

end Operations

/-- The state after operations that any clients make one after the other. -/
def run (state : PromotionState) (operations : List PromotionOperation) : PromotionState :=
  operations.foldl (after nonNegative) state

structure PromotionState.Unused (state : PromotionState) : Prop where
  distinct : (state.codes.map PromotionCode.id).Nodup
  uncounted : ∀ code ∈ state.codes, code.redeemedCount = 0 ∧ code.reservedCount = 0
  capped : ∀ code ∈ state.codes, ∀ cap, code.maxRedemptions = some cap → 0 < cap
  unredeemed : state.redemptions = []

def reservedUses (promotionCodeId : Nat) (redemptions : List PromotionRedemption) : Nat :=
  redemptions.countP fun redemption => redemption.promotionCodeId == promotionCodeId && redemption.status == .reserved

def redeemedUses (promotionCodeId : Nat) (redemptions : List PromotionRedemption) : Nat :=
  redemptions.countP fun redemption => redemption.promotionCodeId == promotionCodeId &&
    (redemption.status == .applied || redemption.status == .reversed)

def globalViolations (promotionCodeId : Nat) (redemptions : List PromotionRedemption) : Nat :=
  redemptions.countP fun redemption => redemption.promotionCodeId == promotionCodeId &&
    redemption.limitViolation == some .global

/-- The operation applies a redemption of the code that was released before. -/
def appliesLate (promotionCodeId : Nat) (state : PromotionState) (operation : PromotionOperation) : Bool :=
  let late (redemption : PromotionRedemption) := redemption.promotionCodeId == promotionCodeId && redemption.status == .released
  match operation with
  | .apply input => (findAt PromotionRedemption.id input.redemptionId state.redemptions).any late
  | .checkout input => (ownedRedemption input state).any late
  | _ => false

def recordsHosted (promotionCodeId : Nat) (state : PromotionState) (operation : PromotionOperation) : Bool :=
  match operation with
  | .checkout input => (ownedRedemption input state).isNone && input.promotionCodeIds.contains (some promotionCodeId)
  | _ => false

/-- A run in which no operation applies a use of the code late or records a hosted one. -/
def neverForced (promotionCodeId : Nat) : PromotionState → List PromotionOperation → Bool
  | _, [] => true
  | state, operation :: rest =>
    !appliesLate promotionCodeId state operation && !recordsHosted promotionCodeId state operation &&
    neverForced promotionCodeId (after nonNegative state operation) rest

end Quotum.Promotions
