import Quotum.General.Joins
import Quotum.SubscriptionChanges

/-! How a provider's report of a subscription or a purchase is merged into the row of its external id. -/

namespace Quotum.Mutations
open General SubscriptionChanges

inductive BillingChannel where
  | ios
  | android
  | web
  deriving DecidableEq

inductive PurchaseKind where
  | subscription
  | consumable
  | nonConsumable
  deriving DecidableEq

inductive PurchaseStatus where
  | completed
  | refunded
  | revoked
  | voided
  deriving DecidableEq

/-- What a subscription is written with. A status of the provider's own is absent where it is the status itself. -/
structure SubscriptionInput where
  customerId : Nat
  productId : Nat
  storeProductId : Nat
  channel : BillingChannel
  providerAccountId : Option Nat
  externalProductId : Text
  externalPriceId : Option Text
  status : SubscriptionStatus
  providerStatus : Option Text
  startsAt : Int
  expiresAt : Option Int
  autoRenew : Bool
  latestTransactionId : Option Text
  currentPeriodStart : Option Int
  currentPeriodEnd : Option Int
  cancelAtPeriodEnd : Bool
  latestProviderObjectId : Option Text
  lastProviderEventCreated : Nat
  enforceProviderEventOrder : Bool
  replaceExpiresAt : Bool
  providerEnded : Bool
  updateProduct : Bool
  allowRestoration : Bool
  identityError : String
  deriving DecidableEq

structure SubscriptionRow where
  customerId : Nat
  productId : Nat
  storeProductId : Nat
  channel : BillingChannel
  providerAccountId : Option Nat
  externalProductId : Text
  externalPriceId : Option Text
  status : SubscriptionStatus
  providerStatus : Text
  startsAt : Int
  expiresAt : Option Int
  currentPeriodStart : Option Int
  currentPeriodEnd : Option Int
  cancelAtPeriodEnd : Bool
  autoRenew : Bool
  latestTransactionId : Option Text
  latestProviderObjectId : Option Text
  lastProviderEventCreated : Nat
  deriving DecidableEq

def statusText : SubscriptionStatus → Text
  | .active => "active".toList
  | .gracePeriod => "grace_period".toList
  | .billingRetry => "billing_retry".toList
  | .cancelled => "cancelled".toList
  | .expired => "expired".toList
  | .refunded => "refunded".toList
  | .revoked => "revoked".toList

def subscriptionStatusRank : SubscriptionStatus → Nat
  | .active => 10
  | .gracePeriod => 20
  | .billingRetry => 30
  | .cancelled => 40
  | .expired => 50
  | .refunded => 60
  | .revoked => 70

def isEndedSubscriptionStatus (status : SubscriptionStatus) : Bool :=
  decide (subscriptionStatusRank .cancelled ≤ subscriptionStatusRank status)

/-- The later of two instants, where an absent one does not count. -/
def greatest (current incoming : Option Int) : Option Int :=
  match current, incoming with
  | none, other => other
  | some at_, none => some at_
  | some at_, some other => some (max at_ other)

def SubscriptionInput.sortAt (input : SubscriptionInput) : Int :=
  input.expiresAt.getD input.startsAt

def SubscriptionRow.sortAt (row : SubscriptionRow) : Int :=
  row.expiresAt.getD row.startsAt

def subscriptionUpdateIsMonotonic (input : SubscriptionInput) (row : SubscriptionRow) : Bool :=
  input.allowRestoration || decide (row.sortAt < input.sortAt) ||
    (decide (input.sortAt = row.sortAt) && decide (subscriptionStatusRank row.status ≤ subscriptionStatusRank input.status)) ||
    (input.providerEnded && decide (subscriptionStatusRank row.status < subscriptionStatusRank input.status))

def SubscriptionInput.updates (input : SubscriptionInput) (row : SubscriptionRow) : Bool :=
  if input.enforceProviderEventOrder = true then decide (row.lastProviderEventCreated ≤ input.lastProviderEventCreated)
  else subscriptionUpdateIsMonotonic input row

def insertedSubscription (input : SubscriptionInput) : SubscriptionRow where
  customerId := input.customerId
  productId := input.productId
  storeProductId := input.storeProductId
  channel := input.channel
  providerAccountId := input.providerAccountId
  externalProductId := input.externalProductId
  externalPriceId := input.externalPriceId
  status := input.status
  providerStatus := input.providerStatus.getD (statusText input.status)
  startsAt := input.startsAt
  expiresAt := input.expiresAt
  currentPeriodStart := input.currentPeriodStart
  currentPeriodEnd := input.currentPeriodEnd
  cancelAtPeriodEnd := input.cancelAtPeriodEnd
  autoRenew := input.autoRenew
  latestTransactionId := input.latestTransactionId
  latestProviderObjectId := input.latestProviderObjectId
  lastProviderEventCreated := input.lastProviderEventCreated

/-- The columns that a write which is not stale replaces. -/
def replacedSubscription (input : SubscriptionInput) (row : SubscriptionRow) : SubscriptionRow :=
  { row with
    productId := if input.updateProduct = true then input.productId else row.productId
    storeProductId := if input.updateProduct = true then input.storeProductId else row.storeProductId
    externalProductId := if input.updateProduct = true then input.externalProductId else row.externalProductId
    externalPriceId := if input.updateProduct = true then input.externalPriceId else row.externalPriceId
    status := input.status
    providerStatus := input.providerStatus.getD (statusText input.status)
    startsAt := if input.updateProduct = true then min row.startsAt input.startsAt else row.startsAt
    expiresAt := if input.replaceExpiresAt = true then input.expiresAt else greatest row.expiresAt input.expiresAt
    currentPeriodStart := input.currentPeriodStart
    currentPeriodEnd := input.currentPeriodEnd
    cancelAtPeriodEnd := input.cancelAtPeriodEnd
    autoRenew := input.autoRenew
    latestTransactionId := input.latestTransactionId
    latestProviderObjectId := input.latestProviderObjectId }

def mergedSubscription (input : SubscriptionInput) (row : SubscriptionRow) : SubscriptionRow :=
  let merged := if input.updates row = true then replacedSubscription input row else row
  { merged with
    providerAccountId := row.providerAccountId.or input.providerAccountId
    lastProviderEventCreated := max row.lastProviderEventCreated input.lastProviderEventCreated }

def SubscriptionInput.identifies (input : SubscriptionInput) (row : SubscriptionRow) : Bool :=
  decide (row.customerId = input.customerId) && decide (row.channel = input.channel) &&
    (input.updateProduct || decide (row.productId = input.productId) && decide (row.storeProductId = input.storeProductId))

def upsertSubscription (input : SubscriptionInput) : Option SubscriptionRow → Except Failure SubscriptionRow
  | none => .ok (insertedSubscription input)
  | some row =>
    if input.identifies row = true then .ok (mergedSubscription input row) else .error (.conflict input.identityError)

structure PurchaseInput where
  customerId : Nat
  productId : Nat
  storeProductId : Option Nat
  subscriptionId : Option Nat
  channel : BillingChannel
  purchaseKind : PurchaseKind
  originalTransactionId : Option Text
  status : PurchaseStatus
  purchasedAt : Int
  invalidatedAt : Option Int
  invalidationReason : Option Text
  updateProductOnConflict : Bool
  allowRestoration : Bool
  amountPaidMinor : Option Nat
  currency : Option Text
  identityError : String
  deriving DecidableEq

structure PurchaseRow where
  customerId : Nat
  productId : Nat
  storeProductId : Option Nat
  subscriptionId : Option Nat
  channel : BillingChannel
  purchaseKind : PurchaseKind
  originalTransactionId : Option Text
  status : PurchaseStatus
  purchasedAt : Int
  invalidatedAt : Option Int
  invalidationReason : Option Text
  amountPaidMinor : Option Nat
  currency : Option Text
  deriving DecidableEq

def purchaseUpdateIsMonotonic (input : PurchaseInput) (row : PurchaseRow) : Bool :=
  input.allowRestoration ||
    (decide (row.status = .completed) && decide (input.status ≠ .completed)) ||
    (decide (input.status ≠ .completed) && decide (row.status ≠ .completed) &&
      decide (row.invalidatedAt.getD row.purchasedAt ≤ input.invalidatedAt.getD input.purchasedAt)) ||
    (decide (input.status = .completed) && decide (row.status = .completed) && decide (row.purchasedAt ≤ input.purchasedAt))

def insertedPurchase (input : PurchaseInput) : PurchaseRow where
  customerId := input.customerId
  productId := input.productId
  storeProductId := input.storeProductId
  subscriptionId := input.subscriptionId
  channel := input.channel
  purchaseKind := input.purchaseKind
  originalTransactionId := input.originalTransactionId
  status := input.status
  purchasedAt := input.purchasedAt
  invalidatedAt := input.invalidatedAt
  invalidationReason := input.invalidationReason
  amountPaidMinor := input.amountPaidMinor
  currency := input.currency

def replacedPurchase (input : PurchaseInput) (row : PurchaseRow) : PurchaseRow :=
  { row with
    productId := if input.updateProductOnConflict = true then input.productId else row.productId
    storeProductId := if input.updateProductOnConflict = true then input.storeProductId else row.storeProductId
    subscriptionId := input.subscriptionId
    originalTransactionId := input.originalTransactionId
    status := input.status
    purchasedAt := max row.purchasedAt input.purchasedAt
    invalidatedAt := if input.allowRestoration = true then input.invalidatedAt else greatest row.invalidatedAt input.invalidatedAt
    invalidationReason := input.invalidationReason }

def mergedPurchase (input : PurchaseInput) (row : PurchaseRow) : PurchaseRow :=
  let merged := if purchaseUpdateIsMonotonic input row = true then replacedPurchase input row else row
  { merged with
    amountPaidMinor := row.amountPaidMinor.or input.amountPaidMinor
    currency := row.currency.or input.currency }

def PurchaseInput.identifies (input : PurchaseInput) (row : PurchaseRow) : Bool :=
  decide (row.customerId = input.customerId) && decide (row.channel = input.channel) &&
    decide (row.purchaseKind = input.purchaseKind) &&
    (input.updateProductOnConflict ||
      decide (row.productId = input.productId) && decide (row.storeProductId = input.storeProductId))

def upsertPurchase (input : PurchaseInput) : Option PurchaseRow → Except Failure PurchaseRow
  | none => .ok (insertedPurchase input)
  | some row =>
    if input.identifies row = true then .ok (mergedPurchase input row) else .error (.conflict input.identityError)

/-- What an app store reports of a subscription, with the account and the store product it resolves to. -/
structure StoreSubscription where
  customerId : Nat
  productId : Nat
  storeProductId : Nat
  channel : BillingChannel
  externalProductId : Text
  externalPriceId : Option Text
  subscriptionStatus : Option SubscriptionStatus
  purchasedAt : Int
  expiresAt : Option Int
  autoRenew : Option Bool
  latestTransactionId : Option Text
  allowRestoration : Bool
  deriving DecidableEq

/-- The write of an app store's report. A report without a status of its own has the one that is given. -/
def StoreSubscription.input (without : SubscriptionStatus) (identityError : String) (report : StoreSubscription) : SubscriptionInput where
  customerId := report.customerId
  productId := report.productId
  storeProductId := report.storeProductId
  channel := report.channel
  providerAccountId := none
  externalProductId := report.externalProductId
  externalPriceId := report.externalPriceId
  status := report.subscriptionStatus.getD without
  providerStatus := none
  startsAt := report.purchasedAt
  expiresAt := report.expiresAt
  autoRenew := report.autoRenew.getD false
  latestTransactionId := report.latestTransactionId
  currentPeriodStart := some report.purchasedAt
  currentPeriodEnd := report.expiresAt
  cancelAtPeriodEnd := false
  latestProviderObjectId := none
  lastProviderEventCreated := 0
  enforceProviderEventOrder := false
  replaceExpiresAt := false
  providerEnded := false
  updateProduct := false
  allowRestoration := report.allowRestoration
  identityError := identityError

def appleSubscription (originalTransactionId : String) : StoreSubscription → SubscriptionInput :=
  StoreSubscription.input .refunded ("subscription identity mismatch for provider apple original transaction " ++ originalTransactionId)

def googleSubscription (purchaseToken : String) (report : StoreSubscription) : SubscriptionInput :=
  { report.input .expired ("subscription identity mismatch for provider google purchase token " ++ purchaseToken) with
    allowRestoration := false }

/-- The row after reports that arrive one after the other. -/
def upsertSubscriptions (inputs : List SubscriptionInput) (row : Option SubscriptionRow) : Except Failure (Option SubscriptionRow) :=
  mergeAll (fun stored input => upsertSubscription input stored) inputs row

def upsertPurchases (inputs : List PurchaseInput) (row : Option PurchaseRow) : Except Failure (Option PurchaseRow) :=
  mergeAll (fun stored input => upsertPurchase input stored) inputs row

end Quotum.Mutations
