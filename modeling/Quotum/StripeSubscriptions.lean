import Quotum.General.Newest
import Quotum.General.Outcomes
import Quotum.General.Table
import Quotum.Mutations

/-! One Stripe subscription of one store product: its subscription and invoice events, the row they are recorded in, its invoice
facts and its items. Instants are in seconds. -/

namespace Quotum.StripeSubscriptions
open General Mutations SubscriptionChanges

inductive StripeStatus where
  | active
  | trialing
  | pastDue
  | incomplete
  | paused
  | canceled
  | unpaid
  | incompleteExpired
  deriving DecidableEq

def StripeStatus.text : StripeStatus → Text
  | .active => "active".toList
  | .trialing => "trialing".toList
  | .pastDue => "past_due".toList
  | .incomplete => "incomplete".toList
  | .paused => "paused".toList
  | .canceled => "canceled".toList
  | .unpaid => "unpaid".toList
  | .incompleteExpired => "incomplete_expired".toList

structure StripeItem where
  providerSubscriptionItemId : Nat
  externalPriceId : Nat
  quantity : Nat
  currentPeriodStart : Option Int
  currentPeriodEnd : Option Int
  deriving DecidableEq

structure StripeSnapshot where
  eventId : Nat
  eventCreated : Nat
  status : StripeStatus
  created : Int
  endedAt : Option Int
  currentPeriodStart : Option Int
  currentPeriodEnd : Option Int
  cancelAtPeriodEnd : Bool
  trialStart : Option Int
  trialEnd : Option Int
  latestInvoice : Option Text
  items : List StripeItem
  deriving DecidableEq

structure StripeInvoice where
  eventId : Nat
  eventCreated : Nat
  invoiceId : Text
  status : Text
  created : Int
  periodStart : Option Int
  periodEnd : Option Int
  deriving DecidableEq

structure InvoiceFact where
  externalInvoiceId : Text
  status : Text
  deriving DecidableEq

structure StripeCommand where
  eventId : Nat
  providerEventCreated : Nat
  subscriptionStatus : SubscriptionStatus
  providerStatus : Text
  purchasedAt : Int
  expiresAt : Option Int
  currentPeriodStart : Option Int
  trialStart : Option Int
  trialEnd : Option Int
  cancelAtPeriodEnd : Bool
  autoRenew : Bool
  invoiceId : Option Text
  invoice : Option InvoiceFact
  items : List StripeItem
  deriving DecidableEq

def paidStatus : Text :=
  "paid".toList

def mapStripeSubscriptionStatus (status : StripeStatus) (expiresAt : Option Int) (now : Int) : SubscriptionStatus :=
  match status with
  | .active | .trialing => .active
  | .pastDue | .incomplete | .paused => .billingRetry
  | .canceled => if expiresAt.any fun expiry => decide (expiry ≤ now) then .expired else .cancelled
  | .unpaid | .incompleteExpired => .expired

def normalizeStripeProviderStatus (status : StripeStatus) : Text :=
  match status with
  | .canceled => "cancelled".toList
  | .incomplete | .incompleteExpired | .paused => "unpaid".toList
  | other => other.text

def stripeSubscriptionAutoRenew (status : StripeStatus) (cancelAtPeriodEnd : Bool) : Bool :=
  if cancelAtPeriodEnd then false else status == .active || status == .trialing || status == .pastDue

/-- A subscription that ended expires then, not at the period it was paid through. -/
def subscriptionExpiresAt (snapshot : StripeSnapshot) : Option Int :=
  snapshot.endedAt.or (snapshot.currentPeriodEnd.or (snapshot.items.filterMap StripeItem.currentPeriodEnd).max?)

def subscriptionStartsAt (snapshot : StripeSnapshot) : Option Int :=
  snapshot.currentPeriodStart.or (snapshot.items.filterMap StripeItem.currentPeriodStart).min?

def normalizeStripeSubscription (now : Int) (snapshot : StripeSnapshot) : StripeCommand where
  eventId := snapshot.eventId
  providerEventCreated := snapshot.eventCreated
  subscriptionStatus := mapStripeSubscriptionStatus snapshot.status (subscriptionExpiresAt snapshot) now
  providerStatus := normalizeStripeProviderStatus snapshot.status
  purchasedAt := snapshot.created
  expiresAt := subscriptionExpiresAt snapshot
  currentPeriodStart := subscriptionStartsAt snapshot
  trialStart := snapshot.trialStart
  trialEnd := snapshot.trialEnd
  cancelAtPeriodEnd := snapshot.cancelAtPeriodEnd
  autoRenew := stripeSubscriptionAutoRenew snapshot.status snapshot.cancelAtPeriodEnd
  invoiceId := snapshot.latestInvoice
  invoice := none
  items := snapshot.items

def normalizeStripeInvoice (invoice : StripeInvoice) : StripeCommand where
  eventId := invoice.eventId
  providerEventCreated := invoice.eventCreated
  subscriptionStatus := if invoice.status = paidStatus then .active else .billingRetry
  providerStatus := if invoice.status = paidStatus then "active".toList else "past_due".toList
  purchasedAt := invoice.created
  expiresAt := invoice.periodEnd
  currentPeriodStart := invoice.periodStart
  trialStart := none
  trialEnd := none
  cancelAtPeriodEnd := false
  autoRenew := true
  invoiceId := some invoice.invoiceId
  invoice := some ⟨invoice.invoiceId, invoice.status⟩
  items := []

/-- The account and the store product that the subscription's events resolve to, and the price components of its version. -/
structure StripeTarget where
  customerId : Nat
  productId : Nat
  storeProductId : Nat
  providerAccountId : Option Nat
  stripeSubscriptionId : Text
  externalProductId : Text
  externalPriceId : Option Text
  configured : Bool
  component : Nat → Option Nat

structure SubscriptionItem where
  priceComponentId : Nat
  providerSubscriptionItemId : Option Nat
  quantity : Nat
  active : Bool
  deriving DecidableEq

structure BillingInvoice where
  id : Nat
  externalInvoiceId : Text
  status : Text
  lastProviderEventCreated : Nat
  deriving DecidableEq

structure StripeSubscription where
  row : SubscriptionRow
  trialStart : Option Int
  trialEnd : Option Int
  items : List SubscriptionItem
  invoices : List BillingInvoice
  deriving DecidableEq

structure StripeState where
  subscription : Option StripeSubscription
  processed : List Nat
  deriving DecidableEq

structure SubscriptionOrderState where
  order : Nat
  status : SubscriptionStatus
  periodStart : Option Int
  periodEnd : Option Int

def endsEarlier (incoming recorded : SubscriptionOrderState) : Bool :=
  match incoming.periodEnd, recorded.periodEnd with
  | some incomingEnd, some recordedEnd => decide (incomingEnd < recordedEnd)
  | _, _ => false

def startsNoEarlier (incoming recorded : SubscriptionOrderState) : Bool :=
  match incoming.periodStart, recorded.periodStart with
  | some incomingStart, some recordedStart => decide (recordedStart ≤ incomingStart)
  | _, _ => false

/-- Whether an event is older than the recorded state. Within one second an ending wins over a live state, and otherwise the
later period end. -/
def isStaleStripeSubscriptionEvent (incoming recorded : SubscriptionOrderState) : Bool :=
  if incoming.order ≠ recorded.order then
    decide (incoming.order < recorded.order)
  else if isEndedSubscriptionStatus recorded.status && !isEndedSubscriptionStatus incoming.status then
    true
  else if endsEarlier incoming recorded then
    !(isEndedSubscriptionStatus incoming.status && !isEndedSubscriptionStatus recorded.status && startsNoEarlier incoming recorded)
  else false

structure LifecycleState where
  status : SubscriptionStatus
  providerStatus : Text
  autoRenew : Bool
  cancelAtPeriodEnd : Bool
  trialStart : Option Int
  trialEnd : Option Int
  deriving DecidableEq

def StripeCommand.lifecycle (command : StripeCommand) : LifecycleState where
  status := command.subscriptionStatus
  providerStatus := command.providerStatus
  autoRenew := command.autoRenew
  cancelAtPeriodEnd := command.cancelAtPeriodEnd
  trialStart := command.trialStart
  trialEnd := command.trialEnd

def StripeSubscription.lifecycle (subscription : StripeSubscription) : LifecycleState where
  status := subscription.row.status
  providerStatus := subscription.row.providerStatus
  autoRenew := subscription.row.autoRenew
  cancelAtPeriodEnd := subscription.row.cancelAtPeriodEnd
  trialStart := subscription.trialStart
  trialEnd := subscription.trialEnd

def invoiceAdjustable (status : SubscriptionStatus) : Bool :=
  status == .active || status == .gracePeriod || status == .billingRetry

def invoiceRecoverable (status : SubscriptionStatus) : Bool :=
  status == .gracePeriod || status == .billingRetry

def LifecycleState.pay (outcome : SubscriptionStatus) (providerStatus : Text) (existing : LifecycleState) : LifecycleState :=
  if invoiceAdjustable existing.status && (outcome == .billingRetry || invoiceRecoverable existing.status) then
    { existing with status := outcome, providerStatus := providerStatus }
  else existing

def stripeSubscriptionLifecycleState (command : StripeCommand) (existing : Option LifecycleState) : LifecycleState :=
  match existing with
  | none => command.lifecycle
  | some existing =>
    if command.invoice.isNone then command.lifecycle
    else existing.pay command.subscriptionStatus command.providerStatus

def latestSubscriptionInvoice (invoices : List BillingInvoice) : Option BillingInvoice :=
  newest (fun invoice => some (invoice.lastProviderEventCreated : Int)) BillingInvoice.id invoices

/-- The lifecycle that a later payment makes of a snapshot. -/
def adjustedLifecycle (command : StripeCommand) (existing : Option StripeSubscription) : LifecycleState :=
  let lifecycle := stripeSubscriptionLifecycleState command (existing.map StripeSubscription.lifecycle)
  match existing.bind fun subscription => latestSubscriptionInvoice subscription.invoices with
  | none => lifecycle
  | some payment =>
    if command.providerEventCreated < payment.lastProviderEventCreated then
      if payment.status = paidStatus then lifecycle.pay .active "active".toList
      else lifecycle.pay .billingRetry "past_due".toList
    else lifecycle

/-- Records what an invoice event says of its invoice, unless a newer event did. -/
def upsertSubscriptionInvoiceFact (command : StripeCommand) (invoices : List BillingInvoice) : List BillingInvoice :=
  match command.invoice with
  | none => invoices
  | some fact =>
    if invoices.any fun invoice => invoice.externalInvoiceId == fact.externalInvoiceId then
      updateAt BillingInvoice.externalInvoiceId fact.externalInvoiceId (fun invoice =>
        if invoice.lastProviderEventCreated ≤ command.providerEventCreated then
          { invoice with status := fact.status, lastProviderEventCreated := command.providerEventCreated }
        else invoice) invoices
    else
      invoices ++ [⟨invoices.length, fact.externalInvoiceId, fact.status, command.providerEventCreated⟩]

def SubscriptionItem.end (item : SubscriptionItem) : SubscriptionItem :=
  { item with active := false }

def SubscriptionItem.detach (providerSubscriptionItemId priceComponentId : Nat) (item : SubscriptionItem) : SubscriptionItem :=
  if item.providerSubscriptionItemId = some providerSubscriptionItemId ∧ item.priceComponentId ≠ priceComponentId then
    { item with providerSubscriptionItemId := none, active := false }
  else item

def upsertItem (priceComponentId : Nat) (item : StripeItem) (rows : List SubscriptionItem) : List SubscriptionItem :=
  let attached : SubscriptionItem := ⟨priceComponentId, some item.providerSubscriptionItemId, item.quantity, true⟩
  if rows.any fun row => row.priceComponentId == priceComponentId then
    updateAt SubscriptionItem.priceComponentId priceComponentId (fun _ => attached) rows
  else rows ++ [attached]

/-- One provider item: the row it is attached to, if its price is bound, or the row that tracks it. -/
def syncItem (target : StripeTarget) (rows : List SubscriptionItem) (activeComponentIds : List Nat) (item : StripeItem) :
    List SubscriptionItem × List Nat :=
  match target.component item.externalPriceId with
  | none =>
    match rows.find? fun row => row.providerSubscriptionItemId == some item.providerSubscriptionItemId && row.active with
    | none => (rows, activeComponentIds)
    | some tracked => (rows, activeComponentIds ++ [tracked.priceComponentId])
  | some priceComponentId =>
    (upsertItem priceComponentId item (rows.map (SubscriptionItem.detach item.providerSubscriptionItemId priceComponentId)),
      activeComponentIds ++ [priceComponentId])

def syncSubscriptionPriceItems (target : StripeTarget) (items : List StripeItem) (rows : List SubscriptionItem) : List SubscriptionItem :=
  if items.isEmpty || !target.configured then rows
  else
    let synced := items.foldl (fun state item => syncItem target state.1 state.2 item) (rows, [])
    synced.1.map fun row => if row.active && !synced.2.contains row.priceComponentId then row.end else row

/-- The write of a command that is not stale. -/
def StripeCommand.input (target : StripeTarget) (existing : Option StripeSubscription) (command : StripeCommand) : SubscriptionInput :=
  let lifecycle := adjustedLifecycle command existing
  let stored := existing.map StripeSubscription.row
  let providerEnded := isEndedSubscriptionStatus lifecycle.status
  { customerId := target.customerId
    productId := target.productId
    storeProductId := target.storeProductId
    channel := .web
    providerAccountId := target.providerAccountId
    externalProductId := target.externalProductId
    externalPriceId := target.externalPriceId
    status := lifecycle.status
    providerStatus := some lifecycle.providerStatus
    startsAt := command.currentPeriodStart.getD command.purchasedAt
    expiresAt := command.expiresAt
    autoRenew := lifecycle.autoRenew
    latestTransactionId := some (command.invoiceId.getD target.stripeSubscriptionId)
    currentPeriodStart := some ((command.currentPeriodStart.or (stored.bind SubscriptionRow.currentPeriodStart)).getD command.purchasedAt)
    currentPeriodEnd := command.expiresAt.or (stored.bind SubscriptionRow.currentPeriodEnd)
    cancelAtPeriodEnd := lifecycle.cancelAtPeriodEnd
    latestProviderObjectId := command.invoiceId
    lastProviderEventCreated := command.providerEventCreated
    enforceProviderEventOrder := true
    replaceExpiresAt := providerEnded && command.expiresAt.isSome
    providerEnded := providerEnded
    updateProduct := true
    allowRestoration := false
    identityError := "Stripe subscription identity mismatch for subscription " ++ String.ofList target.stripeSubscriptionId }

/-- An invoice of a recorded subscription: its fact, and the status where no newer event decides it. -/
def recordExistingSubscriptionInvoice (command : StripeCommand) (subscription : StripeSubscription) : StripeSubscription :=
  let recorded := { subscription with invoices := upsertSubscriptionInvoiceFact command subscription.invoices }
  let previous := ((latestSubscriptionInvoice subscription.invoices).map BillingInvoice.lastProviderEventCreated).getD 0
  if max subscription.row.lastProviderEventCreated previous ≤ command.providerEventCreated then
    let lifecycle := stripeSubscriptionLifecycleState command (some subscription.lifecycle)
    { recorded with row := { subscription.row with status := lifecycle.status, providerStatus := lifecycle.providerStatus } }
  else recorded

def StripeCommand.orderState (command : StripeCommand) : SubscriptionOrderState where
  order := command.providerEventCreated
  status := command.subscriptionStatus
  periodStart := command.currentPeriodStart
  periodEnd := command.expiresAt

def StripeSubscription.orderState (subscription : StripeSubscription) : SubscriptionOrderState where
  order := subscription.row.lastProviderEventCreated
  status := subscription.row.status
  periodStart := subscription.row.currentPeriodStart
  periodEnd := subscription.row.currentPeriodEnd

/-- Writes what a command that is not stale says of the subscription. -/
def recordSubscription (target : StripeTarget) (command : StripeCommand) (existing : Option StripeSubscription) :
    Except Failure StripeSubscription := do
  let lifecycle := adjustedLifecycle command existing
  let row ← upsertSubscription (command.input target existing) (existing.map StripeSubscription.row)
  return {
    row := row
    trialStart := lifecycle.trialStart
    trialEnd := lifecycle.trialEnd
    items := syncSubscriptionPriceItems target command.items ((existing.map StripeSubscription.items).getD [])
    invoices := upsertSubscriptionInvoiceFact command ((existing.map StripeSubscription.invoices).getD []) }

/-- One delivered event. A failed payment of a subscription that is not recorded is skipped, and a processed event repeats
without effect. -/
def applyStripeSubscription (target : StripeTarget) (command : StripeCommand) (state : StripeState) : Except Failure StripeState :=
  match state.subscription with
  | none =>
    if command.subscriptionStatus = .billingRetry ∨ command.eventId ∈ state.processed then .ok state
    else do
      let recorded ← recordSubscription target command none
      return ⟨some recorded, command.eventId :: state.processed⟩
  | some subscription =>
    if command.eventId ∈ state.processed then .ok state
    else if command.invoice.isSome then
      if subscription.row.customerId ≠ target.customerId then
        .error (.conflict ("Stripe subscription identity mismatch for subscription " ++ String.ofList target.stripeSubscriptionId))
      else .ok ⟨some (recordExistingSubscriptionInvoice command subscription), command.eventId :: state.processed⟩
    else if isStaleStripeSubscriptionEvent command.orderState subscription.orderState then
      .ok ⟨some subscription, command.eventId :: state.processed⟩
    else do
      let recorded ← recordSubscription target command (some subscription)
      return ⟨some recorded, command.eventId :: state.processed⟩

/-- The state after events that are delivered one after the other. -/
def deliver (target : StripeTarget) (commands : List StripeCommand) (state : StripeState) : Except Failure StripeState :=
  commands.foldlM (fun stored command => applyStripeSubscription target command stored) state

end Quotum.StripeSubscriptions
