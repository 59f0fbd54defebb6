import Quotum.Decimal
import Quotum.General.Outcomes
import Quotum.General.Table

/-! The refunds of one Stripe payment: how a refund event is recorded against the purchase or the invoice the payment
settled, the store events that remember it, and the workers that replay the stored ones. -/

namespace Quotum.StripeRefunds
open General

inductive RefundEventType where
  | refundCreated
  | refundUpdated
  deriving DecidableEq

inductive ProcessingStatus where
  | pending
  | processing
  | processed
  | skipped
  | failed
  deriving DecidableEq

inductive PurchaseKind where
  | consumable
  | nonConsumable
  | subscription
  deriving DecidableEq

/-- What Stripe keeps of a refund, in every event of it. -/
structure StripeRefund where
  amount : Nat
  currency : Text
  deriving DecidableEq

structure RefundEvent where
  externalEventId : Text
  eventType : RefundEventType
  reversalId : Text
  deriving DecidableEq

structure StoreEvent where
  id : Nat
  externalEventId : Text
  eventType : RefundEventType
  customerId : Option Nat
  storeProductId : Option Nat
  transactionId : Text
  purchaseKind : Option PurchaseKind
  processingStatus : ProcessingStatus
  attempts : Nat
  nextAttemptAt : Option Int
  lockedAt : Option Int
  lockedBy : Option Text
  deriving DecidableEq

structure StoreEventResult where
  event : RefundEvent
  customerId : Option Nat
  storeProductId : Option Nat
  purchaseKind : Option PurchaseKind
  processingStatus : ProcessingStatus
  deriving DecidableEq

namespace StoreEvent

def identifies (row : StoreEvent) (result : StoreEventResult) : Bool :=
  (row.customerId.isNone || row.customerId == result.customerId) &&
    (row.storeProductId.isNone || row.storeProductId == result.storeProductId) &&
      row.transactionId == result.event.reversalId && row.eventType == result.event.eventType &&
        (row.purchaseKind.isNone || row.purchaseKind == result.purchaseKind)

/-- Whether a result is written to a row: one that waits, or the one being replayed. -/
def takes (row : StoreEvent) (replayStoreEventId : Option Nat) : Bool :=
  row.processingStatus == .pending || row.processingStatus == .skipped || row.processingStatus == .failed ||
    replayStoreEventId == some row.id

def overwrite (result : StoreEventResult) (row : StoreEvent) : StoreEvent :=
  { row with
    customerId := result.customerId
    storeProductId := result.storeProductId
    purchaseKind := result.purchaseKind
    processingStatus := if row.processingStatus = .processing then .processing else result.processingStatus
    lockedAt := if row.processingStatus = .processing then row.lockedAt else none
    lockedBy := if row.processingStatus = .processing then row.lockedBy else none }

def claim (worker : Text) (now : Int) (row : StoreEvent) : StoreEvent :=
  { row with processingStatus := .processing, lockedAt := some now, lockedBy := some worker }

def succeed (row : StoreEvent) : StoreEvent :=
  { row with processingStatus := .processed, lockedAt := none, lockedBy := none }

def fail (retryAt : Option Int) (row : StoreEvent) : StoreEvent :=
  { row with
    processingStatus := if retryAt.isNone then .failed else .pending
    attempts := row.attempts + 1
    nextAttemptAt := retryAt
    lockedAt := none
    lockedBy := none }

def renew (now : Int) (row : StoreEvent) : StoreEvent :=
  { row with lockedAt := some now }

end StoreEvent

def StoreEventResult.row (result : StoreEventResult) (id : Nat) (now : Int) : StoreEvent where
  id := id
  externalEventId := result.event.externalEventId
  eventType := result.event.eventType
  customerId := result.customerId
  storeProductId := result.storeProductId
  transactionId := result.event.reversalId
  purchaseKind := result.purchaseKind
  processingStatus := result.processingStatus
  attempts := 0
  nextAttemptAt := some now
  lockedAt := none
  lockedBy := none

/-- Stores a result under its event's id, and tells whether it was written. A row of another identity is a conflict. -/
def recordStoreEventProcessingResult (now : Int) (result : StoreEventResult) (replayStoreEventId : Option Nat)
    (events : List StoreEvent) : Except Failure (List StoreEvent × Bool) :=
  match findAt StoreEvent.externalEventId result.event.externalEventId events with
  | none => .ok (events ++ [result.row events.length now], true)
  | some row =>
    if row.identifies result = false then .error (.conflict "event_identity_changed")
    else if row.takes replayStoreEventId = true then
      .ok (updateAt StoreEvent.externalEventId row.externalEventId (StoreEvent.overwrite result) events, true)
    else .ok (events, false)

def recordStripeSkippedEvent (now : Int) (event : RefundEvent) (purchaseKind : Option PurchaseKind)
    (replayStoreEventId : Option Nat) (events : List StoreEvent) : List StoreEvent :=
  match recordStoreEventProcessingResult now ⟨event, none, none, purchaseKind, .skipped⟩ replayStoreEventId events with
  | .ok (stored, _) => stored
  | .error _ => events

def findProcessedStripeReversal (event : RefundEvent) (events : List StoreEvent) : Bool :=
  events.any fun row => row.transactionId == event.reversalId && row.processingStatus == .processed &&
    row.externalEventId != event.externalEventId

structure Purchase where
  customerId : Nat
  storeProductId : Nat
  purchaseKind : PurchaseKind
  creditAmount : Nat
  priceAmount : Option Nat
  currency : Option Text
  reversedAmount : Nat
  reversedCreditAmount : Nat
  refunded : Bool
  deriving DecidableEq

structure Invoice where
  externalInvoiceId : Text
  customerId : Nat
  storeProductId : Nat
  currency : Text
  amountPaid : Nat
  reversedAmount : Nat
  deriving DecidableEq

inductive Payment where
  | purchase (purchase : Purchase)
  | invoice (invoice : Invoice)
  deriving DecidableEq

structure RefundStore where
  payment : Option Payment
  events : List StoreEvent
  deriving DecidableEq

def toLowerCase (text : Text) : Text :=
  text.map Char.toLower

def proratedReversedCreditAmount (totalCreditAmount originalPriceAmount reversedAmount : Nat) : Nat :=
  if totalCreditAmount ≤ 0 ∨ reversedAmount ≤ 0 then 0
  else if reversedAmount ≥ originalPriceAmount then totalCreditAmount
  else totalCreditAmount * reversedAmount / originalPriceAmount

def Purchase.reverse (purchase : Purchase) (originalPriceAmount refundAmount : Nat) : Purchase :=
  let nextReversedAmount := min originalPriceAmount (purchase.reversedAmount + refundAmount)
  { purchase with
    reversedAmount := nextReversedAmount
    reversedCreditAmount := proratedReversedCreditAmount purchase.creditAmount originalPriceAmount nextReversedAmount
    refunded := purchase.refunded || decide (nextReversedAmount ≥ originalPriceAmount) }

inductive Recording where
  | processed
  | paymentUnmatched
  | invoiceUnmatched
  | skipped
  deriving DecidableEq

section Record
variable (refunds : Text → StripeRefund) (now : Int) (event : RefundEvent) (replayStoreEventId : Option Nat)

def skipEvent (purchaseKind : Option PurchaseKind) (store : RefundStore) : RefundStore :=
  { store with events := recordStripeSkippedEvent now event purchaseKind replayStoreEventId store.events }

/-- Reverses a one-time purchase by a refund, unless its event or another of the refund did so. -/
def applyStripeCreditReversal (store : RefundStore) : Except Failure (RefundStore × Recording) :=
  match store.payment with
  | some (.purchase purchase) =>
    let refund := refunds event.reversalId
    match purchase.priceAmount with
    | none => .ok (skipEvent now event replayStoreEventId (some purchase.purchaseKind) store, .skipped)
    | some originalPriceAmount =>
      if originalPriceAmount ≤ 0 ∨ refund.amount > originalPriceAmount ∨
          toLowerCase (purchase.currency.getD []) ≠ toLowerCase refund.currency then
        .ok (skipEvent now event replayStoreEventId (some purchase.purchaseKind) store, .skipped)
      else do
        let duplicateReversal := findProcessedStripeReversal event store.events
        let (events, applied) ← recordStoreEventProcessingResult now
          ⟨event, some purchase.customerId, some purchase.storeProductId, some purchase.purchaseKind, .processed⟩
          replayStoreEventId store.events
        if !applied || duplicateReversal then return ({ store with events := events }, .processed)
        else return (⟨some (.purchase (purchase.reverse originalPriceAmount refund.amount)), events⟩, .processed)
  | _ => .ok (skipEvent now event replayStoreEventId none store, .paymentUnmatched)

/-- Adds a refund to the invoice's cumulative reversed amount; one that cannot be attributed changes no balance. -/
def applyInvoiceRefund (refund : StripeRefund) (invoice : Invoice) : Invoice :=
  if refund.amount ≤ 0 then invoice
  else if toLowerCase invoice.currency ≠ toLowerCase refund.currency then invoice
  else if 0 < invoice.amountPaid then
    { invoice with reversedAmount := min invoice.amountPaid (invoice.reversedAmount + refund.amount) }
  else invoice

def applyStripeInvoiceReversal (invoiceId : Text) (store : RefundStore) : Except Failure (RefundStore × Recording) :=
  match store.payment with
  | some (.invoice invoice) =>
    if invoice.externalInvoiceId ≠ invoiceId then
      .ok (skipEvent now event replayStoreEventId none store, .invoiceUnmatched)
    else do
      let duplicateReversal := findProcessedStripeReversal event store.events
      let (events, applied) ← recordStoreEventProcessingResult now
        ⟨event, some invoice.customerId, some invoice.storeProductId, some .subscription, .processed⟩
        replayStoreEventId store.events
      if !applied || duplicateReversal then return ({ store with events := events }, .processed)
      else return (⟨some (.invoice (applyInvoiceRefund (refunds event.reversalId) invoice)), events⟩, .processed)
  | _ => .ok (skipEvent now event replayStoreEventId none store, .invoiceUnmatched)

def skipOnIdentityConflict (recorded : Except Failure (RefundStore × Recording)) (store : RefundStore) :
    RefundStore × Recording :=
  match recorded with
  | .ok result => result
  | .error _ => (skipEvent now event replayStoreEventId none store, .skipped)

def recordStripeCreditReversal (store : RefundStore) : RefundStore × Recording :=
  skipOnIdentityConflict now event replayStoreEventId
    (applyStripeCreditReversal refunds now event replayStoreEventId store) store

def recordStripeInvoiceReversal (invoiceId : Text) (store : RefundStore) : RefundStore × Recording :=
  skipOnIdentityConflict now event replayStoreEventId
    (applyStripeInvoiceReversal refunds now event replayStoreEventId invoiceId store) store

end Record

inductive HandlerPhase where
  | received
  | unmatched
  | recorded
  | skipped
  | ended
  deriving DecidableEq

def Recording.afterCredit : Recording → HandlerPhase
  | .processed => .recorded
  | .paymentUnmatched => .unmatched
  | _ => .skipped

def Recording.afterInvoice : Recording → HandlerPhase
  | .processed => .recorded
  | _ => .skipped

structure ReplayJob where
  storeEventId : Nat
  workerId : Text
  deriving DecidableEq

/-- An event in a handler's memory: one that the provider delivers, or a stored one that a worker replays. -/
structure Handler where
  id : Nat
  event : RefundEvent
  job : Option ReplayJob
  phase : HandlerPhase
  deriving DecidableEq

def Handler.replayStoreEventId (handler : Handler) : Option Nat :=
  handler.job.map ReplayJob.storeEventId

def Handler.enter (phase : HandlerPhase) (handler : Handler) : Handler :=
  { handler with phase := phase }

structure RefundSystem where
  store : RefundStore
  handlers : List Handler
  deriving DecidableEq

inductive InvoiceLookup where
  | failed
  | none
  | found (invoiceId : Text)
  deriving DecidableEq

def staleAfter : Int := 300000

/-- Whether a worker may claim a stored event: it waits, or its lease is stale. -/
def claimable (now : Int) (row : StoreEvent) : Bool :=
  row.processingStatus == .pending || row.processingStatus == .skipped || row.processingStatus == .failed ||
    (row.processingStatus == .processing && row.lockedAt.any fun lockedAt => decide (lockedAt ≤ now - staleAfter))

/-- Whether a stored event is due: one that waits only when its next attempt is. -/
def due (now : Int) (row : StoreEvent) : Bool :=
  claimable now row && (row.processingStatus == .processing || row.nextAttemptAt.any fun at_ => decide (at_ ≤ now))

def changeEvent (id : Nat) (change : StoreEvent → StoreEvent) (system : RefundSystem) : RefundSystem :=
  { system with store := { system.store with events := updateAt StoreEvent.id id change system.store.events } }

def addHandler (event : RefundEvent) (job : Option ReplayJob) (system : RefundSystem) : RefundSystem :=
  { system with handlers := system.handlers ++ [⟨system.handlers.length, event, job, .received⟩] }

def enterPhase (id : Nat) (phase : HandlerPhase) (store : RefundStore) (system : RefundSystem) : RefundSystem :=
  ⟨store, updateAt Handler.id id (Handler.enter phase) system.handlers⟩

def StoreEvent.event (row : StoreEvent) : RefundEvent :=
  ⟨row.externalEventId, row.eventType, row.transactionId⟩

def claimStoreEvent (may : StoreEvent → Bool) (worker : Text) (id : Nat) (now : Int) (system : RefundSystem) :
    Except Failure RefundSystem :=
  match findAt StoreEvent.id id system.store.events with
  | none => .error (.invalidRequest s!"Store event {id} was not found")
  | some row =>
    if may row = true then
      .ok (addHandler row.event (some ⟨id, worker⟩) (changeEvent id (StoreEvent.claim worker now) system))
    else .error (.conflict s!"Store event {id} cannot be replayed; only pending, skipped, failed or stalled events can be replayed")

/-- Whether a stored event is still locked by the worker of a lease. -/
def holdsLease (job : ReplayJob) (events : List StoreEvent) : Bool :=
  events.any fun row => row.id == job.storeEventId && row.processingStatus == .processing && row.lockedBy == some job.workerId

/-- A marker of a worker, which only the holder of the lease may set. -/
def markJob (job : ReplayJob) (change : StoreEvent → StoreEvent) (system : RefundSystem) : Except Failure RefundSystem :=
  if holdsLease job system.store.events = true then .ok (changeEvent job.storeEventId change system)
  else .error (.internal s!"store event replay job {job.storeEventId} is not locked by the worker")

section Steps
variable (refunds : Text → StripeRefund)

def recordCredit (now : Int) (handler : Handler) (system : RefundSystem) : RefundSystem :=
  let recorded := recordStripeCreditReversal refunds now handler.event handler.replayStoreEventId system.store
  enterPhase handler.id recorded.2.afterCredit recorded.1 system

def recordInvoice (now : Int) (lookup : InvoiceLookup) (handler : Handler) (system : RefundSystem) : RefundSystem :=
  match lookup with
  | .failed =>
    enterPhase handler.id .skipped (skipEvent now handler.event handler.replayStoreEventId none system.store) system
  | .none => enterPhase handler.id .skipped system.store system
  | .found invoiceId =>
    let recorded := recordStripeInvoiceReversal refunds now handler.event handler.replayStoreEventId invoiceId system.store
    enterPhase handler.id recorded.2.afterInvoice recorded.1 system

end Steps

inductive RefundStep where
  | pay (payment : Payment)
  | deliver (event : RefundEvent)
  | claimDue (worker : Text) (id : Nat) (now : Int)
  | claimById (worker : Text) (id : Nat) (now : Int)
  | recordCredit (handler : Nat) (now : Int)
  | recordInvoice (handler : Nat) (lookup : InvoiceLookup) (now : Int)
  | succeed (handler : Nat)
  | fail (handler : Nat) (retryAt : Option Int)
  | renew (handler : Nat) (now : Int)
  | crash (handler : Nat)
  deriving DecidableEq

/-- A payment that nothing has reversed yet. -/
def Payment.fresh : Payment → Bool
  | .purchase target => target.reversedAmount == 0 && target.reversedCreditAmount == 0 && !target.refunded
  | .invoice target => target.reversedAmount == 0

def endHandler (id : Nat) (system : RefundSystem) : RefundSystem :=
  enterPhase id .ended system.store system

def withHandler (id : Nat) (phases : HandlerPhase → Bool) (system : RefundSystem)
    (next : Handler → Except Failure RefundSystem) : Except Failure RefundSystem :=
  match findAt Handler.id id system.handlers with
  | none => .error (.internal "no handler")
  | some handler => if phases handler.phase = true then next handler else .error (.internal "another phase")

def withJob (handler : Handler) (next : ReplayJob → Except Failure RefundSystem) : Except Failure RefundSystem :=
  match handler.job with
  | none => .error (.internal "no replay job")
  | some job => next job

def RefundStep.apply (refunds : Text → StripeRefund) (system : RefundSystem) : RefundStep → Except Failure RefundSystem
  | .pay payment =>
    if system.store.payment.isNone ∧ payment.fresh = true then
      .ok { system with store := { system.store with payment := some payment } }
    else .error (.conflict "the payment is recorded")
  | .deliver event => .ok (addHandler event none system)
  | .claimDue worker id now => claimStoreEvent (due now) worker id now system
  | .claimById worker id now => claimStoreEvent (claimable now) worker id now system
  | .recordCredit id now =>
    withHandler id (· == .received) system fun handler => .ok (StripeRefunds.recordCredit refunds now handler system)
  | .recordInvoice id lookup now =>
    withHandler id (· == .unmatched) system fun handler =>
      .ok (StripeRefunds.recordInvoice refunds now lookup handler system)
  | .succeed id =>
    withHandler id (· == .recorded) system fun handler => withJob handler fun job =>
      markJob job StoreEvent.succeed (endHandler id system)
  | .fail id retryAt =>
    withHandler id (· != .ended) system fun handler => withJob handler fun job =>
      markJob job (StoreEvent.fail retryAt) (endHandler id system)
  | .renew id now =>
    withHandler id (· != .ended) system fun handler => withJob handler fun job =>
      .ok (if holdsLease job system.store.events then changeEvent job.storeEventId (StoreEvent.renew now) system else system)
  | .crash id => withHandler id (· != .ended) system fun _ => .ok (endHandler id system)

end Quotum.StripeRefunds
