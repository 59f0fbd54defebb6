import Quotum.Decimal

/-! Hosted payment-method setups: the rows, the guarded updates of them, and the tasks that create a setup's link, apply its events and
reconcile it, in any order and under claims that go stale. -/

namespace Quotum.PaymentSetups

inductive PaymentSetupStatus where
  | creating
  | awaitingCustomer
  | applyingDefault
  | completed
  | expired
  | needsAttention
  deriving DecidableEq

def PaymentSetupStatus.isResolved : PaymentSetupStatus → Bool
  | .completed | .expired => true
  | _ => false

inductive PaymentSetupPlanStatus where
  | pending
  | started
  | paymentFailed
  | planChanged
  | notEligible
  deriving DecidableEq

structure PaymentSetupRow where
  billingAccountId : Text
  providerAccountId : Option Text
  providerCustomerId : Text
  previewToken : Text
  requestHash : Text
  planStatus : Option PaymentSetupPlanStatus
  planFailureCode : Option Text
  planFailureMessage : Option Text
  externalSubscriptionId : Option Text
  planResolvedAt : Option Int
  status : PaymentSetupStatus
  externalSessionId : Option Text
  sessionUrl : Option Text
  externalSetupIntentId : Option Text
  intendedPaymentMethodId : Option Text
  defaultPaymentMethodId : Option Text
  attentionReason : Option Text
  expiresAt : Int
  completedAt : Option Int
  claimedBy : Option Text
  claimedAt : Int
  createdAt : Int
  deriving DecidableEq

/-- How long one worker may hold a setup row before another may take it over: 300 seconds. -/
def claimLease : Int := 300000

/-- How long a hosted link lives: 23 hours. -/
def paymentSetupLifetime : Int := 82800000

/-- Creation stops an hour before the link's expiry. -/
def paymentSetupCreationMargin : Int := 3600000

def stripeIdempotencyRetention : Int := 86400000

def claimLost : Text := "Payment setup session is no longer held by this worker".toList

def boundedText (value : Option Text) (max : Nat) : Option Text :=
  match value with
  | none => none
  | some text => if Decimal.trim text = [] then none else some ((Decimal.trim text).take max)

structure PlanOutcome where
  status : PaymentSetupPlanStatus
  externalSubscriptionId : Option Text
  failureCode : Option Text
  failureMessage : Option Text
  deriving DecidableEq

namespace PaymentSetupRow

/-- The slot a setup holds while it is unresolved: no provider account counts as the empty one. -/
def slot (row : PaymentSetupRow) : Text × Text := (row.billingAccountId, row.providerAccountId.getD [])

def isReusable (now : Int) (row : PaymentSetupRow) : Bool :=
  decide (row.status = .awaitingCustomer) && row.sessionUrl.isSome && decide (now < row.expiresAt)

def canIssueHostedSetupLink (now : Int) (row : PaymentSetupRow) : Bool :=
  decide (now - row.createdAt < stripeIdempotencyRetention) && decide (paymentSetupCreationMargin < row.expiresAt - now)

def stateCheck (row : PaymentSetupRow) : Bool :=
  match row.status with
  | .creating => row.completedAt.isNone && row.defaultPaymentMethodId.isNone
  | .awaitingCustomer =>
    row.externalSessionId.isSome && row.sessionUrl.isSome && row.completedAt.isNone && row.defaultPaymentMethodId.isNone
  | .applyingDefault =>
    row.externalSessionId.isSome && row.intendedPaymentMethodId.isSome && row.completedAt.isNone && row.defaultPaymentMethodId.isNone
  | .completed => row.externalSessionId.isSome && row.defaultPaymentMethodId.isSome && row.completedAt.isSome
  | .expired => row.completedAt.isNone && row.defaultPaymentMethodId.isNone
  | .needsAttention => row.attentionReason.isSome && row.completedAt.isNone

/-- The checks of the table on the plan: what each outcome records, and that a completed setup leaves none pending. -/
def planCheck (row : PaymentSetupRow) : Bool :=
  let failure := (row.planFailureCode.isSome, row.planFailureMessage.isSome)
  match row.planStatus with
  | none => row.planResolvedAt.isNone && failure == (false, false)
  | some .pending => row.planResolvedAt.isNone && failure == (false, false) && !decide (row.status = .completed)
  | some .started => row.planResolvedAt.isSome && row.externalSubscriptionId.isSome && failure == (false, false)
  | some .planChanged => row.planResolvedAt.isSome && failure == (false, false)
  | some .paymentFailed | some .notEligible => row.planResolvedAt.isSome && failure == (true, true)

def recordPaymentSetupLink (session url : Text) (row : PaymentSetupRow) : Option PaymentSetupRow :=
  if row.externalSessionId = none ∨ row.externalSessionId = some session then
    some { row with
      status := if row.status = .creating then .awaitingCustomer else row.status
      externalSessionId := some session
      sessionUrl := if row.status = .creating ∨ row.status = .awaitingCustomer then row.sessionUrl <|> some url else row.sessionUrl }
  else none

/-- Takes the row for one worker, unless another worker's claim of it has not gone stale. -/
def claimPaymentSetup (now : Int) (worker : Text) (row : PaymentSetupRow) : Option PaymentSetupRow :=
  if row.claimedBy = none ∨ row.claimedBy = some worker ∨ row.claimedAt ≤ now - claimLease then
    some { row with claimedBy := some worker, claimedAt := now }
  else none

def releasePaymentSetupClaim (worker : Text) (row : PaymentSetupRow) : Option PaymentSetupRow :=
  if row.claimedBy = some worker then some { row with claimedBy := none } else none

def recordPaymentSetupIntent (worker externalSetupIntentId paymentMethodId : Text) (externalSessionId : Option Text)
    (row : PaymentSetupRow) : Option PaymentSetupRow :=
  if row.claimedBy = some worker ∧ row.status.isResolved = false then
    some { row with
      status := .applyingDefault
      externalSessionId := row.externalSessionId <|> externalSessionId
      externalSetupIntentId := some externalSetupIntentId
      intendedPaymentMethodId := some paymentMethodId
      attentionReason := none }
  else none

def completePaymentSetup (now : Int) (worker paymentMethodId : Text) (row : PaymentSetupRow) : Option PaymentSetupRow :=
  if row.claimedBy = some worker ∧ row.status ≠ .completed then
    some { row with
      status := .completed
      defaultPaymentMethodId := some paymentMethodId
      attentionReason := none
      completedAt := some now
      claimedBy := none }
  else none

def recordPaymentSetupSubscriptionId (worker subscription : Text) (row : PaymentSetupRow) : Option PaymentSetupRow :=
  if row.claimedBy = some worker ∧ row.planStatus = some .pending ∧
      (row.externalSubscriptionId = none ∨ row.externalSubscriptionId = some subscription) then
    some { row with externalSubscriptionId := some subscription }
  else none

def recordPaymentSetupPlanOutcome (now : Int) (worker : Text) (outcome : PlanOutcome) (row : PaymentSetupRow) : Option PaymentSetupRow :=
  if row.claimedBy = some worker ∧ row.planStatus = some .pending ∧ (row.status = .applyingDefault ∨ row.status = .needsAttention) then
    some { row with
      planStatus := some outcome.status
      externalSubscriptionId := outcome.externalSubscriptionId <|> row.externalSubscriptionId
      planFailureCode := boundedText outcome.failureCode 80
      planFailureMessage := boundedText outcome.failureMessage 500
      planResolvedAt := some now }
  else none

def expirePaymentSetup (worker : Text) (row : PaymentSetupRow) : Option PaymentSetupRow :=
  if row.claimedBy = some worker ∧ (row.status = .creating ∨ row.status = .awaitingCustomer ∨ row.status = .needsAttention) then
    some { row with
      status := .expired
      sessionUrl := none
      intendedPaymentMethodId := none
      attentionReason := none
      claimedBy := none }
  else none

def flagPaymentSetupAttention (worker reason : Text) (row : PaymentSetupRow) : Option PaymentSetupRow :=
  if row.claimedBy = some worker ∧ row.status.isResolved = false then
    some { row with
      status := .needsAttention
      attentionReason := some (reason.take 500)
      claimedBy := none }
  else none

end PaymentSetupRow

structure NormalizedPaymentSetupEvent where
  isExpired : Bool
  checkoutSessionId : Text
  setupIntentId : Option Text
  deriving DecidableEq

/-- What works on a setup: the request that creates its link, an event, or its reconciliation with or without attempts left. -/
inductive PaymentSetupTask where
  | creation
  | event (event : NormalizedPaymentSetupEvent)
  | reconciliation (exhausted : Bool)
  deriving DecidableEq

structure ResolvedSetupIntent where
  setupIntentId : Text
  paymentMethodId : Text
  deriving DecidableEq

inductive Stage where
  | issuing
  | linking (session url : Text)
  | reading
  | resolving (setupIntentId checkoutSessionId : Option Text)
  | intending (resolved : ResolvedSetupIntent) (checkoutSessionId : Option Text)
  | updating (resolved : ResolvedSetupIntent)
  | starting (resolved : ResolvedSetupIntent)
  | subscribed (resolved : ResolvedSetupIntent) (subscription : Text) (successful : Bool)
  | concluding (resolved : ResolvedSetupIntent) (outcome : PlanOutcome)
  | completing (resolved : ResolvedSetupIntent)
  | expiring
  | flagging (reason : Text) (caught : Bool)
  | releasing
  | ended
  deriving DecidableEq

structure Execution where
  setup : Nat
  worker : Text
  task : PaymentSetupTask
  claimed : PaymentSetupRow
  stage : Stage
  deriving DecidableEq

def errorReason (message : Text) : Text :=
  if Decimal.trim message = [] then "Payment setup reconciliation failed".toList else message.take 500

namespace Execution

def finish (execution : Execution) : Stage :=
  match execution.task with
  | .creation => .ended
  | _ => .releasing

/-- Where an error leads: a reconciliation without attempts left records what is wrong. -/
def thrown (message : Text) (execution : Execution) : Stage :=
  match execution.task with
  | .creation => .ended
  | .event _ => .releasing
  | .reconciliation exhausted => if exhausted then .flagging (errorReason message) true else .releasing

end Execution

def applyPaymentSetupEvent (claimed : PaymentSetupRow) (event : NormalizedPaymentSetupEvent) : Stage :=
  if claimed.status.isResolved then .releasing
  else if event.isExpired then
    -- The customer finished; an expiry that arrives afterwards is out of order.
    if claimed.status = .applyingDefault then .releasing else .expiring
  else .resolving event.setupIntentId (some event.checkoutSessionId)

def creationUnconfirmed : Text :=
  "The hosted setup link was never confirmed and its creation or idempotency window has expired; it cannot be recreated safely.".toList

/-- What a reconciliation does first. -/
def reconcilePaymentSetup (now : Int) (claimed : PaymentSetupRow) : Stage :=
  if claimed.status.isResolved then .releasing
  else if claimed.status = .creating then
    if claimed.canIssueHostedSetupLink now then .issuing else .flagging creationUnconfirmed false
  else .reading

inductive CheckoutStatus where
  | isOpen
  | complete
  | expired
  deriving DecidableEq

structure CheckoutSession where
  status : Option CheckoutStatus
  setupIntent : Option Text
  deriving DecidableEq

def reconcileUnresolvedSetup (setup : PaymentSetupRow) (retrieved : CheckoutSession) : Stage :=
  let session := if setup.externalSessionId.isSome then some retrieved else none
  let providerStatus := session.bind CheckoutSession.status
  if providerStatus = some .complete ∨ setup.status = .applyingDefault then .resolving (session.bind CheckoutSession.setupIntent) none
  else if providerStatus = some .expired then .expiring
  else .releasing

structure StripeSetupIntent where
  status : Option Text
  customer : Option Text
  paymentMethod : Option (Text × Option (Option Text))
  deriving DecidableEq

/-- Reads the SetupIntent and refuses anything that is not this customer's succeeded card setup. -/
def resolveSucceededSetupIntent (setup : PaymentSetupRow) (setupIntentId fromSession : Option Text) (intent : StripeSetupIntent) :
    Except Text ResolvedSetupIntent :=
  let session := if setup.externalSessionId.isSome then fromSession else none
  match setupIntentId <|> setup.externalSetupIntentId <|> session with
  | none => .error "Stripe hosted setup completed without a setup intent".toList
  | some id =>
    if intent.status ≠ some "succeeded".toList then
      .error ("Stripe setup intent is ".toList ++ intent.status.getD "unknown".toList ++ ", not succeeded".toList)
    else if intent.customer ≠ some setup.providerCustomerId then .error "Stripe setup intent belongs to another customer".toList
    else match intent.paymentMethod with
      | none => .error "Stripe setup intent saved no payment method".toList
      | some (_, none) => .error "Stripe setup intent payment method must be expanded".toList
      | some (paymentMethodId, some type) =>
        if type = some "card".toList then .ok ⟨id, paymentMethodId⟩
        else .error ("Stripe hosted setup saved a ".toList ++ type.getD "non-card".toList ++ " payment method".toList)

/-- What comes of starting the plan: a subscription that Stripe has or creates, or a refusal that is an outcome. -/
inductive PlanAnswer where
  | existing (subscription : Text) (successful : Bool)
  | created (subscription : Text) (successful : Bool)
  | notEligible (code message : Text)
  | planChanged
  | declined (code message : Text)
  deriving DecidableEq

/-- Starts the setup's plan. A setup that recorded its subscription reads that one again. -/
def startPlanOnSavedCard (setup : PaymentSetupRow) (resolved : ResolvedSetupIntent) (answer : PlanAnswer) : Option Stage :=
  let recorded := setup.externalSubscriptionId
  match answer with
  | .existing subscription successful => some (.subscribed resolved subscription successful)
  | .created subscription successful => if recorded.isSome then none else some (.subscribed resolved subscription successful)
  | .notEligible code message =>
    if recorded.isSome then none else some (.concluding resolved ⟨.notEligible, recorded, some code, some message⟩)
  | .planChanged => if recorded.isSome then none else some (.concluding resolved ⟨.planChanged, recorded, none, none⟩)
  | .declined code message =>
    if recorded.isSome then none else some (.concluding resolved ⟨.paymentFailed, recorded, some code, some message⟩)

def finishWithSubscription (setup : PaymentSetupRow) (subscription : Text) (successful : Bool) : PlanOutcome :=
  if successful then ⟨.started, some subscription, none, none⟩
  else ⟨.paymentFailed, setup.externalSubscriptionId, some "subscription_incomplete".toList,
    some "The payment did not complete, so the plan was not started. The card stays saved; start the plan with checkout_plan.".toList⟩

/-- What the step of an execution hears from Stripe; a statement hears nothing. -/
inductive Answer where
  | nothing
  | session (id url : Text)
  | checkout (session : CheckoutSession)
  | setupIntent (fromSession : Option Text) (intent : StripeSetupIntent)
  | plan (answer : PlanAnswer)
  deriving DecidableEq

structure IntentRecord where
  execution : Nat
  setup : Nat
  worker : Text
  paymentMethodId : Text
  deriving DecidableEq

/-- The setups, named by their places, the executions on them, and the record of saved cards, which no statement reads. -/
structure Setups where
  now : Int
  rows : List PaymentSetupRow
  executions : List Execution
  intents : List IntentRecord
  deriving DecidableEq

structure ReservePaymentSetupInput where
  billingAccountId : Text
  providerAccountId : Option Text
  providerCustomerId : Text
  previewToken : Text
  requestHash : Text
  hasPlan : Bool
  deriving DecidableEq

inductive PaymentSetupReservation where
  | created
  | resume
  | reused
  | existing
  deriving DecidableEq

def reservationFor (now : Int) (setup : PaymentSetupRow) : PaymentSetupReservation :=
  if setup.isReusable now then .reused else if setup.status = .creating then .resume else .existing

namespace Setups

def activeSetup (slot : Text × Text) (setups : Setups) : Option Nat :=
  setups.rows.findIdx? fun row => decide (row.slot = slot) && !row.status.isResolved

def reserved (input : ReservePaymentSetupInput) (setups : Setups) : PaymentSetupRow where
  billingAccountId := input.billingAccountId
  providerAccountId := input.providerAccountId
  providerCustomerId := input.providerCustomerId
  previewToken := input.previewToken
  requestHash := input.requestHash
  planStatus := if input.hasPlan then some .pending else none
  planFailureCode := none
  planFailureMessage := none
  externalSubscriptionId := none
  planResolvedAt := none
  status := .creating
  externalSessionId := none
  sessionUrl := none
  externalSetupIntentId := none
  intendedPaymentMethodId := none
  defaultPaymentMethodId := none
  attentionReason := none
  expiresAt := setups.now + paymentSetupLifetime
  completedAt := none
  claimedBy := none
  claimedAt := 0
  createdAt := setups.now

/-- Claims the account's slot: the preview's own setup, the one in the slot when it can be handed back, or a new one. -/
def reservePaymentSetup (input : ReservePaymentSetupInput) (setups : Setups) : Option (Setups × Nat × PaymentSetupReservation) :=
  match setups.rows.findIdx? fun row => decide (row.previewToken = input.previewToken) with
  | some setup => (setups.rows[setup]?).map fun row => (setups, setup, reservationFor setups.now row)
  | none =>
    match setups.activeSetup (input.billingAccountId, input.providerAccountId.getD []) with
    | some setup =>
      match setups.rows[setup]? with
      | none => none
      | some active =>
        -- Otherwise the caller is told that a setup is already in progress.
        if active.requestHash = input.requestHash ∧ active.isReusable setups.now then some (setups, setup, .reused) else none
    | none => some ({ setups with rows := setups.rows ++ [setups.reserved input] }, setups.rows.length, .created)

def begin (setup : Nat) (worker : Text) (task : PaymentSetupTask) (row : PaymentSetupRow) (stage : Stage) (setups : Setups) : Setups :=
  { setups with executions := setups.executions ++ [⟨setup, worker, task, row, stage⟩] }

def createPaymentSetup (input : ReservePaymentSetupInput) (setups : Setups) : Setups :=
  match setups.reservePaymentSetup input with
  | none => setups
  | some (after, setup, reservation) =>
    match reservation, after.rows[setup]? with
    | .created, some row | .resume, some row =>
      if row.canIssueHostedSetupLink after.now then after.begin setup [] .creation row .issuing else after
    | _, _ => after

/-- Writes one row, unless the update's guard, a check or the index of session ids refuses it. -/
def write (setup : Nat) (update : PaymentSetupRow → Option PaymentSetupRow) (setups : Setups) : Option Setups :=
  match setups.rows[setup]? with
  | none => none
  | some row =>
    match update row with
    | none => none
    | some next =>
      let session := next.externalSessionId
      let taken := setups.rows.zipIdx.any fun entry => entry.2 != setup && session.isSome && entry.1.externalSessionId == session
      if next.stateCheck && next.planCheck && !taken then some { setups with rows := setups.rows.set setup next } else none

/-- Claims a setup for an event or a reconciliation; a setup that another worker holds is left to it. -/
def claim (setup : Nat) (worker : Text) (task : PaymentSetupTask) (setups : Setups) : Setups :=
  match setups.write setup (PaymentSetupRow.claimPaymentSetup setups.now worker) with
  | none => setups
  | some after =>
    match after.rows[setup]?, task with
    | some row, .event event => after.begin setup worker task row (applyPaymentSetupEvent row event)
    | some row, .reconciliation _ => after.begin setup worker task row (reconcilePaymentSetup after.now row)
    | _, _ => setups

/-- A statement of an execution: what follows when it is applied, and the error when it is not. -/
def attempt (execution : Execution) (update : PaymentSetupRow → Option PaymentSetupRow) (next : Stage) (reason : Text)
    (setups : Setups) : Setups × Stage :=
  match setups.write execution.setup update with
  | some after => (after, next)
  | none => (setups, execution.thrown reason)

def attemptUnless (settled : PaymentSetupStatus → Bool) (execution : Execution) (update : PaymentSetupRow → Option PaymentSetupRow)
    (reason : Text) (setups : Setups) : Setups × Stage :=
  match setups.write execution.setup update, setups.rows[execution.setup]? with
  | some after, _ => (after, execution.finish)
  | none, some current => (setups, if settled current.status then execution.finish else execution.thrown reason)
  | none, none => (setups, execution.thrown reason)

/-- The saved card is recorded, before Stripe is asked to make it the default. -/
def intend (index : Nat) (execution : Execution) (resolved : ResolvedSetupIntent) (checkoutSessionId : Option Text) (setups : Setups) :
    Setups × Stage :=
  let session := execution.claimed.externalSessionId <|> checkoutSessionId
  let update := PaymentSetupRow.recordPaymentSetupIntent execution.worker resolved.setupIntentId resolved.paymentMethodId session
  match setups.write execution.setup update with
  | none => (setups, execution.thrown claimLost)
  | some after =>
    let record : IntentRecord := ⟨index, execution.setup, execution.worker, resolved.paymentMethodId⟩
    ({ after with intents := record :: after.intents }, .updating resolved)

def advance (index : Nat) (execution : Execution) (answer : Answer) (setups : Setups) : Option (Setups × Stage) :=
  match execution.stage, answer with
  | .issuing, .session id url =>
    if Decimal.trim url = [] then some (setups, execution.thrown "Stripe hosted setup session did not include a redirect URL".toList)
    else some (setups, .linking id url)
  | .linking session url, .nothing => some (setups.attempt execution (PaymentSetupRow.recordPaymentSetupLink session url) execution.finish
      "Payment setup session resolved to a different provider session".toList)
  | .reading, .checkout session => some (setups, reconcileUnresolvedSetup execution.claimed session)
  | .resolving setupIntentId checkoutSessionId, .setupIntent fromSession intent =>
    match resolveSucceededSetupIntent execution.claimed setupIntentId fromSession intent with
    | .ok resolved => some (setups, .intending resolved checkoutSessionId)
    | .error reason => some (setups, execution.thrown reason)
  | .intending resolved checkoutSessionId, .nothing => some (setups.intend index execution resolved checkoutSessionId)
  | .updating resolved, .nothing =>
    some (setups, if execution.claimed.planStatus = some .pending then .starting resolved else .completing resolved)
  | .starting resolved, .plan answer => (startPlanOnSavedCard execution.claimed resolved answer).map fun stage => (setups, stage)
  | .subscribed resolved subscription successful, .nothing =>
    some (setups.attempt execution (PaymentSetupRow.recordPaymentSetupSubscriptionId execution.worker subscription)
      (.concluding resolved (finishWithSubscription execution.claimed subscription successful)) claimLost)
  | .concluding resolved outcome, .nothing =>
    some (setups.attempt execution (PaymentSetupRow.recordPaymentSetupPlanOutcome setups.now execution.worker outcome)
      (.completing resolved) claimLost)
  | .completing resolved, .nothing => some (setups.attemptUnless (fun status => decide (status = .completed)) execution
      (PaymentSetupRow.completePaymentSetup setups.now execution.worker resolved.paymentMethodId) claimLost)
  | .expiring, .nothing => some (setups.attemptUnless PaymentSetupStatus.isResolved execution
      (PaymentSetupRow.expirePaymentSetup execution.worker) "Payment setup session could not be expired".toList)
  | .flagging reason _, .nothing =>
    some ((setups.write execution.setup (PaymentSetupRow.flagPaymentSetupAttention execution.worker reason)).getD setups, .releasing)
  | .releasing, .nothing =>
    some ((setups.write execution.setup (PaymentSetupRow.releasePaymentSetupClaim execution.worker)).getD setups, .ended)
  | _, _ => none

def failed (execution : Execution) (reason : Text) : Stage :=
  match execution.stage with
  | .flagging _ true => .releasing
  | .releasing | .ended => .ended
  | _ => execution.thrown reason

def setStage (index : Nat) (execution : Execution) (stage : Stage) (setups : Setups) : Setups :=
  { setups with executions := setups.executions.set index { execution with stage := stage } }

end Setups

inductive SetupAction where
  | wait (elapsed : Nat)
  | create (input : ReservePaymentSetupInput)
  | claim (setup : Nat) (worker : Text) (task : PaymentSetupTask)
  | advance (index : Nat) (answer : Answer)
  | fail (index : Nat) (reason : Text)
  | crash (index : Nat)
  deriving DecidableEq

/-- One step: time passes, a request or a task starts, an execution goes on, fails, or dies without a further step. -/
def SetupAction.perform (setups : Setups) : SetupAction → Setups
  | .wait elapsed => { setups with now := setups.now + elapsed }
  | .create input => setups.createPaymentSetup input
  | .claim setup worker task => setups.claim setup worker task
  | .advance index answer =>
    match setups.executions[index]? with
    | none => setups
    | some execution =>
      match setups.advance index execution answer with
      | none => setups
      | some (after, stage) => after.setStage index execution stage
  | .fail index reason =>
    match setups.executions[index]? with
    | none => setups
    | some execution => setups.setStage index execution (Setups.failed execution reason)
  | .crash index =>
    match setups.executions[index]? with
    | none => setups
    | some execution => setups.setStage index execution .ended

def runSetups (setups : Setups) (actions : List SetupAction) : Setups :=
  actions.foldl SetupAction.perform setups

def noSetups (now : Int) : Setups := ⟨now, [], [], []⟩

/-- Whether a step expires a setup that needs attention although its saved card has been recorded. -/
def SetupAction.expiresRecorded (setups : Setups) : SetupAction → Bool
  | .advance index .nothing =>
    match setups.executions[index]? with
    | none => false
    | some execution =>
      match setups.rows[execution.setup]? with
      | none => false
      | some row => decide (execution.stage = .expiring) && decide (row.claimedBy = some execution.worker) &&
          decide (row.status = .needsAttention) && row.intendedPaymentMethodId.isSome
  | _ => false

/-- A run without such a step. -/
def KeepsRecorded : Setups → List SetupAction → Prop
  | _, [] => True
  | setups, action :: rest => action.expiresRecorded setups = false ∧ KeepsRecorded (action.perform setups) rest

instance KeepsRecorded.decidable : ∀ (setups : Setups) (actions : List SetupAction), Decidable (KeepsRecorded setups actions)
  | _, [] => .isTrue trivial
  | setups, action :: rest =>
    match decEq (action.expiresRecorded setups) false, KeepsRecorded.decidable (action.perform setups) rest with
    | .isTrue early, .isTrue kept => .isTrue ⟨early, kept⟩
    | .isFalse late, _ => .isFalse fun both => late both.1
    | _, .isFalse lost => .isFalse fun both => lost both.2

/-- What a later state keeps of an earlier one: resolved setups, settled plan outcomes and recorded subscription ids. -/
structure Setups.Settles (before after : Setups) : Prop where
  status : ∀ (setup : Nat) (row : PaymentSetupRow), before.rows[setup]? = some row → row.status.isResolved = true →
    ∃ next : PaymentSetupRow, after.rows[setup]? = some next ∧ next.status = row.status
  plan : ∀ (setup : Nat) (row : PaymentSetupRow), before.rows[setup]? = some row → row.planStatus ≠ some .pending →
    ∃ next : PaymentSetupRow, after.rows[setup]? = some next ∧ next.planStatus = row.planStatus
  subscription : ∀ (setup : Nat) (row : PaymentSetupRow) (id : Text), before.rows[setup]? = some row → row.externalSubscriptionId = some id →
    ∃ next : PaymentSetupRow, after.rows[setup]? = some next ∧ next.externalSubscriptionId = some id

/-- What every state keeps: one unresolved setup a slot, no expired setup whose saved card was recorded, and completion only by an
execution whose worker holds the claim and that has recorded the card. -/
structure Setups.ResolvesOnce (setups : Setups) : Prop where
  single : ∀ (first second : Nat) (one two : PaymentSetupRow), setups.rows[first]? = some one → setups.rows[second]? = some two →
    one.slot = two.slot → one.status.isResolved = false → two.status.isResolved = false → first = second
  recorded : ∀ record ∈ setups.intents, ∃ row : PaymentSetupRow, setups.rows[record.setup]? = some row ∧ row.status ≠ .expired
  completed : ∀ (action : SetupAction) (setup : Nat) (row next : PaymentSetupRow), setups.rows[setup]? = some row →
    (action.perform setups).rows[setup]? = some next → row.status ≠ .completed → next.status = .completed →
    ∃ index execution paymentMethodId, action = .advance index .nothing ∧ setups.executions[index]? = some execution ∧
      execution.setup = setup ∧ row.claimedBy = some execution.worker ∧
      ⟨index, setup, execution.worker, paymentMethodId⟩ ∈ setups.intents ∧ next.defaultPaymentMethodId = some paymentMethodId

end Quotum.PaymentSetups
