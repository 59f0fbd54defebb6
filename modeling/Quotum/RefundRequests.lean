import Quotum.StripeRefunds

/-! Refunds asked of Stripe: previews measured on what a payment still holds, the requests recorded before Stripe is asked, and the
state that Stripe's answers and refund events give them. -/

namespace Quotum.RefundRequests
open General

inductive RefundMode where
  | full
  | prorated
  deriving DecidableEq

inductive RefundBasis where
  | full
  | remainingTime
  | unconsumedCredit
  deriving DecidableEq

inductive RefundRequestStatus where
  | requested
  | pending
  | succeeded
  | failed
  | requiresReview
  deriving DecidableEq

def RefundRequestStatus.isOpen : RefundRequestStatus → Bool
  | requested | pending | requiresReview => true
  | succeeded | failed => false

/-- A refund request as it is stored, without the payment it draws on. -/
structure RefundRequestRow where
  status : RefundRequestStatus
  providerRefundId : Option Nat
  failureCode : Option Text
  createdAt : Int
  updatedAt : Int
  completedAt : Option Int
  deriving DecidableEq

structure RecordRefundOutcomeInput where
  status : RefundRequestStatus
  providerRefundId : Option Nat
  failureCode : Option Text
  deriving DecidableEq

structure ProviderRefundState where
  named : Bool
  providerRefundId : Nat
  outcome : RefundRequestStatus
  failureCode : Option Text
  deriving DecidableEq

namespace RefundRequestRow

def claimed (now : Int) : RefundRequestRow := ⟨.requested, none, none, now, now, none⟩

def completed (status : RefundRequestStatus) (now : Int) (row : RefundRequestRow) : Option Int :=
  if status.isOpen then none else row.completedAt <|> some now

/-- Records what the provider answered. A final state is never moved by a later answer. -/
def recordRefundOutcome (now : Int) (input : RecordRefundOutcomeInput) (row : RefundRequestRow) : RefundRequestRow :=
  if row.status.isOpen then
    { row with
      status := input.status
      providerRefundId := input.providerRefundId <|> row.providerRefundId
      failureCode := input.failureCode
      completedAt := row.completed input.status now
      updatedAt := now }
  else row

/-- Moves the request that a refund event belongs to: the one of its refund, or the one that it names and that has no refund yet. -/
def applyProviderRefundState (now : Int) (input : ProviderRefundState) (row : RefundRequestRow) : RefundRequestRow :=
  if (row.providerRefundId = some input.providerRefundId ∨ input.named = true ∧ row.providerRefundId = none) ∧ row.status.isOpen = true then
    { row with
      status := input.outcome
      providerRefundId := row.providerRefundId <|> some input.providerRefundId
      failureCode := if input.outcome = .failed then input.failureCode else none
      completedAt := row.completed input.outcome now
      updatedAt := now }
  else row

end RefundRequestRow

structure CreditAllocation where
  quantity : Nat
  reversedQuantity : Nat
  usedQuantity : Nat
  roundingUnit : Nat
  deriving DecidableEq

def CreditAllocation.unconsumed (allocation : CreditAllocation) : Nat :=
  allocation.quantity - allocation.reversedQuantity - allocation.usedQuantity

inductive RefundTarget where
  | subscriptionPayment (period : Option (Int × Int))
  | purchase (priceAmount creditAmount : Nat) (completed : Bool) (allocations : List CreditAllocation)
  deriving DecidableEq

/-- A payment through Stripe: the latest invoice of a subscription, or a one-time purchase. -/
structure RefundablePayment where
  amountPaidMinor : Nat
  reversedAmount : Nat
  target : RefundTarget
  deriving DecidableEq

def remainingTimeShare (paidMinor : Nat) (periodStart periodEnd now : Int) : Nat :=
  let total := periodEnd - periodStart
  let remaining := min total (max 0 (periodEnd - max now periodStart))
  if total ≤ 0 then 0 else (paidMinor * remaining / total).toNat

def remainingTimeRefundMinor (paidMinor refundableMinor : Nat) (periodStart periodEnd now : Int) : Nat :=
  min (remainingTimeShare paidMinor periodStart periodEnd now) refundableMinor

inductive RefundError where
  | refundAlreadyOpen (requestId : Nat)
  | refundNotProratable
  | refundNothingRefundable
  | paymentNotRefundable
  deriving DecidableEq

namespace RefundablePayment

def refundableAmount (payment : RefundablePayment) : Nat := payment.amountPaidMinor - payment.reversedAmount

def quantity (allocations : List CreditAllocation) : Nat := (allocations.map CreditAllocation.quantity).sum

def unconsumed (allocations : List CreditAllocation) : Nat := (allocations.map CreditAllocation.unconsumed).sum

/-- The share of a payment that a prorated refund measures, before what is still refundable caps it. -/
def unusedShare (payment : RefundablePayment) (now : Int) : Option Nat :=
  match payment.target with
  | .subscriptionPayment none => none
  | .subscriptionPayment (some (periodStart, periodEnd)) => some (remainingTimeShare payment.amountPaidMinor periodStart periodEnd now)
  | .purchase _ _ _ allocations =>
    if 0 < quantity allocations then some (payment.amountPaidMinor * unconsumed allocations / quantity allocations) else none

def measure (payment : RefundablePayment) (mode : RefundMode) (now : Int) : Except RefundError (Nat × RefundBasis) :=
  match mode with
  | .full => .ok (payment.refundableAmount, .full)
  | .prorated =>
    match payment.target with
    | .subscriptionPayment none => .error .refundNotProratable
    | .subscriptionPayment (some (periodStart, periodEnd)) =>
      .ok (remainingTimeRefundMinor payment.amountPaidMinor payment.refundableAmount periodStart periodEnd now, .remainingTime)
    | .purchase .. =>
      match payment.unusedShare now with
      | none => .error .refundNotProratable
      | some share => .ok (min share payment.refundableAmount, .unconsumedCredit)

def resolveRefundPreview (payment : RefundablePayment) (openRequestId : Option Nat) (mode : RefundMode) (now : Int) :
    Except RefundError (Nat × RefundBasis) :=
  match payment.target, openRequestId with
  | .purchase _ _ false _, _ => .error .paymentNotRefundable
  | _, some requestId => .error (.refundAlreadyOpen requestId)
  | _, none => do
    let measured ← payment.measure mode now
    if measured.1 ≤ 0 then .error .refundNothingRefundable else return measured

/-- What the fingerprint of a preview binds, apart from what never changes of a payment. -/
def fingerprintFacts (payment : RefundablePayment) : Nat × Bool :=
  (payment.reversedAmount, match payment.target with
    | .subscriptionPayment _ => true
    | .purchase _ _ completed _ => completed)

def roundedShare (quantity part whole unit : Nat) : Nat :=
  if whole * unit = 0 then 0 else (2 * quantity * part + whole * unit) / (2 * (whole * unit)) * unit

def reverseAllocation (reversedCredit creditAmount : Nat) (allocation : CreditAllocation) : CreditAllocation :=
  { allocation with reversedQuantity := roundedShare allocation.quantity reversedCredit creditAmount allocation.roundingUnit }

def applyRefund (payment : RefundablePayment) (amount : Nat) : RefundablePayment :=
  match payment.target with
  | .subscriptionPayment _ => { payment with reversedAmount := min payment.amountPaidMinor (payment.reversedAmount + amount) }
  | .purchase priceAmount creditAmount completed allocations =>
    if priceAmount = 0 ∨ priceAmount < amount then payment
    else
      let reversed := min priceAmount (payment.reversedAmount + amount)
      let reversedCredit := StripeRefunds.proratedReversedCreditAmount creditAmount priceAmount reversed
      { payment with
        reversedAmount := reversed
        target := .purchase priceAmount creditAmount (completed && decide (reversed < priceAmount))
          (allocations.map (reverseAllocation reversedCredit creditAmount)) }

def useCredit (payment : RefundablePayment) (index usedQuantity : Nat) : RefundablePayment :=
  match payment.target with
  | .subscriptionPayment _ => payment
  | .purchase priceAmount creditAmount completed allocations =>
    let used := allocations.modify index fun allocation => { allocation with usedQuantity := usedQuantity }
    { payment with target := .purchase priceAmount creditAmount completed used }

end RefundablePayment

inductive PreviewStatus where
  | previewed
  | executing
  | executed
  deriving DecidableEq

structure RefundPreview where
  mode : RefundMode
  amountMinor : Nat
  basis : RefundBasis
  facts : RefundablePayment
  resolvedAt : Int
  deriving DecidableEq

structure StoredPreview where
  preview : RefundPreview
  status : PreviewStatus
  executionIdempotencyKey : Option Text
  expiresAt : Int
  deriving DecidableEq

structure PaymentRequest where
  previewToken : Nat
  preview : RefundPreview
  row : RefundRequestRow
  deriving DecidableEq

/-- One payment, the refunds previewed of it and the requests made of Stripe. Previews and requests are named by when they came. -/
structure PaymentRefunds where
  clock : Int
  payment : RefundablePayment
  previews : List StoredPreview
  requests : List PaymentRequest
  deriving DecidableEq

namespace PaymentRefunds

def openRequestId (refunds : PaymentRefunds) : Option Nat :=
  refunds.requests.findIdx? fun request => request.row.status.isOpen

def resolve (refunds : PaymentRefunds) (mode : RefundMode) : Except RefundError (Nat × RefundBasis) :=
  refunds.payment.resolveRefundPreview refunds.openRequestId mode refunds.clock

def preview (mode : RefundMode) (ttl : Nat) (refunds : PaymentRefunds) : PaymentRefunds :=
  match refunds.resolve mode with
  | .error _ => refunds
  | .ok (amount, basis) =>
    { refunds with previews := refunds.previews ++
        [⟨⟨mode, amount, basis, refunds.payment, refunds.clock⟩, .previewed, none, refunds.clock + ttl⟩] }

/-- Begins an execution: a preview is resolved again, and what it was measured from must not have changed. -/
def begin (token : Nat) (idempotencyKey : Text) (refunds : PaymentRefunds) : PaymentRefunds :=
  match refunds.previews[token]? with
  | none => refunds
  | some stored =>
    match stored.status, refunds.resolve stored.preview.mode with
    | .executed, _ => refunds
    | .executing, _ => refunds
    | .previewed, .error _ => refunds
    | .previewed, .ok _ =>
      if stored.preview.facts.fingerprintFacts ≠ refunds.payment.fingerprintFacts ∨ stored.expiresAt ≤ refunds.clock then refunds
      else
        let executing := { stored with status := .executing, executionIdempotencyKey := some idempotencyKey }
        { refunds with previews := refunds.previews.set token executing }

/-- The preview that an execution records a request on: the one it began, unless it or another request is recorded already. -/
def claimable (token : Nat) (idempotencyKey : Text) (refunds : PaymentRefunds) : Option RefundPreview :=
  match refunds.previews[token]? with
  | none => none
  | some stored =>
    if stored.status = .executing ∧ stored.executionIdempotencyKey = some idempotencyKey ∧
        (refunds.requests.all fun request => request.previewToken != token && !request.row.status.isOpen) = true
    then some stored.preview else none

def claimRefundRequest (token : Nat) (idempotencyKey : Text) (refunds : PaymentRefunds) : PaymentRefunds :=
  match refunds.claimable token idempotencyKey with
  | none => refunds
  | some preview => { refunds with requests := refunds.requests ++ [⟨token, preview, .claimed refunds.clock⟩] }

def complete (token : Nat) (refunds : PaymentRefunds) : PaymentRefunds :=
  { refunds with previews := refunds.previews.modify token fun stored =>
      if stored.status = .executing then { stored with status := .executed } else stored }

def editRow (id : Nat) (edit : RefundRequestRow → RefundRequestRow) (refunds : PaymentRefunds) : PaymentRefunds :=
  { refunds with requests := refunds.requests.modify id fun request => { request with row := edit request.row } }

end PaymentRefunds

inductive PaymentStep where
  | wait (elapsed : Nat)
  | preview (mode : RefundMode) (ttl : Nat)
  | begin (token : Nat) (idempotencyKey : Text)
  | claim (token : Nat) (idempotencyKey : Text)
  | answer (id : Nat) (input : RecordRefundOutcomeInput)
  | event (id : Nat) (input : ProviderRefundState)
  | complete (token : Nat)
  | reverse (amount : Nat)
  | useCredit (index usedQuantity : Nat)
  deriving DecidableEq

/-- One step of any client, worker or webhook of the payment. An answer that is lost is one that is not recorded. -/
def PaymentStep.perform (refunds : PaymentRefunds) : PaymentStep → PaymentRefunds
  | .wait elapsed => { refunds with clock := refunds.clock + elapsed }
  | .preview mode ttl => refunds.preview mode ttl
  | .begin token idempotencyKey => refunds.begin token idempotencyKey
  | .claim token idempotencyKey => refunds.claimRefundRequest token idempotencyKey
  | .answer id input => refunds.editRow id (.recordRefundOutcome refunds.clock input)
  | .event id input => refunds.editRow id (.applyProviderRefundState refunds.clock input)
  | .complete token => refunds.complete token
  | .reverse amount => { refunds with payment := refunds.payment.applyRefund amount }
  | .useCredit index usedQuantity => { refunds with payment := refunds.payment.useCredit index usedQuantity }

def runPayment (refunds : PaymentRefunds) (steps : List PaymentStep) : PaymentRefunds :=
  steps.foldl PaymentStep.perform refunds

/-- Whether a request may still return its amount. -/
def PaymentRequest.stands (request : PaymentRequest) : Bool := request.row.status != .failed

def totalOf (requests : List PaymentRequest) : Nat := (requests.map fun request => request.preview.amountMinor).sum

/-- What the requests of a payment that are not recorded as failed ask for. -/
def PaymentRefunds.asked (refunds : PaymentRefunds) : Nat := totalOf (refunds.requests.filter PaymentRequest.stands)

/-- Whether two prorated previews measure the same unused share: no time has passed between them, or nothing more is consumed. -/
def RefundPreview.sameMeasure (preview other : RefundPreview) : Bool :=
  other.mode == .prorated && match preview.facts.target, other.facts.target with
  | .subscriptionPayment _, .subscriptionPayment _ => preview.resolvedAt == other.resolvedAt
  | .purchase _ _ _ allocations, .purchase _ _ _ others =>
    allocations.map CreditAllocation.usedQuantity == others.map CreditAllocation.usedQuantity
  | _, _ => false

def sharedBy (preview : RefundPreview) (requests : List PaymentRequest) : Nat :=
  totalOf (requests.filter fun request => request.stands && preview.sameMeasure request.preview)

/-- From each prorated request on, the requests of its measure ask for at most the unused share of its preview. -/
def UnusedOnce : List PaymentRequest → Prop
  | [] => True
  | request :: later => (request.stands = true → request.preview.mode = .prorated →
      ∀ share ∈ request.preview.facts.unusedShare request.preview.resolvedAt, sharedBy request.preview (request :: later) ≤ share) ∧
    UnusedOnce later

instance decideUnusedOnce : (requests : List PaymentRequest) → Decidable (UnusedOnce requests)
  | [] => isTrue trivial
  | _ :: later =>
    have := decideUnusedOnce later
    inferInstanceAs (Decidable ((_ → _ → ∀ _ ∈ _, _) ∧ _))

/-- The requests of a payment ask for no more than was paid, one at a time, and for no unused share twice. -/
structure PaymentRefunds.Bounded (refunds : PaymentRefunds) : Prop where
  paid : refunds.asked ≤ refunds.payment.amountPaidMinor
  alone : refunds.requests.countP (fun request => request.row.status.isOpen) ≤ 1
  unused : UnusedOnce refunds.requests

/-- Whether the unconsumed credit of a purchase has fallen by the part of the payment that was asked for in between. -/
def RefundPreview.takenBack (earlier preview : RefundPreview) (asked : Nat) : Bool :=
  match earlier.facts.target, preview.facts.target with
  | .purchase _ _ _ before, .purchase _ _ _ now =>
    decide (preview.facts.amountPaidMinor * RefundablePayment.unconsumed now + RefundablePayment.quantity before * asked ≤
      preview.facts.amountPaidMinor * RefundablePayment.unconsumed before)
  | _, _ => false

/-- Whether the credit of every earlier prorated request of a measure was taken back before a preview. -/
def allTakenBack (preview : RefundPreview) : List PaymentRequest → Bool
  | [] => true
  | request :: later => (!(request.stands && preview.sameMeasure request.preview) ||
      request.preview.takenBack preview (sharedBy request.preview (request :: later))) && allTakenBack preview later

/-- Whether a preview already counts every request of the payment: as reversed, and, if it is prorated, as taken back. -/
def PaymentRefunds.counts (refunds : PaymentRefunds) (preview : RefundPreview) : Bool :=
  decide (refunds.asked ≤ preview.facts.reversedAmount) &&
    (preview.mode != .prorated || allTakenBack preview refunds.requests)

/-- No request is claimed on a preview that leaves out what an earlier one returns. -/
def PaymentStep.counted (refunds : PaymentRefunds) : PaymentStep → Bool
  | .claim token idempotencyKey => (refunds.claimable token idempotencyKey).all refunds.counts
  | _ => true

def countedRun : PaymentRefunds → List PaymentStep → Bool
  | _, [] => true
  | refunds, step :: steps => step.counted refunds && countedRun (step.perform refunds) steps

/-- A payment of which no refund has been asked. -/
def untouched (payment : RefundablePayment) (clock : Int) : PaymentRefunds := ⟨clock, payment, [], []⟩

end Quotum.RefundRequests
