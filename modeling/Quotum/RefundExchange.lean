import Quotum.RefundRequests

/-! The exchange with Stripe over one refund request: executions that send it under one idempotency key or look it up, the calls that
are on their way, and the refund events, in any order. -/

namespace Quotum.RefundExchange
open General RefundRequests

inductive StripeRefundStatus where
  | pending
  | requiresAction
  | succeeded
  | failed
  | canceled
  deriving DecidableEq

/-- Stripe's refund status as the request's state: only `succeeded` and `failed` are final. -/
def refundState (status : Option StripeRefundStatus) (failureReason : Option Text) : RefundRequestStatus × Option Text :=
  match status with
  | some .succeeded => (.succeeded, none)
  | some .failed => (.failed, failureReason <|> some "failed".toList)
  | some .canceled => (.failed, failureReason <|> some "canceled".toList)
  | _ => (.pending, none)

structure StripeError where
  statusCode : Option Nat
  type : Option Text
  rawType : Option Text
  code : Option Text
  rawCode : Option Text
  deriving DecidableEq

/-- The code of a refusal: a client error that is not a rate limit or a reused idempotency key. -/
def stripeRefusal (error : StripeError) : Option Text :=
  match error.statusCode with
  | none => none
  | some statusCode =>
    if statusCode < 400 ∨ 500 ≤ statusCode ∨ statusCode = 429 then none
    else if error.type = some "StripeIdempotencyError".toList ∨ error.rawType = some "idempotency_error".toList then none
    else match error.code <|> error.rawCode <|> error.rawType with
      | some (letter :: letters) => some ((letter :: letters).take 80)
      | _ => some ("http_".toList ++ Nat.toDigits 10 statusCode)

/-- A refund at Stripe, with every status it has had; a named one carries the request's id. -/
structure StripeRefund where
  id : Nat
  named : Bool
  statuses : List StripeRefundStatus
  deriving DecidableEq

inductive KeyAnswer where
  | refund (id : Nat)
  | error (error : StripeError)
  deriving DecidableEq

structure StripeRefundAnswer where
  id : Nat
  status : StripeRefundStatus
  failureReason : Option Text
  deriving DecidableEq

inductive CreateReply where
  | refund (answer : StripeRefundAnswer)
  | error (error : StripeError)
  deriving DecidableEq

structure CreateCall where
  startedAt : Int
  reply : Option CreateReply
  deriving DecidableEq

inductive ExecutionStage where
  | claimed (status : RefundRequestStatus)
  | sending (call : Nat)
  | looking
  | found (refund : Option StripeRefundAnswer)
  | ended
  deriving DecidableEq

/-- The request of one preview, the refunds of its payment, the request's idempotency key, the calls under it and the executions. -/
structure Exchange where
  clock : Int
  request : Option RefundRequestRow
  refunds : List StripeRefund
  key : Option (Int × KeyAnswer)
  calls : List CreateCall
  executions : List ExecutionStage
  deriving DecidableEq

/-- How long a request may be sent again under its original key: twelve hours. -/
def resendWindow : Int := 43200000

def callWindow : Int := 43200000

def keyWindow : Int := 86400000

def outcomeOf (answer : StripeRefundAnswer) : RecordRefundOutcomeInput :=
  let state := refundState (some answer.status) answer.failureReason
  ⟨state.1, some answer.id, state.2⟩

def unconfirmed : RecordRefundOutcomeInput := ⟨.requiresReview, none, some "unconfirmed".toList⟩

namespace Exchange

def setStage (index : Nat) (stage : ExecutionStage) (exchange : Exchange) : Exchange :=
  { exchange with executions := exchange.executions.set index stage }

def recordOutcome (input : RecordRefundOutcomeInput) (exchange : Exchange) : Exchange :=
  { exchange with request := exchange.request.map (.recordRefundOutcome exchange.clock input) }

def execute (exchange : Exchange) : Exchange :=
  match exchange.request with
  | none => { exchange with
      request := some (.claimed exchange.clock)
      executions := exchange.executions ++ [.claimed .requested] }
  | some row => { exchange with executions := exchange.executions ++ [.claimed row.status] }

/-- An execution that has its request: it sends it, looks it up past the resend window, or has nothing to do. -/
def advance (index : Nat) (exchange : Exchange) : Exchange :=
  match exchange.executions[index]?, exchange.request with
  | some (.claimed .requested), some row =>
    if resendWindow ≤ exchange.clock - row.createdAt then exchange.setStage index .looking
    else
      let sending := exchange.setStage index (.sending exchange.calls.length)
      { sending with calls := exchange.calls ++ [⟨exchange.clock, none⟩] }
  | some (.claimed _), _ => exchange.setStage index .ended
  | _, _ => exchange

/-- What Stripe still keeps under the key. -/
def remembered (exchange : Exchange) : Option KeyAnswer :=
  match exchange.key with
  | some (usedAt, answer) => if exchange.clock < usedAt + keyWindow then some answer else none
  | none => none

def reply (call : Nat) (reply : CreateReply) (exchange : Exchange) : Exchange :=
  { exchange with calls := exchange.calls.modify call fun call => { call with reply := some reply } }

/-- Stripe applies a call: as it answered the key before, or, the first time, by a refund or an error. The answers it gives
before it looks at the key (401, 403) are left out. -/
def apply (call : Nat) (first : StripeRefundStatus ⊕ StripeError) (shown : Nat) (failureReason : Option Text) (exchange : Exchange) :
    Exchange :=
  match exchange.calls[call]? with
  | none => exchange
  | some sent =>
    if sent.startedAt + callWindow < exchange.clock then exchange
    else match exchange.remembered, first with
      | some (.refund id), _ =>
        match exchange.refunds[id]? with
        | none => exchange
        | some refund =>
          match refund.statuses[shown]? with
          | none => exchange
          | some status => exchange.reply call (.refund ⟨id, status, failureReason⟩)
      | some (.error error), _ => exchange.reply call (.error error)
      | none, .inl status =>
        let created := exchange.reply call (.refund ⟨exchange.refunds.length, status, failureReason⟩)
        { created with
          refunds := exchange.refunds ++ [⟨exchange.refunds.length, true, [status]⟩]
          key := some (exchange.clock, .refund exchange.refunds.length) }
      | none, .inr error => { exchange.reply call (.error error) with key := some (exchange.clock, .error error) }

/-- An execution receives the answer to its call. An error that is no refusal leaves the request as it is. -/
def receive (index : Nat) (exchange : Exchange) : Exchange :=
  match exchange.executions[index]? with
  | some (.sending call) =>
    match exchange.calls[call]?.bind CreateCall.reply with
    | none => exchange
    | some (.refund answer) => (exchange.recordOutcome (outcomeOf answer)).setStage index .ended
    | some (.error error) =>
      match stripeRefusal error with
      | none => exchange.setStage index .ended
      | some refusal => (exchange.recordOutcome ⟨.failed, none, some refusal⟩).setStage index .ended
  | _ => exchange

/-- An execution past the resend window lists the payment's refunds for the one that carries the request's id. -/
def look (index : Nat) (failureReason : Option Text) (exchange : Exchange) : Exchange :=
  match exchange.executions[index]? with
  | some .looking =>
    let found := (exchange.refunds.find? StripeRefund.named).bind fun refund =>
      refund.statuses.getLast?.map fun status => ⟨refund.id, status, failureReason⟩
    exchange.setStage index (.found found)
  | _ => exchange

def record (index : Nat) (exchange : Exchange) : Exchange :=
  match exchange.executions[index]? with
  | some (.found none) => (exchange.recordOutcome unconfirmed).setStage index .ended
  | some (.found (some answer)) => (exchange.recordOutcome (outcomeOf answer)).setStage index .ended
  | _ => exchange

def event (refund shown : Nat) (failureReason : Option Text) (exchange : Exchange) : Exchange :=
  match exchange.refunds[refund]? with
  | none => exchange
  | some refund =>
    match refund.statuses[shown]? with
    | none => exchange
    | some status =>
      let state := refundState (some status) failureReason
      let input : ProviderRefundState := ⟨refund.named, refund.id, state.1, state.2⟩
      { exchange with request := exchange.request.map (.applyProviderRefundState exchange.clock input) }

def report (refund : Nat) (status : StripeRefundStatus) (exchange : Exchange) : Exchange :=
  { exchange with refunds := exchange.refunds.modify refund fun refund => { refund with statuses := refund.statuses ++ [status] } }

end Exchange

inductive ExchangeStep where
  | wait (elapsed : Nat)
  | execute
  | advance (index : Nat)
  | apply (call : Nat) (first : StripeRefundStatus ⊕ StripeError) (shown : Nat) (failureReason : Option Text)
  | receive (index : Nat)
  | look (index : Nat) (failureReason : Option Text)
  | record (index : Nat)
  | crash (index : Nat)
  | refundElsewhere (status : StripeRefundStatus)
  | report (refund : Nat) (status : StripeRefundStatus)
  | event (refund shown : Nat) (failureReason : Option Text)

/-- One step of an execution, of Stripe, or of the webhook. A call that nobody waits for any more may still be applied. -/
def ExchangeStep.perform (exchange : Exchange) : ExchangeStep → Exchange
  | .wait elapsed => { exchange with clock := exchange.clock + elapsed }
  | .execute => exchange.execute
  | .advance index => exchange.advance index
  | .apply call first shown failureReason => exchange.apply call first shown failureReason
  | .receive index => exchange.receive index
  | .look index failureReason => exchange.look index failureReason
  | .record index => exchange.record index
  | .crash index => exchange.setStage index .ended
  | .refundElsewhere status => { exchange with refunds := exchange.refunds ++ [⟨exchange.refunds.length, false, [status]⟩] }
  | .report refund status => exchange.report refund status
  | .event refund shown failureReason => exchange.event refund shown failureReason

def runExchange (exchange : Exchange) (steps : List ExchangeStep) : Exchange :=
  steps.foldl ExchangeStep.perform exchange

/-- A preview before its first execution. -/
def unexecuted (clock : Int) : Exchange := ⟨clock, none, [], none, [], []⟩

/-- One refund carries the request's id at most, and a request is recorded as failed only when there is none or Stripe reported it as
failed or canceled. -/
structure Exchange.CreatedOnce (exchange : Exchange) : Prop where
  once : exchange.refunds.countP StripeRefund.named ≤ 1
  recorded : ∀ row ∈ exchange.request, ∀ id ∈ row.providerRefundId, ∃ refund ∈ exchange.refunds, refund.id = id ∧ refund.named = true
  failed : ∀ row ∈ exchange.request, row.status = .failed → (∀ refund ∈ exchange.refunds, refund.named = false) ∨
    ∃ refund ∈ exchange.refunds, refund.named = true ∧ ∃ status ∈ refund.statuses, status = .failed ∨ status = .canceled

end Quotum.RefundExchange
