import Quotum.Decimal
import Quotum.General.Table

/-! The automatic top-ups of one policy: jobs that reserve a part of the interval's budget, are charged by
workers under leases, and settle or give back what they reserved. -/

namespace Quotum.AutoTopups
open General Decimal

inductive TopupPhase where
  | charge
  | reconcile
  | complete
  deriving DecidableEq

inductive JobStatus where
  | pending
  | processing
  | succeeded
  | failed
  | providerActionRequired
  | requiresReview
  deriving DecidableEq

inductive CircuitStatus where
  | ready
  | cooldown
  | suspended
  deriving DecidableEq

inductive FailureKind where
  | retryable
  | actionRequired
  | safetyLimitExceeded
  deriving DecidableEq

structure ChargeSucceeded where
  externalInvoiceId : Text
  externalPaymentId : Option Text
  amountPaidMinor : Int
  currency : Text
  deriving DecidableEq

structure AutoTopupPolicy where
  thresholdUnits : Nat
  cooldownSeconds : Nat
  limitIntervalSeconds : Nat
  maxPurchasesPerInterval : Nat
  maxSpendMinor : Option Nat
  maxConsecutiveFailures : Nat
  atLeastMinute : 60 ≤ limitIntervalSeconds
  deriving DecidableEq

structure AutoTopupState where
  status : CircuitStatus
  intervalStartedAt : Int
  purchasesInInterval : Nat
  spendMinorInInterval : Nat
  consecutiveFailures : Nat
  cooldownUntil : Option Int
  deriving DecidableEq

structure AutoTopupJob where
  id : Nat
  triggerKey : Text
  status : JobStatus
  phase : TopupPhase
  amountMinor : Option Nat
  currency : Option Text
  attempts : Nat
  nextAttemptAt : Int
  lockedAt : Option Int
  lockedBy : Option Text
  budgetIntervalStartedAt : Option Int
  externalInvoiceId : Option Text
  externalPaymentId : Option Text
  providerResult : Option ChargeSucceeded
  completionAttempts : Nat
  chargedAmountMinor : Option Nat
  deriving DecidableEq

namespace AutoTopupJob

/-- A job that ends without a charge, and lets go of its reservation. -/
def terminate (job : AutoTopupJob) : AutoTopupJob :=
  { job with
    status := .failed
    budgetIntervalStartedAt := none
    lockedAt := none
    lockedBy := none }

def claim (worker : Text) (now : Int) (interval : Option Int) (job : AutoTopupJob) : AutoTopupJob :=
  { job with
    status := .processing
    attempts := job.attempts + 1
    lockedAt := some now
    lockedBy := some worker
    budgetIntervalStartedAt := interval }

def renew (worker : Text) (now : Int) (job : AutoTopupJob) : AutoTopupJob :=
  if job.status = .processing ∧ job.lockedBy = some worker then { job with lockedAt := some now } else job

def checkpoint (invoiceId : Text) (phase : Option TopupPhase) (result : Option ChargeSucceeded) (job : AutoTopupJob) :
    AutoTopupJob :=
  { job with
    externalInvoiceId := some invoiceId
    phase := if result.isSome then .complete else phase.getD .charge
    providerResult := result.or job.providerResult }

def defer (nextAttemptAt : Int) (job : AutoTopupJob) : AutoTopupJob :=
  { job with
    status := if job.completionAttempts ≥ 9 then .requiresReview else .pending
    completionAttempts := min (job.completionAttempts + 1) (2 ^ 31 - 1)
    nextAttemptAt := nextAttemptAt
    lockedAt := none
    lockedBy := none }

def resume (now : Int) (job : AutoTopupJob) : AutoTopupJob :=
  if job.status = .requiresReview then { job with
    status := .pending
    completionAttempts := 0
    nextAttemptAt := now
    lockedAt := none
    lockedBy := none }
  else job

def settle (amountPaid : Nat) (charge : ChargeSucceeded) (job : AutoTopupJob) : AutoTopupJob :=
  { job with
    status := .succeeded
    chargedAmountMinor := some amountPaid
    externalInvoiceId := some charge.externalInvoiceId
    externalPaymentId := charge.externalPaymentId
    lockedAt := none
    lockedBy := none }

def fail (status : JobStatus) (nextAttemptAt : Int) (externalInvoiceId externalPaymentId : Option Text) (job : AutoTopupJob) :
    AutoTopupJob :=
  { job with
    status := status
    nextAttemptAt := nextAttemptAt
    externalInvoiceId := externalInvoiceId.or job.externalInvoiceId
    externalPaymentId := externalPaymentId.or job.externalPaymentId
    budgetIntervalStartedAt := none
    phase := .charge
    lockedAt := none
    lockedBy := none }

end AutoTopupJob

structure TopupAccount where
  state : AutoTopupState
  jobs : List AutoTopupJob
  deriving DecidableEq

structure TopupClock where
  startedAt : Int
  now : Int
  deriving DecidableEq

/-- Jobs that can still be claimed, completed or resumed. -/
def JobStatus.live (status : JobStatus) : Bool :=
  status == .pending || status == .processing || status == .requiresReview

def safeMinor (value : Option Int) (name : String) : Except Failure Nat :=
  match value with
  | none => .error (.internal s!"{name} is required")
  | some value =>
    if value < 0 ∨ value > maxSafeInteger then .error (.internal s!"{name} must be a non-negative safe integer")
    else .ok value.toNat

def upper (text : Text) : Text :=
  text.map Char.toUpper

/-- Blank text, which a worker or an invoice may not be named by. -/
def blank (text : Text) : Bool :=
  (trim text).isEmpty

def updateJob (id : Nat) (change : AutoTopupJob → AutoTopupJob) (account : TopupAccount) : TopupAccount :=
  { account with jobs := updateAt AutoTopupJob.id id change account.jobs }

def requireProcessingLock (job : AutoTopupJob) (worker : Text) : Except Failure Unit :=
  if job.status ≠ .processing ∨ job.lockedBy ≠ some worker then
    .error (.internal s!"Auto top-up job {job.id} is not locked by {String.ofList worker}")
  else .ok ()

section Interval
variable (policy : AutoTopupPolicy) (clock : TopupClock)

def AutoTopupState.expired (state : AutoTopupState) : Bool :=
  decide (state.intervalStartedAt + policy.limitIntervalSeconds * 1000 ≤ clock.now)

/-- Ready, or cooling down until a later time. -/
def AutoTopupState.closed (state : AutoTopupState) : CircuitStatus :=
  if state.cooldownUntil.any fun ending => decide (clock.startedAt < ending) then .cooldown else .ready

/-- Starts a new interval once the current one is over, unless the policy is suspended. -/
def normalizeInterval (state : AutoTopupState) : Except Failure AutoTopupState := do
  let _ ← safeMinor (some state.spendMinorInInterval) "auto top-up interval spend"
  if state.status ≠ .suspended ∧ state.expired policy clock = true then
    return { state with
      intervalStartedAt := clock.now
      purchasesInInterval := 0
      spendMinorInInterval := 0
      status := state.closed clock }
  else return state

def AutoTopupJob.reservedIn (job : AutoTopupJob) (state : AutoTopupState) : Bool :=
  job.budgetIntervalStartedAt == some state.intervalStartedAt

def exceeds (purchases spend : Int) : Bool :=
  decide (purchases > policy.maxPurchasesPerInterval) || policy.maxSpendMinor.any fun most => decide (spend > most)

end Interval

section Operations
variable (policy : AutoTopupPolicy) (clock : TopupClock)

/-- The interval a schedule counts in: a new one, once the current one is over. -/
def scheduledInterval (state : AutoTopupState) : AutoTopupState :=
  if state.expired policy clock then { state with
    intervalStartedAt := clock.startedAt
    purchasesInInterval := 0
    spendMinorInInterval := 0
    status := .ready
    cooldownUntil := none }
  else state

/-- Enqueues a job when the balance fell to the threshold, the budget has room for one more purchase and no
other job of the policy is open. Providers that cannot charge get a job that asks the customer to act. -/
def scheduleAutoTopupIfNeeded (availableUnits : Nat) (triggerKey : Text) (price : Option Nat) (currency : Option Text)
    (supported : Bool) (account : TopupAccount) : TopupAccount :=
  let state := account.state
  if availableUnits > policy.thresholdUnits ∨ state.status = .suspended then account
  else
    let rolled := scheduledInterval policy clock state
    let amount := price.getD 0
    if state.cooldownUntil.any (fun ending => decide (clock.now < ending)) ∨
        rolled.purchasesInInterval ≥ policy.maxPurchasesPerInterval ∨
        (supported = true ∧ (amount > maxSafeInteger ∨ amount ≤ 0 ∨ currency = none)) ∨
        (policy.maxSpendMinor.any fun most => decide (rolled.spendMinorInInterval + amount > most)) ∨
        (account.jobs.any fun job => job.status.live) then
      { account with state := rolled }
    else
      let job : AutoTopupJob := {
        id := account.jobs.length
        triggerKey := triggerKey
        status := if supported then .pending else .providerActionRequired
        phase := .charge
        amountMinor := some amount
        currency := currency.map upper
        attempts := 0
        nextAttemptAt := clock.startedAt
        lockedAt := none
        lockedBy := none
        budgetIntervalStartedAt := none
        externalInvoiceId := none
        externalPaymentId := none
        providerResult := none
        completionAttempts := 0
        chargedAmountMinor := none }
      { state := { rolled with
          status := .cooldown
          cooldownUntil := some (clock.startedAt + policy.cooldownSeconds * 1000) }
        jobs := if account.jobs.any fun job => job.triggerKey == triggerKey then account.jobs else account.jobs ++ [job] }

def AutoTopupJob.claimable (staleAfterMs : Nat) (job : AutoTopupJob) : Bool :=
  (job.status == .pending && decide (job.nextAttemptAt ≤ clock.startedAt)) ||
    (job.status == .processing && job.lockedAt.any fun locked => decide (locked < clock.now - staleAfterMs))

def AutoTopupJob.recovering (job : AutoTopupJob) : Bool :=
  job.phase != .charge || job.providerResult.isSome

/-- Ends a job that cannot be claimed and gives back what it reserved in the current interval. -/
def terminateUnclaimableJob (job : AutoTopupJob) (account : TopupAccount) : Except Failure TopupAccount := do
  let state ← normalizeInterval policy clock account.state
  let amount := job.amountMinor.getD 0
  let released := if job.reservedIn state then { state with
      purchasesInInterval := state.purchasesInInterval - 1
      spendMinorInInterval := state.spendMinorInInterval - amount }
    else state
  return updateJob job.id AutoTopupJob.terminate { account with state := released }

def suspendUnclaimableJob (job : AutoTopupJob) (account : TopupAccount) : Except Failure TopupAccount := do
  let ended ← terminateUnclaimableJob policy clock job account
  return { ended with state := { ended.state with status := .suspended } }

structure ClaimedJob where
  jobId : Nat
  amountMinor : Nat
  maximumChargeMinor : Int
  attempts : Nat
  deriving DecidableEq

/-- Locks a job for a worker and reserves a purchase of its amount, unless it is recovering or holds its
reservation already. -/
def prepareClaimedJob (active : Bool) (worker : Text) (job : AutoTopupJob) (account : TopupAccount) :
    Except Failure (TopupAccount × Option ClaimedJob) := do
  let state ← normalizeInterval policy clock account.state
  if !job.recovering ∧ (!active ∨ account.state.status = .suspended) then
    return (← terminateUnclaimableJob policy clock job account, none)
  else
    let amount ← safeMinor (job.amountMinor.map Int.ofNat) "scheduled auto top-up amount"
    if amount ≤ 0 ∨ job.currency = none then return (← suspendUnclaimableJob policy clock job account, none)
    else
      let reserving := !job.reservedIn state && !job.recovering
      if reserving ∧ exceeds policy (state.purchasesInInterval + 1) (state.spendMinorInInterval + amount) then
        return (← terminateUnclaimableJob policy clock job account, none)
      else
        let next := if reserving then { state with
            purchasesInInterval := state.purchasesInInterval + 1
            spendMinorInInterval := state.spendMinorInInterval + amount }
          else state
        let interval := if job.recovering then job.budgetIntervalStartedAt else some state.intervalStartedAt
        return (updateJob job.id (AutoTopupJob.claim worker clock.now interval) { account with state := next }, some {
          jobId := job.id
          amountMinor := amount
          maximumChargeMinor := match policy.maxSpendMinor with
            | none => maxSafeInteger
            | some most => (amount : Int) + most - next.spendMinorInInterval
          attempts := job.attempts + 1 })

def claimAutoTopupJob (active : Bool) (worker : Text) (staleAfterMs : Nat) (id : Nat) (account : TopupAccount) :
    Except Failure (TopupAccount × Option ClaimedJob) :=
  if blank worker then .error (.internal "Auto top-up worker id is required")
  else match findAt AutoTopupJob.id id account.jobs with
  | none => .ok (account, none)
  | some job =>
    if job.claimable clock staleAfterMs then prepareClaimedJob policy clock active worker job account
    else .ok (account, none)

def renewAutoTopupJobLease (worker : Text) (id : Nat) (account : TopupAccount) : TopupAccount :=
  updateJob id (AutoTopupJob.renew worker clock.now) account

/-- Records the invoice a charge goes through, and its receipt once it is paid. -/
def checkpointAutoTopup (worker : Text) (id : Nat) (invoiceId : Text) (phase : Option TopupPhase)
    (result : Option ChargeSucceeded) (account : TopupAccount) : Except Failure TopupAccount :=
  if blank invoiceId ∨ result.any fun receipt => receipt.externalInvoiceId != invoiceId then
    .error (.internal "Invalid auto top-up checkpoint")
  else match findAt AutoTopupJob.id id account.jobs with
  | none => .error (.internal "Auto top-up checkpoint lost ownership or changed identity")
  | some job =>
    if job.status = .processing ∧ job.lockedBy = some worker ∧
        (job.externalInvoiceId = none ∨ job.externalInvoiceId = some invoiceId) ∧
        (job.providerResult = none ∨ job.providerResult = result) then
      .ok (updateJob id (AutoTopupJob.checkpoint invoiceId phase result) account)
    else .error (.internal "Auto top-up checkpoint lost ownership or changed identity")

def retryAutoTopupCompletion (worker : Text) (id : Nat) (delayMs : Nat) (account : TopupAccount) : Except Failure TopupAccount :=
  match findAt AutoTopupJob.id id account.jobs with
  | none => .error (.internal "Auto top-up completion retry lost ownership")
  | some job =>
    if job.status = .processing ∧ job.lockedBy = some worker then
      .ok (updateJob id (AutoTopupJob.defer (clock.now + delayMs)) account)
    else .error (.internal "Auto top-up completion retry lost ownership")

def resumeAutoTopupReview (id : Nat) (account : TopupAccount) : TopupAccount :=
  updateJob id (AutoTopupJob.resume clock.now) account

def findJob (id : Nat) (account : TopupAccount) : Except Failure AutoTopupJob :=
  match findAt AutoTopupJob.id id account.jobs with
  | none => .error (.internal s!"Auto top-up job {id} was not found")
  | some job => .ok job

/-- The purchases counted once a job is charged: it takes the place of its own reservation. -/
def AutoTopupJob.settledPurchases (job : AutoTopupJob) (state : AutoTopupState) : Nat :=
  state.purchasesInInterval + if job.reservedIn state then 0 else 1

def AutoTopupJob.settledSpend (job : AutoTopupJob) (state : AutoTopupState) (expected amountPaid : Nat) : Int :=
  (state.spendMinorInInterval : Int) - (if job.reservedIn state then expected else 0 : Nat) + amountPaid

/-- Settles a paid charge: its amount takes the place of the reservation in the interval's counters, and a charge
beyond the budget suspends the policy. -/
def markAutoTopupSucceeded (worker : Text) (id : Nat) (charge : ChargeSucceeded) (account : TopupAccount) :
    Except Failure (TopupAccount × Bool) := do
  let job ← findJob id account
  let amountPaid ← safeMinor (some charge.amountPaidMinor) "charged auto top-up amount"
  if some (upper (trim charge.currency)) ≠ job.currency.map upper then
    .error (.internal "Auto top-up charge currency does not match the scheduled job")
  else if job.status = .succeeded then
    let stored ← safeMinor (job.chargedAmountMinor.map Int.ofNat) "stored auto top-up charge"
    if job.externalInvoiceId ≠ some charge.externalInvoiceId ∨ stored ≠ amountPaid then
      .error (.internal "Auto top-up success receipt does not match the completed job")
    else return (account, account.state.status == .suspended)
  else
    requireProcessingLock job worker
    let state ← normalizeInterval policy clock account.state
    let expected ← safeMinor (job.amountMinor.map Int.ofNat) "scheduled auto top-up amount"
    let purchases := job.settledPurchases state
    let spend := job.settledSpend state expected amountPaid
    let safetyExceeded := exceeds policy purchases spend
    if spend < 0 then .error (.internal "new row for relation auto_topup_states violates check constraint")
    else
      let next : AutoTopupState := { state with
        purchasesInInterval := purchases
        spendMinorInInterval := spend.toNat
        consecutiveFailures := if safetyExceeded then account.state.consecutiveFailures + 1 else 0
        status := if safetyExceeded then .suspended else state.closed clock }
      return (updateJob job.id (AutoTopupJob.settle amountPaid charge) { account with state := next }, safetyExceeded)

def failedStatus (kind : FailureKind) (retryScheduled : Bool) : JobStatus :=
  if retryScheduled then .pending else if kind = .retryable then .failed else .providerActionRequired

/-- Records a failed attempt and gives back its reservation. A failure that no retry can mend, or one too many in
a row, suspends the policy. -/
def markAutoTopupFailed (worker : Text) (id : Nat) (kind : FailureKind) (retryDelayMs : Option Nat)
    (externalInvoiceId externalPaymentId : Option Text) (account : TopupAccount) :
    Except Failure (TopupAccount × Bool × Bool) := do
  let job ← findJob id account
  requireProcessingLock job worker
  let state ← normalizeInterval policy clock account.state
  let reserved := job.reservedIn state
  let expected ← safeMinor (job.amountMinor.map Int.ofNat) "scheduled auto top-up amount"
  let failures := account.state.consecutiveFailures + 1
  let circuitOpened := kind != .retryable || decide (failures ≥ policy.maxConsecutiveFailures)
  let retryScheduled := !circuitOpened && retryDelayMs.isSome
  let next : AutoTopupState := { state with
    purchasesInInterval := state.purchasesInInterval - if reserved then 1 else 0
    spendMinorInInterval := state.spendMinorInInterval - if reserved then expected else 0
    consecutiveFailures := failures
    status := if circuitOpened then .suspended else state.closed clock }
  let failed := AutoTopupJob.fail (failedStatus kind retryScheduled) (clock.now + retryDelayMs.getD 0) externalInvoiceId externalPaymentId
  return (updateJob job.id failed { account with state := next }, retryScheduled, circuitOpened)

end Operations

inductive TopupWrite where
  | schedule (availableUnits : Nat) (triggerKey : Text) (price : Option Nat) (currency : Option Text) (supported : Bool)
  | claim (active : Bool) (worker : Text) (staleAfterMs : Nat) (job : Nat)
  | renew (worker : Text) (job : Nat)
  | checkpoint (worker : Text) (job : Nat) (invoiceId : Text) (phase : Option TopupPhase) (result : Option ChargeSucceeded)
  | retry (worker : Text) (job : Nat) (delayMs : Nat)
  | resume (job : Nat)
  | succeed (worker : Text) (job : Nat) (charge : ChargeSucceeded)
  | fail (worker : Text) (job : Nat) (kind : FailureKind) (retryDelayMs : Option Nat)
      (externalInvoiceId externalPaymentId : Option Text)
  deriving DecidableEq

def TopupWrite.apply (policy : AutoTopupPolicy) (clock : TopupClock) (account : TopupAccount) :
    TopupWrite → Except Failure TopupAccount
  | .schedule availableUnits triggerKey price currency supported =>
    .ok (scheduleAutoTopupIfNeeded policy clock availableUnits triggerKey price currency supported account)
  | .claim active worker staleAfterMs job => Prod.fst <$> claimAutoTopupJob policy clock active worker staleAfterMs job account
  | .renew worker job => .ok (renewAutoTopupJobLease clock worker job account)
  | .checkpoint worker job invoiceId phase result => checkpointAutoTopup worker job invoiceId phase result account
  | .retry worker job delayMs => retryAutoTopupCompletion clock worker job delayMs account
  | .resume job => .ok (resumeAutoTopupReview clock job account)
  | .succeed worker job charge => Prod.fst <$> markAutoTopupSucceeded policy clock worker job charge account
  | .fail worker job kind retryDelayMs externalInvoiceId externalPaymentId =>
    Prod.fst <$> markAutoTopupFailed policy clock worker job kind retryDelayMs externalInvoiceId externalPaymentId account

end Quotum.AutoTopups
