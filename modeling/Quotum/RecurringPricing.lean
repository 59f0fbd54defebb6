import Quotum.Promotions
import Quotum.SubscriptionChanges

/-! The changes of one subscription with what is advanced beside them: the promotion redemption that a change reserves and the
catalog migration job that stages one. An operation is one transaction. -/

namespace Quotum.RecurringPricing
open General Promotions SubscriptionChanges

inductive ChangeKey where
  | request (key : Nat)
  | migration (jobId : Nat)
  deriving DecidableEq

structure ChangeHash where
  promotionCodeId : Option Nat
  rest : Nat
  deriving DecidableEq

structure PreparedChange where
  change : SubscriptionChange
  idempotencyKey : ChangeKey
  requestHash : ChangeHash
  deriving DecidableEq

inductive MigrationStatus where
  | pending
  | processing
  | waitingProvider
  | applied
  | failed
  | skipped
  deriving DecidableEq

structure MigrationJob where
  id : Nat
  status : MigrationStatus
  subscriptionChangeId : Option Nat
  deriving DecidableEq

structure ChangeTables where
  customerId : Nat
  changes : List PreparedChange
  jobs : List MigrationJob
  promotions : PromotionState
  deriving DecidableEq

inductive ChangeFailure where
  | change (failure : Failure)
  | promotion (code : PromotionErrorCode)
  deriving DecidableEq

structure PromotionUse where
  promotionCodeId : Nat
  billingAccountId : Nat
  deriving DecidableEq

/-- A request of a change, with what its resolution finds: the pinned version, or why it refuses. -/
structure PrepareInput where
  idempotencyKey : Nat
  rest : Nat
  promotion : Option PromotionUse
  request : ChangeRequest
  resolution : Except Failure Nat
  hasPurchased : Bool
  now : Int

def PrepareInput.requestHash (input : PrepareInput) : ChangeHash :=
  ⟨input.promotion.map PromotionUse.promotionCodeId, input.rest⟩

inductive StageDecision where
  | leave
  | finish (status : MigrationStatus)
  | change (fromPlanVersionId : Nat) (request : ChangeRequest) (rest : Nat)

def day : Int := 24 * 60 * minute

def newChange (id fromPlanVersionId : Nat) (request : ChangeRequest) (now : Int) : SubscriptionChange where
  id := id
  fromPlanVersionId := fromPlanVersionId
  toPlanVersionId := request.toPlanVersionId
  effectiveMode := request.effectiveMode
  effectiveAt := request.effectiveAt
  carryOver := request.carryOver
  hasSideEffects := request.hasSideEffects
  status := .pending
  attempts := 0
  createdAt := now
  updatedAt := now
  synchronizedAt := none

def PreparedChange.id (prepared : PreparedChange) : Nat :=
  prepared.change.id

def PreparedChange.edit (change : SubscriptionChange → SubscriptionChange) (prepared : PreparedChange) : PreparedChange :=
  { prepared with change := change prepared.change }

/-- Whether a change ended without being applied. -/
def PreparedChange.ended (prepared : PreparedChange) : Bool :=
  prepared.change.status == .failed || prepared.change.status == .cancelled

namespace ChangeTables

def anyOpen (tables : ChangeTables) : Bool :=
  tables.changes.any fun prepared => prepared.change.open_

def openChange (tables : ChangeTables) (changeId : Nat) : Bool :=
  tables.changes.any fun prepared => prepared.id == changeId && prepared.change.open_

def surroundings (tables : ChangeTables) (now : Int) (hasPurchased : Bool) : Surroundings where
  now := now
  openChange := tables.openChange
  hasPurchased := fun _ => hasPurchased

def changeAt (id : Nat) (change : SubscriptionChange → SubscriptionChange) (tables : ChangeTables) : ChangeTables :=
  { tables with changes := updateAt PreparedChange.id id (PreparedChange.edit change) tables.changes }

def reserveInput (input : PrepareInput) (use : PromotionUse) (changeId customerId : Nat) : ReserveInput where
  customerId := customerId
  billingAccountId := use.billingAccountId
  promotionCodeId := use.promotionCodeId
  channel := .web
  provider := .stripe
  idempotencyKey := input.idempotencyKey
  rest := input.rest
  reservedUntil := some (input.request.effectiveAt + day)
  subscriptionChangeId := some changeId

def reservePromotion (input : PrepareInput) (changeId : Nat) (tables : ChangeTables) : Except ChangeFailure ChangeTables :=
  match input.promotion with
  | none => .ok tables
  | some use =>
    match reservePromotionRedemption nonNegative (tables.surroundings input.now input.hasPurchased)
        (reserveInput input use changeId tables.customerId) tables.promotions with
    | .ok promotions => .ok { tables with promotions := promotions }
    | .error code => .error (.promotion code)

def findKey (key : ChangeKey) (tables : ChangeTables) : Option PreparedChange :=
  findAt PreparedChange.idempotencyKey key tables.changes

def prepareSubscriptionChange (input : PrepareInput) (tables : ChangeTables) : Except ChangeFailure ChangeTables :=
  match input.resolution with
  | .error failure => .error (.change failure)
  | .ok fromPlanVersionId =>
    match tables.findKey (.request input.idempotencyKey) with
    | some existing =>
      if existing.requestHash ≠ input.requestHash then
        .error (.change (.conflict "Idempotency key was reused with a different subscription change"))
      else tables.reservePromotion input existing.id
    | none =>
      if tables.anyOpen then
        .error (.change (.conflict "Another subscription change is already pending"))
      else
        let id := tables.changes.length
        reservePromotion input id { tables with
          changes := tables.changes ++
            [⟨newChange id fromPlanVersionId input.request input.now, .request input.idempotencyKey, input.requestHash⟩] }

def changeRedemption (changeId : Nat) (tables : ChangeTables) : Option PromotionRedemption :=
  tables.promotions.redemptions.find? fun redemption =>
    redemption.subscriptionChangeId == some changeId && redemption.status == .reserved

def moveJobs (changeId : Nat) (status : MigrationStatus) (tables : ChangeTables) : ChangeTables :=
  { tables with
    jobs := tables.jobs.map fun job =>
      if job.subscriptionChangeId = some changeId ∧ job.status = .waitingProvider then { job with status := status } else job }

/-- What a redemption's operation leaves. One that is not found is left alone. -/
def withPromotions (result : Except PromotionErrorCode PromotionState) (tables : ChangeTables) : Except ChangeFailure ChangeTables :=
  match result with
  | .ok promotions => .ok { tables with promotions := promotions }
  | .error code => .error (.promotion code)

def applyRedemption (changeId : Nat) (tables : ChangeTables) : Except ChangeFailure ChangeTables :=
  match tables.changeRedemption changeId with
  | none => .ok tables
  | some redemption => tables.withPromotions (applyPromotionRedemption nonNegative ⟨redemption.id, none, none⟩ tables.promotions)

def releaseRedemption (changeId : Nat) (tables : ChangeTables) : Except ChangeFailure ChangeTables :=
  match tables.changeRedemption changeId with
  | none => .ok tables
  | some redemption => tables.withPromotions (releasePromotionRedemption nonNegative redemption.id tables.promotions)

/-- Releases the redemption of a change that ended and fails the job that waits for it. -/
def endChange (changeId : Nat) (tables : ChangeTables) : Except ChangeFailure ChangeTables :=
  (tables.releaseRedemption changeId).map (moveJobs changeId .failed)

def held (worker : Text) (changeId : Nat) (tables : ChangeTables) : Option PreparedChange :=
  tables.changes.find? fun prepared => prepared.id == changeId && prepared.change.heldBy worker

def notOwned (changeId : Nat) : ChangeFailure :=
  .change (.internal s!"Subscription change {changeId} was not owned by worker")

def claimSubscriptionChange (worker : Text) (changeId : Nat) (now : Int) (tables : ChangeTables) : Except ChangeFailure ChangeTables :=
  if tables.changes.any fun prepared => prepared.id == changeId && prepared.change.claimable now then
    .ok (tables.changeAt changeId (SubscriptionChange.claim worker now))
  else .error (.change (.conflict s!"Subscription change {changeId} is not due"))

def renewSubscriptionChangeLease (worker : Text) (changeId : Nat) (now : Int) (tables : ChangeTables) :
    Except ChangeFailure ChangeTables :=
  match tables.held worker changeId with
  | none => .error (notOwned changeId)
  | some _ => .ok (tables.changeAt changeId (SubscriptionChange.renew worker now))

def markSubscriptionChangeApplied (worker : Text) (changeId : Nat) (now : Int) (tables : ChangeTables) :
    Except ChangeFailure ChangeTables :=
  match tables.held worker changeId with
  | none => .error (notOwned changeId)
  | some _ =>
    ((tables.changeAt changeId (SubscriptionChange.markApplied now)).applyRedemption changeId).map (moveJobs changeId .applied)

def markSubscriptionChangeFailed (worker : Text) (changeId : Nat) (now : Int) (tables : ChangeTables) :
    Except ChangeFailure ChangeTables :=
  match tables.held worker changeId with
  | none => .error (notOwned changeId)
  | some prepared =>
    if (prepared.change.markFailed now).status = .failed then
      (tables.changeAt changeId (SubscriptionChange.markFailed now)).endChange changeId
    else .ok (tables.changeAt changeId (SubscriptionChange.markFailed now))

def markSubscriptionChangeCancelled (worker : Text) (changeId : Nat) (now : Int) (tables : ChangeTables) :
    Except ChangeFailure ChangeTables :=
  match tables.held worker changeId with
  | none => .error (notOwned changeId)
  | some _ => (tables.changeAt changeId (SubscriptionChange.cancel now)).endChange changeId

def retryRecurringJob (changeId : Nat) (now : Int) (tables : ChangeTables) : Except ChangeFailure ChangeTables :=
  match findAt PreparedChange.id changeId tables.changes with
  | none => .error (.change (.invalidRequest s!"Recurring billing job subscription-change {changeId} was not found"))
  | some prepared =>
    if prepared.change.status ≠ .failed then
      .error (.change (.conflict
        s!"Recurring billing job subscription-change {changeId} is {prepared.change.status.text}; only failed jobs can be retried"))
    else if (tables.promotions.redemptions.any fun redemption => redemption.subscriptionChangeId == some changeId) ||
        tables.jobs.any fun job => job.subscriptionChangeId == some changeId then
      .error (.change (.conflict
        s!"Subscription change {changeId} carried a promotion or a catalog migration that its failure ended; request the change again instead"))
    else if tables.changes.any fun other => other.id != changeId && other.change.open_ then
      .error (.change (.conflict
        s!"Subscription change {changeId} cannot be retried while a newer change for its subscription is pending"))
    else .ok (tables.changeAt changeId (SubscriptionChange.retry now))

/-- Cancels a queued change, as a cancellation of the subscription or a switch at the provider does. -/
def cancelQueued (changeId : Nat) (now : Int) (tables : ChangeTables) : Except ChangeFailure ChangeTables :=
  (tables.changeAt changeId (SubscriptionChange.cancel now)).endChange changeId

def supersedePendingSubscriptionChange (now : Int) (tables : ChangeTables) : Except ChangeFailure ChangeTables :=
  match tables.changes.find? fun prepared => prepared.change.status == .pending with
  | none => .ok tables
  | some prepared => tables.cancelQueued prepared.id now

/-- The queued changes of a version the subscription no longer holds, towards another one. -/
def superseded (planVersionId : Nat) (prepared : PreparedChange) : Bool :=
  prepared.change.status == .pending && prepared.change.fromPlanVersionId != planVersionId &&
  prepared.change.toPlanVersionId != planVersionId

def cancelSupersededSubscriptionChanges (planVersionId : Nat) (now : Int) (tables : ChangeTables) :
    Except ChangeFailure ChangeTables :=
  (tables.changes.filter (superseded planVersionId)).foldlM (fun stored prepared => stored.cancelQueued prepared.id now) tables

def setJob (jobId : Nat) (status : MigrationStatus) (subscriptionChangeId : Option Nat) (tables : ChangeTables) : ChangeTables :=
  { tables with
    jobs := updateAt MigrationJob.id jobId (fun job =>
      { job with status := status, subscriptionChangeId := job.subscriptionChangeId.or subscriptionChangeId }) tables.jobs }

def stageOutcome (jobId : Nat) (requestHash : ChangeHash) (tables : ChangeTables) : ChangeTables :=
  match tables.findKey (.migration jobId) with
  | none => tables.setJob jobId .pending none
  | some prepared =>
    if prepared.requestHash ≠ requestHash then tables.setJob jobId .failed none
    else
      match prepared.change.status with
      | .applied _ => tables.setJob jobId .applied none
      | .failed | .cancelled => tables.setJob jobId .failed none
      | .pending | .processing _ _ => tables.setJob jobId .waitingProvider (some prepared.id)

/-- Claims a migration job and stages its change, unless another one is open. -/
def stageCatalogMigrationChange (jobId : Nat) (decision : StageDecision) (now : Int) (tables : ChangeTables) : ChangeTables :=
  match findAt MigrationJob.id jobId tables.jobs with
  | none => tables
  | some job =>
    if job.status ≠ .pending ∧ job.status ≠ .processing then tables
    else
      match decision with
      | .leave => tables.setJob jobId .processing none
      | .finish status => tables.setJob jobId status none
      | .change fromPlanVersionId request rest =>
        let id := tables.changes.length
        let staged : ChangeTables :=
          if tables.anyOpen || (tables.findKey (.migration jobId)).isSome then tables
          else { tables with
            changes := tables.changes ++ [⟨newChange id fromPlanVersionId request now, .migration jobId, ⟨none, rest⟩⟩] }
        staged.stageOutcome jobId ⟨none, rest⟩

def sweepReservations (now : Int) (locked : Nat → Bool) (limit : Nat) (tables : ChangeTables) : ChangeTables :=
  { tables with
    promotions := releaseExpiredPromotionReservations nonNegative (tables.surroundings now false) locked limit tables.promotions }

end ChangeTables

inductive RecurringOperation where
  | prepare (input : PrepareInput)
  | stage (jobId : Nat) (decision : StageDecision) (now : Int)
  | claim (worker : Text) (changeId : Nat) (now : Int)
  | renew (worker : Text) (changeId : Nat) (now : Int)
  | markApplied (worker : Text) (changeId : Nat) (now : Int)
  | markFailed (worker : Text) (changeId : Nat) (now : Int)
  | markCancelled (worker : Text) (changeId : Nat) (now : Int)
  | retry (changeId : Nat) (now : Int)
  | supersedePending (now : Int)
  | cancelSuperseded (planVersionId : Nat) (now : Int)
  | sweep (now : Int) (locked : Nat → Bool) (limit : Nat)

def RecurringOperation.perform (tables : ChangeTables) : RecurringOperation → Except ChangeFailure ChangeTables
  | .prepare input => tables.prepareSubscriptionChange input
  | .stage jobId decision now => .ok (tables.stageCatalogMigrationChange jobId decision now)
  | .claim worker changeId now => tables.claimSubscriptionChange worker changeId now
  | .renew worker changeId now => tables.renewSubscriptionChangeLease worker changeId now
  | .markApplied worker changeId now => tables.markSubscriptionChangeApplied worker changeId now
  | .markFailed worker changeId now => tables.markSubscriptionChangeFailed worker changeId now
  | .markCancelled worker changeId now => tables.markSubscriptionChangeCancelled worker changeId now
  | .retry changeId now => tables.retryRecurringJob changeId now
  | .supersedePending now => tables.supersedePendingSubscriptionChange now
  | .cancelSuperseded planVersionId now => tables.cancelSupersededSubscriptionChanges planVersionId now
  | .sweep now locked limit => .ok (tables.sweepReservations now locked limit)

/-- The state after an operation. One that fails is rolled back. -/
def RecurringOperation.after (tables : ChangeTables) (operation : RecurringOperation) : ChangeTables :=
  match operation.perform tables with
  | .ok next => next
  | .error _ => tables

/-- The state after operations in any order. -/
def runChanges (tables : ChangeTables) (operations : List RecurringOperation) : ChangeTables :=
  operations.foldl RecurringOperation.after tables

/-- No change is prepared and no migration job staged yet. -/
structure ChangeTables.Unstaged (tables : ChangeTables) : Prop where
  unprepared : tables.changes = []
  unredeemed : tables.promotions.redemptions = []
  distinct : (tables.jobs.map MigrationJob.id).Nodup
  waiting : ∀ job ∈ tables.jobs, job.subscriptionChangeId = none ∧ job.status = .pending

structure ChangeTables.Agree (tables : ChangeTables) : Prop where
  single : ∀ first ∈ tables.changes, ∀ second ∈ tables.changes, first.change.open_ = true → second.change.open_ = true → first = second
  reserved : ∀ redemption ∈ tables.promotions.redemptions, redemption.status = .reserved →
    ∀ changeId ∈ redemption.subscriptionChangeId, tables.openChange changeId = true
  applied : ∀ prepared ∈ tables.changes, prepared.change.appliedAt.isSome →
    (∀ redemption ∈ tables.promotions.redemptions, redemption.subscriptionChangeId = some prepared.id → redemption.status = .applied) ∧
    ∀ job ∈ tables.jobs, job.subscriptionChangeId = some prepared.id → job.status = .applied
  ended : ∀ prepared ∈ tables.changes, prepared.ended = true →
    (∀ redemption ∈ tables.promotions.redemptions, redemption.subscriptionChangeId = some prepared.id → redemption.status = .released) ∧
    ∀ job ∈ tables.jobs, job.subscriptionChangeId = some prepared.id → job.status ≠ .waitingProvider

def usable (around : Surroundings) (input : ReserveInput) (promotions : PromotionState) : Bool :=
  match findAt PromotionCode.id input.promotionCodeId promotions.codes with
  | none => false
  | some code =>
    (code.promotionCodeUnavailability around.now input.billingAccountId input.channel).isNone &&
    !(code.maxRedemptionsPerCustomer.any fun cap => decide (cap ≤ promotions.redemptions.countP fun redemption =>
      redemption.promotionCodeId == input.promotionCodeId && redemption.customerId == input.customerId && redemption.takesUse)) &&
    !(code.firstPurchaseOnly && around.hasPurchased input.customerId) && code.available around.now

/-- Whether a request is repeated after its change ended unapplied, with a promotion whose use can be taken again. -/
def ChangeTables.reopens (tables : ChangeTables) (operation : RecurringOperation) : Bool :=
  match operation with
  | .prepare input =>
    (match input.resolution with
      | .ok _ => true
      | .error _ => false) &&
    (match input.promotion, tables.findKey (.request input.idempotencyKey) with
      | some use, some existing => existing.requestHash == input.requestHash && existing.ended &&
          usable (tables.surroundings input.now input.hasPurchased)
            (ChangeTables.reserveInput input use existing.id tables.customerId) tables.promotions
      | _, _ => false)
  | _ => false

/-- A run in which no such request is repeated. -/
def neverReopens : ChangeTables → List RecurringOperation → Bool
  | _, [] => true
  | tables, operation :: rest => !tables.reopens operation && neverReopens (operation.after tables) rest

end Quotum.RecurringPricing
