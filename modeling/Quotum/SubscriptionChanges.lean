import Quotum.Decimal
import Quotum.General.Newest
import Quotum.General.Table

/-! The changes of one subscription: how a change is accepted and worked off, and how a provider sync decides the plan
version the subscription carries. -/

namespace Quotum.SubscriptionChanges
open General

inductive SubscriptionStatus where
  | active
  | gracePeriod
  | billingRetry
  | cancelled
  | expired
  | refunded
  | revoked
  deriving DecidableEq

inductive EffectiveMode where
  | immediate
  | periodEnd
  deriving DecidableEq

inductive ChangeStatus where
  | pending
  | processing (lockedAt : Int) (lockedBy : Text)
  | applied (appliedAt : Int)
  | failed
  | cancelled
  deriving DecidableEq

def ChangeStatus.text : ChangeStatus → String
  | .pending => "pending"
  | .processing _ _ => "processing"
  | .applied _ => "applied"
  | .failed => "failed"
  | .cancelled => "cancelled"

structure CarryOver where
  balances : List Text
  usages : List Text
  deriving DecidableEq

structure ChangeRequest where
  toPlanVersionId : Nat
  effectiveMode : EffectiveMode
  effectiveAt : Int
  carryOver : CarryOver
  hasSideEffects : Bool
  deriving DecidableEq

structure SubscriptionChange where
  id : Nat
  fromPlanVersionId : Nat
  toPlanVersionId : Nat
  effectiveMode : EffectiveMode
  effectiveAt : Int
  carryOver : CarryOver
  hasSideEffects : Bool
  status : ChangeStatus
  attempts : Nat
  createdAt : Int
  updatedAt : Int
  synchronizedAt : Option Int
  deriving DecidableEq

def minute : Int := 60 * 1000

def RECURRING_JOB_MAX_ATTEMPTS : Nat := 20

def FIRST_RETRY_MINUTES : Nat := 1

def LONGEST_RETRY_MINUTES : Nat := 60

def LARGEST_EXPONENT : Nat := 12

def recurringRetryDelayMinutes (attempts : Nat) : Nat :=
  min LONGEST_RETRY_MINUTES (FIRST_RETRY_MINUTES * 2 ^ min (attempts - 1) LARGEST_EXPONENT)

namespace SubscriptionChange

def open_ (change : SubscriptionChange) : Bool :=
  match change.status with
  | .pending | .processing _ _ => true
  | _ => false

/-- Whether no worker has recorded the outcome of a change, or its last attempt failed. -/
def unrecorded (change : SubscriptionChange) : Bool :=
  match change.status with
  | .pending | .processing _ _ | .failed => true
  | _ => false

def appliedAt (change : SubscriptionChange) : Option Int :=
  match change.status with
  | .applied at_ => some at_
  | _ => none

def recurringRetryDue (now : Int) (change : SubscriptionChange) : Bool :=
  change.attempts == 0 || decide (change.updatedAt + recurringRetryDelayMinutes change.attempts * minute ≤ now)

def claimable (now : Int) (change : SubscriptionChange) : Bool :=
  match change.status with
  | .pending => decide (change.effectiveAt ≤ now) && change.recurringRetryDue now
  | .processing lockedAt _ => decide (lockedAt < now - 5 * minute)
  | _ => false

def heldBy (worker : Text) (change : SubscriptionChange) : Bool :=
  match change.status with
  | .processing _ lockedBy => lockedBy == worker
  | _ => false

def claim (worker : Text) (now : Int) (change : SubscriptionChange) : SubscriptionChange :=
  { change with status := .processing now worker, attempts := change.attempts + 1, updatedAt := now }

def renew (worker : Text) (now : Int) (change : SubscriptionChange) : SubscriptionChange :=
  { change with status := .processing now worker, updatedAt := now }

def markApplied (now : Int) (change : SubscriptionChange) : SubscriptionChange :=
  { change with status := .applied now, updatedAt := now }

def markFailed (now : Int) (change : SubscriptionChange) : SubscriptionChange :=
  { change with
    status := if change.attempts ≥ RECURRING_JOB_MAX_ATTEMPTS then .failed else .pending
    updatedAt := now }

def retry (now : Int) (change : SubscriptionChange) : SubscriptionChange :=
  { change with status := .pending, attempts := 0, updatedAt := now }

def cancel (now : Int) (change : SubscriptionChange) : SubscriptionChange :=
  { change with status := .cancelled, updatedAt := now }

/-- The mark of a change that a snapshot settled, which only a recorded change takes. -/
def synchronize (now : Int) (change : SubscriptionChange) : SubscriptionChange :=
  if change.appliedAt.isSome ∧ change.synchronizedAt = none then
    { change with synchronizedAt := some now, updatedAt := now }
  else change

/-- The cancellation of a queued change that does not touch a plan version. -/
def supersede (planVersionId : Nat) (now : Int) (change : SubscriptionChange) : SubscriptionChange :=
  if change.status = .pending ∧ change.fromPlanVersionId ≠ planVersionId ∧ change.toPlanVersionId ≠ planVersionId then
    change.cancel now
  else change

end SubscriptionChange

structure StoreProduct where
  id : Nat
  provider : Text
  channel : Text
  deriving DecidableEq

structure PlanBinding where
  storeProductId : Nat
  planVersionId : Nat
  deriving DecidableEq

structure PriceBinding where
  planVersionId : Nat
  storeProductId : Nat
  provider : Text
  channel : Text
  deriving DecidableEq

structure Catalog where
  storeProducts : List StoreProduct
  planBindings : List PlanBinding
  priceBindings : List PriceBinding
  publishedVersions : List Nat
  entityScopedVersions : List Nat
  deriving DecidableEq

namespace Catalog

def bindingVersion (catalog : Catalog) (storeProductId : Nat) : Option Nat :=
  (findAt PlanBinding.storeProductId storeProductId catalog.planBindings).bind fun binding =>
    if binding.planVersionId ∈ catalog.publishedVersions then some binding.planVersionId else none

def sells (catalog : Catalog) (planVersionId storeProductId : Nat) : Bool :=
  catalog.priceBindings.any fun price => price.planVersionId == planVersionId && price.storeProductId == storeProductId

def priced (catalog : Catalog) (planVersionId storeProductId : Nat) : Bool :=
  catalog.storeProducts.any fun product => product.id == storeProductId &&
    catalog.priceBindings.any fun price => price.planVersionId == planVersionId &&
      price.provider == product.provider && price.channel == product.channel

def shows (catalog : Catalog) (storeProductId planVersionId : Nat) : Bool :=
  catalog.bindingVersion storeProductId == some planVersionId || catalog.sells planVersionId storeProductId

end Catalog

structure ProviderSnapshotContext where
  previousStoreProductId : Option Nat
  createdAt : Option Int
  billingChangeId : Option (Option Nat)
  deriving DecidableEq

structure SyncInput where
  storeProductId : Nat
  status : SubscriptionStatus
  snapshot : Option ProviderSnapshotContext
  preservePlanVersion : Bool
  catalog : Catalog
  now : Int
  deriving DecidableEq

structure Application where
  changeId : Nat
  planVersionId : Nat
  carriedOver : Option CarryOver
  deriving DecidableEq

structure Subscription where
  planVersionId : Option Nat
  entityScoped : Bool
  changes : List SubscriptionChange
  applications : List Application
  deriving DecidableEq

namespace Subscription

def timesMoved (subscription : Subscription) (changeId : Nat) : Nat :=
  subscription.applications.countP fun application => application.changeId == changeId

def timesCarried (subscription : Subscription) (changeId : Nat) : Nat :=
  subscription.applications.countP fun application => application.changeId == changeId && application.carriedOver.isSome

end Subscription

structure ResolutionRow where
  current : Option Nat
  binding : Option Nat
  change : Option SubscriptionChange
  changeVersion : Option Nat
  changeTargetShown : Bool
  currentPriced : Bool
  currentShown : Bool
  pendingChange : Option SubscriptionChange
  deriving DecidableEq

namespace SubscriptionChange

/-- The target of the latest recorded change, while a subscription on a version still waits for it. -/
def targetFrom (catalog : Catalog) (current : Nat) (change : SubscriptionChange) : Option Nat :=
  if change.synchronizedAt = none ∧ change.fromPlanVersionId = current ∧ change.toPlanVersionId ≠ current ∧
      change.toPlanVersionId ∈ catalog.publishedVersions then
    some change.toPlanVersionId
  else none

/-- The creation of a change which the provider may already report: still open, from a version to the bound one. -/
def reportedAt (current binding : Nat) (change : SubscriptionChange) : Option Int :=
  if change.open_ = true ∧ change.synchronizedAt = none ∧ change.fromPlanVersionId = current ∧
      change.toPlanVersionId = binding then
    some change.createdAt
  else none

end SubscriptionChange

def latestApplied (changes : List SubscriptionChange) : Option SubscriptionChange :=
  newest SubscriptionChange.appliedAt SubscriptionChange.id changes

def reportedChange (current binding : Nat) (changes : List SubscriptionChange) : Option SubscriptionChange :=
  if binding ≠ current then newest (SubscriptionChange.reportedAt current binding) SubscriptionChange.id changes else none

def Subscription.row (subscription : Subscription) (input : SyncInput) : ResolutionRow :=
  let change := subscription.planVersionId.bind fun _ => latestApplied subscription.changes
  let changeVersion := subscription.planVersionId.bind fun current =>
    change.bind (SubscriptionChange.targetFrom input.catalog current)
  let binding := input.catalog.bindingVersion input.storeProductId
  { current := subscription.planVersionId
    binding := binding
    change := change
    changeVersion := changeVersion
    changeTargetShown := changeVersion.any (input.catalog.shows input.storeProductId)
    currentPriced := subscription.planVersionId.any (input.catalog.priced · input.storeProductId)
    currentShown := subscription.planVersionId.any (input.catalog.sells · input.storeProductId)
    pendingChange := subscription.planVersionId.bind fun current => binding.bind fun bound =>
      reportedChange current bound subscription.changes }

def snapshotPredates (createdAt appliedAt : Option Int) : Bool :=
  match createdAt, appliedAt with
  | some created, some applied => decide (created < applied)
  | _, _ => false

def snapshotPredatesChange (snapshot : ProviderSnapshotContext) (change : SubscriptionChange) : Bool :=
  match snapshot.billingChangeId with
  | some stamped => stamped != some change.id
  | none => snapshotPredates snapshot.createdAt change.appliedAt

def appliedCarryOver (stored : CarryOver) : Option CarryOver :=
  if stored.balances = [] ∧ stored.usages = [] then none else some stored

def SubscriptionChange.carries (change : SubscriptionChange) : Option CarryOver :=
  match change.effectiveMode with
  | .immediate => appliedCarryOver change.carryOver
  | .periodEnd => none

structure Resolution where
  planVersionId : Nat
  changed : Bool
  changeId : Option Nat
  previousPlanVersionId : Option Nat
  carryOver : Option CarryOver
  providerSwitch : Bool
  deriving DecidableEq

namespace ResolutionRow

/-- The recorded change that a sync applies: its target is shown, or no snapshot speaks against it. -/
def recordedChange (row : ResolutionRow) (input : SyncInput) : Option SubscriptionChange :=
  if row.changeVersion.isSome ∧ (row.changeTargetShown = true ∨ input.snapshot = none) then row.change else none

/-- Whether the latest recorded change stays unsettled, because the snapshot was taken before it. -/
def waits (row : ResolutionRow) (input : SyncInput) : Bool :=
  row.changeVersion.isSome && (match input.snapshot, row.change with
    | some snapshot, some change => snapshotPredatesChange snapshot change
    | _, _ => false)

/-- The latest recorded change, if no snapshot has settled it. -/
def unsettledId (row : ResolutionRow) : Option Nat :=
  row.change.bind fun change => if change.synchronizedAt = none then some change.id else none

/-- Whether a snapshot reports another product than the pinned version sells or the subscription held. -/
def reportsSwitch (row : ResolutionRow) (input : SyncInput) : Bool :=
  match input.snapshot with
  | none => false
  | some snapshot =>
    if row.currentPriced then !row.currentShown
    else snapshot.previousStoreProductId.isSome && snapshot.previousStoreProductId != some input.storeProductId

end ResolutionRow

def resolveSubscriptionPlanVersion (input : SyncInput) (row : ResolutionRow) : Option Resolution :=
  match row.current with
  | none => row.binding.map fun binding => ⟨binding, true, row.unsettledId, none, none, false⟩
  | some current =>
    if input.preservePlanVersion = true then some ⟨current, false, none, some current, none, false⟩
    else
      match row.recordedChange input with
      | some change =>
        some ⟨change.toPlanVersionId, true, row.unsettledId, some current,
          if row.unsettledId.isSome then change.carries else none, false⟩
      | none =>
        let changeId := if row.waits input = true then none else row.unsettledId
        match row.pendingChange with
        | some change => some ⟨change.toPlanVersionId, true, some change.id, some current, change.carries, false⟩
        | none =>
          match row.binding with
          | some binding =>
            if binding ≠ current ∧ row.reportsSwitch input = true then
              some ⟨binding, true, changeId, some current, none, true⟩
            else some ⟨current, false, changeId, some current, none, false⟩
          | none => some ⟨current, false, changeId, some current, none, false⟩

namespace Resolution

def outgoingPlanVersionId (version : Resolution) : Option Nat :=
  if version.changed = true ∧ version.previousPlanVersionId ≠ some version.planVersionId then version.previousPlanVersionId
  else none

/-- The change that moves the subscription: neither the first version it adopts nor a switch of the provider is one. -/
def appliedChangeId (version : Resolution) : Option Nat :=
  if version.changed = true ∧ version.providerSwitch = false ∧ version.previousPlanVersionId.isSome then version.changeId
  else none

def application (version : Resolution) (funded : Bool) : Option Application :=
  version.appliedChangeId.map fun changeId =>
    ⟨changeId, version.planVersionId,
      if funded = true ∧ version.outgoingPlanVersionId.isSome then version.carryOver else none⟩

/-- What a sync writes on the changes: the queued ones a switch leaves behind, and the one it settles. -/
def settle (version : Resolution) (now : Int) (changes : List SubscriptionChange) : List SubscriptionChange :=
  let left := if version.providerSwitch = true then changes.map (SubscriptionChange.supersede version.planVersionId now) else changes
  match version.changeId with
  | some changeId => updateAt SubscriptionChange.id changeId (SubscriptionChange.synchronize now) left
  | none => left

end Resolution

def allocationFundingStatuses : List SubscriptionStatus :=
  [.active, .gracePeriod, .billingRetry, .cancelled]

def SyncInput.funded (input : SyncInput) : Bool :=
  input.status ∈ allocationFundingStatuses

namespace Subscription

def settle (input : SyncInput) (version : Resolution) (subscription : Subscription) : Subscription :=
  { subscription with
    planVersionId := if version.changed = true then some version.planVersionId else subscription.planVersionId
    changes := version.settle input.now subscription.changes
    applications := subscription.applications ++ (version.application input.funded).toList }

def materializeSubscriptionAllocations (input : SyncInput) (subscription : Subscription) : Except Failure Subscription :=
  match resolveSubscriptionPlanVersion input (subscription.row input) with
  | none => .ok subscription
  | some version =>
    if input.funded = true ∧ version.planVersionId ∈ input.catalog.entityScopedVersions ∧ subscription.entityScoped = false then
      .error (.internal "Entity-scoped plan allocations require an entity-scoped subscription")
    else .ok (subscription.settle input version)

def changeAt (id : Nat) (change : SubscriptionChange → SubscriptionChange) (subscription : Subscription) : Subscription :=
  { subscription with changes := updateAt SubscriptionChange.id id change subscription.changes }

def prepareSubscriptionChange (request : ChangeRequest) (now : Int) (subscription : Subscription) :
    Except Failure Subscription :=
  match subscription.planVersionId with
  | none => .error (.invalidRequest "SUBSCRIPTION_CHANGE_TARGET_NOT_FOUND")
  | some current =>
    if subscription.changes.any SubscriptionChange.open_ = true then
      .error (.conflict "Another subscription change is already pending")
    else
      .ok { subscription with
        changes := subscription.changes ++ [{
          id := subscription.changes.length
          fromPlanVersionId := current
          toPlanVersionId := request.toPlanVersionId
          effectiveMode := request.effectiveMode
          effectiveAt := request.effectiveAt
          carryOver := request.carryOver
          hasSideEffects := request.hasSideEffects
          status := .pending
          attempts := 0
          createdAt := now
          updatedAt := now
          synchronizedAt := none }] }

def claimSubscriptionChange (worker : Text) (id : Nat) (now : Int) (subscription : Subscription) :
    Except Failure Subscription :=
  if subscription.changes.any fun change => change.id == id && change.claimable now then
    .ok (subscription.changeAt id (SubscriptionChange.claim worker now))
  else .error (.conflict s!"Subscription change {id} is not due")

/-- A mark on a change, which only the worker that holds it may set. -/
def markHeld (worker : Text) (id : Nat) (mark : SubscriptionChange → SubscriptionChange) (subscription : Subscription) :
    Except Failure Subscription :=
  if subscription.changes.any fun change => change.id == id && change.heldBy worker then .ok (subscription.changeAt id mark)
  else .error (.internal s!"Subscription change {id} was not owned by worker")

def markSubscriptionChangeApplied (worker : Text) (id : Nat) (now : Int) : Subscription → Except Failure Subscription :=
  markHeld worker id (SubscriptionChange.markApplied now)

def markSubscriptionChangeFailed (worker : Text) (id : Nat) (now : Int) : Subscription → Except Failure Subscription :=
  markHeld worker id (SubscriptionChange.markFailed now)

def markSubscriptionChangeCancelled (worker : Text) (id : Nat) (now : Int) : Subscription → Except Failure Subscription :=
  markHeld worker id (SubscriptionChange.cancel now)

def renewSubscriptionChangeLease (worker : Text) (id : Nat) (now : Int) : Subscription → Except Failure Subscription :=
  markHeld worker id (SubscriptionChange.renew worker now)

/-- Queues a parked change again, unless it had effects that its failure ended or another change took its place. -/
def retryRecurringJob (id : Nat) (now : Int) (subscription : Subscription) : Except Failure Subscription :=
  match findAt SubscriptionChange.id id subscription.changes with
  | none => .error (.invalidRequest s!"Recurring billing job subscription-change {id} was not found")
  | some change =>
    if change.status ≠ .failed then
      .error (.conflict
        s!"Recurring billing job subscription-change {id} is {change.status.text}; only failed jobs can be retried")
    else if change.hasSideEffects = true then
      .error (.conflict
        s!"Subscription change {id} carried a promotion or a catalog migration that its failure ended; request the change again instead")
    else if subscription.changes.any fun other => other.id != id && other.open_ then
      .error (.conflict
        s!"Subscription change {id} cannot be retried while a newer change for its subscription is pending")
    else .ok (subscription.changeAt id (SubscriptionChange.retry now))

end Subscription

/-- The cancellation of a change that still waits. -/
def SubscriptionChange.withdraw (now : Int) (change : SubscriptionChange) : SubscriptionChange :=
  if change.status = .pending then change.cancel now else change

def Subscription.supersedePendingSubscriptionChange (now : Int) (subscription : Subscription) : Subscription :=
  { subscription with changes := subscription.changes.map (SubscriptionChange.withdraw now) }

inductive ChangeStep where
  | prepare (request : ChangeRequest) (now : Int)
  | claim (worker : Text) (id : Nat) (now : Int)
  | renew (worker : Text) (id : Nat) (now : Int)
  | markApplied (worker : Text) (id : Nat) (now : Int)
  | markFailed (worker : Text) (id : Nat) (now : Int)
  | markCancelled (worker : Text) (id : Nat) (now : Int)
  | retry (id : Nat) (now : Int)
  | supersedePending (now : Int)
  | sync (input : SyncInput)
  deriving DecidableEq

def ChangeStep.apply (subscription : Subscription) : ChangeStep → Except Failure Subscription
  | .prepare request now => subscription.prepareSubscriptionChange request now
  | .claim worker id now => subscription.claimSubscriptionChange worker id now
  | .renew worker id now => subscription.renewSubscriptionChangeLease worker id now
  | .markApplied worker id now => subscription.markSubscriptionChangeApplied worker id now
  | .markFailed worker id now => subscription.markSubscriptionChangeFailed worker id now
  | .markCancelled worker id now => subscription.markSubscriptionChangeCancelled worker id now
  | .retry id now => subscription.retryRecurringJob id now
  | .supersedePending now => .ok (subscription.supersedePendingSubscriptionChange now)
  | .sync input => subscription.materializeSubscriptionAllocations input

end Quotum.SubscriptionChanges
