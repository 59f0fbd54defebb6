import Quotum.Decimal
import Quotum.ErasureBatches

/-! The run of one erasure: workers that claim it under a lease, work its steps batch by batch, and verify that nothing is left. -/

namespace Quotum.ErasureRuns
open General ErasureBatches

inductive CustomerErasureState where
  | requested
  | running
  | verifying
  | completed
  | failed
  deriving DecidableEq

structure Counts where
  changed : Table → Nat
  residual : Table → Nat

/-- The receipt of the erasure; without a cursor it begins with the first step. -/
structure CustomerErasure where
  state : CustomerErasureState
  subjectId : Option Text
  cursor : Option CustomerErasureStep
  counts : Counts
  attempts : Nat
  nextAttemptAt : Int
  lockedBy : Option Nat
  lockedAt : Int
  lastError : Option Text
  requestHash : Option Text
  completedAt : Option Int
  tombstoneExpiresAt : Int

inductive WorkStage where
  | working (index : Nat)
  | saving
  | verifying
  | releasing (errorCode : Option Text)
  deriving DecidableEq

structure Work where
  step : CustomerErasureStep
  counts : Counts
  attempts : Nat
  stage : WorkStage

/-- The erasure, the rows of all accounts, the workers, and the rows that committed batches have changed, which no statement reads. -/
structure World where
  now : Int
  context : CustomerErasureContext
  erasure : CustomerErasure
  rows : List Row
  works : Nat → Option Work
  committed : Table → Nat

def nextStep : CustomerErasureStep → CustomerErasureStep
  | .deleteRows => .rewriteIds
  | .rewriteIds => .scrubPayloads
  | .scrubPayloads => .scrubUsageEvents
  | .scrubUsageEvents => .scanUnlinkedStoreEvents
  | .scanUnlinkedStoreEvents => .verify
  | .verify => .verify

def stageAt (step : CustomerErasureStep) (index : Nat) : WorkStage :=
  if step = .verify then .verifying else if index < (batchesOf step).length then .working index else .saving

/-- How many rows of a table still carry the original id, or should have been deleted. -/
def residualCheck (context : CustomerErasureContext) (row : Row) : Bool :=
  decide (row.projectId = context.projectId) &&
    match row.table with
    | .customers | .providerOperations | .paddleCheckoutReservations | .commercialActionPreviews | .refundRequests | .promotionCodes =>
      ofAccount context row
    | .projectionSyncJobs => ofCustomer context row
    | .catalogAuditLog => auditNames context row
    | .storeEvents => (ofCustomer context row || row.customerId.isNone) && decide (context.customerCreatedAt ≤ row.createdAt) &&
        (row.columns .rawPayload).shows context.subjectId
    | .purchases | .billingInvoices => ofCustomer context row && (row.columns .rawPayload).shows context.subjectId
    | .subscriptions => ofCustomer context row && (row.columns .rawState).shows context.subjectId
    | .promotionRedemptions => ofCustomer context row && occurs context.subjectId ((row.columns .idempotencyKey).concatenated ++
        (row.columns .reversalIdempotencyKey).concatenated ++ (row.columns .result).concatenated ++ (row.columns .reversalResult).concatenated)
    | .promotionAppleSignatureAttempts => ofCustomer context row &&
        occurs context.subjectId ((row.columns .idempotencyKey).concatenated ++ (row.columns .result).concatenated)
    | _ => false

def residualRows (context : CustomerErasureContext) (rows : List Row) (table : Table) : Nat :=
  rows.countP fun row => decide (row.table = table) && residualCheck context row

def changedRows (batch : CustomerErasureBatch) (context : CustomerErasureContext) (chosen : List Nat) (rows : List Row) : Nat :=
  rows.countP fun row => batch.selects context row && chosen.contains row.key

/-- How many rows a batch still has to take. -/
def selectedRows (batch : CustomerErasureBatch) (context : CustomerErasureContext) (rows : List Row) : Nat :=
  rows.countP (batch.selects context)

def Counts.add (table : Table) (rows : Nat) (counts : Counts) : Counts :=
  { counts with changed := Function.update counts.changed table (counts.changed table + rows) }

def emptyCounts : Counts := ⟨fun _ => 0, fun _ => 0⟩

def retryDelay (attempts : Nat) : Int := 1000 * (min 900 (2 ^ min attempts 10 * 5) : Nat)

namespace World

def setWork (worker : Nat) (work : Option Work) (world : World) : World :=
  { world with works := Function.update world.works worker work }

/-- Claims the erasure when it is due and no lease on it is running. -/
def claim (worker : Nat) (leaseSeconds : Nat) (world : World) : World :=
  let erasure := world.erasure
  let open_ := erasure.state = .requested ∨ erasure.state = .running ∨ erasure.state = .verifying
  let free := erasure.lockedBy = none ∨ erasure.lockedAt < world.now - 1000 * leaseSeconds
  if (world.works worker).isNone ∧ open_ ∧ erasure.nextAttemptAt ≤ world.now ∧ free then
    let step := erasure.cursor.getD .deleteRows
    let claimed := { erasure with lockedBy := some worker, lockedAt := world.now, attempts := erasure.attempts + 1 }
    let work : Work := ⟨step, erasure.counts, erasure.attempts + 1, stageAt step 0⟩
    -- A receipt without its subject cannot be worked: the claim fails after its commit.
    if erasure.subjectId.isSome then { world with erasure := claimed }.setWork worker (some work) else { world with erasure := claimed }
  else world

/-- Runs a batch of a worker's step: rows, counts and cursor commit together, and only under the worker's lease. -/
def runBatch (worker : Nat) (limit : Nat) (chosen : List Nat) (overdue : Bool) (world : World) : World :=
  match world.works worker with
  | none => world
  | some work =>
    match work.stage with
    | .working index =>
      match (batchesOf work.step)[index]? with
      | none => world
      | some batch =>
        let rows := changedRows batch world.context chosen world.rows
        -- The database returns as many rows as there are, up to the limit.
        if rows ≠ min limit (selectedRows batch world.context world.rows) then world
        else if world.erasure.lockedBy = some worker then
          let counts := work.counts.add batch.table rows
          let stage :=
            if rows < limit then stageAt work.step (index + 1) else if overdue then .releasing none else .working index
          { world with
            rows := batch.run world.context world.now chosen world.rows
            committed := Function.update world.committed batch.table (world.committed batch.table + rows)
            erasure := { world.erasure with counts := counts, cursor := some work.step } }.setWork worker
              (some { work with counts := counts, stage := stage })
        else world.setWork worker (some { work with stage := .releasing (some "LEASE_LOST".toList) })
    | _ => world

def saveCursor (worker : Nat) (overdue : Bool) (world : World) : World :=
  match world.works worker with
  | none => world
  | some work =>
    match work.stage with
    | .saving =>
      let step := nextStep work.step
      let erasure := world.erasure
      let saved := { erasure with
        state := if step = .verify then .verifying else .running
        cursor := some step
        counts := work.counts }
      let stage := if overdue ∧ step ≠ .verify then .releasing none else stageAt step 0
      { world with erasure := if erasure.lockedBy = some worker then saved else erasure }.setWork worker
        (some { work with step := step, stage := stage })
    | _ => world

/-- Releases the lease. A failure backs off and keeps what the receipt has; a pause records where the work stands. -/
def release (worker : Nat) (world : World) : World :=
  match world.works worker with
  | none => world
  | some work =>
    match work.stage with
    | .releasing errorCode =>
      let erasure := world.erasure
      let paused := errorCode.isNone
      let released := { erasure with
        lockedBy := none
        lastError := errorCode
        attempts := if paused then 0 else erasure.attempts
        nextAttemptAt := world.now + (if paused then 0 else retryDelay work.attempts)
        counts := if paused then work.counts else erasure.counts
        cursor := if paused then some work.step else erasure.cursor }
      { world with erasure := if erasure.lockedBy = some worker then released else erasure }.setWork worker none
    | _ => world

/-- Scans for what still carries the id, and completes the erasure or records what was found. -/
def verify (worker : Nat) (world : World) : World :=
  match world.works worker with
  | none => world
  | some work =>
    match work.stage with
    | .verifying =>
      let erasure := world.erasure
      if world.rows.any (residualCheck world.context) then
        let found := { erasure with
          state := .failed
          lastError := some "RESIDUAL_ROWS".toList
          counts := { work.counts with residual := residualRows world.context world.rows }
          lockedBy := none }
        { world with erasure := if erasure.lockedBy = some worker then found else erasure }.setWork worker none
      else if erasure.lockedBy = some worker then
        -- Completion drops the original id.
        { world with erasure := { erasure with
            state := .completed
            subjectId := none
            completedAt := some world.now
            cursor := none
            counts := work.counts
            lastError := none
            lockedBy := none } }.setWork worker none
      else world.setWork worker (some { work with stage := .releasing (some "LEASE_LOST".toList) })
    | _ => world

def fail (worker : Nat) (errorCode : Text) (world : World) : World :=
  match world.works worker with
  | none => world
  | some work =>
    match work.stage with
    | .releasing (some _) => world.setWork worker none
    | _ => world.setWork worker (some { work with stage := .releasing (some errorCode) })

/-- A replay of the request: a failed erasure is queued again. -/
def replay (world : World) : World :=
  if world.erasure.state = .failed then
    { world with erasure := { world.erasure with
        state := .running
        cursor := none
        lastError := none
        attempts := 0
        lockedBy := none
        nextAttemptAt := world.now } }
  else world

def sweep (world : World) : World :=
  if world.erasure.state = .completed ∧ world.erasure.tombstoneExpiresAt < world.now then
    { world with erasure := { world.erasure with requestHash := none } }
  else world

end World

inductive ErasureAction where
  | wait (elapsed : Nat)
  | claim (worker leaseSeconds : Nat)
  | runBatch (worker limit : Nat) (chosen : List Nat) (overdue : Bool)
  | saveCursor (worker : Nat) (overdue : Bool)
  | release (worker : Nat)
  | verify (worker : Nat)
  | fail (worker : Nat) (errorCode : Text)
  | crash (worker : Nat)
  | replay
  | sweep
  | write (rows : List Row)

/-- One step: of a worker, of a replayed request, of the sweep, or of somebody else who writes rows. -/
def ErasureAction.perform (world : World) : ErasureAction → World
  | .wait elapsed => { world with now := world.now + elapsed }
  | .claim worker leaseSeconds => world.claim worker leaseSeconds
  | .runBatch worker limit chosen overdue => world.runBatch worker limit chosen overdue
  | .saveCursor worker overdue => world.saveCursor worker overdue
  | .release worker => world.release worker
  | .verify worker => world.verify worker
  | .fail worker errorCode => world.fail worker errorCode
  | .crash worker => world.setWork worker none
  | .replay => world.replay
  | .sweep => world.sweep
  | .write rows => { world with rows := rows }

def runErasure (world : World) (actions : List ErasureAction) : World :=
  actions.foldl ErasureAction.perform world

def requested (now : Int) (context : CustomerErasureContext) (requestHash : Text) (tombstoneExpiresAt : Int) (rows : List Row) : World where
  now := now
  context := context
  erasure := {
    state := .running
    subjectId := some context.subjectId
    cursor := none
    counts := emptyCounts
    attempts := 0
    nextAttemptAt := now
    lockedBy := none
    lockedAt := 0
    lastError := none
    requestHash := some requestHash
    completedAt := none
    tombstoneExpiresAt := tombstoneExpiresAt }
  rows := rows
  works := fun _ => none
  committed := fun _ => 0

/-- A document column that holds nothing but an empty document. -/
def isBlank (value : Value) : Prop := value.isOtherThan Value.isEmptyObject = false

def nullOr (value other : Value) : Prop := value = .null ∨ value = other

/-- A row that holds nothing any more of what the steps cover. -/
def Forgotten (context : CustomerErasureContext) (row : Row) : Prop :=
  row.projectId = context.projectId →
    match row.table with
    | .projectionSyncJobs | .domainEvents | .referralCodes | .checkoutRequests | .paymentSetupSessions | .clientIdempotencyClaims
    | .entitlements | .providerCustomers | .providerCustomerUnlinks => ofCustomer context row = false
    | .paddleCheckoutReservations | .customers | .promotionCodes => ofAccount context row = false
    | .entities => ofCustomer context row = true →
        row.columns .externalId = .text (context.erasedMarker ++ ':' :: row.id) ∧ isBlank (row.columns .metadata)
    | .providerOperations => ofAccount context row = false ∧ (row.isOf .billingAccountId context.erasedMarker = true →
        row.columns .resourceKey = erasedKey row ∧ row.columns .requestHash = .digest row.id ∧ row.columns .request = emptyObject ∧
          nullOr (row.columns .result) emptyObject)
    | .commercialActionPreviews => ofAccount context row = false ∧ (row.isOf .billingAccountId context.erasedMarker = true →
        row.columns .intent = emptyObject ∧ row.columns .preview = emptyObject ∧ row.columns .providerContext = emptyObject ∧
          row.columns .intentHash = .digest row.id ∧ row.columns .stateFingerprint = .digest row.id ∧
          nullOr (row.columns .executionResult) emptyObject)
    | .refundRequests => ofAccount context row = false ∧ (row.isOf .billingAccountId context.erasedMarker = true →
        row.columns .reason = .text "erased".toList ∧ row.columns .executionIdempotencyKey = erasedKey row ∧
          row.columns .providerIdempotencyKey = erasedKey row)
    | .planGrants => ofCustomer context row = true → row.isOf .actor context.accountActor = false ∧ isBlank (row.columns .metadata)
    | .promotionRedemptions => ofCustomer context row = true → row.isOf .actor context.accountActor = false ∧
        row.columns .reason = .null ∧ row.columns .reversalReason = .null ∧ row.columns .result = .null ∧
        row.columns .reversalResult = .null ∧ row.columns .idempotencyKey = erasedKey row ∧
        nullOr (row.columns .reversalIdempotencyKey) (erasedKey row)
    | .promotionAppleSignatureAttempts => ofCustomer context row = true →
        row.columns .idempotencyKey = erasedKey row ∧ row.columns .result = emptyObject
    | .balanceAllocations => ofCustomer context row = true → row.columns .sourceKey = erasedKey row
    | .operatorGrants | .administrativeDebits => ofCustomer context row = true →
        (row.columns .reason).isOtherText "erased".toList = false
    | .storeEvents => (ofCustomer context row = true → (row.columns .rawPayload).isOtherThan Value.isErasedPayload = false ∧
          (row.columns .processingError).isNull = true ∧ isOpenStatus (row.columns .processingStatus) = false) ∧
        (row.customerId = none → context.customerCreatedAt ≤ row.createdAt → (row.columns .rawPayload).names context.subjectId = false)
    | .purchases | .billingInvoices => ofCustomer context row = true → isBlank (row.columns .rawPayload)
    | .subscriptions => ofCustomer context row = true →
        isBlank (row.columns .rawState) ∧ (row.columns .providerReconciliationError).isNull = true
    | .subscriptionChanges => ofCustomer context row = true → (row.columns .lastError).isNull = true
    | .usageAlerts => ofCustomer context row = true → (row.columns .active).isTrue = false ∧ isBlank (row.columns .metadata)
    | .autoTopupPolicies => ofCustomer context row = true → (row.columns .active).isTrue = false
    | .catalogAuditLog => auditNames context row = false
    | .usageEvents => ofCustomer context row = true →
        (row.columns .receipt).isNull = true ∧ hasOtherMetadata (row.columns .metadata) = false

/-- Whether a row looks erased although it is not: a caller's key with the marker's prefix, an account id that is the marker, or an
unlinked event whose payload names the account without showing its id as it is. -/
def looksErased (context : CustomerErasureContext) (row : Row) : Bool :=
  decide (row.projectId = context.projectId) &&
    match row.table with
    | .entities => ofCustomer context row && !(row.columns .externalId).notLikeErased &&
        !(row.columns .metadata).isOtherThan Value.isEmptyObject
    | .promotionRedemptions | .promotionAppleSignatureAttempts => ofCustomer context row && !(row.columns .idempotencyKey).notLikeErased
    | .balanceAllocations => ofCustomer context row && !(row.columns .sourceKey).notLikeErased
    | .providerOperations | .commercialActionPreviews | .refundRequests => row.isOf .billingAccountId context.erasedMarker
    | .storeEvents => row.customerId.isNone && (row.columns .rawPayload).names context.subjectId &&
        !(row.columns .rawPayload).shows context.subjectId
    | _ => false

def markedKey (row : Row) : Text := erasedPrefix ++ row.id

def markerShows (context : CustomerErasureContext) (row : Row) : Bool :=
  decide (row.projectId = context.projectId) &&
    match row.table with
    | .customers => ofAccount context row
    | .paddleCheckoutReservations => ofAccount context row && (row.columns .closedAt).isNull
    | .storeEvents => erasedPayload.shows context.subjectId && decide (context.customerCreatedAt ≤ row.createdAt) &&
        (ofCustomer context row || (row.customerId.isNone && (row.columns .rawPayload).shows context.subjectId))
    | .purchases | .billingInvoices | .subscriptions => ofCustomer context row && emptyObject.shows context.subjectId
    | .promotionRedemptions => ofCustomer context row && occurs context.subjectId
        (markedKey row ++ if (row.columns .reversalIdempotencyKey).isNull then [] else markedKey row)
    | .promotionAppleSignatureAttempts => ofCustomer context row && occurs context.subjectId (markedKey row ++ emptyObject.concatenated)
    | _ => false

structure Erasable (context : CustomerErasureContext) (rows : List Row) : Prop where
  subject : context.subjectId ≠ context.erasedMarker
  recognized : ∀ row ∈ rows, looksErased context row = false
  silent : ∀ row ∈ rows, markerShows context row = false

/-- A row of somebody else, which shows the account's id in no event. -/
def Elsewhere (context : CustomerErasureContext) (row : Row) : Prop :=
  belongs context row = false ∧ looksErased context row = false ∧
    (row.table = .storeEvents → row.customerId = none → (row.columns .rawPayload).shows context.subjectId = false)

/-- A run in which nobody but the workers writes rows of the account. -/
def Undisturbed : World → List ErasureAction → Prop
  | _, [] => True
  | world, action :: rest =>
    (∀ rows, action = .write rows → ∀ row ∈ rows, row ∈ world.rows ∨ Elsewhere world.context row) ∧ Undisturbed (action.perform world) rest

def ErasureAction.worker : ErasureAction → Option Nat
  | .runBatch worker _ _ _ | .saveCursor worker _ | .release worker | .verify worker => some worker
  | _ => none

/-- What every state keeps: the counts are those of the committed batches, only the holder of the lease commits a batch or changes
the state, and a completed erasure changes no more but for the sweep. -/
structure World.Accounted (world : World) : Prop where
  counts : world.erasure.counts.changed = world.committed
  leased : ∀ action : ErasureAction, (∀ rows, action ≠ .write rows) → action ≠ .replay →
    (action.perform world).rows ≠ world.rows ∨ (action.perform world).committed ≠ world.committed ∨
      (action.perform world).erasure.state ≠ world.erasure.state →
    ∃ worker, action.worker = some worker ∧ world.erasure.lockedBy = some worker
  frozen : world.erasure.state = .completed → ∀ action : ErasureAction, (action.perform world).erasure = world.erasure ∨
    action = .sweep ∧ (action.perform world).erasure = { world.erasure with requestHash := none }

/-- What every state of an undisturbed run keeps: the verification of the lease's holder completes the erasure, none fails, and
nothing of a completed one is left. -/
structure World.Completes (world : World) : Prop where
  verified : ∀ worker work, world.works worker = some work → work.stage = .verifying → world.erasure.lockedBy = some worker →
    (world.verify worker).erasure.state = .completed ∧ (world.verify worker).erasure.subjectId = none
  unfailed : world.erasure.state ≠ .failed
  forgotten : world.erasure.state = .completed → world.erasure.subjectId = none ∧ ∀ row ∈ world.rows, Forgotten world.context row

def Shrinks (context : CustomerErasureContext) : Prop :=
  ∀ step, ∀ batch ∈ batchesOf step, ∀ now chosen rows,
    selectedRows batch context (batch.run context now chosen rows) + changedRows batch context chosen rows = selectedRows batch context rows

end Quotum.ErasureRuns
