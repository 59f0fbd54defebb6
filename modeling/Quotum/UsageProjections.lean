import Quotum.Decimal
import Quotum.General.Table

/-! The usage projection of one customer: a single job that usage changes enqueue, and the workers that claim it, read the
state they deliver, deliver it, and mark the outcome. -/

namespace Quotum.UsageProjections
open General

inductive ProjectionSyncStatus where
  | pending
  | processing
  | succeeded
  | failed
  deriving DecidableEq

/-- A payload read for delivery: its sequence number, and how many usage changes the state it shows has. -/
structure UsagePayload where
  sequence : Nat
  changes : Nat
  deriving DecidableEq

structure ProjectionSyncJob where
  status : ProjectionSyncStatus
  payload : Option UsagePayload
  attempts : Nat
  lastError : Option Text
  reprojectionRequested : Bool
  nextAttemptAt : Int
  lockedAt : Option Int
  lockedBy : Option Text
  deriving DecidableEq

structure Claim where
  worker : Text
  payload : Option UsagePayload
  deriving DecidableEq

def Claim.read (payload : UsagePayload) (claim : Claim) : Claim :=
  { claim with payload := some payload }

/-- The customer's projections. It also counts the usage changes, and keeps which of them a payload that was marked delivered
showed and which payloads were read. -/
structure Projections where
  changes : Nat
  projectionSequence : Nat
  job : Option ProjectionSyncJob
  claims : List Claim
  delivered : Nat
  materialized : List UsagePayload
  deriving DecidableEq

def staleAfter : Int := 5 * 60 * 1000

def maxAttempts : Nat := 2147483647

namespace ProjectionSyncJob

def opened (job : ProjectionSyncJob) : Bool :=
  job.status == .pending || job.status == .processing || job.status == .failed

def isHeldBy (worker : Text) (job : ProjectionSyncJob) : Bool :=
  job.status == .processing && job.lockedBy == some worker

def isDue (now : Int) (job : ProjectionSyncJob) : Bool :=
  (job.status == .pending && decide (job.nextAttemptAt ≤ now)) ||
    (job.status == .processing && job.lockedAt.any fun lockedAt => decide (lockedAt ≤ now - staleAfter))

/-- A job that is enqueued again. -/
def requeue (dueAt : Int) (job : ProjectionSyncJob) : ProjectionSyncJob where
  status := if job.status = .processing then .processing else .pending
  payload := job.payload
  attempts := if job.status = .pending ∨ job.status = .processing then job.attempts else 0
  lastError := if job.status = .pending then job.lastError else none
  reprojectionRequested := job.status == .processing || job.payload.isSome || job.reprojectionRequested
  nextAttemptAt :=
    if job.status = .processing then job.nextAttemptAt
    else if job.status = .pending ∧ 0 < job.attempts then job.nextAttemptAt
    else if job.status = .pending then min job.nextAttemptAt dueAt
    else dueAt
  lockedAt := if job.status = .processing then job.lockedAt else none
  lockedBy := if job.status = .processing then job.lockedBy else none

def claim (worker : Text) (now : Int) (job : ProjectionSyncJob) : ProjectionSyncJob :=
  { job with status := .processing, lockedAt := some now, lockedBy := some worker }

def materialize (payload : UsagePayload) (job : ProjectionSyncJob) : ProjectionSyncJob :=
  { job with payload := some payload, reprojectionRequested := false }

def succeed (now : Int) (job : ProjectionSyncJob) : ProjectionSyncJob where
  status := if job.reprojectionRequested = true then .pending else .succeeded
  payload := none
  attempts := if job.reprojectionRequested = true then 0 else job.attempts
  lastError := none
  reprojectionRequested := false
  nextAttemptAt := if job.reprojectionRequested = true then now else job.nextAttemptAt
  lockedAt := none
  lockedBy := none

/-- A usage job that fails keeps its payload, and whether it is to be read again. -/
def fail (error : Text) (retryAt : Option Int) (job : ProjectionSyncJob) : ProjectionSyncJob where
  status := if retryAt.isNone then .failed else .pending
  payload := job.payload
  attempts := min (job.attempts + 1) maxAttempts
  lastError := some error
  reprojectionRequested := job.reprojectionRequested
  nextAttemptAt := retryAt.getD job.nextAttemptAt
  lockedAt := none
  lockedBy := none

def retry (now : Int) (job : ProjectionSyncJob) : ProjectionSyncJob :=
  { job with status := .pending, attempts := 0, lastError := none, nextAttemptAt := now, lockedAt := none, lockedBy := none }

end ProjectionSyncJob

def newJob (dueAt : Int) : ProjectionSyncJob where
  status := .pending
  payload := none
  attempts := 0
  lastError := none
  reprojectionRequested := false
  nextAttemptAt := dueAt
  lockedAt := none
  lockedBy := none

def enqueueUsageProjection (dueAt : Int) (state : Projections) : Projections :=
  { state with
    changes := state.changes + 1
    job := some (match state.job with
      | none => newJob dueAt
      | some job => job.requeue dueAt) }

/-- The claim of a worker that has finished with what it claimed before. -/
def claimProjectionSyncJob (worker : Text) (now : Int) (state : Projections) : Option Projections :=
  match state.job, findAt Claim.worker worker state.claims with
  | some job, none =>
    if job.isDue now = true then
      some { state with job := some (job.claim worker now), claims := state.claims ++ [⟨worker, job.payload⟩] }
    else none
  | _, _ => none

def Projections.isHeldBy (worker : Text) (state : Projections) : Bool :=
  state.job.any (ProjectionSyncJob.isHeldBy worker)

def dropClaim (worker : Text) (claims : List Claim) : List Claim :=
  claims.filter fun claim => claim.worker != worker

/-- The check before a delivery. A claim that lost the job is left. -/
def prepareProjectionSyncJobDelivery (worker : Text) (state : Projections) : Projections :=
  if state.isHeldBy worker = true then state else { state with claims := dropClaim worker state.claims }

/-- Reads the payload of a job that has none, under the next sequence number. A claim that lost the job reads nothing. -/
def buildUsageProjection (worker : Text) (state : Projections) : Option Projections :=
  match state.job, findAt Claim.worker worker state.claims with
  | some job, some claim =>
    if claim.payload.isSome then none
    else if job.isHeldBy worker && job.payload.isNone then
      let payload : UsagePayload := ⟨state.projectionSequence + 1, state.changes⟩
      some { state with
        projectionSequence := state.projectionSequence + 1
        job := some (job.materialize payload)
        claims := updateAt Claim.worker worker (Claim.read payload) state.claims
        materialized := state.materialized ++ [payload] }
    else some state
  | _, _ => none

/-- Marks the payload of a claim delivered, where the claim still holds the job. -/
def markProjectionSyncJobSucceeded (worker : Text) (now : Int) (state : Projections) : Option Projections :=
  match state.job, findAt Claim.worker worker state.claims with
  | some job, some ⟨_, some payload⟩ =>
    if job.isHeldBy worker = true then
      some { state with
        job := some (job.succeed now)
        claims := dropClaim worker state.claims
        delivered := max state.delivered payload.changes }
    else some { state with claims := dropClaim worker state.claims }
  | _, _ => none

def markProjectionSyncJobFailed (worker : Text) (error : Text) (retryAt : Option Int) (state : Projections) : Option Projections :=
  match state.job, findAt Claim.worker worker state.claims with
  | some job, some _ =>
    if job.isHeldBy worker = true then
      some { state with job := some (job.fail error retryAt), claims := dropClaim worker state.claims }
    else some { state with claims := dropClaim worker state.claims }
  | _, _ => none

def retryProjectionSyncJob (now : Int) (state : Projections) : Except Failure Projections :=
  match state.job with
  | none => .error (.invalidRequest "Projection sync job was not found")
  | some job =>
    if job.status = .failed then .ok { state with job := some (job.retry now) }
    else .error (.conflict "Projection sync job is not failed; only failed jobs can be retried")

inductive ProjectionStep where
  | change (dueAt : Int)
  | otherProjection
  | claim (worker : Text) (now : Int)
  | prepare (worker : Text)
  | materialize (worker : Text)
  | succeed (worker : Text) (now : Int)
  | fail (worker : Text) (error : Text) (retryAt : Option Int)
  | crash (worker : Text)
  | operatorRetry (now : Int)
  deriving DecidableEq

/-- The state after a step, where the step can be taken. -/
def ProjectionStep.apply (state : Projections) : ProjectionStep → Option Projections
  | .change dueAt => some (enqueueUsageProjection dueAt state)
  | .otherProjection => some { state with projectionSequence := state.projectionSequence + 1 }
  | .claim worker now => claimProjectionSyncJob worker now state
  | .prepare worker => some (prepareProjectionSyncJobDelivery worker state)
  | .materialize worker => buildUsageProjection worker state
  | .succeed worker now => markProjectionSyncJobSucceeded worker now state
  | .fail worker error retryAt => markProjectionSyncJobFailed worker error retryAt state
  | .crash worker => some { state with claims := dropClaim worker state.claims }
  | .operatorRetry now => (retryProjectionSyncJob now state).toOption

end Quotum.UsageProjections
