import Quotum.General.Keyset
import Quotum.DefaultEntitlements

/-! The passes that bring the accounts of a project in line with a published default plan: slices of customers under a cursor, and
the backoff of a slice that fails as a whole. Instants are in microseconds. -/

namespace Quotum.DefaultPlanPasses
open General DefaultPlans DefaultEntitlements

inductive PassStatus where
  | pending
  | completed
  | superseded
  deriving DecidableEq

structure DefaultPlanReconciliation where
  id : Nat
  projectId : Nat
  status : PassStatus
  afterCustomerId : Option Nat
  customersChecked : Nat
  grantsChanged : Nat
  customersSkipped : Nat
  lastSkippedCustomerId : Option Nat
  lastSkipError : Option Text
  attempts : Nat
  nextAttemptAt : Int
  lastError : Option Text
  completedAt : Option Int
  deriving DecidableEq

structure DefaultPlanJob where
  id : Nat
  projectId : Nat
  deriving DecidableEq

structure DefaultPlanSlice where
  changed : Nat
  skipped : Nat
  failed : Bool
  deriving DecidableEq

structure Customer where
  erased : Bool
  account : EntitledAccount
  deriving DecidableEq

/-- What the statements of one slice see, each when it runs: the project's customers, their rows, the account behind each row once it
is locked, and the error that applying a change to it raises. -/
structure SliceView where
  now : Int
  customers : List Nat
  row : Nat → Customer
  locked : Nat → EntitledAccount
  raises : Nat → Option Text

inductive AccountOutcome where
  | changed
  | unchanged
  | skipped (error : Text)
  deriving DecidableEq

section Slice
variable (versions : Nat → PlanVersion)

/-- Brings one account's grant in line with the catalog, and recomputes what it is entitled to when that changed it. -/
def applyDefaultPlan (account : EntitledAccount) : EntitledAccount × Option DefaultPlanChange :=
  match account.reconcileDefaultPlanGrant versions with
  | (_, none) => (account, none)
  | (reconciled, some change) => (reconciled.recomputeCustomerEntitlements versions, some change)

def SliceView.handle (view : SliceView) (customer : Nat) : AccountOutcome :=
  match view.raises customer with
  | some error => .skipped error
  | none => if (applyDefaultPlan versions (view.locked customer)).2.isSome then .changed else .unchanged

def SliceView.outOfDate (view : SliceView) (customer : Nat) : Bool :=
  !(view.row customer).erased && (view.row customer).account.defaultPlanOutOfDate versions

structure SliceInput where
  limit : Nat
  scanSize : Nat
  view : SliceView

namespace SliceInput

def scanned (input : SliceInput) (cursor : Option Nat) : List Nat :=
  Keyset.page input.scanSize cursor input.view.customers

def candidates (input : SliceInput) (cursor : Option Nat) : List Nat :=
  ((input.scanned cursor).filter (input.view.outOfDate versions)).take (input.limit + 1)

def handled (input : SliceInput) (cursor : Option Nat) : List Nat :=
  (input.candidates versions cursor).take input.limit

/-- Whether a slice takes no more than it can handle, so that its scan ends where the next one starts. -/
def exhausts (input : SliceInput) (cursor : Option Nat) : Bool :=
  decide ((input.candidates versions cursor).length ≤ input.limit)

def nextCursor (input : SliceInput) (cursor : Option Nat) : Option Nat :=
  if input.exhausts versions cursor then (input.scanned cursor).getLast? else (input.handled versions cursor).getLast?

def completes (input : SliceInput) (cursor : Option Nat) : Bool :=
  input.exhausts versions cursor && decide ((input.scanned cursor).length < input.scanSize)

def checked (input : SliceInput) (cursor : Option Nat) : Nat :=
  if input.exhausts versions cursor then (input.scanned cursor).length
  else ((input.scanned cursor).filter fun customer => (input.nextCursor versions cursor).any fun last => decide (customer ≤ last)).length

def changed (input : SliceInput) (cursor : Option Nat) : Nat :=
  ((input.handled versions cursor).filter fun customer => input.view.handle versions customer == .changed).length

def skipped (input : SliceInput) (cursor : Option Nat) : List (Nat × Text) :=
  (input.handled versions cursor).filterMap fun customer =>
    match input.view.handle versions customer with
    | .skipped error => some (customer, error)
    | _ => none

end SliceInput

def DefaultPlanReconciliation.advance (pass : DefaultPlanReconciliation) (input : SliceInput) : DefaultPlanReconciliation :=
  let cursor := pass.afterCustomerId
  let skipped := input.skipped versions cursor
  { pass with
    afterCustomerId := (input.nextCursor versions cursor).or cursor
    customersChecked := pass.customersChecked + input.checked versions cursor
    grantsChanged := pass.grantsChanged + input.changed versions cursor
    customersSkipped := pass.customersSkipped + skipped.length
    lastSkippedCustomerId := (skipped.getLast?.map Prod.fst).or pass.lastSkippedCustomerId
    lastSkipError := (skipped.getLast?.map Prod.snd).or pass.lastSkipError
    status := if input.completes versions cursor then .completed else pass.status
    completedAt := if input.completes versions cursor then some input.view.now else none
    attempts := 0
    lastError := none
    nextAttemptAt := input.view.now }

def DefaultPlanReconciliation.named (pass : DefaultPlanReconciliation) (job : DefaultPlanJob) : Bool :=
  pass.projectId == job.projectId && pass.id == job.id && pass.status == .pending

def changePass (job : DefaultPlanJob) (change : DefaultPlanReconciliation → DefaultPlanReconciliation)
    (passes : List DefaultPlanReconciliation) : List DefaultPlanReconciliation :=
  passes.map fun pass => if pass.named job then change pass else pass

/-- One slice of a pass. Another worker that holds the pass, or a publish that superseded it, leaves nothing to do. -/
def reconcileDefaultPlanSlice (due : DefaultPlanJob) (takenElsewhere : Bool) (input : SliceInput)
    (passes : List DefaultPlanReconciliation) : List DefaultPlanReconciliation × DefaultPlanSlice :=
  match passes.find? fun pass => pass.named due with
  | none => (passes, ⟨0, 0, false⟩)
  | some job =>
    if takenElsewhere then (passes, ⟨0, 0, false⟩)
    else (changePass due (fun pass => pass.advance versions input) passes,
      ⟨input.changed versions job.afterCustomerId, (input.skipped versions job.afterCustomerId).length, false⟩)

end Slice

/-- The longest interval that PostgreSQL represents. -/
def maxInterval : Nat := 2 ^ 63 - 1

def backoffUnit : Nat := 30000000

def backoffCap : Nat := 3600000000

/-- The least of the doubled delay and an hour. Both arguments are evaluated, and the product raises when no interval holds it. -/
def backoff (attempts : Nat) : Except Failure Nat :=
  if 2 ^ attempts * backoffUnit ≤ maxInterval then .ok (min (2 ^ attempts * backoffUnit) backoffCap)
  else .error (.internal "interval out of range")

/-- Backs off a pass after one of its slices failed. -/
def recordDefaultPlanFailure (now : Int) (job : DefaultPlanJob) (error : Text) (passes : List DefaultPlanReconciliation) :
    Except Failure (List DefaultPlanReconciliation) :=
  match passes.find? fun pass => pass.named job with
  | none => .ok passes
  | some held => do
    let delay ← backoff held.attempts
    return changePass job (fun pass => { pass with
      attempts := pass.attempts + 1
      lastError := some error
      nextAttemptAt := now + delay }) passes

def scheduleDefaultPlanPass (now : Int) (projectId id : Nat) (passes : List DefaultPlanReconciliation) : List DefaultPlanReconciliation :=
  (passes.map fun pass => if pass.projectId = projectId ∧ pass.status = .pending then { pass with status := .superseded } else pass) ++
    [⟨id, projectId, .pending, none, 0, 0, 0, none, none, 0, now, none, none⟩]

def dueRank (pass : DefaultPlanReconciliation) : Int ×ₗ Nat :=
  toLex (pass.nextAttemptAt, pass.id)

def duePass (now : Int) (passes : List DefaultPlanReconciliation) : Option DefaultPlanReconciliation :=
  (passes.filter fun pass => pass.status == .pending && decide (pass.nextAttemptAt ≤ now)).argmin dueRank

abbrev Meanwhile := List DefaultPlanReconciliation → List DefaultPlanReconciliation

/-- How the transaction of a slice ends: as its statements see the database, or with an error that is recorded at an instant. -/
inductive SliceRun where
  | commits (takenElsewhere : Bool) (view : SliceView)
  | fails (recordedAt : Int) (error : Text)

structure BatchInput where
  now : Int
  beforeSlice : Meanwhile
  run : SliceRun
  beforeRecord : Meanwhile

structure PlanGrantReconciliationResult where
  expiredPlanGrants : Nat
  defaultPlanGrants : Nat
  defaultPlanSkipped : Nat
  defaultPlanFailedSlices : Nat
  deriving DecidableEq

section Worker
variable (versions : Nat → PlanVersion) (limit scanSize : Nat)

/-- Advances the oldest due pass by one slice. A slice that fails as a whole rolls back and its pass backs off. -/
def reconcileDefaultPlanBatch (batch : BatchInput) (passes : List DefaultPlanReconciliation) :
    List DefaultPlanReconciliation × Except Failure (Option DefaultPlanSlice) :=
  match duePass batch.now passes with
  | none => (passes, .ok none)
  | some due =>
    let job : DefaultPlanJob := ⟨due.id, due.projectId⟩
    match batch.run with
    | .commits takenElsewhere view =>
      let (changed, slice) := reconcileDefaultPlanSlice versions job takenElsewhere ⟨limit, scanSize, view⟩ (batch.beforeSlice passes)
      (changed, .ok (some slice))
    | .fails recordedAt error =>
      let found := batch.beforeRecord (batch.beforeSlice passes)
      match recordDefaultPlanFailure recordedAt job error found with
      | .ok recorded => (recorded, .ok (some ⟨0, 0, true⟩))
      | .error failure => (found, .error failure)

def reconcileBatches (result : PlanGrantReconciliationResult) (passes : List DefaultPlanReconciliation) :
    List BatchInput → List DefaultPlanReconciliation × Except Failure PlanGrantReconciliationResult
  | [] => (passes, .ok result)
  | batch :: rest =>
    match reconcileDefaultPlanBatch versions limit scanSize batch passes with
    | (found, .error failure) => (found, .error failure)
    | (found, .ok none) => (found, .ok result)
    | (found, .ok (some slice)) =>
      reconcileBatches { result with
        defaultPlanGrants := result.defaultPlanGrants + slice.changed
        defaultPlanSkipped := result.defaultPlanSkipped + slice.skipped
        defaultPlanFailedSlices := result.defaultPlanFailedSlices + if slice.failed then 1 else 0 } found rest

end Worker

def maxLimit : Int := 100

/-- A worker pass over what the database answers in each turn, after the plan grants past their end were expired. -/
def reconcilePlanGrants (versions : Nat → PlanVersion) (limit scanSize maxBatches : Int) (expired : Nat) (turns : Nat → BatchInput)
    (passes : List DefaultPlanReconciliation) : List DefaultPlanReconciliation × Except Failure PlanGrantReconciliationResult :=
  if limit ≤ 0 then (passes, .error (.internal "p_limit must be greater than zero"))
  else if scanSize < 1 ∨ maxSafeInteger < scanSize ∨ maxBatches < 1 ∨ maxSafeInteger < maxBatches then
    (passes, .error (.internal "Default-plan scan size and batch count must be positive integers"))
  else
    reconcileBatches versions (min limit maxLimit).toNat scanSize.toNat ⟨expired, 0, 0, 0⟩ passes
      ((List.range maxBatches.toNat).map turns)

end Quotum.DefaultPlanPasses
