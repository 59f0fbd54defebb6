import Quotum.General.Locks
import Quotum.General.Lookup
import Quotum.Decimal

/-! The ledger of remote writes: operations prepared in transactions under two advisory locks, dispatched under a lease once,
and reconciled under later leases until they are settled. -/

namespace Quotum.ProviderOperations
open General

inductive BillingProvider where
  | apple
  | google
  | stripe
  | paddle
  deriving DecidableEq

inductive ProviderOperationStatus where
  | prepared
  | inFlight
  | reconciling
  | requiresReview
  | succeeded
  | failed
  deriving DecidableEq

namespace ProviderOperationStatus

def unresolved : ProviderOperationStatus → Bool
  | prepared | inFlight | reconciling | requiresReview => true
  | succeeded | failed => false

def leased : ProviderOperationStatus → Bool
  | inFlight | reconciling => true
  | _ => false

end ProviderOperationStatus

/-- A remote effect of one project, with the account that recovers it. A request is a JSON object up to the order of its keys. -/
structure PrepareProviderOperation (Request : Type) where
  projectId : Nat
  billingAccountId : Text
  provider : BillingProvider
  providerAccountId : Text
  connectionVersionId : Nat
  idempotencyKey : Text
  resourceKey : Text
  operation : Text
  requestHash : Text
  request : Request
  deriving DecidableEq

structure ReviewRequest where
  actor : Text
  requestedAt : Int
  status : ProviderOperationStatus
  deriving DecidableEq

structure OperationRow (Request : Type) where
  id : Nat
  intent : PrepareProviderOperation Request
  reviewRequests : List ReviewRequest
  status : ProviderOperationStatus
  attempts : Nat
  recoveryAttempts : Nat
  nextAttemptAt : Int
  leaseToken : Option Nat
  leaseUntil : Option Int
  result : Option Request
  providerObjectId : Option Text
  errorCode : Option Text
  createdAt : Int
  updatedAt : Int
  deriving DecidableEq

inductive ProviderOperationOutcome (Request : Type) where
  | succeeded (result : Request) (providerObjectId : Text)
  | failed (errorCode : Text)
  | reconciling (errorCode : Text)
  | requiresReview (errorCode : Text)
  deriving DecidableEq

structure ProviderOperationLease where
  operationId : Nat
  token : Nat
  expiresAt : Int
  settled : Bool
  deriving DecidableEq

structure OperationStore (Request : Type) where
  clock : Int
  rows : List (OperationRow Request)
  leases : List ProviderOperationLease
  dispatched : List Nat
  deriving DecidableEq

def leaseDuration : Int := 60000

/-- The recoveries after which an unsettled operation goes to review. -/
def recoveryLimit : Nat := 10

def utf16Length (text : Text) : Nat := (text.map fun char => if char.toNat < 65536 then 1 else 2).sum

namespace PrepareProviderOperation
variable {Request : Type}

def accepted (intent : PrepareProviderOperation Request) : Bool :=
  let sized (text : Text) (most : Nat) : Bool := decide (1 ≤ utf16Length text) && decide (utf16Length text ≤ most)
  sized intent.billingAccountId 200 && sized intent.providerAccountId 200 && sized intent.idempotencyKey 200 &&
    sized intent.resourceKey 200 && sized intent.operation 100 &&
    (intent.requestHash.length == 64 && intent.requestHash.all fun char => char.isDigit || ('a' ≤ char && char ≤ 'f'))

def sameKey (intent other : PrepareProviderOperation Request) : Bool :=
  intent.projectId == other.projectId && intent.billingAccountId == other.billingAccountId &&
    intent.provider == other.provider && intent.idempotencyKey == other.idempotencyKey

def sameResource (intent other : PrepareProviderOperation Request) : Bool :=
  intent.projectId == other.projectId && intent.provider == other.provider &&
    intent.providerAccountId == other.providerAccountId && intent.resourceKey == other.resourceKey

def repeats [DecidableEq Request] (intent other : PrepareProviderOperation Request) : Bool :=
  intent.requestHash == other.requestHash && intent.request == other.request &&
    intent.providerAccountId == other.providerAccountId && intent.operation == other.operation &&
    intent.resourceKey == other.resourceKey

end PrepareProviderOperation

inductive AdvisoryName where
  | operationKey (projectId : Nat) (provider : BillingProvider) (billingAccountId idempotencyKey : Text)
  | providerAccount (projectId : Nat) (provider : BillingProvider) (providerAccountId : Text)
  deriving DecidableEq

inductive PrepareAnswer where
  | operation (id : Nat)
  | idempotencyConflict
  | operationPending
  | uniqueViolation
  | invalid
  deriving DecidableEq

/-- How far a prepare's transaction is: before each of its statements, answered, or rolled back by a crash. -/
inductive PrepareStage where
  | begun
  | keyLocked
  | locked
  | unrecorded
  | free
  | answered (answer : PrepareAnswer)
  | abandoned
  deriving DecidableEq

structure Preparation (Request : Type) where
  intent : PrepareProviderOperation Request
  stage : PrepareStage
  deriving DecidableEq

abbrev ServedOperations (Request : Type) := Served (OperationStore Request) (Preparation Request)

namespace OperationStore
variable {Request : Type}

def editRow (id : Nat) (edit : OperationRow Request → OperationRow Request) (store : OperationStore Request) : OperationStore Request :=
  { store with rows := updateAt OperationRow.id id edit store.rows }

def grant (row : OperationRow Request) (edit : OperationRow Request → OperationRow Request) (store : OperationStore Request) :
    OperationStore Request :=
  let token := store.leases.length
  let leased := store.editRow row.id fun row => { edit row with
    leaseToken := some token
    leaseUntil := some (store.clock + leaseDuration)
    updatedAt := store.clock }
  { leased with leases := store.leases ++ [⟨row.id, token, store.clock + leaseDuration, false⟩] }

def claimDispatch (projectId : Nat) (billingAccountId : Text) (id : Nat) (store : OperationStore Request) : OperationStore Request :=
  match store.rows.find? fun row => row.intent.projectId == projectId && row.intent.billingAccountId == billingAccountId &&
      row.id == id && row.status == .prepared with
  | none => store
  | some row =>
    let granted := store.grant row fun row => { row with status := .inFlight, attempts := row.attempts + 1 }
    { granted with dispatched := store.dispatched ++ [row.id] }

def claimReconciliation (projectId : Nat) (billingAccountId : Text) (id : Nat) (store : OperationStore Request) : OperationStore Request :=
  match store.rows.find? fun row => row.intent.projectId == projectId && row.intent.billingAccountId == billingAccountId &&
      row.id == id && (row.status == .inFlight || row.status == .reconciling || row.status == .requiresReview) &&
      row.leaseUntil.all fun ending => decide (ending ≤ store.clock) with
  | none => store
  | some row => store.grant row fun row => { row with status := .reconciling, recoveryAttempts := row.recoveryAttempts + 1 }

/-- The row that a worker's lease still holds. -/
def leasedRow (lease : ProviderOperationLease) (store : OperationStore Request) : Option (OperationRow Request) :=
  store.rows.find? fun row => row.id == lease.operationId && row.leaseToken == some lease.token &&
    row.leaseUntil.any (fun ending => decide (store.clock < ending)) && row.status.leased

def editLease (token : Nat) (edit : ProviderOperationLease → ProviderOperationLease) (store : OperationStore Request) :
    OperationStore Request :=
  { store with leases := updateAt ProviderOperationLease.token token edit store.leases }

def renew (lease : ProviderOperationLease) (store : OperationStore Request) : OperationStore Request :=
  match store.leasedRow lease with
  | none => store
  | some row =>
    (store.editRow row.id fun row => { row with leaseUntil := some (store.clock + leaseDuration) }).editLease lease.token
      fun held => { held with expiresAt := store.clock + leaseDuration }

/-- When an unsettled operation is due again: after ten seconds, doubled with each recovery, for at most an hour. -/
def backoff (recoveryAttempts : Nat) : Int := min 3600 (10 * 2 ^ min recoveryAttempts 9) * 1000

def settleRow (outcome : ProviderOperationOutcome Request) (clock : Int) (row : OperationRow Request) : OperationRow Request :=
  let freed := { row with
    nextAttemptAt := clock + backoff row.recoveryAttempts
    leaseToken := none
    leaseUntil := none
    updatedAt := clock }
  match outcome with
  | .succeeded result providerObjectId =>
    { freed with status := .succeeded, result := some result, providerObjectId := some providerObjectId, errorCode := none }
  | .failed errorCode => { freed with status := .failed, result := none, providerObjectId := none, errorCode := some errorCode }
  | .reconciling errorCode =>
    { freed with
      status := if recoveryLimit ≤ row.recoveryAttempts then .requiresReview else .reconciling
      result := none, providerObjectId := none, errorCode := some errorCode }
  | .requiresReview errorCode =>
    { freed with status := .requiresReview, result := none, providerObjectId := none, errorCode := some errorCode }

def settle (lease : ProviderOperationLease) (outcome : ProviderOperationOutcome Request) (store : OperationStore Request) :
    OperationStore Request :=
  match store.leasedRow lease with
  | none => store
  | some row => (store.editRow row.id (settleRow outcome store.clock)).editLease lease.token fun held => { held with settled := true }

def deferRecovery (projectId id : Nat) (store : OperationStore Request) : OperationStore Request :=
  store.editRow id fun row =>
    if row.intent.projectId = projectId ∧ row.status.leased = true ∧ row.leaseUntil.all (fun ending => decide (ending ≤ store.clock)) = true
    then { row with nextAttemptAt := store.clock + 60000 } else row

/-- Appends an operator's request, whatever the status. -/
def requestReview (projectId : Nat) (billingAccountId : Text) (id : Nat) (actor : Text) (store : OperationStore Request) :
    OperationStore Request :=
  store.editRow id fun row =>
    if row.intent.projectId = projectId ∧ row.intent.billingAccountId = billingAccountId
    then { row with reviewRequests := row.reviewRequests ++ [⟨actor, store.clock, row.status⟩] } else row

def operationOf (id : Nat) (intent : PrepareProviderOperation Request) (clock : Int) : OperationRow Request where
  id := id
  intent := intent
  reviewRequests := []
  status := .prepared
  attempts := 0
  recoveryAttempts := 0
  nextAttemptAt := clock
  leaseToken := none
  leaseUntil := none
  result := none
  providerObjectId := none
  errorCode := none
  createdAt := clock
  updatedAt := clock

end OperationStore

section Statements
variable {Request : Type} [DecidableEq Request] (hash : AdvisoryName → Int)

def keyLock (intent : PrepareProviderOperation Request) : Int :=
  hash (.operationKey intent.projectId intent.provider intent.billingAccountId intent.idempotencyKey)

def accountLock (intent : PrepareProviderOperation Request) : Int :=
  hash (.providerAccount intent.projectId intent.provider intent.providerAccountId)

def Preparation.locks (preparation : Preparation Request) : List Int :=
  match preparation.stage with
  | .keyLocked => [keyLock hash preparation.intent]
  | .locked | .unrecorded | .free => [keyLock hash preparation.intent, accountLock hash preparation.intent]
  | .begun | .answered _ | .abandoned => []

def Preparation.wanted (preparation : Preparation Request) : List Int :=
  match preparation.stage with
  | .begun => [keyLock hash preparation.intent]
  | .keyLocked => [accountLock hash preparation.intent]
  | _ => []

def prepareStatement (store : OperationStore Request) (preparation : Preparation Request) : OperationStore Request × PrepareStage :=
  match preparation.stage with
  | .begun => (store, .keyLocked)
  | .keyLocked => (store, .locked)
  | .locked =>
    match store.rows.find? fun row => row.intent.sameKey preparation.intent with
    | some existing =>
      (store, .answered (if existing.intent.repeats preparation.intent then .operation existing.id else .idempotencyConflict))
    | none => (store, .unrecorded)
  | .unrecorded =>
    if store.rows.any fun row => row.intent.sameResource preparation.intent && row.status.unresolved then
      (store, .answered .operationPending)
    else (store, .free)
  | .free =>
    if store.rows.any fun row => row.intent.sameKey preparation.intent ||
        row.intent.sameResource preparation.intent && row.status.unresolved then
      (store, .answered .uniqueViolation)
    else
      ({ store with rows := store.rows ++ [OperationStore.operationOf store.rows.length preparation.intent store.clock] },
        .answered (.operation store.rows.length))
  | .answered answer => (store, .answered answer)
  | .abandoned => (store, .abandoned)

inductive OperationStep (Request : Type) where
  | wait (elapsed : Nat)
  | prepare (intent : PrepareProviderOperation Request)
  | advance (index : Nat)
  | crash (index : Nat)
  | claimDispatch (projectId : Nat) (billingAccountId : Text) (id : Nat)
  | claimReconciliation (projectId : Nat) (billingAccountId : Text) (id : Nat)
  | renew (lease : Nat)
  | settle (lease : Nat) (outcome : ProviderOperationOutcome Request)
  | deferRecovery (projectId id : Nat)
  | requestReview (projectId : Nat) (billingAccountId : Text) (id : Nat) (actor : Text)

/-- One step of any worker. A statement that waits for a lock has no effect yet, and a lease is named by when it was granted. -/
def perform (served : ServedOperations Request) : OperationStep Request → ServedOperations Request
  | .wait elapsed => { served with store := { served.store with clock := served.store.clock + elapsed } }
  | .prepare intent =>
    { served with sessions := served.sessions ++ [⟨intent, if intent.accepted then .begun else .answered .invalid⟩] }
  | .advance index =>
    match served.sessions[index]? with
    | none => served
    | some preparation =>
      if freeFor (Preparation.locks hash) index (preparation.wanted hash) served.sessions then
        let next := prepareStatement served.store preparation
        ⟨next.1, served.sessions.set index { preparation with stage := next.2 }⟩
      else served
  | .crash index =>
    match served.sessions[index]? with
    | none => served
    | some preparation =>
      match preparation.stage with
      | .answered _ => served
      | _ => { served with sessions := served.sessions.set index { preparation with stage := .abandoned } }
  | .claimDispatch projectId billingAccountId id =>
    { served with store := served.store.claimDispatch projectId billingAccountId id }
  | .claimReconciliation projectId billingAccountId id =>
    { served with store := served.store.claimReconciliation projectId billingAccountId id }
  | .renew lease => { served with store := (served.store.leases[lease]?).elim served.store fun lease => served.store.renew lease }
  | .settle lease outcome =>
    { served with store := (served.store.leases[lease]?).elim served.store fun lease => served.store.settle lease outcome }
  | .deferRecovery projectId id => { served with store := served.store.deferRecovery projectId id }
  | .requestReview projectId billingAccountId id actor =>
    { served with store := served.store.requestReview projectId billingAccountId id actor }

def runOperations (served : ServedOperations Request) (steps : List (OperationStep Request)) : ServedOperations Request :=
  steps.foldl (perform hash) served

end Statements

def emptyLedger {Request : Type} (clock : Int) : ServedOperations Request := ⟨⟨clock, [], [], []⟩, []⟩

namespace OperationStore
variable {Request : Type}

def holds (store : OperationStore Request) (lease : ProviderOperationLease) : Prop :=
  lease ∈ store.leases ∧ lease.settled = false ∧ store.clock < lease.expiresAt

/-- One dispatch an operation, one holder of it, one row an idempotency key, and one unresolved row a resource. -/
structure DispatchedOnce (store : OperationStore Request) : Prop where
  once : store.dispatched.Nodup
  alone : ∀ first second, store.holds first → store.holds second → first.operationId = second.operationId → first = second
  keys : ∀ first ∈ store.rows, ∀ second ∈ store.rows, first.intent.sameKey second.intent = true → first.id = second.id
  resources : ∀ first ∈ store.rows, ∀ second ∈ store.rows, first.intent.sameResource second.intent = true →
    first.status.unresolved = true → second.status.unresolved = true → first.id = second.id

end OperationStore

def FinalKept {Request : Type} (earlier later : OperationStore Request) : Prop :=
  ∀ row ∈ earlier.rows, row.status.unresolved = false → ∃ appended,
    { row with reviewRequests := row.reviewRequests ++ appended } ∈ later.rows

def repeatAnswer {Request : Type} [DecidableEq Request] (row : OperationRow Request) (intent : PrepareProviderOperation Request) : PrepareAnswer :=
  if row.intent.repeats intent then .operation row.id else .idempotencyConflict

/-- A prepare under way whose key an operation has writes nothing, and returns that operation exactly when it repeats it. -/
def RepeatsAnswered {Request : Type} [DecidableEq Request] (hash : AdvisoryName → Int) (served : ServedOperations Request) : Prop :=
  ∀ row ∈ served.store.rows, ∀ index preparation, served.sessions[index]? = some preparation →
    row.intent.sameKey preparation.intent = true → (∀ answer, preparation.stage ≠ .answered answer) →
      (perform hash served (.advance index)).store = served.store ∧ ∀ next answer,
        (perform hash served (.advance index)).sessions[index]? = some next → next.stage = .answered answer →
          answer = repeatAnswer row preparation.intent

/-- A prepare that nobody keeps waiting and whose key an operation has returns that operation exactly when it repeats it. -/
def RepeatsReturned {Request : Type} [DecidableEq Request] (hash : AdvisoryName → Int) (served : ServedOperations Request) : Prop :=
  ∀ row ∈ served.store.rows, ∀ intent, row.intent.sameKey intent = true →
    freeFor (Preparation.locks hash) served.sessions.length [keyLock hash intent, accountLock hash intent] served.sessions = true →
      runOperations hash served (.prepare intent :: List.replicate 3 (.advance served.sessions.length)) =
        { served with sessions := served.sessions ++
          [⟨intent, .answered (if intent.accepted then repeatAnswer row intent else .invalid)⟩] } ∧
      (row.intent.repeats intent = true → intent.accepted = true)

def SettledByHolder {Request : Type} (before : OperationStore Request) (step : OperationStep Request) (after : OperationStore Request) : Prop :=
  ∀ row ∈ after.rows, row.status.unresolved = false →
    (∃ earlier ∈ before.rows, earlier.id = row.id ∧ earlier.status.unresolved = false) ∨
      ∃ index outcome lease, step = .settle index outcome ∧ before.leases[index]? = some lease ∧ before.holds lease ∧
        lease.operationId = row.id

end Quotum.ProviderOperations
