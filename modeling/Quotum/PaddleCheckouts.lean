import Quotum.ProviderOperations

/-! Hosted Paddle checkouts of one account: the reservation that keeps them apart, the customer and checkout operations sent for it,
and the requests, whose statements run in any order and stop anywhere. -/

namespace Quotum.PaddleCheckouts
open General ProviderOperations

structure PaddleConfig where
  accountIdentity : Text
  versionId : Nat
  paymentPageUrl : Text
  deriving DecidableEq

/-- What an operation asks of Paddle. The target of a checkout is the JSON text of its price binding and its plan. -/
inductive PaddleRequest where
  | customer (email : Text)
  | checkout (customerId target paymentPageUrl : Text)
  deriving DecidableEq

inductive ClosureReason where
  | rejected
  | canceled
  | fulfilled
  deriving DecidableEq

structure ReservationRow where
  id : Nat
  previewToken : Option Text
  idempotencyKey : Text
  providerAccountId : Text
  connectionVersionId : Nat
  target : Text
  operationId : Option Nat
  closureReason : Option ClosureReason
  updatedAt : Int
  deriving DecidableEq

structure CheckoutStore where
  ledger : OperationStore PaddleRequest
  reservations : List ReservationRow
  deriving DecidableEq

/-- The account whose checkouts these are, with the hash and the JSON text that its keys are made of. -/
structure PaddleAccount where
  projectId : Nat
  billingAccountId : Text
  sha256Hex : Text → Text
  stableJson : PaddleRequest → Text

/-- The intents of one checkout: a direct one under the caller's key, a commercial one under the key of its preview. -/
inductive CheckoutOwner where
  | direct (idempotencyKey : Text)
  | commercial (previewToken : Text)
  deriving DecidableEq

structure CheckoutInput where
  connection : PaddleConfig
  owner : CheckoutOwner
  email : Option Text
  target : Text
  deriving DecidableEq

def customerCreate : Text := "customer.create".toList

def checkoutHosted : Text := "checkout.hosted".toList

def neverSent : Text := "PROVIDER_OPERATION_NEVER_SENT".toList

def operationUncertain : Text := "PROVIDER_OPERATION_UNCERTAIN".toList

/-- How long a request may be idle before another key takes it for dead: five minutes. -/
def idleLimit : Int := 300000

def executionPrefix : Text := "commercial:".toList

namespace CheckoutOwner

def idempotencyKey : CheckoutOwner → Text
  | direct key => key
  | commercial previewToken => executionPrefix ++ previewToken

def previewToken : CheckoutOwner → Option Text
  | direct _ => none
  | commercial previewToken => some previewToken

/-- What the caller's key may look like. The key of a preview is not parsed. -/
def parses : CheckoutOwner → Bool
  | direct key => decide (1 ≤ key.length) && decide (key.length ≤ 200) &&
      key.all fun char => char.isAlphanum || ['.', '_', ':', '-'].contains char
  | commercial _ => true

end CheckoutOwner

namespace PaddleAccount
variable (account : PaddleAccount)

def customerResourceKey : Text := "customer:".toList ++ account.sha256Hex account.billingAccountId

def customerAttemptKey (checkoutKey : Text) : Text := account.customerResourceKey ++ ':' :: account.sha256Hex checkoutKey

def resumableKeys (checkoutKey : Text) : List Text := [checkoutKey, account.customerAttemptKey checkoutKey]

def intent (connection : PaddleConfig) (idempotencyKey resourceKey operation : Text) (request : PaddleRequest) :
    PrepareProviderOperation PaddleRequest where
  projectId := account.projectId
  billingAccountId := account.billingAccountId
  provider := .paddle
  providerAccountId := connection.accountIdentity
  connectionVersionId := connection.versionId
  idempotencyKey := idempotencyKey
  resourceKey := resourceKey
  operation := operation
  requestHash := account.sha256Hex (account.stableJson request)
  request := request

def customerIntent (connection : PaddleConfig) (idempotencyKey email : Text) : PrepareProviderOperation PaddleRequest :=
  account.intent connection idempotencyKey account.customerResourceKey customerCreate (.customer email)

def checkoutIntent (input : CheckoutInput) (customerId : Text) : PrepareProviderOperation PaddleRequest :=
  account.intent input.connection input.owner.idempotencyKey ("checkout:".toList ++ account.sha256Hex account.billingAccountId)
    checkoutHosted (.checkout customerId input.target input.connection.paymentPageUrl)

end PaddleAccount

namespace ReservationRow

def isOpen (row : ReservationRow) : Bool := row.closureReason.isNone

def close (reason : ClosureReason) (now : Int) (row : ReservationRow) : ReservationRow :=
  { row with closureReason := some reason, updatedAt := now }

def belongsTo (owner : CheckoutOwner) (row : ReservationRow) : Bool :=
  row.idempotencyKey == owner.idempotencyKey && row.previewToken == owner.previewToken

end ReservationRow

def isCheckoutOf (key : Text) (row : OperationRow PaddleRequest) : Bool :=
  row.intent.operation == checkoutHosted && row.intent.idempotencyKey == key

/-- A checkout or a preview that gives up what dead requests left: its connection, the keys its own retry resumes, and how long its
transaction has waited for the account's lock. -/
structure Release where
  connectionVersionId : Nat
  resumableKeys : List Text
  waited : Nat
  deriving DecidableEq

namespace Release
variable (account : PaddleAccount) (release : Release)

def abandons (connectionVersionId : Nat) (idempotencyKey : Text) (updatedAt now : Int) : Bool :=
  connectionVersionId != release.connectionVersionId ||
    decide (updatedAt < now - idleLimit) && !release.resumableKeys.contains idempotencyKey

def givesUp (clock : Int) (row : OperationRow PaddleRequest) : Bool :=
  row.intent.projectId == account.projectId && row.intent.billingAccountId == account.billingAccountId &&
    row.intent.provider == .paddle && row.status == .prepared &&
    release.abandons row.intent.connectionVersionId row.intent.idempotencyKey row.updatedAt clock

def lapses (now : Int) (row : ReservationRow) : Bool :=
  release.abandons row.connectionVersionId row.idempotencyKey row.updatedAt now

end Release

inductive ReserveRefusal where
  | idempotencyConflict
  | operationFailed
  | checkoutClosed
  | checkoutPending (reservation : Nat)
  | legacyPending (operation : Nat)
  | basePlanActive
  deriving DecidableEq

namespace CheckoutStore
variable (account : PaddleAccount)

def boundTo (store : CheckoutStore) (test : OperationRow PaddleRequest → Bool) (row : ReservationRow) : Bool :=
  store.ledger.rows.any fun operation => row.operationId == some operation.id && test operation

def closeWhere (test : ReservationRow → Bool) (reason : ClosureReason) (now : Int) (store : CheckoutStore) : CheckoutStore :=
  { store with reservations := store.reservations.map fun row => if row.isOpen && test row then row.close reason now else row }

/-- No dispatch can have begun without a bound operation. -/
def rejectUnbound (owner : CheckoutOwner) (store : CheckoutStore) : CheckoutStore :=
  store.closeWhere (fun row => row.belongsTo owner && row.operationId.isNone) .rejected store.ledger.clock

def markNeverSent (release : Release) (store : CheckoutStore) : CheckoutStore :=
  let clock := store.ledger.clock
  let rows := store.ledger.rows.map fun row =>
    if release.givesUp account clock row then { row with status := .failed, errorCode := some neverSent, updatedAt := clock } else row
  { store with ledger := { store.ledger with rows := rows } }

/-- Marks the prepared writes of dead requests failed, and closes the open reservation that has no operation or only such a write. -/
def releaseNeverSent (release : Release) (store : CheckoutStore) : CheckoutStore :=
  let now := store.ledger.clock - release.waited
  let marked := store.markNeverSent account release
  marked.closeWhere (fun row => marked.boundTo (fun operation => operation.status == .failed && operation.errorCode == some neverSent) row ||
    row.operationId.isNone && release.lapses now row) .rejected now

def boundFailed (store : CheckoutStore) (row : ReservationRow) : Bool :=
  store.boundTo (fun operation => operation.status == .failed) row

/-- The first statement of a reserve: it closes what a definitive rejection left open. -/
def repair (now : Int) (store : CheckoutStore) : CheckoutStore :=
  store.closeWhere store.boundFailed .rejected now

def reservationOf (input : CheckoutInput) (id : Nat) (now : Int) : ReservationRow where
  id := id
  previewToken := input.owner.previewToken
  idempotencyKey := input.owner.idempotencyKey
  providerAccountId := input.connection.accountIdentity
  connectionVersionId := input.connection.versionId
  target := input.target
  operationId := none
  closureReason := none
  updatedAt := now

def agrees (input : CheckoutInput) (row : ReservationRow) : Bool :=
  row.target == input.target && row.providerAccountId == input.connection.accountIdentity &&
    row.connectionVersionId == input.connection.versionId && row.previewToken == input.owner.previewToken

/-- A checkout operation from before reservations were made, which none is bound to. -/
def isLegacy (key : Text) (store : CheckoutStore) (operation : OperationRow PaddleRequest) : Bool :=
  operation.intent.provider == .paddle && operation.intent.operation == checkoutHosted && operation.status != .failed &&
    operation.intent.idempotencyKey != key && store.reservations.all fun row => row.operationId != some operation.id

/-- Reserves the account for one checkout, in a transaction under the account's lock. A refusal writes nothing, the repair included. -/
def reserve (input : CheckoutInput) (active : Bool) (waited : Nat) (store : CheckoutStore) : Except ReserveRefusal (CheckoutStore × Nat) :=
  let now := store.ledger.clock - waited
  let repaired := store.repair now
  match repaired.reservations.find? fun row =>
      row.idempotencyKey == input.owner.idempotencyKey && row.previewToken.isSome == input.owner.previewToken.isSome with
  | some existing =>
    if !agrees input existing then .error .idempotencyConflict
    else if repaired.boundFailed existing then .error .operationFailed
    else if !existing.isOpen then .error .checkoutClosed
    else .ok (repaired, existing.id)
  | none =>
    match repaired.reservations.find? ReservationRow.isOpen with
    | some pending => .error (.checkoutPending pending.id)
    | none =>
      match repaired.ledger.rows.find? (isLegacy input.owner.idempotencyKey repaired) with
      | some operation => .error (.legacyPending operation.id)
      | none =>
        if active then .error .basePlanActive
        else
          let id := repaired.reservations.length
          .ok ({ repaired with reservations := repaired.reservations ++ [reservationOf input id now] }, id)

def canBind (reservation : Nat) (operation : OperationRow PaddleRequest) (row : ReservationRow) : Bool :=
  row.id == reservation && row.isOpen && row.providerAccountId == operation.intent.providerAccountId &&
    row.connectionVersionId == operation.intent.connectionVersionId &&
    (operation.intent.operation == customerCreate || row.idempotencyKey == operation.intent.idempotencyKey)

/-- Links an operation before it is dispatched. A customer operation does not replace one already linked. -/
def bindOperation (reservation : Nat) (operation : OperationRow PaddleRequest) (store : CheckoutStore) : Option CheckoutStore :=
  let bind (row : ReservationRow) : ReservationRow := { row with
    operationId := if operation.intent.operation = customerCreate ∧ row.operationId.isSome = true then row.operationId
      else some operation.id
    updatedAt := store.ledger.clock }
  if store.reservations.any (canBind reservation operation) then
    let rows := store.reservations.map fun row => if canBind reservation operation row then bind row else row
    some { store with reservations := rows }
  else none

def rejected (reservation operation : Nat) (store : CheckoutStore) : CheckoutStore :=
  match store.ledger.rows.find? fun row => row.id == operation && row.status == .failed with
  | none => store
  | some failed =>
    let test (row : ReservationRow) : Bool := row.id == reservation && row.isOpen &&
      (row.operationId == some operation || row.operationId.isNone && failed.intent.operation == customerCreate) &&
      row.providerAccountId == failed.intent.providerAccountId
    let reject (row : ReservationRow) : ReservationRow := { row.close .rejected store.ledger.clock with operationId := some operation }
    { store with reservations := store.reservations.map fun row => if test row then reject row else row }

def closePaddleCheckout (operation : Nat) (reason : ClosureReason) (store : CheckoutStore) : CheckoutStore :=
  store.closeWhere (fun row => row.operationId == some operation) reason store.ledger.clock

def prepare (intent : PrepareProviderOperation PaddleRequest) (store : CheckoutStore) : CheckoutStore × PrepareStage :=
  if intent.accepted then
    let found := prepareStatement store.ledger ⟨intent, .locked⟩
    let free := prepareStatement found.1 ⟨intent, found.2⟩
    let answered := prepareStatement free.1 ⟨intent, free.2⟩
    ({ store with ledger := answered.1 }, answered.2)
  else (store, .answered .invalid)

/-- The key of the customer operation that a checkout uses: its attempt's own, or the account's of an unresolved one it resumes. -/
def customerOperationKey (email checkoutKey : Text) (store : CheckoutStore) : Text :=
  let attempt := account.customerAttemptKey checkoutKey
  let isKeyed (key : Text) (row : OperationRow PaddleRequest) : Bool :=
    row.intent.provider == .paddle && row.intent.idempotencyKey == key
  if store.ledger.rows.any (isKeyed attempt) then attempt
  else
    match store.ledger.rows.find? (isKeyed account.customerResourceKey) with
    | none => attempt
    | some old => if old.status.unresolved && old.intent.request == .customer email then account.customerResourceKey else attempt

end CheckoutStore

inductive WriteStage where
  | preparing
  | binding (operation : OperationRow PaddleRequest)
  | claiming (operation : OperationRow PaddleRequest)
  | reading (operation : OperationRow PaddleRequest)
  | sending (lease : Nat) (operation : OperationRow PaddleRequest)
  | settling (lease : Nat) (operation : OperationRow PaddleRequest) (outcome : ProviderOperationOutcome PaddleRequest)
  | answered (operation : OperationRow PaddleRequest)
  deriving DecidableEq

/-- How far a request is: before each of its statements, or past the last one. A failed request still rejects what it left unbound, once
for each handler that its error passes. -/
inductive CheckoutStage where
  | begun
  | executing
  | writing
  | searching
  | checking
  | reserving (customerId : Option Text) (customerKey : Text)
  | customer (reservation : Nat) (customerKey : Text) (stage : WriteStage)
  | linking (reservation : Nat) (customerId : Text)
  | checkout (reservation : Nat) (customerId : Text) (stage : WriteStage)
  | returned
  | failing (handlers : Nat)
  | crashed
  deriving DecidableEq

structure CheckoutRequest where
  input : CheckoutInput
  stage : CheckoutStage
  deriving DecidableEq

abbrev ServedCheckouts := Served CheckoutStore CheckoutRequest

/-- How a statement ends: as it should, with an error before it takes effect, or with one after it. -/
inductive Ending where
  | done
  | refused
  | lost
  deriving DecidableEq

/-- What a statement meets: the lock, the tables of customers, previews and subscriptions, and Paddle. -/
structure Reply where
  ending : Ending
  waited : Nat
  customerId : Option Text
  isExecuting : Bool
  basePlanActive : Bool
  outcome : ProviderOperationOutcome PaddleRequest
  deriving DecidableEq

namespace CheckoutRequest

def thrown (request : CheckoutRequest) : CheckoutStage :=
  let outer := if request.input.owner.previewToken.isSome then 1 else 0
  match request.stage with
  | .begun | .executing => .failing 0
  | .writing | .searching | .checking | .reserving _ _ => .failing outer
  | .customer _ _ _ | .linking _ _ | .checkout _ _ _ => .failing (1 + outer)
  | .failing (handlers + 1) => .failing handlers
  | .failing 0 => .failing 0
  | .returned => .returned
  | .crashed => .crashed

def releaseOf (account : PaddleAccount) (request : CheckoutRequest) (waited : Nat) : Release :=
  ⟨request.input.connection.versionId, account.resumableKeys request.input.owner.idempotencyKey, waited⟩

end CheckoutRequest

section Statements
variable (account : PaddleAccount)

/-- The next statement of an operation's run, for a reservation. Without a next stage, it throws. -/
def executeStatement (connection : PaddleConfig) (intent : PrepareProviderOperation PaddleRequest) (reservation : Nat) (reply : Reply)
    (store : CheckoutStore) : WriteStage → CheckoutStore × Option WriteStage
  | .preparing =>
    let prepared := store.prepare intent
    match prepared.2 with
    | .answered (.operation id) =>
      (prepared.1, (prepared.1.ledger.rows.find? fun row => row.id == id).map fun row =>
        if row.status = .prepared then .binding row else .claiming row)
    | _ => (prepared.1, none)
  | .binding operation =>
    match store.bindOperation reservation operation with
    | some bound => (bound, some (.claiming operation))
    | none => (store, none)
  | .claiming operation =>
    let claimed := store.ledger.claimDispatch account.projectId account.billingAccountId operation.id
    ({ store with ledger := claimed },
      some (if store.ledger.leases.length < claimed.leases.length then .sending store.ledger.leases.length operation
        else .reading operation))
  | .reading operation =>
    (store, (store.ledger.rows.find? fun row => row.id == operation.id).map WriteStage.answered)
  | .sending lease operation =>
    (store, some (.settling lease operation
      (if operation.intent.connectionVersionId = connection.versionId then reply.outcome else .reconciling operationUncertain)))
  | .settling lease operation outcome =>
    match store.ledger.leases[lease]? with
    | none => (store, none)
    | some held =>
      match store.ledger.leasedRow held with
      | none => (store, none)
      | some _ =>
        let settled := store.ledger.settle held outcome
        ({ store with ledger := settled }, (settled.rows.find? fun row => row.id == operation.id).map WriteStage.answered)
  | .answered operation => (store, some (.answered operation))

/-- What a request does with the receipt of its operation: it goes on with a success, and throws otherwise. -/
def receive (request : CheckoutRequest) (reservation : Nat) (operation : OperationRow PaddleRequest) (next : Text → CheckoutStage)
    (store : CheckoutStore) : CheckoutStore × CheckoutStage :=
  match operation.status, operation.providerObjectId with
  | .failed, _ => (store.rejected reservation operation.id, request.thrown)
  | .succeeded, some providerObjectId => (store, next providerObjectId)
  | _, _ => (store, request.thrown)

def statement (request : CheckoutRequest) (reply : Reply) (store : CheckoutStore) : CheckoutStore × CheckoutStage :=
  let input := request.input
  match request.stage with
  | .begun => (store.releaseNeverSent account (request.releaseOf account reply.waited), .executing)
  | .executing =>
    if reply.isExecuting then (store, .writing)
    else
      match store.reserve input reply.basePlanActive reply.waited with
      | .ok (reserved, _) => (reserved, .writing)
      | .error _ => (store, request.thrown)
  | .writing => (store.releaseNeverSent account (request.releaseOf account reply.waited), .searching)
  | .searching =>
    match store.ledger.rows.find? fun row => isCheckoutOf input.owner.idempotencyKey row &&
        row.intent.providerAccountId == input.connection.accountIdentity with
    | none => (store, .checking)
    | some existing =>
      match existing.intent.request with
      | .customer _ => (store, request.thrown)
      | .checkout _ target _ =>
        if target ≠ input.target then (store, request.thrown)
        else if existing.status = .succeeded then (store, .returned)
        else if existing.status = .prepared then (store, .checking)
        else (store, request.thrown)
  | .checking =>
    match reply.customerId, input.email with
    | some customerId, _ => (store, .reserving (some customerId) [])
    | none, some email => (store, .reserving none (store.customerOperationKey account email input.owner.idempotencyKey))
    | none, none => (store, request.thrown)
  | .reserving customerId customerKey =>
    match store.reserve input reply.basePlanActive reply.waited with
    | .error _ => (store, request.thrown)
    | .ok (reserved, reservation) =>
      (reserved, match customerId with
        | some customerId => .checkout reservation customerId .preparing
        | none => .customer reservation customerKey .preparing)
  | .customer reservation _ (.answered operation) =>
    receive request reservation operation (fun customerId => .linking reservation customerId) store
  | .customer reservation customerKey stage =>
    match input.email with
    | none => (store, request.thrown)
    | some email =>
      let ran := executeStatement account input.connection (account.customerIntent input.connection customerKey email) reservation reply
        store stage
      (ran.1, ran.2.elim request.thrown fun next => .customer reservation customerKey next)
  | .linking reservation customerId => (store, .checkout reservation customerId .preparing)
  | .checkout reservation _ (.answered operation) =>
    receive request reservation operation (fun _ => .returned) store
  | .checkout reservation customerId stage =>
    let ran := executeStatement account input.connection (account.checkoutIntent input customerId) reservation reply store stage
    (ran.1, ran.2.elim request.thrown fun next => .checkout reservation customerId next)
  | .failing (handlers + 1) => (store.rejectUnbound input.owner, .failing handlers)
  | .failing 0 => (store, .failing 0)
  | .returned => (store, .returned)
  | .crashed => (store, .crashed)

inductive CheckoutStep where
  | wait (elapsed : Nat)
  | ask (input : CheckoutInput)
  | preview (connection : PaddleConfig) (waited : Nat)
  | advance (index : Nat) (reply : Reply)
  | crash (index : Nat)
  | conclude (operation : Nat) (reason : ClosureReason)
  | claimReconciliation (id : Nat)
  | renew (lease : Nat)
  | observe (lease : Nat) (outcome : ProviderOperationOutcome PaddleRequest)
  | deferRecovery (id : Nat)
  | requestReview (id : Nat) (actor : Text)

def CheckoutStore.onLedger (store : CheckoutStore) (change : OperationStore PaddleRequest → OperationStore PaddleRequest) : CheckoutStore :=
  { store with ledger := change store.ledger }

/-- Where a request starts: a commercial one releases before it executes its preview, and a key that does not parse is refused. -/
def startOf (owner : CheckoutOwner) : CheckoutStage :=
  if !owner.parses then .failing 0
  else if owner.previewToken.isSome then .begun
  else .writing

/-- Whether a checkout may have reached Paddle: it was dispatched, and Paddle did not reject it. Only then can an event of Paddle's tell
of it. -/
def CheckoutStore.reachedPaddle (store : CheckoutStore) (row : OperationRow PaddleRequest) : Bool :=
  row.intent.operation == checkoutHosted && store.ledger.dispatched.contains row.id && row.status != .failed

/-- What recovery can observe: it never makes an operation fail. -/
def isObservation : ProviderOperationOutcome PaddleRequest → Bool
  | .failed _ => false
  | _ => true

def perform (served : ServedCheckouts) : CheckoutStep → ServedCheckouts
  | .wait elapsed =>
    { served with store := served.store.onLedger fun ledger => { ledger with clock := ledger.clock + elapsed } }
  | .ask input => { served with sessions := served.sessions ++ [⟨input, startOf input.owner⟩] }
  | .preview connection waited => { served with store := served.store.releaseNeverSent account ⟨connection.versionId, [], waited⟩ }
  | .advance index reply =>
    match served.sessions[index]? with
    | none => served
    | some request =>
      let ran := statement account request reply served.store
      match reply.ending with
      | .done => ⟨ran.1, served.sessions.set index { request with stage := ran.2 }⟩
      | .refused => { served with sessions := served.sessions.set index { request with stage := request.thrown } }
      | .lost => ⟨ran.1, served.sessions.set index { request with stage := request.thrown }⟩
  | .crash index =>
    match served.sessions[index]? with
    | none => served
    | some request => { served with sessions := served.sessions.set index { request with stage := .crashed } }
  | .conclude operation reason =>
    if reason ≠ .rejected ∧ (served.store.ledger.rows.any fun row => row.id == operation && served.store.reachedPaddle row) = true then
      { served with store := served.store.closePaddleCheckout operation reason }
    else served
  | .claimReconciliation id =>
    { served with store := served.store.onLedger (·.claimReconciliation account.projectId account.billingAccountId id) }
  | .renew lease =>
    { served with store := served.store.onLedger fun ledger => (ledger.leases[lease]?).elim ledger ledger.renew }
  | .observe lease outcome =>
    if isObservation outcome then
      { served with store := served.store.onLedger fun ledger => (ledger.leases[lease]?).elim ledger fun held => ledger.settle held outcome }
    else served
  | .deferRecovery id => { served with store := served.store.onLedger (·.deferRecovery account.projectId id) }
  | .requestReview id actor =>
    { served with store := served.store.onLedger (·.requestReview account.projectId account.billingAccountId id actor) }

def run (served : ServedCheckouts) (steps : List CheckoutStep) : ServedCheckouts :=
  steps.foldl (perform account) served

end Statements

/-- An account without a checkout. -/
def noCheckouts (clock : Int) : ServedCheckouts := ⟨⟨⟨clock, [], [], []⟩, []⟩, []⟩

namespace CheckoutStore

def Exclusive (store : CheckoutStore) : Prop :=
  ∀ first ∈ store.reservations, ∀ second ∈ store.reservations, first.isOpen = true → second.isOpen = true → first = second

def isStuck (store : CheckoutStore) (row : ReservationRow) : Bool :=
  store.ledger.rows.any fun operation => isCheckoutOf row.idempotencyKey operation && operation.status == .failed

def RejectedUnsent (store : CheckoutStore) : Prop :=
  ∀ row ∈ store.reservations, row.closureReason = some .rejected → ∀ operation ∈ store.ledger.rows,
    isCheckoutOf row.idempotencyKey operation = true → store.reachedPaddle operation = false

def DispatchesBound (before after : CheckoutStore) : Prop :=
  ∀ operation ∈ after.ledger.rows, operation.intent.operation = checkoutHosted → operation.id ∈ after.ledger.dispatched →
    operation.id ∉ before.ledger.dispatched → ∃ row ∈ after.reservations, row.isOpen = true ∧ row.operationId = some operation.id

/-- Whether a release strands a reservation: it gives up the prepared checkout of an open reservation that it does not close, as that is
bound to another operation, neither failed nor given up with it, or is unbound and not idle for long enough. -/
def strands (account : PaddleAccount) (release : Release) (store : CheckoutStore) : Bool :=
  let clock := store.ledger.clock
  store.reservations.any fun row => row.isOpen &&
    (store.ledger.rows.any fun operation => isCheckoutOf row.idempotencyKey operation && release.givesUp account clock operation) &&
    !(store.boundTo (fun operation => operation.status == .failed || release.givesUp account clock operation) row) &&
    !(row.operationId.isNone && release.lapses (clock - release.waited) row)

end CheckoutStore

/-- The next reserve of any request leaves no reservation open whose own checkout has failed, and is not refused because of one. -/
def Unblocked (served : ServedCheckouts) : Prop :=
  ∀ request ∈ served.sessions, ∀ active waited, match served.store.reserve request.input active waited with
    | .ok (after, _) => ∀ row ∈ after.reservations, row.isOpen = true → after.isStuck row = false
    | .error (.checkoutPending id) => ∀ row ∈ served.store.reservations, row.id = id → served.store.isStuck row = false
    | .error _ => True

/-- What holds of the checkouts of an account, in a state and in whatever step comes next. -/
structure Safe (account : PaddleAccount) (served : ServedCheckouts) : Prop where
  exclusive : served.store.Exclusive
  dispatches : ∀ step, served.store.DispatchesBound (perform account served step).store
  unsent : served.store.RejectedUnsent
  unblocked : Unblocked served

/-- Whether a step strands no reservation. -/
def admits (account : PaddleAccount) (served : ServedCheckouts) : CheckoutStep → Bool
  | .preview connection waited => !served.store.strands account ⟨connection.versionId, [], waited⟩
  | .advance index reply =>
    match served.sessions[index]? with
    | none => true
    | some request =>
      match request.stage with
      | .begun | .writing => !served.store.strands account (request.releaseOf account reply.waited)
      | _ => true
  | _ => true

/-- Whether every step of a run is admitted in the state it is taken in. -/
def orderly (account : PaddleAccount) : ServedCheckouts → List CheckoutStep → Bool
  | _, [] => true
  | served, step :: rest => admits account served step && orderly account (perform account served step) rest

def CheckoutStep.owner : CheckoutStep → Option CheckoutOwner
  | .ask input => some input.owner
  | _ => none

/-- Whether a run asks for no direct checkout under the key under which it also executes a preview. -/
def keysApart (steps : List CheckoutStep) : Bool :=
  let owners := steps.filterMap CheckoutStep.owner
  owners.all fun owner => owners.all fun other =>
    owner.idempotencyKey != other.idempotencyKey || owner.previewToken.isSome == other.previewToken.isSome

end Quotum.PaddleCheckouts
