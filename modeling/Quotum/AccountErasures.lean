import Quotum.General.Locks
import Quotum.General.Lookup
import Quotum.Decimal

/-! Billing accounts created, looked up and erased by concurrent transactions. An erasure rewrites the account's id and leaves a
tombstone, a keyed digest of the id, that creations are checked against. -/

namespace Quotum.AccountErasures
open General

inductive AccountId where
  | named (id : Text)
  | erased (erasureId : Nat)
  deriving DecidableEq

inductive CustomerErasureBasis where
  | dataSubjectRequest
  | merchantOffboarding
  | legalOrder
  | other
  deriving DecidableEq

inductive CustomerErasureAcknowledgement where
  | forfeitPaidBalances
  | forfeitLifetimePurchases
  deriving DecidableEq

structure ErasureBody where
  billingAccountId : AccountId
  basis : CustomerErasureBasis
  reference : Option Text
  acknowledge : List CustomerErasureAcknowledgement
  deriving DecidableEq

structure CustomerErasureInput where
  body : ErasureBody
  actor : Text
  idempotencyKey : Text
  deriving DecidableEq

structure ErasureKey where
  id : Text
  key : Text
  deriving DecidableEq

structure ErasureKeyring where
  current : ErasureKey
  previous : Option ErasureKey
  deriving DecidableEq

structure ErasureConfiguration (Digest : Type) where
  keyring : Option ErasureKeyring
  tombstoneDays : Nat
  erasureDigest : ErasureKey → Nat → AccountId → Digest
  erasureFingerprint : ErasureKey → ErasureBody → Digest

structure CustomerRow where
  id : Nat
  projectId : Nat
  billingAccountId : AccountId
  email : Option Text
  erasedAt : Option Int
  createdAt : Int
  updatedAt : Int
  deriving DecidableEq

structure ErasureRow (Digest : Type) where
  id : Nat
  projectId : Nat
  customerId : Nat
  basis : CustomerErasureBasis
  reference : Option Text
  actor : Text
  idempotencyKey : Text
  requestHash : Option Digest
  acknowledged : List CustomerErasureAcknowledgement
  subjectId : AccountId
  tombstoneExpiresAt : Int
  requestedAt : Int
  deriving DecidableEq

structure TombstoneRow (Digest : Type) where
  projectId : Nat
  keyId : Text
  idDigest : Digest
  erasureId : Nat
  expiresAt : Int
  deriving DecidableEq

structure AccountStore (Digest : Type) where
  clock : Int
  customers : List CustomerRow
  erasures : List (ErasureRow Digest)
  tombstones : List (TombstoneRow Digest)
  deriving DecidableEq

inductive AccountCall where
  | ensureCustomer (email : Option Text)
  | create
  | get
  | resolveUsageCustomer
  | requestCustomerErasure (input : CustomerErasureInput)
  deriving DecidableEq

def AccountCall.subject (billingAccountId : AccountId) : AccountCall → AccountId
  | .requestCustomerErasure input => input.body.billingAccountId
  | _ => billingAccountId

inductive AccountAnswer where
  | customer (id : Nat)
  | billingAccountErased
  | billingAccountNotFound
  | receipt (erasureId : Nat) (duplicate : Bool)
  | idempotencyConflict
  | erasureRefused
  | uniqueViolation
  | erasureNotConfigured
  deriving DecidableEq

/-- How far a call's transaction is. What it has written is seen by others once it commits. -/
inductive CallStage where
  | begun
  | checked (seen : Nat)
  | conflicted
  | inserted
  | updated (customerId : Nat)
  | missing
  | unclaimed
  | seeking (customerId : Nat)
  | locked (customerId : Nat)
  | frozen (customerId : Nat)
  | answered (answer : AccountAnswer)
  | abandoned
  deriving DecidableEq

/-- A call about one billing account, in a transaction whose `now()` is the moment it began. -/
structure AccountSession where
  projectId : Nat
  billingAccountId : AccountId
  call : AccountCall
  startedAt : Int
  stage : CallStage
  deriving DecidableEq

/-- What a transaction makes others wait for: a row, an entry of the accounts' unique index, and the keys of a receipt and of its
tombstone. -/
inductive AccountLock (Digest : Type) where
  | row (customerId : Nat)
  | entry (projectId : Nat) (billingAccountId : AccountId)
  | request (projectId : Nat) (idempotencyKey : Text)
  | tombstone (projectId : Nat) (keyId : Text) (idDigest : Digest)
  deriving DecidableEq

abbrev ServedAccounts (Digest : Type) := Served (AccountStore Digest) AccountSession

def dayMillis : Int := 86400000

section Statements
variable {Digest : Type} [DecidableEq Digest] (configuration : ErasureConfiguration Digest)

def erasureDigests (projectId : Nat) (billingAccountId : AccountId) : List (Text × Digest) :=
  match configuration.keyring with
  | none => []
  | some keyring => (keyring.current :: keyring.previous.toList).map fun key =>
    (key.id, configuration.erasureDigest key projectId billingAccountId)

/-- Whether no live tombstone names an id. -/
def notErased (store : AccountStore Digest) (now : Int) (projectId : Nat) (billingAccountId : AccountId) : Bool :=
  !store.tombstones.any fun tombstone => tombstone.projectId == projectId && decide (now < tombstone.expiresAt) &&
    (erasureDigests configuration projectId billingAccountId).contains (tombstone.keyId, tombstone.idDigest)

namespace AccountStore
variable (store : AccountStore Digest)

def findAccount (projectId : Nat) (billingAccountId : AccountId) : Option CustomerRow :=
  store.customers.find? fun row => row.projectId == projectId && row.billingAccountId == billingAccountId

def findErasure (projectId : Nat) (idempotencyKey : Text) : Option (ErasureRow Digest) :=
  store.erasures.find? fun row => row.projectId == projectId && row.idempotencyKey == idempotencyKey

def insertCustomer (session : AccountSession) (email : Option Text) : AccountStore Digest :=
  { store with customers := store.customers ++ [⟨store.customers.length, session.projectId, session.billingAccountId, email, none,
    session.startedAt, session.startedAt⟩] }

def updateCustomer (customerId : Nat) (session : AccountSession) (email : Option Text) : AccountStore Digest :=
  let edit (row : CustomerRow) : CustomerRow := { row with email := email <|> row.email, updatedAt := session.startedAt }
  { store with customers := updateAt CustomerRow.id customerId edit store.customers }

def anonymized (erasureId : Nat) (now : Int) (row : CustomerRow) : CustomerRow :=
  { row with billingAccountId := .erased erasureId, email := none, erasedAt := some now, updatedAt := now }

def erasureTaken (customerId : Nat) (session : AccountSession) (input : CustomerErasureInput) (key : ErasureKey) : Bool :=
  (store.erasures.any fun row => row.projectId == session.projectId &&
    (row.customerId == customerId || row.idempotencyKey == input.idempotencyKey)) ||
  store.tombstones.any fun row => row.projectId == session.projectId && row.keyId == key.id &&
    row.idDigest == configuration.erasureDigest key session.projectId session.billingAccountId

/-- The commit of an erasure: the receipt, the tombstone, and the account's row as an anonymized stub. -/
def eraseCustomer (customerId : Nat) (session : AccountSession) (input : CustomerErasureInput) (key : ErasureKey) : AccountStore Digest :=
  let erasureId := store.erasures.length
  let expiresAt := session.startedAt + configuration.tombstoneDays * dayMillis
  { store with
    customers := updateAt CustomerRow.id customerId (anonymized erasureId session.startedAt) store.customers
    erasures := store.erasures ++ [{
      id := erasureId
      projectId := session.projectId
      customerId := customerId
      basis := input.body.basis
      reference := input.body.reference
      actor := input.actor
      idempotencyKey := input.idempotencyKey
      requestHash := some (configuration.erasureFingerprint key input.body)
      acknowledged := input.body.acknowledge
      subjectId := session.billingAccountId
      tombstoneExpiresAt := expiresAt
      requestedAt := session.startedAt }]
    tombstones := store.tombstones ++
      [⟨session.projectId, key.id, configuration.erasureDigest key session.projectId session.billingAccountId, erasureId, expiresAt⟩] }

end AccountStore

def AccountSession.receiptLocks (session : AccountSession) : List (AccountLock Digest) :=
  match session.call with
  | .requestCustomerErasure input => .request session.projectId input.idempotencyKey ::
      configuration.keyring.toList.map fun keyring => .tombstone session.projectId keyring.current.id
        (configuration.erasureDigest keyring.current session.projectId session.billingAccountId)
  | _ => []

def AccountSession.locks (session : AccountSession) : List (AccountLock Digest) :=
  match session.stage with
  | .inserted => [.entry session.projectId session.billingAccountId]
  | .updated customerId => [.row customerId, .entry session.projectId session.billingAccountId]
  | .locked customerId => [.row customerId]
  | .frozen customerId =>
    .row customerId :: .entry session.projectId session.billingAccountId :: session.receiptLocks configuration
  | _ => []

def AccountSession.wanted (store : AccountStore Digest) (session : AccountSession) : List (AccountLock Digest) :=
  match session.stage, session.call with
  | .checked _, .ensureCustomer _ =>
    ((store.findAccount session.projectId session.billingAccountId).toList.map fun row => .row row.id) ++
      [.entry session.projectId session.billingAccountId]
  | .checked _, .create => [.entry session.projectId session.billingAccountId]
  | .seeking customerId, _ => [.row customerId]
  | .locked _, _ => .entry session.projectId session.billingAccountId :: session.receiptLocks configuration
  | _, _ => []

/-- The next statement of a call. `admitted` is whether an erasure's preview shows no blocker and no unacknowledged loss. -/
def accountStatement (admitted : Bool) (store : AccountStore Digest) (session : AccountSession) : AccountStore Digest × CallStage :=
  match session.stage, session.call with
  | .begun, .ensureCustomer _ | .begun, .create =>
    (store, if notErased configuration store session.startedAt session.projectId session.billingAccountId
      then .checked store.erasures.length else .answered .billingAccountErased)
  | .checked _, .ensureCustomer _ =>
    match store.findAccount session.projectId session.billingAccountId with
    | some row => (store, .updated row.id)
    | none => (store, .inserted)
  | .checked _, .create =>
    match store.findAccount session.projectId session.billingAccountId with
    | some _ => (store, .conflicted)
    | none => (store, .inserted)
  | .inserted, .ensureCustomer email => (store.insertCustomer session email, .answered (.customer store.customers.length))
  | .inserted, .create => (store.insertCustomer session none, .answered (.customer store.customers.length))
  | .updated customerId, .ensureCustomer email => (store.updateCustomer customerId session email, .answered (.customer customerId))
  | .conflicted, .create | .begun, .get =>
    match store.findAccount session.projectId session.billingAccountId with
    | some row => (store, .answered (.customer row.id))
    | none => (store, .answered .billingAccountNotFound)
  | .begun, .resolveUsageCustomer =>
    match store.findAccount session.projectId session.billingAccountId with
    | some row => (store, .answered (.customer row.id))
    | none => (store, .missing)
  | .begun, .requestCustomerErasure input =>
    match configuration.keyring with
    | none => (store, .answered .erasureNotConfigured)
    | some keyring =>
      match store.findErasure session.projectId input.idempotencyKey with
      | none => (store, .unclaimed)
      | some replay =>
        (store, .answered (if replay.requestHash.all (· == configuration.erasureFingerprint keyring.current input.body)
          then .receipt replay.id true else .idempotencyConflict))
  | .unclaimed, .requestCustomerErasure _ =>
    match store.findAccount session.projectId session.billingAccountId with
    | some row => (store, .seeking row.id)
    | none => (store, .missing)
  | .seeking customerId, .requestCustomerErasure _ =>
    if store.customers.any fun row => row.id == customerId && row.projectId == session.projectId &&
        row.billingAccountId == session.billingAccountId
    then (store, .locked customerId) else (store, .missing)
  | .missing, _ =>
    (store, .answered (if notErased configuration store session.startedAt session.projectId session.billingAccountId
      then .billingAccountNotFound else .billingAccountErased))
  | .locked customerId, .requestCustomerErasure input =>
    match configuration.keyring with
    | none => (store, .answered .erasureNotConfigured)
    | some keyring =>
      if !admitted then (store, .answered .erasureRefused)
      else if store.erasureTaken configuration customerId session input keyring.current then (store, .answered .uniqueViolation)
      else (store, .frozen customerId)
  | .frozen customerId, .requestCustomerErasure input =>
    match configuration.keyring with
    | none => (store, .answered .erasureNotConfigured)
    | some keyring =>
      (store.eraseCustomer configuration customerId session input keyring.current, .answered (.receipt store.erasures.length false))
  | stage, _ => (store, stage)

inductive AccountStep where
  | wait (elapsed : Nat)
  | begin (projectId : Nat) (billingAccountId : AccountId) (call : AccountCall)
  | advance (index : Nat) (admitted : Bool)
  | crash (index : Nat)
  | sweep (erasureId : Nat)

def AccountStore.speakable (store : AccountStore Digest) : AccountId → Bool
  | .named _ => true
  | .erased erasureId => decide (erasureId < store.erasures.length)

/-- One step of any client, worker or the tombstones' sweep. A statement that waits for a lock has no effect yet. -/
def perform (served : ServedAccounts Digest) : AccountStep → ServedAccounts Digest
  | .wait elapsed => { served with store := { served.store with clock := served.store.clock + elapsed } }
  | .begin projectId billingAccountId call =>
    if served.store.speakable (call.subject billingAccountId) then
      { served with sessions := served.sessions ++ [⟨projectId, call.subject billingAccountId, call, served.store.clock, .begun⟩] }
    else served
  | .advance index admitted =>
    match served.sessions[index]? with
    | none => served
    | some session =>
      if freeFor (AccountSession.locks configuration) index (session.wanted configuration served.store) served.sessions then
        let next := accountStatement configuration admitted served.store session
        ⟨next.1, served.sessions.set index { session with stage := next.2 }⟩
      else served
  | .crash index =>
    match served.sessions[index]? with
    | none => served
    | some session =>
      match session.stage with
      | .answered _ => served
      | _ => { served with sessions := served.sessions.set index { session with stage := .abandoned } }
  | .sweep erasureId =>
    { served with store := { served.store with
      tombstones := served.store.tombstones.filter fun tombstone =>
        !(tombstone.erasureId == erasureId && decide (tombstone.expiresAt < served.store.clock - dayMillis)) } }

def runAccounts (served : ServedAccounts Digest) (steps : List AccountStep) : ServedAccounts Digest :=
  steps.foldl (perform configuration) served

end Statements

/-- A project server before any call. -/
def noAccounts {Digest : Type} (clock : Int) : ServedAccounts Digest := ⟨⟨clock, [], [], []⟩, []⟩

section Erased
variable {Digest : Type} [DecidableEq Digest]

def AccountSession.names (session : AccountSession) (erasure : ErasureRow Digest) : Prop :=
  session.projectId = erasure.projectId ∧ session.billingAccountId = erasure.subjectId

instance (session : AccountSession) (erasure : ErasureRow Digest) : Decidable (session.names erasure) :=
  inferInstanceAs (Decidable (_ ∧ _))

/-- The project and the account id an erasure is about. -/
def ErasureRow.subject (erasure : ErasureRow Digest) : Nat × AccountId := (erasure.projectId, erasure.subjectId)

def AccountStore.ErasedGone (store : AccountStore Digest) (subject : Nat × AccountId) : Prop :=
  ∀ erasure ∈ store.erasures, erasure.subject = subject → store.clock < erasure.tombstoneExpiresAt → ∀ customer ∈ store.customers,
    customer.projectId = erasure.projectId → customer.billingAccountId ≠ erasure.subjectId

def AccountStore.Replayed (store : AccountStore Digest) (session : AccountSession) (answer : AccountAnswer) : Prop :=
  ∃ input, session.call = .requestCustomerErasure input ∧ ∃ replay ∈ store.erasures, replay.projectId = session.projectId ∧
    replay.idempotencyKey = input.idempotencyKey ∧ (answer = .receipt replay.id true ∨ answer = .idempotencyConflict)

variable (configuration : ErasureConfiguration Digest) (subject : Nat × AccountId)

/-- Until an erasure's tombstone expires, no call that names the id is answered with an account. -/
def CallsRefused (served : ServedAccounts Digest) : Prop :=
  ∀ erasure ∈ served.store.erasures, erasure.subject = subject → served.store.clock < erasure.tombstoneExpiresAt →
    ∀ index session admitted, served.sessions[index]? = some session → session.names erasure →
      (∀ answer, session.stage ≠ .answered answer) → ∀ next answer,
        (perform configuration served (.advance index admitted)).sessions[index]? = some next → next.stage = .answered answer →
          answer = .billingAccountErased ∨ answer = .billingAccountNotFound ∨ served.store.Replayed session answer

def erasedAnswer (store : AccountStore Digest) (projectId : Nat) : AccountCall → AccountAnswer
  | .get => .billingAccountNotFound
  | .requestCustomerErasure input =>
    match store.findErasure projectId input.idempotencyKey, configuration.keyring with
    | some replay, some keyring =>
      if replay.requestHash.all (· == configuration.erasureFingerprint keyring.current input.body) then .receipt replay.id true
      else .idempotencyConflict
    | _, _ => .billingAccountErased
  | _ => .billingAccountErased

/-- A call begun about an erased id is answered so at once, and writes nothing. -/
def ErasedAnswered (served : ServedAccounts Digest) : Prop :=
  ∀ erasure ∈ served.store.erasures, erasure.subject = subject → served.store.clock < erasure.tombstoneExpiresAt → ∀ call admitted,
    (∀ input, call = .requestCustomerErasure input → input.body.billingAccountId = erasure.subjectId) →
      runAccounts configuration served (.begin erasure.projectId erasure.subjectId call ::
          List.replicate 3 (.advance served.sessions.length admitted)) =
        { served with sessions := served.sessions ++ [⟨erasure.projectId, erasure.subjectId, call, served.store.clock,
          .answered (erasedAnswer configuration served.store erasure.projectId call)⟩] }

/-- Whether an erasure of a creation's id was committed after the creation's tombstone check. -/
def AccountSession.overtaken (store : AccountStore Digest) (session : AccountSession) : Bool :=
  match session.stage with
  | .checked seen => (store.erasures.drop seen).any fun erasure =>
    decide (session.names erasure ∧ store.clock < erasure.tombstoneExpiresAt)
  | _ => false

def unraced (served : ServedAccounts Digest) : AccountStep → Bool
  | .advance index _ => !(served.sessions[index]?).any fun session =>
    (session.projectId, session.billingAccountId) == subject && session.overtaken served.store
  | _ => true

def unracedRun : ServedAccounts Digest → List AccountStep → Bool
  | _, [] => true
  | served, step :: steps => unraced subject served step && unracedRun (perform configuration served step) steps

end Erased

end Quotum.AccountErasures
