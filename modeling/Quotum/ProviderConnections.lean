import Quotum.General.Locks
import Quotum.General.Lookup
import Quotum.Decimal

/-! The provider connections of the project instances: versions that are drafted at a revision, validated with the provider, and committed
under the organization's lock. A commit reads the version, binds the account, and writes everything else at its end; the statements of
other requests and of provider events come in between. -/

namespace Quotum.ProviderConnections
open General

inductive ConnectionKind where
  | stripe
  | apple
  | google
  | paddle
  | projection
  deriving DecidableEq

inductive Environment where
  | sandbox
  | production
  deriving DecidableEq

structure ProjectInstance where
  organizationId : Nat
  environment : Environment
  deriving DecidableEq

structure ProviderAccount where
  id : Text
  livemode : Bool
  deriving DecidableEq

/-- A connection's row. The account and the mode are both null or neither. -/
structure Connection where
  id : Nat
  instanceId : Nat
  kind : ConnectionKind
  revision : Nat
  enabled : Bool
  activeVersionId : Option Nat
  stripeAccount : Option ProviderAccount
  deriving DecidableEq

inductive VersionStatus where
  | draft
  | validated
  | active
  | retired
  | expired
  deriving DecidableEq

structure ConnectionValidation where
  identity : Text
  eventVerified : Bool
  checks : List (Text × Bool)
  deriving DecidableEq

def ConnectionValidation.passed (validation : ConnectionValidation) : Bool :=
  validation.checks.all Prod.snd

/-- A version's row. Whose event was verified is recorded beside it; the table does not keep that. -/
structure ConnectionVersion where
  id : Nat
  connectionId : Nat
  instanceId : Nat
  expectedRevision : Nat
  status : VersionStatus
  validation : Option ConnectionValidation
  validatedAt : Option Int
  eventVerifiedAt : Option Int
  externalIdentity : Option Text
  requestKey : Text
  requestFingerprint : Text
  createdAt : Int
  expiresAt : Int
  eventIdentity : Option Text
  deriving DecidableEq

inductive ReceiptAction where
  | commit (versionId : Nat)
  | disable (kind : ConnectionKind) (revision : Nat)
  deriving DecidableEq

structure OperationReceipt where
  instanceId : Nat
  requestKey : Text
  action : ReceiptAction
  revision : Nat
  deriving DecidableEq

inductive ConnectionError where
  | idempotencyConflict
  | connectionNotFound
  | connectionDraftExpired
  | connectionValidationRequired
  | providerEventRequired
  | stripeAccountConflict
  | connectionChanged
  deriving DecidableEq

/-- What is recorded of a connection, newest first: its drafts, its commits with the version as it became active and when it was checked,
its disables, and the accounts bound to it. -/
inductive ConnectionEntry where
  | drafted (connectionId versionId : Nat)
  | committed (connectionId : Nat) (kind : ConnectionKind) (version : ConnectionVersion) (checkedAt : Int)
  | disabled (connectionId : Nat)
  | bound (connectionId : Nat) (account : ProviderAccount)
  deriving DecidableEq

structure ConnectionStore where
  now : Int
  connections : List Connection
  versions : List ConnectionVersion
  receipts : List OperationReceipt
  log : List ConnectionEntry
  deriving DecidableEq

def validationWindowMs : Int := 900000

def draftLifetimeMs : Int := 86400000

inductive ConnectionLock where
  | organization (id : Nat)
  | account (account : ProviderAccount)
  | connection (id : Nat)
  deriving DecidableEq

inductive CommitStage where
  | begun
  | locked
  | verified (read : ConnectionVersion) (checkedAt : Int)
  | bound (read : ConnectionVersion) (account : ProviderAccount) (checkedAt : Int)
  | answered (result : Except ConnectionError Nat)
  | crashed

structure CommitRequest where
  instanceId : Nat
  kind : ConnectionKind
  versionId : Nat
  key : Text
  stage : CommitStage

abbrev ServedConnections := Served ConnectionStore CommitRequest

section Lifecycle
variable (instances : Nat → ProjectInstance)

def livemode (instanceId : Nat) : Bool :=
  decide ((instances instanceId).environment = .production)

namespace CommitRequest

def locks (request : CommitRequest) : List ConnectionLock :=
  match request.stage with
  | .locked | .verified _ _ => [.organization (instances request.instanceId).organizationId]
  | .bound read account _ => [.organization (instances request.instanceId).organizationId, .account account, .connection read.connectionId]
  | .begun | .answered _ | .crashed => []

def wanted (request : CommitRequest) : List ConnectionLock :=
  match request.stage with
  | .begun => [.organization (instances request.instanceId).organizationId]
  | .verified read _ =>
    match request.kind, read.externalIdentity with
    | .stripe, some identity => [.account ⟨identity, livemode instances request.instanceId⟩, .connection read.connectionId]
    | _, _ => [.connection read.connectionId]
  | _ => []

end CommitRequest

namespace ConnectionStore

def findConnection (instanceId : Nat) (kind : ConnectionKind) (store : ConnectionStore) : Option Connection :=
  store.connections.find? fun connection => connection.instanceId == instanceId && connection.kind == kind

def version (instanceId id : Nat) (store : ConnectionStore) : Option ConnectionVersion :=
  store.versions.find? fun version => version.id == id && version.instanceId == instanceId

def matchesKind (connectionId : Nat) (kind : ConnectionKind) (store : ConnectionStore) : Bool :=
  store.connections.any fun connection => connection.id == connectionId && connection.kind == kind

def receipt (instanceId : Nat) (key : Text) (store : ConnectionStore) : Option OperationReceipt :=
  store.receipts.find? fun receipt => receipt.instanceId == instanceId && receipt.requestKey == key

def isDraft (version : ConnectionVersion) (now : Int) : Bool :=
  (version.status == .draft || version.status == .validated) && decide (now < version.expiresAt)

def newVersion (id connectionId instanceId expectedRevision : Nat) (key fingerprint : Text) (now : Int) : ConnectionVersion where
  id := id
  connectionId := connectionId
  instanceId := instanceId
  expectedRevision := expectedRevision
  status := .draft
  validation := none
  validatedAt := none
  eventVerifiedAt := none
  externalIdentity := none
  requestKey := key
  requestFingerprint := fingerprint
  createdAt := now
  expiresAt := now + draftLifetimeMs
  eventIdentity := none

def addVersion (connection : Connection) (key fingerprint : Text) (store : ConnectionStore) : ConnectionStore :=
  { store with
    versions := store.versions ++
      [newVersion store.versions.length connection.id connection.instanceId connection.revision key fingerprint store.now]
    log := .drafted connection.id store.versions.length :: store.log }

/-- Stores a new version, and its connection where there is none. A repeated key and a changed revision store nothing. -/
def draft (instanceId : Nat) (kind : ConnectionKind) (key fingerprint : Text) (expectedRevision : Nat) (store : ConnectionStore) :
    ConnectionStore :=
  match store.findConnection instanceId kind with
  | none =>
    let connection : Connection := ⟨store.connections.length, instanceId, kind, 0, false, none, none⟩
    if expectedRevision ≠ 0 then store
    else { store with connections := store.connections ++ [connection] }.addVersion connection key fingerprint
  | some connection =>
    if store.versions.any fun version => version.connectionId == connection.id && version.requestKey == key then store
    else if connection.revision ≠ expectedRevision then store
    else store.addVersion connection key fingerprint

def draftLock (instanceId : Nat) (kind : ConnectionKind) (store : ConnectionStore) : ConnectionLock :=
  .connection (((store.findConnection instanceId kind).map Connection.id).getD store.connections.length)

def validated (result : ConnectionValidation) (now : Int) (version : ConnectionVersion) : ConnectionVersion :=
  let stored := { version with
    status := if version.status = .active then .active else .validated
    validation := some result
    validatedAt := some now
    externalIdentity := some result.identity }
  if result.eventVerified then { stored with eventVerifiedAt := some now, eventIdentity := some result.identity }
  else if version.externalIdentity.any fun identity => identity != result.identity then
    { stored with eventVerifiedAt := none, eventIdentity := none }
  else stored

def accepts (result : ConnectionValidation) (now : Int) (version : ConnectionVersion) : Bool :=
  result.passed && (version.status == .active || isDraft version now)

def validate (instanceId : Nat) (kind : ConnectionKind) (id : Nat) (result : ConnectionValidation) (store : ConnectionStore) :
    ConnectionStore :=
  { store with versions := store.versions.map fun version =>
      if version.id = id ∧ version.instanceId = instanceId ∧ store.matchesKind version.connectionId kind = true ∧
        accepts result store.now version = true
      then validated result store.now version else version }

def recordEvent (id : Nat) (identity : Text) (occurred : Int) (store : ConnectionStore) : ConnectionStore :=
  { store with versions := store.versions.map fun version =>
      if version.id = id ∧ (version.externalIdentity = none ∨ version.externalIdentity = some identity) ∧ version.createdAt ≤ occurred ∧
        (version.status = .active ∨ isDraft version store.now = true)
      then { version with eventVerifiedAt := some store.now, eventIdentity := some identity } else version }

def verified (connectionId versionId : Nat) (account : ProviderAccount) (occurred : Int) (store : ConnectionStore) : ConnectionStore :=
  if store.connections.any fun connection =>
      connection.id == connectionId && connection.activeVersionId == some versionId && connection.stripeAccount == some account then
    { store with versions := store.versions.map fun version =>
        if version.connectionId = connectionId ∧ version.id = versionId ∧ version.status = .active ∧ version.createdAt ≤ occurred
        then { version with eventVerifiedAt := some store.now, eventIdentity := some account.id } else version }
  else store

def editConnection (id : Nat) (edit : Connection → Connection) (store : ConnectionStore) : ConnectionStore :=
  { store with connections := store.connections.map fun connection => if connection.id = id then edit connection else connection }

/-- Disables a connection that is at the revision given, once a key. -/
def disable (instanceId : Nat) (kind : ConnectionKind) (key : Text) (revision : Nat) (store : ConnectionStore) : ConnectionStore :=
  match store.receipt instanceId key, store.findConnection instanceId kind with
  | none, some connection =>
    if connection.revision ≠ revision then store
    else
      let disabled := store.editConnection connection.id fun row => { row with enabled := false, revision := row.revision + 1 }
      { disabled with
        receipts := store.receipts ++ [⟨instanceId, key, .disable kind revision, revision + 1⟩]
        log := .disabled connection.id :: store.log }
  | _, _ => store

def completeDeauthorization (connectionId : Nat) (store : ConnectionStore) : ConnectionStore :=
  match store.connections.find? fun connection => connection.id == connectionId with
  | none => store
  | some connection =>
    if connection.enabled then
      { store.editConnection connectionId fun row => { row with enabled := false, revision := row.revision + 1 } with
        log := .disabled connectionId :: store.log }
    else store

/-- The rows of a connection's versions once one of them is active. -/
def activated (connectionId versionId : Nat) (versions : List ConnectionVersion) : List ConnectionVersion :=
  versions.map fun version =>
    if version.id = versionId then { version with status := .active }
    else if version.connectionId = connectionId ∧ version.status = .active then { version with status := .retired }
    else version

/-- The connection that a commit's last update finds: at the revision that the version was drafted at. -/
def committable (request : CommitRequest) (read : ConnectionVersion) (store : ConnectionStore) : Option Connection :=
  store.connections.find? fun connection =>
    connection.id == read.connectionId && connection.instanceId == request.instanceId && connection.revision == read.expectedRevision

def finish (request : CommitRequest) (read : ConnectionVersion) (account : Option ProviderAccount) (checkedAt : Int) (store : ConnectionStore) :
    ConnectionStore × CommitStage :=
  match store.committable request read with
  | none => (store, .answered (.error .connectionChanged))
  | some connection =>
    let committed := store.editConnection connection.id fun row => { row with
      activeVersionId := some request.versionId
      enabled := true
      revision := row.revision + 1
      stripeAccount := account.or row.stripeAccount }
    let versions := activated connection.id request.versionId store.versions
    ({ committed with
      versions := versions
      receipts := store.receipts ++ [⟨request.instanceId, request.key, .commit request.versionId, connection.revision + 1⟩]
      log := (account.map fun account => ConnectionEntry.bound connection.id account).toList ++
        ((versions.find? fun version => version.id == request.versionId).map fun version =>
          ConnectionEntry.committed connection.id request.kind version checkedAt).toList ++ store.log }, .answered (.ok (connection.revision + 1)))

def conflicts (read : ConnectionVersion) (account : ProviderAccount) (store : ConnectionStore) : Bool :=
  store.connections.any fun connection =>
    (connection.stripeAccount == some account && connection.id != read.connectionId) ||
      connection.id == read.connectionId && connection.stripeAccount.any fun bound => bound.id != account.id

def commitStatement (store : ConnectionStore) (request : CommitRequest) : ConnectionStore × CommitStage :=
  match request.stage with
  | .begun => (store, .locked)
  | .locked =>
    match store.receipt request.instanceId request.key with
    | some receipt =>
      (store, .answered (if receipt.action = .commit request.versionId then .ok receipt.revision else .error .idempotencyConflict))
    | none =>
      match store.version request.instanceId request.versionId with
      | none => (store, .answered (.error .connectionNotFound))
      | some read =>
        if !store.matchesKind read.connectionId request.kind then (store, .answered (.error .connectionNotFound))
        else if !isDraft read store.now then (store, .answered (.error .connectionDraftExpired))
        else if !read.validatedAt.any fun at_ => decide (store.now - validationWindowMs ≤ at_) then
          (store, .answered (.error .connectionValidationRequired))
        else if livemode instances request.instanceId && request.kind != .projection && read.eventVerifiedAt.isNone then
          (store, .answered (.error .providerEventRequired))
        else (store, .verified read store.now)
  | .verified read checkedAt =>
    match request.kind, read.externalIdentity with
    | .stripe, none => (store, .answered (.error .connectionValidationRequired))
    | .stripe, some identity =>
      let account : ProviderAccount := ⟨identity, livemode instances request.instanceId⟩
      if store.conflicts read account then (store, .answered (.error .stripeAccountConflict)) else (store, .bound read account checkedAt)
    | _, _ => store.finish request read none checkedAt
  | .bound read account checkedAt => store.finish request read (some account) checkedAt
  | .answered result => (store, .answered result)
  | .crashed => (store, .crashed)

end ConnectionStore

inductive ConnectionStep where
  | wait (elapsed : Nat)
  | draft (instanceId : Nat) (kind : ConnectionKind) (key fingerprint : Text) (expectedRevision : Nat)
  | validate (instanceId : Nat) (kind : ConnectionKind) (id : Nat) (result : ConnectionValidation)
  | recordEvent (id : Nat) (identity : Text) (occurred : Int)
  | verified (connectionId versionId : Nat) (account : ProviderAccount) (occurred : Int)
  | completeDeauthorization (connectionId : Nat)
  | disable (instanceId : Nat) (kind : ConnectionKind) (key : Text) (revision : Nat)
  | commit (instanceId : Nat) (kind : ConnectionKind) (versionId : Nat) (key : Text)
  | advance (index : Nat)
  | crash (index : Nat)

/-- The locks that a step of no commit holds while it runs. -/
def stepLocks (store : ConnectionStore) : ConnectionStep → List ConnectionLock
  | .draft instanceId kind _ _ _ => [store.draftLock instanceId kind]
  | .disable instanceId kind _ _ => [.organization (instances instanceId).organizationId, store.draftLock instanceId kind]
  | .completeDeauthorization connectionId => [.connection connectionId]
  | _ => []

/-- What a step of no commit leaves. -/
def stepStore (store : ConnectionStore) : ConnectionStep → ConnectionStore
  | .wait elapsed => { store with now := store.now + elapsed }
  | .draft instanceId kind key fingerprint expectedRevision => store.draft instanceId kind key fingerprint expectedRevision
  | .validate instanceId kind id result => store.validate instanceId kind id result
  | .recordEvent id identity occurred => store.recordEvent id identity occurred
  | .verified connectionId versionId account occurred => store.verified connectionId versionId account occurred
  | .completeDeauthorization connectionId => store.completeDeauthorization connectionId
  | .disable instanceId kind key revision => store.disable instanceId kind key revision
  | .commit _ _ _ _ | .advance _ | .crash _ => store

/-- One step of any request. A statement that waits for a lock has no effect yet. -/
def perform (served : ServedConnections) (step : ConnectionStep) : ServedConnections :=
  match step with
  | .commit instanceId kind versionId key => { served with sessions := served.sessions ++ [⟨instanceId, kind, versionId, key, .begun⟩] }
  | .advance index =>
    match served.sessions[index]? with
    | none => served
    | some request =>
      if freeFor (CommitRequest.locks instances) index (request.wanted instances) served.sessions then
        let next := served.store.commitStatement instances request
        ⟨next.1, served.sessions.set index { request with stage := next.2 }⟩
      else served
  | .crash index =>
    match served.sessions[index]? with
    | none => served
    | some request => { served with sessions := served.sessions.set index { request with stage := .crashed } }
  | step =>
    if freeFor (CommitRequest.locks instances) served.sessions.length (stepLocks instances served.store step) served.sessions then
      { served with store := stepStore served.store step }
    else served

def run (served : ServedConnections) (steps : List ConnectionStep) : ServedConnections :=
  steps.foldl (perform instances) served

end Lifecycle

/-- Before any connection. -/
def noConnections (now : Int) : ServedConnections := ⟨⟨now, [], [], [], []⟩, []⟩

end Quotum.ProviderConnections
