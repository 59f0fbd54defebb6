import Quotum.Team

/-! The billing changes that an agent proposes and a person approves. A request keeps what it read in memory between its transactions, so
each transaction, and each call of the billing port, is a step of its own. -/

namespace Quotum.McpChanges
open General Team

inductive ChangeStatus where
  | pending
  | applying
  | completed
  | rejected
  | cancelled
  | expired
  | stale
  | failed
  | needsReview
  deriving DecidableEq

/-- Where applying an action leaves its receipt: with the change itself, in the commercial action it executes, or nowhere. -/
inductive ActionKind where
  | administration
  | commercial
  | replay
  deriving DecidableEq

structure BillingChangeDescriptor where
  action : Text
  capability : MerchantCapability
  stepUpAction : StepUpAction
  alwaysSensitive : Bool
  kind : ActionKind
  deriving DecidableEq

structure BillingChangeInput where
  action : Text
  parameters : List Text
  body : Text
  requestKey : Text
  reason : Text
  replacesChangeId : Option Nat
  deriving DecidableEq

structure RequestHash where
  input : BillingChangeInput
  projectInstanceId : Nat
  deriving DecidableEq

structure Change where
  id : Nat
  authorizationId : Nat
  principalId : Nat
  projectInstanceId : Nat
  requestKey : Text
  requestHash : RequestHash
  kind : ActionKind
  capability : MerchantCapability
  stepUpAction : StepUpAction
  sensitive : Bool
  scope : MerchantScope
  status : ChangeStatus
  result : Option Nat
  expiresAt : Int
  deriving DecidableEq

structure MerchantSession where
  id : Nat
  revoked : Bool
  absoluteExpiresAt : Int
  lastSeenAt : Int
  deriving DecidableEq

structure McpAuthorization where
  id : Nat
  principalId : Nat
  write : Bool
  approved : Bool
  revoked : Bool
  expiresAt : Int
  deriving DecidableEq

structure Admission where
  id : Nat
  authorizationId : Nat
  requestKey : Text
  requestHash : RequestHash
  expiresAt : Int
  deriving DecidableEq

/-- A `prepare` in flight. -/
structure Preparation where
  id : Nat
  authorizationId : Nat
  principalId : Nat
  scope : MerchantScope
  projectInstanceId : Nat
  descriptor : BillingChangeDescriptor
  capability : MerchantCapability
  input : BillingChangeInput
  ticket : Option Nat
  deriving DecidableEq

def Preparation.requestHash (preparation : Preparation) : RequestHash := ⟨preparation.input, preparation.projectInstanceId⟩

/-- A `recover` in flight: the row it read and, once it asked, the receipt that the port found. -/
structure Recovery where
  id : Nat
  row : Change
  recovered : Option (Option Nat)
  deriving DecidableEq

/-- A `decide` in flight that has not claimed its change. -/
structure Decision where
  id : Nat
  session : Nat
  changeId : Nat
  approve : Bool
  stepUpToken : Option Nat
  deriving DecidableEq

inductive ApplyStage where
  | claimed
  | called
  | committed (response : Nat)
  | answered (response : Nat)
  | threw
  deriving DecidableEq

structure Execution where
  changeId : Nat
  stage : ApplyStage
  deriving DecidableEq

structure Receipt where
  operationKey : Nat
  response : Nat
  deriving DecidableEq

structure Platform where
  people : People
  writesEnabled : Bool
  actions : List BillingChangeDescriptor
  catalogPublish : Text
  approveTarget : Nat → RequestHash → Text
  proposalTtlMs : Nat

structure McpState where
  org : Organization
  sessions : List MerchantSession
  authorizations : List McpAuthorization
  changes : List Change
  admissions : List Admission
  preparations : List Preparation
  recoveries : List Recovery
  decisions : List Decision
  executions : List Execution
  receipts : List Receipt
  /-- The changes that `apply` was called for, in order. -/
  applied : List Nat
  nextId : Nat

inductive McpError where
  | team (error : TeamError)
  | authorizationRevoked
  | forbidden
  | writesDisabled
  | contextUnavailable
  | actionRejected
  | idempotencyConflict
  | operationInProgress
  | quotaExceeded
  | proposalTooLarge
  | notFound
  | unauthorized
  | stepUpRequired
  deriving DecidableEq

def idleMs : Int := 30 * 60000

def admissionMs : Int := 5 * 60000

def asTeam {α : Type} : Except TeamError α → Except McpError α
  | .ok value => .ok value
  | .error error => .error (.team error)

def administrationReceipt (operationKey : Nat) (receipts : List Receipt) : Option Nat :=
  (findAt Receipt.operationKey operationKey receipts).map Receipt.response

def withAdministrationReceipt (operationKey response : Nat) (receipts : List Receipt) : Except Nat (Nat × List Receipt) :=
  match administrationReceipt operationKey receipts with
  | some stored => .ok (stored, receipts)
  | none => if response ≥ 400 then .error response else .ok (response, receipts ++ [⟨operationKey, response⟩])

def commitApply (kind : ActionKind) (operationKey response : Nat) (receipts : List Receipt) : ApplyStage × List Receipt :=
  match kind with
  | .administration =>
    match withAdministrationReceipt operationKey response receipts with
    | .ok (stored, kept) => (.committed stored, kept)
    | .error rejected => (.answered rejected, receipts)
  -- A queued change answers 202, and its executed preview is read back as 200.
  | .commercial => if response < 400 then (.committed response, receipts ++ [⟨operationKey, 200⟩]) else (.answered response, receipts)
  | .replay => (.answered response, receipts)

/-- The status that the answer of `apply` gives. -/
def resultStatus (response : Nat) : ChangeStatus :=
  if response < 400 then .completed else if response = 409 then .stale else if response ≥ 500 then .needsReview else .failed

def setStatus (id : Nat) (from_ : ChangeStatus → Bool) (status : ChangeStatus) (changes : List Change) : List Change :=
  changes.map fun row => if row.id = id ∧ from_ row.status then { row with status := status } else row

namespace McpState

def access (platform : Platform) (authorization : Nat) (instance_ : Option Nat) (write : Bool) (s : McpState) :
    Except McpError (McpAuthorization × Membership × Nat) := do
  match findAt McpAuthorization.id authorization s.authorizations with
  | none => .error .authorizationRevoked
  | some grant =>
    if grant.revoked ∨ grant.expiresAt ≤ s.org.now ∨ !grant.approved then .error .authorizationRevoked
    else
      let member ← asTeam (s.org.membership grant.principalId)
      asTeam (requireCapability member.role .billingRead)
      match instance_ with
      | none => .error .contextUnavailable
      | some projectInstanceId =>
        if !grant.write then .error .forbidden
        else if write && !platform.writesEnabled then .error .writesDisabled
        else return (grant, member, projectInstanceId)

def rowAccess (platform : Platform) (row : Change) (instance_ : Option Nat) (write : Bool) (s : McpState) :
    Except McpError (McpAuthorization × Membership) := do
  let (grant, member, projectInstanceId) ← s.access platform row.authorizationId instance_ write
  if projectInstanceId ≠ row.projectInstanceId then .error .contextUnavailable else return (grant, member)

def keyed (authorization : Nat) (requestKey : Text) (s : McpState) : Option Change :=
  s.changes.find? fun row => decide (row.authorizationId = authorization ∧ row.requestKey = requestKey)

def prepare (platform : Platform) (authorization : Nat) (scope : MerchantScope) (instance_ : Option Nat) (input : BillingChangeInput)
    (s : McpState) : Except McpError (Option Nat × McpState) := do
  let (grant, member, projectInstanceId) ← s.access platform authorization instance_ true
  match findAt BillingChangeDescriptor.action input.action platform.actions with
  | none => .error .actionRejected
  | some descriptor =>
    let capability :=
      if descriptor.action = platform.catalogPublish ∧ scope.environment = .production then .catalogPublishProduction else descriptor.capability
    asTeam (requireCapability member.role capability)
    match s.keyed authorization input.requestKey with
    | some existing => if existing.requestHash ≠ ⟨input, projectInstanceId⟩ then .error .idempotencyConflict else return (some existing.id, s)
    | none =>
      let begun : Preparation := ⟨s.nextId, authorization, grant.principalId, scope, projectInstanceId, descriptor, capability, input, none⟩
      return (none, { s with preparations := s.preparations ++ [begun], nextId := s.nextId + 1 })

/-- The authorization, membership and capability that a preparation still needs, and the change that its key may have by now. -/
def proposing (preparation : Preparation) (s : McpState) : Except McpError (Option Nat) := do
  if !s.authorizations.any fun grant =>
      decide (grant.id = preparation.authorizationId ∧ !grant.revoked ∧ grant.expiresAt > s.org.now) then .error .authorizationRevoked
  else
    let member ← asTeam (s.org.membership preparation.principalId)
    asTeam (requireCapability member.role preparation.capability)
    match s.keyed preparation.authorizationId preparation.input.requestKey with
    | some replayed => if replayed.requestHash ≠ preparation.requestHash then .error .idempotencyConflict else return some replayed.id
    | none => return none

def reserveProposal (preparation : Preparation) (admitted : Bool) (s : McpState) : Except McpError (Nat × McpState) :=
  let standing := s.admissions.filter fun admission => decide (admission.expiresAt > s.org.now)
  match standing.find? fun admission =>
      decide (admission.authorizationId = preparation.authorizationId ∧ admission.requestKey = preparation.input.requestKey) with
  | some existing => .error (if existing.requestHash = preparation.requestHash then .operationInProgress else .idempotencyConflict)
  | none =>
    if !admitted then .error .quotaExceeded
    else
      let ticket : Admission :=
        ⟨s.nextId, preparation.authorizationId, preparation.input.requestKey, preparation.requestHash, s.org.now + admissionMs⟩
      .ok (ticket.id, { s with admissions := standing ++ [ticket], nextId := s.nextId + 1 })

def admitPreparation (preparation : Preparation) (admitted : Bool) (s : McpState) : Except McpError (Option Nat × McpState) := do
  match ← s.proposing preparation with
  | some replayed => return (some replayed, s)
  | none =>
    let (ticket, reserved) ← s.reserveProposal preparation admitted
    return (none, { reserved with
      preparations := updateAt Preparation.id preparation.id (fun row => { row with ticket := some ticket }) reserved.preparations })

def replaced (preparation : Preparation) (s : McpState) : Except McpError (List Change) :=
  match preparation.input.replacesChangeId with
  | none => .ok s.changes
  | some id =>
    let chosen (row : Change) : Bool := decide (row.id = id ∧ row.authorizationId = preparation.authorizationId ∧
      row.projectInstanceId = preparation.projectInstanceId ∧ row.status = .pending)
    if s.changes.any chosen then
      .ok (s.changes.map fun row => if chosen row then { row with status := .cancelled } else row)
    else .error .actionRejected

def proposal (platform : Platform) (preparation : Preparation) (previewExpiresAt : Option Int) (s : McpState) : Change :=
  let expiry := s.org.now + platform.proposalTtlMs
  { id := s.nextId
    authorizationId := preparation.authorizationId
    principalId := preparation.principalId
    projectInstanceId := preparation.projectInstanceId
    requestKey := preparation.input.requestKey
    requestHash := preparation.requestHash
    kind := preparation.descriptor.kind
    capability := preparation.capability
    stepUpAction := preparation.descriptor.stepUpAction
    sensitive := decide (preparation.scope.environment = .production) || preparation.descriptor.alwaysSensitive
    scope := preparation.scope
    status := .pending
    result := none
    expiresAt := min expiry (previewExpiresAt.getD expiry) }

def insertChange (platform : Platform) (preparation : Preparation) (previewExpiresAt : Option Int) (fits : Bool) (s : McpState) :
    Except McpError (Nat × McpState) := do
  match ← s.proposing preparation with
  | some replayed => return (replayed, s)
  | none =>
    if !s.admissions.any fun admission => decide (some admission.id = preparation.ticket ∧ admission.expiresAt > s.org.now) then
      .error .operationInProgress
    else
      let changes ← s.replaced preparation
      let row := s.proposal platform preparation previewExpiresAt
      if !fits then .error .proposalTooLarge
      else return (row.id, { s with
        changes := changes ++ [row]
        admissions := s.admissions.filter fun admission => decide (some admission.id ≠ preparation.ticket)
        nextId := s.nextId + 1 })

/-- The end of a `prepare`, with its memory. -/
def forget (preparation : Preparation) (s : McpState) : McpState :=
  { s with preparations := s.preparations.filter fun row => decide (row.id ≠ preparation.id) }

def release (preparation : Preparation) (s : McpState) : McpState :=
  { s with admissions := s.admissions.filter fun admission => decide (some admission.id ≠ preparation.ticket) }.forget preparation

def cancel (platform : Platform) (authorization id : Nat) (instance_ : Option Nat) (s : McpState) : Except McpError McpState := do
  match findAt Change.id id s.changes with
  | none => .error .notFound
  | some row =>
    if row.authorizationId ≠ authorization then .error .notFound
    else
      let _ ← s.rowAccess platform row instance_ false
      return { s with changes := setStatus id (fun status => decide (status = .pending)) .cancelled s.changes }

/-- A read of a change that is not settled begins to recover it. -/
def read (id : Nat) (s : McpState) : Except McpError McpState :=
  match findAt Change.id id s.changes with
  | none => .error .notFound
  | some row =>
    if row.status ≠ .applying ∧ row.status ≠ .needsReview then .ok s
    else .ok { s with recoveries := s.recoveries ++ [⟨s.nextId, row, none⟩], nextId := s.nextId + 1 }

def record (recovery : Recovery) (recovered : Option Nat) (s : McpState) : List Change :=
  match recovered with
  | some response =>
    let status : ChangeStatus := if response < 400 then .completed else .failed
    s.changes.map fun row =>
      if row.id = recovery.row.id ∧ (row.status = .applying ∨ row.status = .needsReview) then
        { row with status := status, result := some response }
      else row
  | none =>
    if recovery.row.status = .applying ∧ recovery.row.expiresAt ≤ s.org.now then
      setStatus recovery.row.id (fun status => decide (status = .applying)) .needsReview s.changes
    else s.changes

def decide (platform : Platform) (session id : Nat) (approve : Bool) (stepUpToken : Option Nat) (instance_ : Option Nat) (s : McpState) :
    Except McpError McpState := do
  match findAt Change.id id s.changes with
  | none => .error .notFound
  | some row =>
    if row.principalId ≠ platform.people.principalOf session then .error .notFound
    else
      let (_, member) ← s.rowAccess platform row instance_ approve
      asTeam (requireCapability member.role row.capability)
      return { s with decisions := s.decisions ++ [⟨s.nextId, session, id, approve, stepUpToken⟩], nextId := s.nextId + 1 }

def sessionLive (session : Nat) (s : McpState) : Bool :=
  s.sessions.any fun row => Decidable.decide (row.id = session ∧ !row.revoked ∧ row.absoluteExpiresAt > s.org.now ∧
    row.lastSeenAt > s.org.now - idleMs)

def confirm (platform : Platform) (decision : Decision) (row : Change) (s : McpState) : Except McpError Organization :=
  if decision.approve && row.sensitive then
    match decision.stepUpToken with
    | none => .error .stepUpRequired
    | some token => asTeam (s.org.consumeStepUpGrant platform.people decision.session token row.scope row.stepUpAction
        (platform.approveTarget row.id row.requestHash) row.capability)
  else .ok s.org

def claim (platform : Platform) (decision : Decision) (s : McpState) : Except McpError (Bool × McpState) := do
  match findAt Change.id decision.changeId s.changes with
  | none => .error .notFound
  | some row =>
    if row.principalId ≠ platform.people.principalOf decision.session then .error .notFound
    else if row.status ≠ .pending then return (false, s)
    else if row.expiresAt ≤ s.org.now then return (false, { s with changes := setStatus row.id (fun _ => true) .expired s.changes })
    else if !s.sessionLive decision.session then .error .unauthorized
    else
      let member ← asTeam (s.org.membership row.principalId)
      asTeam (requireCapability member.role row.capability)
      if !s.authorizations.any fun grant =>
          Decidable.decide (grant.id = row.authorizationId ∧ !grant.revoked ∧ grant.expiresAt > s.org.now) then .error .authorizationRevoked
      else
        let org ← s.confirm platform decision row
        return (decision.approve, { s with
          org := org
          changes := setStatus row.id (fun _ => true) (if decision.approve then .applying else .rejected) s.changes })

/-- Records what `apply` answered, whatever the row says by then. -/
def finish (id response : Nat) (s : McpState) : McpState :=
  { s with
    changes := updateAt Change.id id (fun row => { row with status := resultStatus response, result := some response }) s.changes
    executions := s.executions.filter fun execution => Decidable.decide (execution.changeId ≠ id) }

/-- What is left of a request whose `apply` or whose last transaction failed. -/
def giveUp (id : Nat) (s : McpState) : McpState :=
  { s with
    changes := setStatus id (fun status => Decidable.decide (status = .applying)) .needsReview s.changes
    executions := s.executions.filter fun execution => Decidable.decide (execution.changeId ≠ id) }

/-- A membership that is no longer active takes its authorizations with it. -/
def revokeMcpAuthorizations (before after : List Membership) (authorizations : List McpAuthorization) : List McpAuthorization :=
  authorizations.map fun grant =>
    if after.any fun member => Decidable.decide (member.principalId = grant.principalId ∧ member.status ≠ .active ∧
        (findAt Membership.id member.id before).any fun old => Decidable.decide (old.status ≠ member.status)) then
      { grant with revoked := true }
    else grant

end McpState

inductive McpStep where
  | team (action : TeamAction)
  | openSession (absoluteExpiresAt : Int)
  | touchSession (session : Nat)
  | revokeSession (session : Nat)
  | authorize (principal : Nat) (write : Bool) (expiresAt : Int)
  | approveAuthorization (authorization : Nat)
  | revokeAuthorization (authorization : Nat)
  | prepare (authorization : Nat) (scope : MerchantScope) (instance_ : Option Nat) (input : BillingChangeInput)
  | admitPreparation (preparation : Nat) (admitted : Bool)
  | insertChange (preparation : Nat) (previewExpiresAt : Option Int) (fits : Bool)
  | release (preparation : Nat)
  | abandon (preparation : Nat)
  | cancel (authorization id : Nat) (instance_ : Option Nat)
  | read (id : Nat)
  | lookUp (recovery : Nat)
  | record (recovery : Nat)
  | decide (session id : Nat) (approve : Bool) (stepUpToken : Option Nat) (instance_ : Option Nat)
  | claim (decision : Nat)
  | callApply (id : Nat)
  | commitApply (id response : Nat)
  | answer (id : Nat)
  | throw (id : Nat)
  | finish (id : Nat)
  | giveUp (id : Nat)
  | crash (id : Nat)

namespace McpState

def setStage (id : Nat) (stage : ApplyStage) (s : McpState) : McpState :=
  { s with executions := updateAt Execution.changeId id (fun execution => { execution with stage := stage }) s.executions }

/-- The claim that a decision in flight makes. A refused one leaves nothing; an approved change is applied by this request alone. -/
def claiming (platform : Platform) (decision : Decision) (s : McpState) : McpState :=
  let rest := s.decisions.filter fun other => Decidable.decide (other.id ≠ decision.id)
  match s.claim platform decision with
  | .error _ => { s with decisions := rest }
  | .ok (claimed, next) =>
    { next with
      decisions := rest
      executions := if claimed then next.executions ++ [⟨decision.changeId, .claimed⟩] else next.executions }

/-- One step of the port for an approved change: `apply` is called, it commits what it does, and it answers or throws. -/
def applying (id : Nat) (s : McpState) (next : ApplyStage → Option (ApplyStage × McpState)) : McpState :=
  match (findAt Execution.changeId id s.executions).bind fun execution => next execution.stage with
  | none => s
  | some (stage, after) => after.setStage id stage

end McpState

open McpState in
def McpStep.perform (platform : Platform) (s : McpState) : McpStep → McpState
  | .team action =>
    let org := action.perform platform.people s.org
    { s with org := org, authorizations := revokeMcpAuthorizations s.org.memberships org.memberships s.authorizations }
  | .openSession absoluteExpiresAt =>
    { s with sessions := s.sessions ++ [⟨s.nextId, false, absoluteExpiresAt, s.org.now⟩], nextId := s.nextId + 1 }
  | .touchSession session => { s with sessions := updateAt MerchantSession.id session (fun row => { row with lastSeenAt := s.org.now }) s.sessions }
  | .revokeSession session => { s with sessions := updateAt MerchantSession.id session (fun row => { row with revoked := true }) s.sessions }
  | .authorize principal write expiresAt =>
    { s with authorizations := s.authorizations ++ [⟨s.nextId, principal, write, false, false, expiresAt⟩], nextId := s.nextId + 1 }
  | .approveAuthorization authorization =>
    { s with authorizations := updateAt McpAuthorization.id authorization (fun row => { row with approved := true }) s.authorizations }
  | .revokeAuthorization authorization =>
    { s with authorizations := updateAt McpAuthorization.id authorization (fun row => { row with revoked := true }) s.authorizations }
  | .prepare authorization scope instance_ input =>
    match s.prepare platform authorization scope instance_ input with
    | .ok (_, next) => next
    | .error _ => s
  | .admitPreparation preparation admitted =>
    match findAt Preparation.id preparation s.preparations with
    | none => s
    | some begun =>
      match s.admitPreparation begun admitted with
      | .ok (some _, _) | .error _ => s.forget begun
      | .ok (none, next) => next
  | .insertChange preparation previewExpiresAt fits =>
    match findAt Preparation.id preparation s.preparations with
    | none => s
    | some begun =>
      match s.insertChange platform begun previewExpiresAt fits with
      | .ok (_, next) => next
      | .error _ => s
  | .release preparation =>
    match findAt Preparation.id preparation s.preparations with
    | none => s
    | some begun => s.release begun
  | .abandon preparation =>
    match findAt Preparation.id preparation s.preparations with
    | none => s
    | some begun => s.forget begun
  | .cancel authorization id instance_ =>
    match s.cancel platform authorization id instance_ with
    | .ok next => next
    | .error _ => s
  | .read id =>
    match s.read id with
    | .ok next => next
    | .error _ => s
  | .lookUp recovery =>
    { s with
      recoveries := updateAt Recovery.id recovery
        (fun begun => { begun with recovered := some (administrationReceipt begun.row.id s.receipts) }) s.recoveries }
  | .record recovery =>
    match findAt Recovery.id recovery s.recoveries with
    | none => s
    | some begun =>
      match begun.recovered with
      | none => s
      | some recovered =>
        { s with
          changes := s.record begun recovered
          recoveries := s.recoveries.filter fun other => Decidable.decide (other.id ≠ recovery) }
  | .decide session id approve stepUpToken instance_ =>
    match s.decide platform session id approve stepUpToken instance_ with
    | .ok next => next
    | .error _ => s
  | .claim decision =>
    match findAt Decision.id decision s.decisions with
    | none => s
    | some begun => s.claiming platform begun
  | .callApply id =>
    s.applying id fun
      | .claimed => some (.called, { s with applied := s.applied ++ [id] })
      | _ => none
  | .commitApply id response =>
    s.applying id fun
      | .called =>
        (findAt Change.id id s.changes).map fun row =>
          let (stage, receipts) := McpChanges.commitApply row.kind id response s.receipts
          (stage, { s with receipts := receipts })
      | _ => none
  | .answer id =>
    s.applying id fun
      | .committed response => some (.answered response, s)
      | _ => none
  | .throw id =>
    s.applying id fun
      | .called | .committed _ => some (.threw, s)
      | _ => none
  | .finish id =>
    match (findAt Execution.changeId id s.executions).map Execution.stage with
    | some (.answered response) => s.finish id response
    | _ => s
  | .giveUp id =>
    match (findAt Execution.changeId id s.executions).map Execution.stage with
    | some (.answered _) | some .threw => s.giveUp id
    | _ => s
  | .crash id => { s with executions := s.executions.filter fun execution => Decidable.decide (execution.changeId ≠ id) }

def runMcp (platform : Platform) (s : McpState) (steps : List McpStep) : McpState :=
  steps.foldl (McpStep.perform platform) s

/-- An organization before its first change. -/
def opened (org : Organization) : McpState where
  org := org
  sessions := []
  authorizations := []
  changes := []
  admissions := []
  preparations := []
  recoveries := []
  decisions := []
  executions := []
  receipts := []
  applied := []
  nextId := 0

end Quotum.McpChanges
