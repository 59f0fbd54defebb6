import Quotum.Decimal
import Quotum.General.Table

/-! The team of one organization: its members, the invitations they issue, and the confirmations that their sessions open. Each
operation is a transaction that holds the organization's row lock. -/

namespace Quotum.Team
open General

inductive MerchantRole where
  | owner
  | admin
  | developer
  | operator
  | viewer
  deriving DecidableEq

inductive InvitedRole where
  | admin
  | developer
  | operator
  | viewer
  deriving DecidableEq

def InvitedRole.toRole : InvitedRole → MerchantRole
  | .admin => .admin
  | .developer => .developer
  | .operator => .operator
  | .viewer => .viewer

inductive MemberStatus where
  | active
  | suspended
  | removed
  deriving DecidableEq

inductive MerchantCapability where
  | billingRead
  | teamManage
  | projectCreate
  | sandboxConfigure
  | sandboxCredentialsRotate
  | catalogAuthor
  | catalogPublishSandbox
  | catalogPublishProduction
  | operationsRecover
  | operationsWrite
  | productionManage
  | productionConnectionsManage
  | productionCredentialsRotate
  deriving DecidableEq

def allCapabilities : List MerchantCapability :=
  [.billingRead, .teamManage, .projectCreate, .sandboxConfigure, .sandboxCredentialsRotate, .catalogAuthor, .catalogPublishSandbox,
    .catalogPublishProduction, .operationsRecover, .operationsWrite, .productionManage, .productionConnectionsManage,
    .productionCredentialsRotate]

def capabilitiesFor : MerchantRole → List MerchantCapability
  | .owner | .admin => allCapabilities
  | .developer => [.billingRead, .projectCreate, .sandboxConfigure, .sandboxCredentialsRotate, .catalogAuthor, .catalogPublishSandbox]
  | .operator => [.billingRead, .operationsRecover]
  | .viewer => [.billingRead]

inductive Environment where
  | sandbox
  | production
  deriving DecidableEq

structure MerchantScope where
  projectKey : Text
  environment : Environment
  deriving DecidableEq

inductive StepUpAction where
  | connectionsManage
  | webhooksManage
  | credentialsRotate
  | credentialsRotateReadOnly
  | credentialsRevokeReadOnly
  | catalogPublish
  | operationsRecover
  | operationsWrite
  deriving DecidableEq

def actionCapability (action : StepUpAction) (environment : Environment) : MerchantCapability :=
  match action, environment with
  | .connectionsManage, .production | .webhooksManage, .production => .productionConnectionsManage
  | .connectionsManage, .sandbox | .webhooksManage, .sandbox => .sandboxConfigure
  | .credentialsRotate, .production | .credentialsRotateReadOnly, .production | .credentialsRevokeReadOnly, .production =>
    .productionCredentialsRotate
  | .credentialsRotate, .sandbox | .credentialsRotateReadOnly, .sandbox | .credentialsRevokeReadOnly, .sandbox => .sandboxCredentialsRotate
  | .catalogPublish, .production => .catalogPublishProduction
  | .catalogPublish, .sandbox => .catalogPublishSandbox
  | .operationsRecover, _ => .operationsRecover
  | .operationsWrite, _ => .operationsWrite

structure Membership where
  id : Nat
  principalId : Nat
  role : MerchantRole
  status : MemberStatus
  revision : Nat
  deriving DecidableEq

/-- Whether a member loses any capability: a demotion, suspension or removal. -/
def reducesAccess (before after : MerchantRole × MemberStatus) : Bool :=
  let held (access : MerchantRole × MemberStatus) := if access.2 = .active then capabilitiesFor access.1 else []
  (held before).any fun capability => !(held after).contains capability

inductive StoredStatus where
  | valid
  | used
  | revoked
  | replaced
  | declined
  deriving DecidableEq

structure Invitation where
  id : Nat
  inviterMembershipId : Nat
  inviterRevision : Nat
  email : Text
  role : InvitedRole
  status : StoredStatus
  expiresAt : Int
  acceptedBy : Option Nat
  deriving DecidableEq

/-- A challenge that a session opened, and the grant that it becomes once it is verified. -/
structure StepUpGrant where
  id : Nat
  sessionId : Nat
  scope : MerchantScope
  action : StepUpAction
  target : Text
  expiresAt : Int
  verifiedAt : Option Int
  consumedAt : Option Int
  failedAttempts : Nat
  deriving DecidableEq

inductive AuditAction where
  | invitationAccepted
  | invitationDeclined
  | invitationCreated
  | invitationReplaced
  | invitationRevoked
  | membershipUpdated
  | operatorOwnerAdded
  | stepUpCompleted
  deriving DecidableEq

structure AuditEvent where
  principalId : Option Nat
  action : AuditAction
  target : Nat
  deriving DecidableEq

structure MemberLimit where
  seats : Nat
  positive : 0 < seats

structure Organization where
  now : Int
  active : Bool
  memberLimit : MemberLimit
  memberships : List Membership
  invitations : List Invitation
  grants : List StepUpGrant
  audits : List AuditEvent
  nextId : Nat

structure People where
  email : Nat → Text
  normalizeEmail : Text → Text
  principalOf : Nat → Nat

inductive InvitationStatus where
  | stored (status : StoredStatus)
  | expired
  | inviterAuthorityLost
  | wrongEmail
  | alreadyMember
  | seatLimit
  deriving DecidableEq

inductive TeamError where
  | forbidden
  | notFound
  | invitationNotFound
  | invitation (status : InvitationStatus)
  | alreadyMember
  | memberSuspended
  | invitationExists
  | memberRemoved
  | ownerProtected
  | seatLimit
  | rateLimited
  | contextUnavailable
  | sessionExpired
  | stepUpExpired
  | stepUpUsed
  | operatorRefused
  deriving DecidableEq

def requireCapability (role : MerchantRole) (capability : MerchantCapability) : Except TeamError Unit :=
  if capability ∈ capabilitiesFor role then .ok () else .error .forbidden

def invitationMs : Int := 7 * 24 * 60 * 60000

def stepUpMs : Int := 10 * 60000

/-- Wrong codes that one challenge takes before it is closed. -/
def maxChallengeAttempts : Nat := 5

namespace Organization

def activeMembers (org : Organization) : Nat := org.memberships.countP fun member => decide (member.status = .active)

def membership (principal : Nat) (org : Organization) : Except TeamError Membership :=
  match org.memberships.find? fun member => decide (member.principalId = principal ∧ member.status = .active) with
  | some member => if org.active then .ok member else .error .forbidden
  | none => .error .forbidden

def audit (principal : Option Nat) (action : AuditAction) (target : Nat) (org : Organization) : Organization :=
  { org with audits := org.audits ++ [⟨principal, action, target⟩] }

def setStatus (selected : Invitation → Bool) (status : StoredStatus) (org : Organization) : Organization :=
  { org with invitations := org.invitations.map fun row => if selected row then { row with status := status } else row }

def state (people : People) (row : Invitation) (principal : Nat) (org : Organization) : InvitationStatus :=
  if row.status ≠ .valid then .stored row.status
  else if row.expiresAt ≤ org.now then .expired
  else
    let authority := (findAt Membership.id row.inviterMembershipId org.memberships).any fun inviter =>
      decide (inviter.status = .active) && org.active && decide (inviter.role = .owner ∨ inviter.role = .admin) &&
        decide (inviter.revision = row.inviterRevision)
    if !authority then .inviterAuthorityLost
    else if people.normalizeEmail (people.email principal) ≠ row.email then .wrongEmail
    else
      match (findAt Membership.principalId principal org.memberships).map Membership.status with
      | some .active => .alreadyMember
      -- A removed member rejoins through a new invitation; a suspended one is reactivated.
      | some .suspended => .stored .revoked
      | _ => if org.activeMembers ≥ org.memberLimit.seats then .seatLimit else .stored .valid

/-- The membership that an accepted invitation gives: a removed one comes back under a new revision. -/
def join (principal : Nat) (role : InvitedRole) (org : Organization) : Organization :=
  match findAt Membership.principalId principal org.memberships with
  | none => { org with memberships := org.memberships ++ [⟨org.nextId, principal, role.toRole, .active, 1⟩], nextId := org.nextId + 1 }
  | some _ => { org with
      memberships := org.memberships.map fun member =>
        if member.principalId = principal ∧ member.status = .removed then
          { member with role := role.toRole, status := .active, revision := member.revision + 1 }
        else member }

def accepting (people : People) (principal : Nat) (row : Invitation) (org : Organization) : Except TeamError Organization :=
  if row.status = .used ∧ row.acceptedBy = some principal then .ok org
  else
    match org.state people row principal with
    | .alreadyMember => .ok org
    | .stored .valid =>
      let joined := org.join principal row.role
      .ok ({ joined with
        invitations := updateAt Invitation.id row.id (fun invitation => { invitation with status := .used, acceptedBy := some principal })
          joined.invitations }.audit (some principal) .invitationAccepted row.id)
    | other => .error (.invitation other)

def accept (people : People) (principal invitation : Nat) (org : Organization) : Except TeamError Organization :=
  match findAt Invitation.id invitation org.invitations with
  | none => .error .invitationNotFound
  | some row => org.accepting people principal row

def byIdFor (people : People) (principal invitation : Nat) (org : Organization) : Except TeamError Invitation :=
  match findAt Invitation.id invitation org.invitations with
  | none => .error .invitationNotFound
  | some row => if row.email = people.normalizeEmail (people.email principal) then .ok row else .error .invitationNotFound

def acceptById (people : People) (principal invitation : Nat) (org : Organization) : Except TeamError Organization := do
  let row ← org.byIdFor people principal invitation
  org.accepting people principal row

def decline (people : People) (principal invitation : Nat) (org : Organization) : Except TeamError Organization := do
  let row ← org.byIdFor people principal invitation
  match row.status with
  | .used => .error (.invitation (.stored .used))
  | .valid =>
    return (org.setStatus (fun other => decide (other.id = row.id)) .declined).audit (some principal) .invitationDeclined row.id
  | _ => return org

def replace (replaceId : Option Nat) (email : Text) (org : Organization) : Except TeamError Organization :=
  match replaceId with
  | none => .ok org
  | some id =>
    match findAt Invitation.id id org.invitations with
    | none => .error .invitationNotFound
    | some old =>
      if old.email ≠ email ∨ old.status = .used then .error .invitationNotFound
      else .ok (org.setStatus (fun row => decide (row.id = id)) .replaced)

/-- Issues an invitation, stamped with the inviter's revision. The rate limits are charged last. -/
def invite (people : People) (principal : Nat) (email : Text) (role : InvitedRole) (replaceId : Option Nat) (admitted : Bool)
    (org : Organization) : Except TeamError Organization := do
  let member ← org.membership principal
  requireCapability member.role .teamManage
  let replaced ← org.replace replaceId email
  let existing := replaced.memberships.filter fun other => decide (people.email other.principalId = email ∧ other.status ≠ .removed)
  if existing.any fun other => decide (other.status = .active) then .error .alreadyMember
  else if existing ≠ [] then .error .memberSuspended
  else
    let current := replaced.setStatus (fun row => decide (row.email = email ∧ row.status = .valid ∧ row.expiresAt ≤ replaced.now)) .replaced
    if current.invitations.any fun row => decide (row.email = email ∧ row.status = .valid) then .error .invitationExists
    else if !admitted then .error .rateLimited
    else
      let created : Invitation := ⟨current.nextId, member.id, member.revision, email, role, .valid, current.now + invitationMs, none⟩
      return { current with invitations := current.invitations ++ [created], nextId := current.nextId + 1 }.audit (some principal)
        (if replaceId.isSome then .invitationReplaced else .invitationCreated) created.id

/-- Issues an invitation again. Its address is read before the transaction, which does not change it. -/
def resend (people : People) (principal invitation : Nat) (role : Option InvitedRole) (admitted : Bool) (org : Organization) :
    Except TeamError Organization := do
  let member ← org.membership principal
  requireCapability member.role .teamManage
  match findAt Invitation.id invitation org.invitations with
  | none => .error .invitationNotFound
  | some row => org.invite people principal row.email (role.getD row.role) (some invitation) admitted

def revoke (principal invitation : Nat) (org : Organization) : Except TeamError Organization := do
  let member ← org.membership principal
  requireCapability member.role .teamManage
  match findAt Invitation.id invitation org.invitations with
  | none => .error .invitationNotFound
  | some row =>
    match row.status with
    | .used => .error .invitationNotFound
    | .revoked | .declined => return org
    | _ => return (org.setStatus (fun other => decide (other.id = invitation)) .revoked).audit (some principal) .invitationRevoked invitation

def retire (people : People) (target : Membership) (org : Organization) : Organization :=
  let revoked := org.setStatus (fun row => decide (row.inviterMembershipId = target.id ∧ row.status = .valid)) .revoked
  { revoked with
    grants := revoked.grants.map fun grant =>
      if grant.consumedAt = none ∧ grant.expiresAt > revoked.now ∧ people.principalOf grant.sessionId = target.principalId then
        { grant with expiresAt := revoked.now }
      else grant }

def updateMember (people : People) (principal member : Nat) (role : Option InvitedRole) (status : Option MemberStatus) (org : Organization) :
    Except TeamError Organization := do
  let actor ← org.membership principal
  requireCapability actor.role .teamManage
  match findAt Membership.id member org.memberships with
  | none => .error .notFound
  | some target =>
    if target.status = .removed then .error .memberRemoved
    else if target.role = .owner then .error .ownerProtected
    else
      let nextRole := (role.map InvitedRole.toRole).getD target.role
      let nextStatus := status.getD target.status
      if nextRole = target.role ∧ nextStatus = target.status then return org
      else if nextStatus = .active ∧ target.status ≠ .active ∧ org.activeMembers ≥ org.memberLimit.seats then .error .seatLimit
      else
        -- The revision stamps the invitations that the member issued, so any change retires them.
        let updated := { org with
          memberships := updateAt Membership.id member
            (fun row => { row with role := nextRole, status := nextStatus, revision := row.revision + 1 }) org.memberships }
        let ended := if reducesAccess (target.role, target.status) (nextRole, nextStatus) then updated.retire people target else updated
        return ended.audit (some principal) .membershipUpdated member

/-- An operator gives a person without a membership the role of an Owner. -/
def addOwner (principal : Nat) (admitted : Bool) (org : Organization) : Except TeamError Organization :=
  if !org.active || !admitted then .error .operatorRefused
  else
    match findAt Membership.principalId principal org.memberships with
    | some existing => if existing.role = .owner ∧ existing.status = .active then .ok org else .error .operatorRefused
    | none =>
      if org.activeMembers ≥ org.memberLimit.seats then .error .operatorRefused
      else
        let created : Membership := ⟨org.nextId, principal, .owner, .active, 1⟩
        .ok ({ org with memberships := org.memberships ++ [created], nextId := org.nextId + 1 }.audit none .operatorOwnerAdded created.id)

def createChallenge (people : People) (session : Nat) (scope : MerchantScope) (action : StepUpAction) (target : Text)
    (available admitted : Bool) (org : Organization) : Except TeamError Organization := do
  let member ← org.membership (people.principalOf session)
  requireCapability member.role (actionCapability action scope.environment)
  if !available then .error .contextUnavailable
  else if !admitted then .error .rateLimited
  else
    let created : StepUpGrant := ⟨org.nextId, session, scope, action, target, org.now + stepUpMs, none, none, 0⟩
    return { org with grants := org.grants ++ [created], nextId := org.nextId + 1 }

def record (session challenge : Nat) (org : Organization) : Except TeamError StepUpGrant :=
  match org.grants.find? fun grant => decide (grant.id = challenge ∧ grant.sessionId = session) with
  | none => .error .stepUpExpired
  | some grant =>
    if grant.expiresAt ≤ org.now ∨ grant.consumedAt.isSome ∨ grant.failedAttempts ≥ maxChallengeAttempts then .error .stepUpExpired
    else .ok grant

def chargeAttempt (session challenge : Nat) (org : Organization) : Organization :=
  { org with
    grants := org.grants.map fun grant =>
      if grant.id = challenge ∧ grant.sessionId = session then { grant with failedAttempts := grant.failedAttempts + 1 } else grant }

def complete (people : People) (session challenge : Nat) (live : Bool) (org : Organization) : Except TeamError Organization := do
  if !live then .error .sessionExpired
  else
    let locked ← org.record session challenge
    if locked.verifiedAt.isSome then .error .stepUpUsed
    else
      let member ← org.membership (people.principalOf session)
      requireCapability member.role (actionCapability locked.action locked.scope.environment)
      return { org with
        grants := updateAt StepUpGrant.id challenge
          (fun grant => { grant with verifiedAt := some org.now, expiresAt := org.now + stepUpMs }) org.grants }.audit
            (some (people.principalOf session)) .stepUpCompleted challenge

def consumeStepUpGrant (people : People) (session grantId : Nat) (scope : MerchantScope) (action : StepUpAction) (target : Text)
    (capability : MerchantCapability) (org : Organization) : Except TeamError Organization := do
  let member ← org.membership (people.principalOf session)
  requireCapability member.role capability
  let spendable (grant : StepUpGrant) : Bool := decide (grant.id = grantId ∧ grant.sessionId = session ∧ grant.scope = scope ∧
    grant.action = action ∧ grant.target = target ∧ grant.verifiedAt.isSome ∧ grant.consumedAt = none ∧ grant.expiresAt > org.now)
  if org.grants.any spendable then
    return { org with
      grants := org.grants.map fun grant => if spendable grant then { grant with consumedAt := some org.now } else grant }
  else .error .stepUpExpired

end Organization

inductive TeamAction where
  | wait (elapsed : Nat)
  | invite (principal : Nat) (email : Text) (role : InvitedRole) (admitted : Bool)
  | resend (principal invitation : Nat) (role : Option InvitedRole) (admitted : Bool)
  | accept (principal invitation : Nat)
  | acceptById (principal invitation : Nat)
  | decline (principal invitation : Nat)
  | revoke (principal invitation : Nat)
  | updateMember (principal member : Nat) (role : Option InvitedRole) (status : Option MemberStatus)
  | addOwner (principal : Nat) (admitted : Bool)
  | createChallenge (session : Nat) (scope : MerchantScope) (action : StepUpAction) (target : Text) (available admitted : Bool)
  | chargeAttempt (session challenge : Nat)
  | complete (session challenge : Nat) (live : Bool)
  | consume (session grant : Nat) (scope : MerchantScope) (action : StepUpAction) (target : Text) (capability : MerchantCapability)

def TeamAction.apply (people : People) (org : Organization) : TeamAction → Except TeamError Organization
  | .wait elapsed => .ok { org with now := org.now + elapsed }
  | .invite principal email role admitted => org.invite people principal email role none admitted
  | .resend principal invitation role admitted => org.resend people principal invitation role admitted
  | .accept principal invitation => org.accept people principal invitation
  | .acceptById principal invitation => org.acceptById people principal invitation
  | .decline principal invitation => org.decline people principal invitation
  | .revoke principal invitation => org.revoke principal invitation
  | .updateMember principal member role status => org.updateMember people principal member role status
  | .addOwner principal admitted => org.addOwner principal admitted
  | .createChallenge session scope action target available admitted =>
    org.createChallenge people session scope action target available admitted
  | .chargeAttempt session challenge => .ok (org.chargeAttempt session challenge)
  | .complete session challenge live => org.complete people session challenge live
  | .consume session grant scope action target capability =>
    org.consumeStepUpGrant people session grant scope action target capability

def TeamAction.perform (people : People) (org : Organization) (action : TeamAction) : Organization :=
  match action.apply people org with
  | .ok next => next
  | .error _ => org

def runTeam (people : People) (org : Organization) (actions : List TeamAction) : Organization :=
  actions.foldl (TeamAction.perform people) org

def founded (now : Int) (limit : MemberLimit) (owner : Nat) : Organization where
  now := now
  active := true
  memberLimit := limit
  memberships := [⟨0, owner, .owner, .active, 1⟩]
  invitations := []
  grants := []
  audits := []
  nextId := 1

end Quotum.Team
