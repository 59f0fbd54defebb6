import Quotum.General.Outcomes
import Quotum.Team

/-! Teams stay within their seats. Authority is a revision that each invitation copies, so the proof follows a membership's revision and a
grant's end through every write of the organization. -/

namespace Quotum.Team
open General Organization

variable {role : Option InvitedRole} {invitation : Nat} {now : Int}

/-- The invitations that were accepted, once for each acceptance. -/
def Organization.acceptances (org : Organization) : List Nat :=
  (org.audits.filter fun event => decide (event.action = .invitationAccepted)).map AuditEvent.target

def Organization.openAddresses (org : Organization) : List Text :=
  (org.invitations.filter fun row => decide (row.status = .valid)).map Invitation.email

/-- A challenge or grant that nothing can complete or spend any more. -/
def StepUpGrant.Dead (now : Int) (grant : StepUpGrant) : Prop :=
  grant.consumedAt.isSome ∨ grant.expiresAt ≤ now

inductive Write (org : Organization) : Organization → Prop where
  | waited (elapsed : Nat) : Write org { org with now := org.now + elapsed }
  | audited (principal : Option Nat) (action : AuditAction) (target : Nat) (other : action ≠ .invitationAccepted) :
      Write org (org.audit principal action target)
  | closed (selected : Invitation → Bool) (status : StoredStatus) (ended : status ≠ .valid ∧ status ≠ .used)
      (unused : ∀ row ∈ org.invitations, selected row = true → row.status ≠ .used) : Write org (org.setStatus selected status)
  | issued (created : Invitation) (fresh : created.id = org.nextId) (valid : created.status = .valid)
      (free : created.email ∉ org.openAddresses)
      (stamped : ∃ inviter ∈ org.memberships, inviter.id = created.inviterMembershipId ∧ inviter.revision = created.inviterRevision) :
      Write org { org with invitations := org.invitations ++ [created], nextId := org.nextId + 1 }
  | added (created : Membership) (fresh : created.id = org.nextId) (absent : created.principalId ∉ org.memberships.map Membership.principalId)
      (active : created.status = .active) (seat : org.activeMembers < org.memberLimit.seats) :
      Write org { org with memberships := org.memberships ++ [created], nextId := org.nextId + 1 }
  | moved (target : Membership) (role : MerchantRole) (status : MemberStatus) (member : target ∈ org.memberships)
      (unprotected : target.role ≠ .owner ∧ role ≠ .owner)
      (seat : status = .active → target.status ≠ .active → org.activeMembers < org.memberLimit.seats) :
      Write org { org with
        memberships := updateAt Membership.id target.id
          (fun row => { row with role := role, status := status, revision := row.revision + 1 }) org.memberships }
  | ended (selected : StepUpGrant → Bool) (live : ∀ grant, selected grant = true → ¬grant.Dead org.now) :
      Write org { org with grants := org.grants.map fun grant => if selected grant then { grant with expiresAt := org.now } else grant }
  | challenged (created : StepUpGrant) (fresh : created.id = org.nextId) :
      Write org { org with grants := org.grants ++ [created], nextId := org.nextId + 1 }
  | charged (session challenge : Nat) : Write org (org.chargeAttempt session challenge)
  | verified (grant : StepUpGrant) (member : grant ∈ org.grants) (live : ¬grant.Dead org.now) :
      Write org { org with
        grants := updateAt StepUpGrant.id grant.id
          (fun grant => { grant with verifiedAt := some org.now, expiresAt := org.now + stepUpMs }) org.grants }
  | spent (selected : StepUpGrant → Bool) (live : ∀ grant, selected grant = true → ¬grant.Dead org.now) :
      Write org { org with grants := org.grants.map fun grant => if selected grant then { grant with consumedAt := some org.now } else grant }

abbrev Writes : Organization → Organization → Prop :=
  Relation.ReflTransGen Write

/-- A membership that `later` still is: unchanged unless its revision moved on, and an Owner's always. -/
structure Membership.Onward (member later : Membership) : Prop where
  id : later.id = member.id
  principalId : later.principalId = member.principalId
  revision : member.revision ≤ later.revision
  unchanged : later.revision = member.revision → later = member
  owner : member.role = .owner → later = member

theorem Membership.Onward.refl (member : Membership) : member.Onward member :=
  ⟨rfl, rfl, le_rfl, fun _ => rfl, fun _ => rfl⟩

theorem Membership.Onward.trans (first second third : Membership) (left : first.Onward second) (right : second.Onward third) :
    first.Onward third where
  id := right.id.trans left.id
  principalId := right.principalId.trans left.principalId
  revision := left.revision.trans right.revision
  unchanged := by
    intro same
    have here : second.revision = first.revision := le_antisymm (same ▸ right.revision) left.revision
    rw [right.unchanged (same.trans here.symm), left.unchanged here]
  owner := by
    intro held
    have kept := left.owner held
    rw [right.owner (kept ▸ held), kept]

/-- An invitation that `later` still is: it keeps what it was issued with, and a used one stays as it is. -/
structure Invitation.Onward (row later : Invitation) : Prop where
  id : later.id = row.id
  email : later.email = row.email
  inviter : later.inviterMembershipId = row.inviterMembershipId
  stamp : later.inviterRevision = row.inviterRevision
  used : row.status = .used → later = row

theorem Invitation.Onward.refl (row : Invitation) : row.Onward row :=
  ⟨rfl, rfl, rfl, rfl, fun _ => rfl⟩

theorem Invitation.Onward.trans (first second third : Invitation) (left : first.Onward second) (right : second.Onward third) :
    first.Onward third where
  id := right.id.trans left.id
  email := right.email.trans left.email
  inviter := right.inviter.trans left.inviter
  stamp := right.stamp.trans left.stamp
  used := by
    intro used
    have kept := left.used used
    rw [right.used (kept ▸ used), kept]

/-- A grant that `later` still is: what was dead keeps its end. -/
structure StepUpGrant.Onward (now : Int) (grant later : StepUpGrant) : Prop where
  id : later.id = grant.id
  session : later.sessionId = grant.sessionId
  dead : grant.Dead now → later.consumedAt = grant.consumedAt ∧ later.expiresAt = grant.expiresAt

theorem StepUpGrant.Onward.refl (grant : StepUpGrant) : grant.Onward now grant :=
  ⟨rfl, rfl, fun _ => ⟨rfl, rfl⟩⟩

theorem StepUpGrant.Onward.stays_dead {after : Int} {grant later : StepUpGrant} (onward : grant.Onward now later)
    (dead : grant.Dead now) (clock : now ≤ after) : later.Dead after := by
  obtain ⟨consumed, expires⟩ := onward.dead dead
  rcases dead with spent | ended
  · left
    rwa [consumed]
  · right
    rw [expires]
    exact ended.trans clock

theorem StepUpGrant.Onward.trans {after : Int} (clock : now ≤ after) (first second third : StepUpGrant)
    (left : first.Onward now second) (right : second.Onward after third) : first.Onward now third where
  id := right.id.trans left.id
  session := right.session.trans left.session
  dead := by
    intro dead
    have here := left.dead dead
    have later := right.dead (left.stays_dead dead clock)
    exact ⟨later.1.trans here.1, later.2.trans here.2⟩

structure Organization.Onward (org later : Organization) : Prop where
  clock : org.now ≤ later.now
  limit : later.memberLimit = org.memberLimit
  memberships : Continues Membership.Onward org.memberships later.memberships
  invitations : Continues Invitation.Onward org.invitations later.invitations
  grants : Continues (StepUpGrant.Onward org.now) org.grants later.grants

theorem Organization.Onward.refl (org : Organization) : org.Onward org where
  clock := le_rfl
  limit := rfl
  memberships := .refl .refl _
  invitations := .refl .refl _
  grants := .refl .refl _

theorem Organization.Onward.trans {first second third : Organization} (left : first.Onward second) (right : second.Onward third) :
    first.Onward third where
  clock := left.clock.trans right.clock
  limit := right.limit.trans left.limit
  memberships := left.memberships.trans Membership.Onward.trans right.memberships
  invitations := left.invitations.trans Invitation.Onward.trans right.invitations
  grants := left.grants.trans (StepUpGrant.Onward.trans left.clock) right.grants

/-- What holds of every state of an organization. -/
structure Sound (org : Organization) : Prop where
  seats : org.activeMembers ≤ org.memberLimit.seats
  memberIds : (org.memberships.map Membership.id).Nodup
  membersKnown : ∀ member ∈ org.memberships, member.id < org.nextId
  principals : (org.memberships.map Membership.principalId).Nodup
  owners : ∀ member ∈ org.memberships, member.role = .owner → member.status = .active
  invitationIds : (org.invitations.map Invitation.id).Nodup
  invitationsKnown : ∀ row ∈ org.invitations, row.id < org.nextId
  stamps : ∀ row ∈ org.invitations, ∃ inviter ∈ org.memberships,
    inviter.id = row.inviterMembershipId ∧ row.inviterRevision ≤ inviter.revision
  addresses : org.openAddresses.Nodup
  grantIds : (org.grants.map StepUpGrant.id).Nodup
  grantsKnown : ∀ grant ∈ org.grants, grant.id < org.nextId
  acceptedOnce : org.acceptances.Nodup
  acceptedUsed : ∀ id ∈ org.acceptances, ∃ row ∈ org.invitations, row.id = id ∧ row.status = .used

theorem founded_sound (now : Int) (limit : MemberLimit) (owner : Nat) : Sound (founded now limit owner) where
  seats := limit.positive
  memberIds := by simp [founded]
  membersKnown := by simp [founded]
  principals := by simp [founded]
  owners := by simp [founded]
  invitationIds := by simp [founded]
  invitationsKnown := by simp [founded]
  stamps := by simp [founded]
  addresses := by simp [founded, openAddresses]
  grantIds := by simp [founded]
  grantsKnown := by simp [founded]
  acceptedOnce := by simp [founded, acceptances]
  acceptedUsed := by simp [founded, acceptances]

private theorem open_shrinks {change : Invitation → Invitation} (each : ∀ row, (change row).status = .valid → change row = row)
    (rows : List Invitation) :
    (((rows.map change).filter fun row => decide (row.status = .valid)).map Invitation.email).Sublist
      ((rows.filter fun row => decide (row.status = .valid)).map Invitation.email) := by
  induction rows with
  | nil => exact .slnil
  | cons row rest ih =>
    rw [List.map_cons]
    by_cases valid : (change row).status = .valid
    · have same := each row valid
      rw [same] at valid ⊢
      rw [List.filter_cons_of_pos (by simpa using valid), List.filter_cons_of_pos (by simpa using valid)]
      exact ih.cons_cons row.email
    · rw [List.filter_cons_of_neg (by simpa using valid)]
      exact ih.trans (((List.sublist_cons_self row rest).filter _).map _)

private theorem acceptances_audit (org : Organization) (principal : Option Nat) (action : AuditAction) (target : Nat) :
    (org.audit principal action target).acceptances =
      if action = .invitationAccepted then org.acceptances ++ [target] else org.acceptances := by
  simp only [acceptances, audit, List.filter_append, List.map_append]
  by_cases same : action = .invitationAccepted
  · rw [if_pos same, List.filter_cons_of_pos (by simpa using same)]
    rfl
  · rw [if_neg same, List.filter_cons_of_neg (by simpa using same), List.filter_nil, List.map_nil, List.append_nil]

section Writes
variable {org next : Organization}

section
variable (sound : Sound org)
include sound

theorem Sound.member_unique {first second : Membership} (left : first ∈ org.memberships)
    (right : second ∈ org.memberships) (same : first.id = second.id) : first = second :=
  List.inj_on_of_nodup_map sound.memberIds left right same

theorem Sound.invitation_unique {first second : Invitation} (left : first ∈ org.invitations)
    (right : second ∈ org.invitations) (same : first.id = second.id) : first = second :=
  List.inj_on_of_nodup_map sound.invitationIds left right same

theorem Sound.grant_unique {first second : StepUpGrant} (left : first ∈ org.grants)
    (right : second ∈ org.grants) (same : first.id = second.id) : first = second :=
  List.inj_on_of_nodup_map sound.grantIds left right same

theorem Write.onward (write : Write org next) : org.Onward next := by
  have refl := Organization.Onward.refl org
  cases write with
  | waited elapsed => exact { refl with clock := by simp }
  | audited principal action target other => exact { refl with }
  | closed selected status ended unused =>
    refine { refl with invitations := Continues.map ?_ }
    intro row member
    split
    · next chosen => exact ⟨rfl, rfl, rfl, rfl, fun used => absurd used (unused row member chosen)⟩
    · exact .refl row
  | issued created fresh valid free stamped => exact { refl with invitations := .append .refl _ _ }
  | added created fresh absent active seat => exact { refl with memberships := .append .refl _ _ }
  | moved target role status member unprotected seat =>
    refine { refl with memberships := Continues.map ?_ }
    intro row inside
    split
    · next same =>
      have here : row = target := sound.member_unique inside member same
      exact ⟨rfl, rfl, Nat.le_succ _, fun stuck => absurd stuck (Nat.succ_ne_self _),
        fun owner => absurd (here ▸ owner) unprotected.1⟩
    · exact .refl row
  | ended selected live =>
    refine { refl with grants := Continues.map ?_ }
    intro grant member
    split
    · next chosen => exact ⟨rfl, rfl, fun dead => absurd dead (live grant chosen)⟩
    · exact .refl grant
  | challenged created fresh => exact { refl with grants := .append .refl _ _ }
  | charged session challenge =>
    refine { refl with grants := Continues.map ?_ }
    intro grant member
    split
    · exact ⟨rfl, rfl, fun _ => ⟨rfl, rfl⟩⟩
    · exact .refl grant
  | verified grant member live =>
    refine { refl with grants := Continues.map ?_ }
    intro other inside
    split
    · next same =>
      have here : other = grant := sound.grant_unique inside member same
      exact ⟨rfl, rfl, fun dead => absurd (here ▸ dead) live⟩
    · exact .refl other
  | spent selected live =>
    refine { refl with grants := Continues.map ?_ }
    intro grant member
    split
    · next chosen => exact ⟨rfl, rfl, fun dead => absurd dead (live grant chosen)⟩
    · exact .refl grant

theorem Sound.stamps_onward {later : List Membership}
    (onward : Continues Membership.Onward org.memberships later) :
    ∀ row ∈ org.invitations, ∃ inviter ∈ later, inviter.id = row.inviterMembershipId ∧ row.inviterRevision ≤ inviter.revision := by
  intro row member
  obtain ⟨inviter, inside, same, stamp⟩ := sound.stamps row member
  obtain ⟨moved, still, kept⟩ := onward inviter inside
  exact ⟨moved, still, kept.id.trans same, stamp.trans kept.revision⟩

theorem Sound.grants_map {change : StepUpGrant → StepUpGrant} (kept : ∀ grant, (change grant).id = grant.id) :
    Sound { org with grants := org.grants.map change } where
  __ := sound
  grantIds := by
    rw [map_kept kept]
    exact sound.grantIds
  grantsKnown := by
    intro grant member
    obtain ⟨old, inside, rfl⟩ := List.mem_map.mp member
    rw [kept]
    exact sound.grantsKnown old inside

theorem Sound.added {created : Membership} (fresh : created.id = org.nextId)
    (absent : created.principalId ∉ org.memberships.map Membership.principalId) (active : created.status = .active)
    (seat : org.activeMembers < org.memberLimit.seats) :
    Sound { org with memberships := org.memberships ++ [created], nextId := org.nextId + 1 } where
  __ := sound
  seats := by
    have one : [created].countP (fun member => decide (member.status = .active)) ≤ 1 := List.countP_le_length
    simp only [activeMembers, List.countP_append] at seat ⊢
    omega
  memberIds := nodup_fresh sound.memberIds sound.membersKnown fresh
  membersKnown := known_fresh sound.membersKnown fresh
  principals := by
    rw [List.map_append, List.map_singleton]
    exact sound.principals.append (List.nodup_singleton _) (by simpa using absent)
  owners := by
    intro member inside owner
    rcases List.mem_append.mp inside with old | new
    · exact sound.owners member old owner
    · obtain rfl := List.mem_singleton.mp new
      exact active
  invitationsKnown := fun row member => Nat.lt_succ_of_lt (sound.invitationsKnown row member)
  grantsKnown := fun grant member => Nat.lt_succ_of_lt (sound.grantsKnown grant member)
  stamps := sound.stamps_onward (.append .refl _ _)

theorem Sound.moved {target : Membership} {role : MerchantRole} {status : MemberStatus}
    (member : target ∈ org.memberships) (role_free : role ≠ .owner)
    (seat : status = .active → target.status ≠ .active → org.activeMembers < org.memberLimit.seats)
    (onward : org.Onward { org with
      memberships := updateAt Membership.id target.id
        (fun row => { row with role := role, status := status, revision := row.revision + 1 }) org.memberships }) :
    Sound { org with
      memberships := updateAt Membership.id target.id
        (fun row => { row with role := role, status := status, revision := row.revision + 1 }) org.memberships } where
  __ := sound
  seats := by
    have moved := updateAt_countP sound.memberIds member
      (fun row => { row with role := role, status := status, revision := row.revision + 1 })
      fun other => decide (other.status = .active)
    have room := sound.seats
    simp only [activeMembers, List.countP_cons, List.countP_nil, decide_eq_true_eq] at moved room seat ⊢
    by_cases active : status = .active
    · by_cases before : target.status = .active
      · rw [if_pos active, if_pos before] at moved
        omega
      · have free := seat active before
        rw [if_pos active, if_neg before] at moved
        omega
    · rw [if_neg active] at moved
      omega
  memberIds := by
    simp only [updateAt]
    rw [map_kept (by intro row; split <;> rfl)]
    exact sound.memberIds
  membersKnown := by
    intro row inside
    obtain ⟨old, before, ⟨-, rfl⟩ | ⟨-, rfl⟩⟩ := mem_updateAt.mp inside
    · exact sound.membersKnown old before
    · exact sound.membersKnown row before
  principals := by
    simp only [updateAt]
    rw [map_kept (by intro row; split <;> rfl)]
    exact sound.principals
  owners := by
    intro row inside owner
    obtain ⟨old, before, ⟨-, rfl⟩ | ⟨-, rfl⟩⟩ := mem_updateAt.mp inside
    · exact absurd owner role_free
    · exact sound.owners row before owner
  stamps := sound.stamps_onward onward.memberships

theorem Sound.issued {created : Invitation} (fresh : created.id = org.nextId) (valid : created.status = .valid)
    (free : created.email ∉ org.openAddresses)
    (stamped : ∃ inviter ∈ org.memberships, inviter.id = created.inviterMembershipId ∧ inviter.revision = created.inviterRevision) :
    Sound { org with invitations := org.invitations ++ [created], nextId := org.nextId + 1 } where
  __ := sound
  membersKnown := fun member inside => Nat.lt_succ_of_lt (sound.membersKnown member inside)
  invitationIds := nodup_fresh sound.invitationIds sound.invitationsKnown fresh
  invitationsKnown := known_fresh sound.invitationsKnown fresh
  stamps := by
    intro row member
    rcases List.mem_append.mp member with old | new
    · exact sound.stamps row old
    · obtain rfl := List.mem_singleton.mp new
      obtain ⟨inviter, inside, same, stamp⟩ := stamped
      exact ⟨inviter, inside, same, stamp.ge⟩
  addresses := by
    have here : [created].filter (fun row => decide (row.status = .valid)) = [created] :=
      List.filter_cons_of_pos (by simpa using valid)
    simp only [openAddresses, List.filter_append, List.map_append, here, List.map_singleton]
    exact sound.addresses.append (List.nodup_singleton _) (by simpa using free)
  grantsKnown := fun grant member => Nat.lt_succ_of_lt (sound.grantsKnown grant member)
  acceptedUsed := by
    intro id accepted
    obtain ⟨row, member, same, used⟩ := sound.acceptedUsed id accepted
    exact ⟨row, List.mem_append_left _ member, same, used⟩

theorem Sound.invitations_map {change : Invitation → Invitation}
    (shut : ∀ row, (change row).status = .valid → change row = row)
    (onward : Continues Invitation.Onward org.invitations (org.invitations.map change))
    (issued : ∀ row, (change row).id = row.id ∧ (change row).inviterMembershipId = row.inviterMembershipId ∧
      (change row).inviterRevision = row.inviterRevision) :
    Sound { org with invitations := org.invitations.map change } where
  __ := sound
  invitationIds := by
    rw [map_kept fun row => (issued row).1]
    exact sound.invitationIds
  invitationsKnown := by
    intro row member
    obtain ⟨old, inside, rfl⟩ := List.mem_map.mp member
    rw [(issued old).1]
    exact sound.invitationsKnown old inside
  stamps := by
    intro row member
    obtain ⟨old, inside, rfl⟩ := List.mem_map.mp member
    rw [(issued old).2.1, (issued old).2.2]
    exact sound.stamps old inside
  addresses := sound.addresses.sublist (open_shrinks shut org.invitations)
  acceptedUsed := by
    intro id accepted
    obtain ⟨row, member, same, used⟩ := sound.acceptedUsed id accepted
    obtain ⟨later, still, kept⟩ := onward row member
    exact ⟨later, still, kept.id.trans same, kept.used used ▸ used⟩

theorem Write.keeps (write : Write org next) : Sound next := by
  have onward := write.onward sound
  cases write with
  | waited elapsed => exact { sound with }
  | audited principal action target other =>
    have same : (org.audit principal action target).acceptances = org.acceptances := by rw [acceptances_audit, if_neg other]
    exact { sound with acceptedOnce := same ▸ sound.acceptedOnce, acceptedUsed := same ▸ sound.acceptedUsed }
  | closed selected status ended unused =>
    refine sound.invitations_map ?_ onward.invitations ?_
    · intro row valid
      split at valid
      · exact absurd valid ended.1
      · next kept => exact if_neg kept
    · intro row
      split <;> exact ⟨rfl, rfl, rfl⟩
  | issued created fresh valid free stamped => exact sound.issued fresh valid free stamped
  | added created fresh absent active seat => exact sound.added fresh absent active seat
  | moved target role status member unprotected seat => exact sound.moved member unprotected.2 seat onward
  | ended selected live =>
    apply sound.grants_map
    intro grant
    split <;> rfl
  | challenged created fresh =>
    exact {
      sound with
      membersKnown := fun member inside => Nat.lt_succ_of_lt (sound.membersKnown member inside)
      invitationsKnown := fun row member => Nat.lt_succ_of_lt (sound.invitationsKnown row member)
      grantIds := nodup_fresh sound.grantIds sound.grantsKnown fresh
      grantsKnown := known_fresh sound.grantsKnown fresh }
  | charged session challenge =>
    apply sound.grants_map
    intro grant
    split <;> rfl
  | verified grant member live =>
    apply sound.grants_map
    intro other
    split <;> rfl
  | spent selected live =>
    apply sound.grants_map
    intro grant
    split <;> rfl

theorem Writes.kept (writes : Writes org next) : Sound next ∧ org.Onward next := by
  induction writes with
  | refl => exact ⟨sound, .refl org⟩
  | tail _ write ih => exact ⟨write.keeps ih.1, ih.2.trans (write.onward ih.1)⟩

end

theorem Write.acceptances (write : Write org next) : next.acceptances = org.acceptances := by
  cases write with
  | audited principal action target other => rw [acceptances_audit, if_neg other]
  | _ => rfl

theorem Writes.acceptances (writes : Writes org next) : next.acceptances = org.acceptances := by
  induction writes with
  | refl => rfl
  | tail _ write ih => rw [write.acceptances, ih]

end Writes

structure Acceptable (people : People) (principal : Nat) (row : Invitation) (org : Organization) : Prop where
  valid : row.status = .valid
  unexpired : org.now < row.expiresAt
  authority : ∃ inviter ∈ org.memberships, inviter.id = row.inviterMembershipId ∧ inviter.status = .active ∧
    (inviter.role = .owner ∨ inviter.role = .admin) ∧ inviter.revision = row.inviterRevision
  addressed : people.normalizeEmail (people.email principal) = row.email
  seat : org.activeMembers < org.memberLimit.seats

section Operations
variable {people : People} {org next : Organization} {principal session member : Nat} {row : Invitation} {status : Option MemberStatus}
  {scope : MerchantScope} {action : StepUpAction} {admitted : Bool} {grant : StepUpGrant} {target : Text}

private theorem state_valid (open_ : org.state people row principal = .stored .valid) :
    Acceptable people principal row org ∧
      ∀ member, findAt Membership.principalId principal org.memberships = some member → member.status = .removed := by
  simp only [Organization.state] at open_
  split at open_
  · next ended => exact absurd (InvitationStatus.stored.inj open_) ended
  next standing =>
  split at open_
  · cases open_
  next unexpired =>
  split at open_
  · cases open_
  next authority =>
  split at open_
  · cases open_
  next addressed =>
  rw [Bool.not_eq_true, Bool.not_eq_false'] at authority
  obtain ⟨inviter, found, held⟩ := Option.any_eq_true _ _ |>.mp authority
  simp only [Bool.and_eq_true, decide_eq_true_eq] at held
  obtain ⟨inside, same⟩ := findAt_inv found
  obtain ⟨⟨⟨active, -⟩, role⟩, stamp⟩ := held
  have member (seat : org.activeMembers < org.memberLimit.seats) : Acceptable people principal row org := {
    valid := by simpa using standing
    unexpired := by omega
    authority := ⟨inviter, inside, same, active, role, stamp⟩
    addressed := by simpa using addressed
    seat := seat }
  split at open_
  · cases open_
  · cases open_
  · next neither suspended =>
    split at open_
    · cases open_
    · next seats =>
      refine ⟨member (by omega), ?_⟩
      intro other here
      rw [here] at neither suspended
      cases status : other.status with
      | active => exact absurd (by rw [Option.map_some, status]) neither
      | suspended => exact absurd (by rw [Option.map_some, status]) suspended
      | removed => rfl

theorem membership_inv {member : Membership} (acting : org.membership principal = .ok member) :
    member ∈ org.memberships ∧ member.principalId = principal ∧ member.status = .active := by
  simp only [Organization.membership] at acting
  split at acting
  · next found =>
    split at acting
    · cases acting
      have held := List.find?_some found
      exact ⟨List.mem_of_find?_eq_some found, of_decide_eq_true held⟩
    · cases acting
  · cases acting

private theorem join_writes (sound : Sound org) (role : InvitedRole) (seat : org.activeMembers < org.memberLimit.seats)
    (removed : ∀ member, findAt Membership.principalId principal org.memberships = some member → member.status = .removed) :
    Write org (org.join principal role) := by
  have guest : role.toRole ≠ .owner := by cases role <;> rintro ⟨⟩
  simp only [Organization.join]
  cases found : findAt Membership.principalId principal org.memberships with
  | none =>
    refine .added ⟨org.nextId, principal, role.toRole, .active, 1⟩ rfl ?_ rfl seat
    intro present
    obtain ⟨member, inside, same⟩ := List.mem_map.mp present
    have here := findAt_member sound.principals inside
    rw [same, found] at here
    cases here
  | some target =>
    obtain ⟨inside, same⟩ := findAt_inv found
    have gone := removed target found
    have plain : target.role ≠ .owner := by
      intro owner
      rw [sound.owners target inside owner] at gone
      cases gone
    have moved : Write org _ := .moved target role.toRole .active inside ⟨plain, guest⟩ fun _ _ => seat
    have rows : (org.memberships.map fun member =>
        if member.principalId = principal ∧ member.status = .removed then
          { member with role := role.toRole, status := .active, revision := member.revision + 1 }
        else member) =
        updateAt Membership.id target.id
          (fun row => { row with role := role.toRole, status := .active, revision := row.revision + 1 }) org.memberships := by
      apply List.map_congr_left
      intro member here
      by_cases chosen : member.id = target.id
      · obtain rfl := sound.member_unique here inside chosen
        rw [if_pos ⟨same, gone⟩, if_pos rfl]
      · rw [if_neg chosen, if_neg]
        intro both
        exact chosen (congrArg Membership.id (List.inj_on_of_nodup_map sound.principals here inside (both.1.trans same.symm)))
    dsimp only
    rw [rows]
    exact moved

/-- The acceptance of an invitation, once its person has joined. -/
def Organization.marked (principal : Nat) (row : Invitation) (joined : Organization) : Organization :=
  { joined with
    invitations := updateAt Invitation.id row.id (fun invitation => { invitation with status := .used, acceptedBy := some principal })
      joined.invitations }.audit (some principal) .invitationAccepted row.id

private theorem marked_kept (sound : Sound org) (member : row ∈ org.invitations) (valid : row.status = .valid) :
    Sound (org.marked principal row) ∧ org.Onward (org.marked principal row) := by
  have onward : Continues Invitation.Onward org.invitations (updateAt Invitation.id row.id
      (fun invitation => { invitation with status := .used, acceptedBy := some principal }) org.invitations) := by
    refine Continues.map ?_
    intro other inside
    split
    · next same =>
      obtain rfl := sound.invitation_unique inside member same
      exact ⟨rfl, rfl, rfl, rfl, fun used => absurd (valid.symm.trans used) (by rintro ⟨⟩)⟩
    · exact .refl other
  have mapped := sound.invitations_map
    (by
      intro other open_
      split at open_
      · cases open_
      · next apart => exact if_neg apart)
    onward (by intro other; split <;> exact ⟨rfl, rfl, rfl⟩)
  have fresh : row.id ∉ org.acceptances := by
    intro accepted
    obtain ⟨other, inside, same, used⟩ := sound.acceptedUsed row.id accepted
    obtain rfl := sound.invitation_unique inside member same
    exact absurd (valid.symm.trans used) (by rintro ⟨⟩)
  have acceptances : (org.marked principal row).acceptances = org.acceptances ++ [row.id] := by
    simp only [Organization.marked, acceptances_audit, if_true]
    rfl
  refine ⟨{ mapped with acceptedOnce := ?_, acceptedUsed := ?_ }, { Organization.Onward.refl org with invitations := onward }⟩
  · rw [acceptances]
    exact sound.acceptedOnce.append (List.nodup_singleton _) (by simpa using fresh)
  · intro id accepted
    rw [acceptances, List.mem_append, List.mem_singleton] at accepted
    rcases accepted with before | rfl
    · exact mapped.acceptedUsed id before
    · exact ⟨_, mem_updateAt.mpr ⟨row, member, .inl ⟨rfl, rfl⟩⟩, rfl, rfl⟩

private theorem join_invitations (role : InvitedRole) : (org.join principal role).invitations = org.invitations := by
  simp only [Organization.join]
  split <;> rfl

private theorem accepting_inv (accepted : org.accepting people principal row = .ok next) :
    next = org ∨ (org.state people row principal = .stored .valid ∧ next = (org.join principal row.role).marked principal row) := by
  simp only [Organization.accepting] at accepted
  split at accepted
  · exact .inl (Except.ok.inj accepted).symm
  · split at accepted
    · exact .inl (Except.ok.inj accepted).symm
    · next open_ => exact .inr ⟨open_, (Except.ok.inj accepted).symm⟩
    · cases accepted

section
variable (sound : Sound org) {replaceId : Option Nat}
include sound

private theorem accepting_kept (member : row ∈ org.invitations) (open_ : org.state people row principal = .stored .valid) :
    Acceptable people principal row org ∧ Sound ((org.join principal row.role).marked principal row) ∧
      org.Onward ((org.join principal row.role).marked principal row) ∧
      ((org.join principal row.role).marked principal row).acceptances = org.acceptances ++ [row.id] := by
  obtain ⟨acceptable, removed⟩ := state_valid open_
  have joined := join_writes sound row.role acceptable.seat removed
  have there : row ∈ (org.join principal row.role).invitations := by rwa [join_invitations]
  obtain ⟨after, onward⟩ : Sound (Organization.marked principal row _) ∧ Organization.Onward _ (Organization.marked principal row _) :=
    marked_kept (joined.keeps sound) there acceptable.valid
  refine ⟨acceptable, after, (joined.onward sound).trans onward, ?_⟩
  simp only [Organization.marked, acceptances_audit, if_true]
  exact congrArg (· ++ [row.id]) joined.acceptances

private theorem decline_writes (declined : org.decline people principal invitation = .ok next) :
    Writes org next := by
  simp only [Organization.decline] at declined
  obtain ⟨row, found, declined⟩ := bind_ok declined
  split at declined
  · cases declined
  · next valid =>
    cases declined
    have member : row ∈ org.invitations := by
      simp only [Organization.byIdFor] at found
      split at found
      · cases found
      · next here =>
        split at found
        · cases found
          exact (findAt_inv here).1
        · cases found
    refine .tail (.single (.closed _ .declined ⟨(by rintro ⟨⟩), (by rintro ⟨⟩)⟩ ?_)) (.audited _ .invitationDeclined row.id (by rintro ⟨⟩))
    intro other inside chosen used
    obtain rfl := sound.invitation_unique inside member (of_decide_eq_true chosen)
    exact absurd (valid.symm.trans used) (by rintro ⟨⟩)
  · cases declined
    exact .refl

private theorem replace_writes {email : Text} (replaced : org.replace replaceId email = .ok next) :
    Writes org next ∧ next.memberships = org.memberships ∧ next.now = org.now := by
  simp only [Organization.replace] at replaced
  split at replaced
  · cases replaced
    exact ⟨.refl, rfl, rfl⟩
  · next id =>
    split at replaced
    · cases replaced
    · next old found =>
      split at replaced
      · cases replaced
      · next open_ =>
        cases replaced
        obtain ⟨member, same⟩ := findAt_inv found
        refine ⟨.single (.closed _ .replaced ⟨(by rintro ⟨⟩), (by rintro ⟨⟩)⟩ ?_), rfl, rfl⟩
        intro other inside chosen used
        obtain rfl := sound.invitation_unique inside member ((of_decide_eq_true chosen).trans same.symm)
        exact open_ (.inr used)

private theorem invite_writes {email : Text} {role : InvitedRole}
    (invited : org.invite people principal email role replaceId admitted = .ok next) : Writes org next := by
  simp only [Organization.invite] at invited
  obtain ⟨member, acting, invited⟩ := bind_ok invited
  obtain ⟨-, -, invited⟩ := bind_ok invited
  obtain ⟨replaced, here, invited⟩ := bind_ok invited
  obtain ⟨writes, memberships, -⟩ := replace_writes sound here
  split at invited
  · cases invited
  split at invited
  · cases invited
  split at invited
  · cases invited
  next free =>
  split at invited
  · cases invited
  cases invited
  have shut : Writes org _ := writes.tail
    (.closed (fun row => decide (row.email = email ∧ row.status = .valid ∧ row.expiresAt ≤ replaced.now)) .replaced
      ⟨(by rintro ⟨⟩), (by rintro ⟨⟩)⟩ (by
      intro row _ chosen used
      exact absurd ((of_decide_eq_true chosen).2.1.symm.trans used) (by rintro ⟨⟩)))
  refine (shut.tail (.issued _ rfl rfl ?_ ?_)).tail (.audited _ _ _ (by split <;> rintro ⟨⟩))
  · intro taken
    obtain ⟨row, inside, same⟩ := List.mem_map.mp taken
    obtain ⟨present, valid⟩ := List.mem_filter.mp inside
    refine free (List.any_eq_true.mpr ⟨row, present, ?_⟩)
    exact decide_eq_true ⟨same, of_decide_eq_true valid⟩
  · obtain ⟨inside, -, -⟩ := membership_inv acting
    exact ⟨member, memberships.symm ▸ inside, rfl, rfl⟩

private theorem resend_writes (resent : org.resend people principal invitation role admitted = .ok next) : Writes org next := by
  simp only [Organization.resend] at resent
  obtain ⟨member, -, resent⟩ := bind_ok resent
  obtain ⟨-, -, resent⟩ := bind_ok resent
  split at resent
  · cases resent
  · exact invite_writes sound resent

private theorem revoke_writes (revoked : org.revoke principal invitation = .ok next) : Writes org next := by
  simp only [Organization.revoke] at revoked
  obtain ⟨member, -, revoked⟩ := bind_ok revoked
  obtain ⟨-, -, revoked⟩ := bind_ok revoked
  split at revoked
  · cases revoked
  next row found =>
  split at revoked
  · cases revoked
  · cases revoked
    exact .refl
  · cases revoked
    exact .refl
  · next unused _ _ =>
    cases revoked
    obtain ⟨member, same⟩ := findAt_inv found
    refine .tail (.single (.closed _ .revoked ⟨(by rintro ⟨⟩), (by rintro ⟨⟩)⟩ ?_)) (.audited _ .invitationRevoked invitation (by rintro ⟨⟩))
    intro other inside chosen used
    obtain rfl := sound.invitation_unique inside member ((of_decide_eq_true chosen).trans same.symm)
    exact unused used

end

private theorem retire_writes (target : Membership) : Writes org (org.retire people target) := by
  have shut : Write org (org.setStatus (fun row => decide (row.inviterMembershipId = target.id ∧ row.status = .valid)) .revoked) := by
    refine .closed _ .revoked ⟨(by rintro ⟨⟩), (by rintro ⟨⟩)⟩ ?_
    intro row _ chosen used
    exact absurd ((of_decide_eq_true chosen).2.symm.trans used) (by rintro ⟨⟩)
  have live (grant : StepUpGrant)
      (chosen : decide (grant.consumedAt = none ∧ grant.expiresAt > org.now ∧ people.principalOf grant.sessionId = target.principalId) = true) :
      ¬grant.Dead org.now := by
    intro dead
    obtain ⟨unspent, open_, -⟩ := of_decide_eq_true chosen
    rcases dead with spent | late
    · rw [unspent] at spent
      cases spent
    · exact absurd late (not_le.mpr open_)
  have both : Writes org _ := (Relation.ReflTransGen.single shut).tail (.ended _ live)
  simp only [decide_eq_true_eq] at both
  exact both

private theorem reducesAccess_self (access : MerchantRole × MemberStatus) : reducesAccess access access = false := by
  simp [reducesAccess]

/-- An update that changes a member moves its revision on, and retires what the member issued where it takes access away. -/
private theorem updateMember_inv (done : org.updateMember people principal member role status = .ok next) :
    ∃ target nextRole nextStatus, findAt Membership.id member org.memberships = some target ∧
      ((nextRole = target.role ∧ nextStatus = target.status ∧ next = org) ∨
        ∃ updated, Write org updated ∧
          updated.memberships = updateAt Membership.id member
            (fun row => { row with role := nextRole, status := nextStatus, revision := row.revision + 1 }) org.memberships ∧
          next = (if reducesAccess (target.role, target.status) (nextRole, nextStatus) then updated.retire people target
            else updated).audit (some principal) .membershipUpdated member) := by
  simp only [Organization.updateMember] at done
  obtain ⟨actor, acting, done⟩ := bind_ok done
  obtain ⟨-, -, done⟩ := bind_ok done
  split at done
  · cases done
  next target found =>
  obtain ⟨inside, same⟩ := findAt_inv found
  refine ⟨target, (role.map InvitedRole.toRole).getD target.role, status.getD target.status, found, ?_⟩
  split at done
  · cases done
  split at done
  · cases done
  next plain =>
  split at done
  · next kept =>
    cases done
    exact .inl ⟨kept.1, kept.2, rfl⟩
  split at done
  · cases done
  next room =>
  cases done
  have guest : (role.map InvitedRole.toRole).getD target.role ≠ .owner := by
    cases role with
    | none => exact plain
    | some role => cases role <;> rintro ⟨⟩
  have moved : Write org _ := .moved target ((role.map InvitedRole.toRole).getD target.role) (status.getD target.status) inside
    ⟨plain, guest⟩ fun active before => not_le.mp fun full => room ⟨active, before, full⟩
  rw [same] at moved
  exact .inr ⟨_, moved, rfl, rfl⟩

private theorem updateMember_writes (done : org.updateMember people principal member role status = .ok next) : Writes org next := by
  obtain ⟨target, nextRole, nextStatus, -, ⟨-, -, rfl⟩ | ⟨updated, write, -, rfl⟩⟩ := updateMember_inv done
  · exact .refl
  · refine Relation.ReflTransGen.tail ?_ (.audited _ .membershipUpdated member (by rintro ⟨⟩))
    split
    · exact (Relation.ReflTransGen.single write).trans (retire_writes target)
    · exact .single write

/-- Nothing that a member opened before its access was reduced is open afterwards. -/
private theorem updateMember_ends {target changed : Membership}
    (sound : Sound org) (done : org.updateMember people principal member role status = .ok next)
    (before : findAt Membership.id member org.memberships = some target)
    (after : findAt Membership.id member next.memberships = some changed)
    (reduced : reducesAccess (target.role, target.status) (changed.role, changed.status) = true) :
    ∀ grant ∈ next.grants, people.principalOf grant.sessionId = target.principalId → grant.Dead next.now := by
  obtain ⟨found, nextRole, nextStatus, here, ⟨-, -, rfl⟩ | ⟨updated, -, rows, rfl⟩⟩ := updateMember_inv done
  · cases before.symm.trans after
    rw [reducesAccess_self] at reduced
    cases reduced
  obtain rfl : target = found := Option.some.inj (before.symm.trans here)
  obtain ⟨inside, rfl⟩ := findAt_inv here
  have kept : (if reducesAccess (target.role, target.status) (nextRole, nextStatus) then updated.retire people target
      else updated).memberships = updated.memberships := by
    split <;> rfl
  have changes : changed = { target with role := nextRole, status := nextStatus, revision := target.revision + 1 } := by
    have moved : findAt Membership.id target.id updated.memberships =
        some { target with role := nextRole, status := nextStatus, revision := target.revision + 1 } := by
      rw [rows]
      exact findAt_update sound.memberIds inside fun _ => rfl
    rw [← kept] at moved
    exact Option.some.inj (after.symm.trans moved)
  rw [changes] at reduced
  rw [if_pos reduced]
  intro grant member owner
  obtain ⟨old, present, rfl⟩ := List.mem_map.mp member
  split at owner
  · next chosen =>
    rw [if_pos chosen]
    exact .inr le_rfl
  · next spared =>
    rw [if_neg spared]
    by_cases spent : old.consumedAt.isSome
    · exact .inl spent
    · refine .inr (not_lt.mp fun live => spared ⟨by simpa using spent, live, owner⟩)

private theorem addOwner_writes (added : org.addOwner principal admitted = .ok next) : Writes org next := by
  simp only [Organization.addOwner] at added
  split at added
  · cases added
  split at added
  · split at added
    · cases added
      exact .refl
    · cases added
  next absent =>
  split at added
  · cases added
  next seats =>
  cases added
  refine .tail (.single (.added ⟨org.nextId, principal, .owner, .active, 1⟩ rfl ?_ rfl (by omega)))
    (.audited none .operatorOwnerAdded org.nextId (by rintro ⟨⟩))
  intro present
  obtain ⟨member, inside, same⟩ := List.mem_map.mp present
  exact List.find?_eq_none.mp absent member inside (decide_eq_true same)

private theorem createChallenge_writes {available : Bool}
    (created : org.createChallenge people session scope action target available admitted = .ok next) : Writes org next := by
  simp only [Organization.createChallenge] at created
  obtain ⟨member, -, created⟩ := bind_ok created
  obtain ⟨-, -, created⟩ := bind_ok created
  split at created
  · cases created
  split at created
  · cases created
  cases created
  exact .single (.challenged _ rfl)

private theorem record_inv {challenge : Nat} (open_ : org.record session challenge = .ok grant) :
    grant ∈ org.grants ∧ grant.id = challenge ∧ ¬grant.Dead org.now := by
  simp only [Organization.record] at open_
  split at open_
  · cases open_
  next found =>
  split at open_
  · cases open_
  next standing =>
  cases open_
  have held := List.find?_some found
  refine ⟨List.mem_of_find?_eq_some found, (of_decide_eq_true held).1, ?_⟩
  intro dead
  rcases dead with spent | late
  · exact standing (.inr (.inl spent))
  · exact standing (.inl late)

private theorem complete_inv {challenge : Nat} {live : Bool} (completed : org.complete people session challenge live = .ok next) :
    Writes org next ∧ ∃ grant ∈ org.grants, grant.id = challenge ∧ ¬grant.Dead org.now := by
  simp only [Organization.complete] at completed
  split at completed
  · cases completed
  obtain ⟨grant, open_, completed⟩ := bind_ok completed
  obtain ⟨member, same, standing⟩ := record_inv open_
  refine ⟨?_, grant, member, same, standing⟩
  split at completed
  · cases completed
  obtain ⟨actor, -, completed⟩ := bind_ok completed
  obtain ⟨-, -, completed⟩ := bind_ok completed
  cases completed
  have verified : Write org _ := .verified grant member standing
  rw [same] at verified
  exact (Relation.ReflTransGen.single verified).tail (.audited _ .stepUpCompleted challenge (by rintro ⟨⟩))

structure StepUpGrant.Spendable (grant : StepUpGrant) (now : Int) (session : Nat) (scope : MerchantScope) (action : StepUpAction)
    (target : Text) : Prop where
  session : grant.sessionId = session
  scope : grant.scope = scope
  action : grant.action = action
  target : grant.target = target
  verified : grant.verifiedAt.isSome
  unspent : grant.consumedAt = none
  unexpired : now < grant.expiresAt

theorem StepUpGrant.Spendable.live (spendable : grant.Spendable now session scope action target) : ¬grant.Dead now := by
  intro dead
  rcases dead with spent | late
  · rw [spendable.unspent] at spent
    cases spent
  · exact absurd late (not_le.mpr spendable.unexpired)

theorem consume_inv {grantId : Nat} {capability : MerchantCapability}
    (consumed : org.consumeStepUpGrant people session grantId scope action target capability = .ok next) :
    Writes org next ∧ ∃ grant ∈ org.grants, grant.id = grantId ∧ grant.Spendable org.now session scope action target ∧
      { grant with consumedAt := some org.now } ∈ next.grants := by
  have spendable (grant : StepUpGrant)
      (fits : grant.id = grantId ∧ grant.sessionId = session ∧ grant.scope = scope ∧ grant.action = action ∧
        grant.target = target ∧ grant.verifiedAt.isSome ∧ grant.consumedAt = none ∧ grant.expiresAt > org.now) :
      grant.Spendable org.now session scope action target := by
    obtain ⟨-, session, scope, action, target, verified, unspent, unexpired⟩ := fits
    exact ⟨session, scope, action, target, verified, unspent, unexpired⟩
  simp only [Organization.consumeStepUpGrant] at consumed
  obtain ⟨member, -, consumed⟩ := bind_ok consumed
  obtain ⟨-, -, consumed⟩ := bind_ok consumed
  split at consumed
  · next found =>
    obtain ⟨grant, inside, fits⟩ := List.any_eq_true.mp found
    have held := of_decide_eq_true fits
    cases consumed
    refine ⟨.single (.spent _ fun other chosen => (spendable other (of_decide_eq_true chosen)).live), grant, inside, held.1,
      spendable grant held, ?_⟩
    exact List.mem_map.mpr ⟨grant, inside, if_pos fits⟩
  · cases consumed

private theorem accept_inv (accepted : org.accept people principal invitation = .ok next) :
    ∃ row ∈ org.invitations, row.id = invitation ∧ org.accepting people principal row = .ok next := by
  simp only [Organization.accept] at accepted
  split at accepted
  · cases accepted
  · next row found => exact ⟨row, (findAt_inv found).1, (findAt_inv found).2, accepted⟩

private theorem acceptById_inv (accepted : org.acceptById people principal invitation = .ok next) :
    ∃ row ∈ org.invitations, row.id = invitation ∧ org.accepting people principal row = .ok next := by
  simp only [Organization.acceptById, Organization.byIdFor] at accepted
  split at accepted
  · cases accepted
  · next row found =>
    split at accepted
    · exact ⟨row, (findAt_inv found).1, (findAt_inv found).2, accepted⟩
    · cases accepted

/-- A request writes what it may at any time, or accepts an invitation that stands. -/
private theorem apply_cases {action : TeamAction} (sound : Sound org) (done : action.apply people org = .ok next) :
    Writes org next ∨ ∃ principal row, (action = .accept principal row.id ∨ action = .acceptById principal row.id) ∧
      row ∈ org.invitations ∧ org.state people row principal = .stored .valid ∧
      next = (org.join principal row.role).marked principal row := by
  cases action with
  | wait elapsed =>
    cases done
    exact .inl (.single (.waited elapsed))
  | invite principal email role admitted => exact .inl (invite_writes sound done)
  | resend principal invitation role admitted => exact .inl (resend_writes sound done)
  | accept principal invitation =>
    obtain ⟨row, member, rfl, accepting⟩ := accept_inv done
    rcases accepting_inv accepting with rfl | ⟨open_, rfl⟩
    · exact .inl .refl
    · exact .inr ⟨principal, row, .inl rfl, member, open_, rfl⟩
  | acceptById principal invitation =>
    obtain ⟨row, member, rfl, accepting⟩ := acceptById_inv done
    rcases accepting_inv accepting with rfl | ⟨open_, rfl⟩
    · exact .inl .refl
    · exact .inr ⟨principal, row, .inr rfl, member, open_, rfl⟩
  | decline principal invitation => exact .inl (decline_writes sound done)
  | revoke principal invitation => exact .inl (revoke_writes sound done)
  | updateMember principal member role status => exact .inl (updateMember_writes done)
  | addOwner principal admitted => exact .inl (addOwner_writes done)
  | createChallenge session scope action target available admitted => exact .inl (createChallenge_writes done)
  | chargeAttempt session challenge =>
    cases done
    exact .inl (.single (.charged session challenge))
  | complete session challenge live => exact .inl (complete_inv done).1
  | consume session grant scope action target capability => exact .inl (consume_inv done).1

theorem perform_kept (sound : Sound org) (action : TeamAction) :
    Sound (action.perform people org) ∧ org.Onward (action.perform people org) := by
  simp only [TeamAction.perform]
  split
  · next done =>
    rcases apply_cases sound done with writes | ⟨principal, row, -, member, open_, rfl⟩
    · exact writes.kept sound
    · obtain ⟨-, after, onward, -⟩ := accepting_kept sound member open_
      exact ⟨after, onward⟩
  · exact ⟨sound, .refl org⟩

private theorem runTeam_kept (sound : Sound org) (actions : List TeamAction) :
    Sound (runTeam people org actions) ∧ org.Onward (runTeam people org actions) := by
  induction actions generalizing org with
  | nil => exact ⟨sound, .refl org⟩
  | cons action rest ih =>
    obtain ⟨after, here⟩ := perform_kept sound action
    obtain ⟨last, later⟩ := ih after
    exact ⟨last, here.trans later⟩

private theorem perform_accepts {action : TeamAction} (sound : Sound org) {id : Nat} (now : id ∈ (action.perform people org).acceptances)
    (fresh : id ∉ org.acceptances) :
    ∃ principal row, (action = .accept principal id ∨ action = .acceptById principal id) ∧ row ∈ org.invitations ∧ row.id = id ∧
      Acceptable people principal row org := by
  simp only [TeamAction.perform] at now
  split at now
  · next done =>
    rcases apply_cases sound done with writes | ⟨principal, row, asked, member, open_, rfl⟩
    · rw [writes.acceptances] at now
      exact absurd now fresh
    · obtain ⟨acceptable, -, -, acceptances⟩ := accepting_kept sound member open_
      rw [acceptances, List.mem_append, List.mem_singleton] at now
      obtain rfl := now.resolve_left fresh
      exact ⟨principal, row, asked, member, rfl, acceptable⟩
  · exact absurd now fresh

theorem Organization.Onward.inviter_unchanged {earlier : Organization} (before : Sound earlier) (after : Sound org)
    (onward : earlier.Onward org) (member : row ∈ org.invitations) {inviter : Membership} (inside : inviter ∈ org.memberships)
    (issuer : inviter.id = row.inviterMembershipId) (stamp : inviter.revision = row.inviterRevision)
    (existed : row.id ∈ earlier.invitations.map Invitation.id) : inviter ∈ earlier.memberships := by
  obtain ⟨issued, present, same⟩ := List.mem_map.mp existed
  obtain ⟨later, still, kept⟩ := onward.invitations issued present
  obtain rfl := after.invitation_unique still member (kept.id.trans same)
  obtain ⟨first, there, id, held⟩ := before.stamps issued present
  obtain ⟨moved, also, grown⟩ := onward.memberships first there
  obtain rfl : moved = inviter := after.member_unique also inside (by rw [grown.id, id, issuer, kept.inviter])
  have unmoved : moved.revision = first.revision := by
    have up := grown.revision
    rw [stamp, kept.stamp] at up ⊢
    omega
  rwa [grown.unchanged unmoved]

private theorem dead_refused (sound : Sound org) (member : grant ∈ org.grants) (dead : grant.Dead org.now) :
    (∀ session live, ∃ error, org.complete people session grant.id live = .error error) ∧
      ∀ session scope action target capability, ∃ error,
        org.consumeStepUpGrant people session grant.id scope action target capability = .error error := by
  have refused {other : StepUpGrant} (inside : other ∈ org.grants) (same : other.id = grant.id) (live : ¬other.Dead org.now) : False :=
    live (sound.grant_unique inside member same ▸ dead)
  constructor
  · intro session live
    cases outcome : org.complete people session grant.id live with
    | error error => exact ⟨error, rfl⟩
    | ok next =>
      obtain ⟨-, other, inside, same, standing⟩ := complete_inv outcome
      exact (refused inside same standing).elim
  · intro session scope action target capability
    cases outcome : org.consumeStepUpGrant people session grant.id scope action target capability with
    | error error => exact ⟨error, rfl⟩
    | ok next =>
      obtain ⟨-, other, inside, same, spendable, -⟩ := consume_inv outcome
      exact (refused inside same spendable.live).elim

end Operations

/-- A team keeps to its seats and to the authority it was given. In every state that a run reaches after an earlier one, and whatever is
asked next: no more members are active than the limit allows; no address has two valid invitations; an invitation is accepted once, by the
person it is addressed to, before it expires and while its inviter is an active Owner or Admin that is as it was in every earlier state
that had the invitation; no Owner's membership has changed; and nothing that a member opened before its access was reduced is completed or
spent afterwards. -/
theorem team_stays_safe (people : People) (now : Int) (limit : MemberLimit) (owner : Nat) (before later : List TeamAction) :
    let earlier := runTeam people (founded now limit owner) before
    let org := runTeam people earlier later
    org.activeMembers ≤ limit.seats ∧
    org.openAddresses.Nodup ∧
    org.acceptances.Nodup ∧
    (∀ action id, id ∈ (TeamAction.perform people org action).acceptances → id ∉ org.acceptances →
      ∃ principal row inviter, (action = .accept principal id ∨ action = .acceptById principal id) ∧
        row ∈ org.invitations ∧ row.id = id ∧ row.status = .valid ∧ org.now < row.expiresAt ∧
        people.normalizeEmail (people.email principal) = row.email ∧
        inviter ∈ org.memberships ∧ inviter.id = row.inviterMembershipId ∧ inviter.status = .active ∧
        (inviter.role = .owner ∨ inviter.role = .admin) ∧ inviter.revision = row.inviterRevision ∧
        (id ∈ earlier.invitations.map Invitation.id → inviter ∈ earlier.memberships)) ∧
    (∀ member ∈ earlier.memberships, member.role = .owner → member ∈ org.memberships) ∧
    (∀ principal member role status reduced target changed grant,
      earlier.updateMember people principal member role status = .ok reduced →
      findAt Membership.id member earlier.memberships = some target → findAt Membership.id member reduced.memberships = some changed →
      reducesAccess (target.role, target.status) (changed.role, changed.status) = true →
      grant ∈ earlier.grants → people.principalOf grant.sessionId = target.principalId →
      (∀ session live, ∃ error, (runTeam people reduced later).complete people session grant.id live = .error error) ∧
      ∀ session scope action text capability, ∃ error,
        (runTeam people reduced later).consumeStepUpGrant people session grant.id scope action text capability = .error error) := by
  intro earlier org
  obtain ⟨before, since⟩ : Sound earlier ∧ (founded now limit owner).Onward earlier := runTeam_kept (founded_sound now limit owner) before
  obtain ⟨after, onward⟩ : Sound org ∧ earlier.Onward org := runTeam_kept before later
  refine ⟨?seats, after.addresses, after.acceptedOnce, ?accepts, ?owners, ?grants⟩
  case seats =>
    have seats := after.seats
    rw [onward.limit, since.limit] at seats
    exact seats
  case accepts =>
    intro action id added fresh
    obtain ⟨principal, row, asked, member, same, acceptable⟩ := perform_accepts after added fresh
    obtain ⟨inviter, inside, issuer, active, role, stamp⟩ := acceptable.authority
    refine ⟨principal, row, inviter, asked, member, same, acceptable.valid, acceptable.unexpired, acceptable.addressed, inside, issuer,
      active, role, stamp, ?_⟩
    intro existed
    exact onward.inviter_unchanged before after member inside issuer stamp (same ▸ existed)
  case owners =>
    intro member inside role
    obtain ⟨later, still, kept⟩ := onward.memberships member inside
    exact kept.owner role ▸ still
  case grants =>
    intro principal member role status reduced target changed grant updated found moved less opened whose
    obtain ⟨sound, here⟩ := (updateMember_writes updated).kept before
    obtain ⟨last, there⟩ : Sound (runTeam people reduced later) ∧ reduced.Onward (runTeam people reduced later) :=
      runTeam_kept sound later
    obtain ⟨ended, present, kept⟩ := here.grants grant opened
    have dead := updateMember_ends before updated found moved less ended present (by rw [kept.session, whose])
    obtain ⟨final, still, stays⟩ := there.grants ended present
    rw [← kept.id, ← stays.id]
    exact dead_refused last still (stays.stays_dead dead there.clock)

end Quotum.Team
