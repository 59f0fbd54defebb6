import Quotum.ProviderConnections

/-! Connection versions are committed safely in every run in which no validation takes the identity or the event from under a commit or an
active version. The activity, the revisions and the binding hold in every run; the identity rests on validations that answer the same. -/

namespace Quotum.ProviderConnections
open General ConnectionStore

variable {version : ConnectionVersion} {connection : Connection} {kind : ConnectionKind}

def ConnectionEntry.changes (connectionId : Nat) : ConnectionEntry → Bool
  | .committed id _ _ _ | .disabled id => id == connectionId
  | _ => false

def changeCount (connectionId : Nat) (log : List ConnectionEntry) : Nat :=
  (log.filter (ConnectionEntry.changes connectionId)).length

section Law
variable (instances : Nat → ProjectInstance)

/-- A version as it becomes active: drafted with no commit or disable of its connection since, validated with every check passed within
the window, and in production, for a provider, with an event verified for its identity. -/
structure SafelyActive (earlier : List ConnectionEntry) (connectionId : Nat) (kind : ConnectionKind) (version : ConnectionVersion)
    (checkedAt : Int) : Prop where
  unchanged : ∃ newer older, earlier = newer ++ .drafted connectionId version.id :: older ∧
    ∀ entry ∈ newer, entry.changes connectionId = false
  validated : ∃ result time, version.validation = some result ∧ result.passed = true ∧ version.externalIdentity = some result.identity ∧
    version.validatedAt = some time ∧ checkedAt - validationWindowMs ≤ time
  verified : livemode instances version.instanceId = true → kind ≠ .projection →
    version.eventVerifiedAt ≠ none ∧ version.eventIdentity = version.externalIdentity

/-- A record, newest first, whose commits are safe. -/
def SafeLog : List ConnectionEntry → Prop
  | [] => True
  | entry :: earlier =>
    (∀ connectionId kind version checkedAt, entry = .committed connectionId kind version checkedAt →
      SafelyActive instances earlier connectionId kind version checkedAt) ∧ SafeLog earlier

/-- What holds of the connections: one active version each, the active one's; safe commits; accounts bound once, to stay, and the active
Stripe version's identity. -/
structure CommittedSafely (store : ConnectionStore) : Prop where
  active : ∀ connection ∈ store.connections, ∀ version ∈ store.versions, version.connectionId = connection.id →
    (version.status = .active ↔ connection.activeVersionId = some version.id)
  points : ∀ connection ∈ store.connections, ∀ id, connection.activeVersionId = some id →
    ∃ version ∈ store.versions, version.id = id ∧ version.connectionId = connection.id
  commits : SafeLog instances store.log
  accounts : ∀ first ∈ store.connections, ∀ second ∈ store.connections, ∀ account, first.stripeAccount = some account →
    second.stripeAccount = some account → first.id = second.id
  bound : ∀ connectionId account, .bound connectionId account ∈ store.log →
    ∀ connection ∈ store.connections, connection.id = connectionId → connection.stripeAccount = some account
  identity : ∀ connection ∈ store.connections, connection.kind = .stripe → ∀ version ∈ store.versions, version.connectionId = connection.id →
    version.status = .active → ∃ account, connection.stripeAccount = some account ∧ version.externalIdentity = some account.id

/-- Whether a validation leaves an active Stripe version its identity, and in production gives a version that an event was recorded for
the identity of that event. -/
def validationFits (instanceId : Nat) (kind : ConnectionKind) (result : ConnectionValidation) (version : ConnectionVersion) : Bool :=
  (version.status != .active || kind != .stripe || version.externalIdentity == some result.identity) &&
    (!livemode instances instanceId || kind == .projection || version.externalIdentity.isSome || version.eventVerifiedAt.isNone ||
      result.eventVerified || version.eventIdentity == some result.identity)

def CommitRequest.finishes (request : CommitRequest) : Option ConnectionVersion :=
  match request.stage with
  | .bound read _ _ => some read
  | .verified read _ => if request.kind = .stripe then none else some read
  | _ => none

/-- Whether the version that a commit makes active still has what the commit read: a Stripe version its identity, and in production a
provider's its verified event. -/
def commitFits (request : CommitRequest) (read : ConnectionVersion) (store : ConnectionStore) : Bool :=
  (store.committable request read).isNone || store.versions.all fun version => version.id != request.versionId ||
    (request.kind != .stripe || version.externalIdentity == read.externalIdentity) &&
      (!livemode instances request.instanceId || request.kind == .projection || version.eventVerifiedAt.isSome)

/-- Whether a step takes no identity and no event from under a commit or an active version. -/
def ConnectionStep.fits (served : ServedConnections) : ConnectionStep → Bool
  | .validate instanceId kind id result => served.store.versions.all fun version =>
      !(version.id == id && version.instanceId == instanceId && served.store.matchesKind version.connectionId kind &&
        accepts result served.store.now version) || validationFits instances instanceId kind result version
  | .advance index => (served.sessions[index]?).all fun request => request.finishes.all fun read => commitFits instances request read served.store
  | _ => true

def orderly (served : ServedConnections) : List ConnectionStep → Bool
  | [] => true
  | step :: rest => step.fits instances served && orderly (perform instances served step) rest

structure Owned (connection : Connection) (version : ConnectionVersion) : Prop where
  active : version.status = .active ↔ connection.activeVersionId = some version.id
  identity : connection.kind = .stripe → version.status = .active → ∃ account, connection.stripeAccount = some account ∧
    version.externalIdentity = some account.id
  events : connection.kind ≠ .projection → livemode instances connection.instanceId = true → version.eventVerifiedAt ≠ none →
    version.externalIdentity ≠ none → version.eventIdentity = version.externalIdentity

def Validated (now : Int) (version : ConnectionVersion) : Prop :=
  ∀ time, version.validatedAt = some time → time ≤ now ∧
    ∃ result, version.validation = some result ∧ result.passed = true ∧ version.externalIdentity = some result.identity

structure Drafted (store : ConnectionStore) (version : ConnectionVersion) : Prop where
  owner : ∃ connection ∈ store.connections, connection.id = version.connectionId ∧ connection.instanceId = version.instanceId
  validated : Validated store.now version
  draft : ∃ newer older, store.log = newer ++ .drafted version.connectionId version.id :: older ∧
    version.expectedRevision = changeCount version.connectionId older

structure Connected (store : ConnectionStore) (connection : Connection) : Prop where
  points : ∀ id, connection.activeVersionId = some id → ∃ version ∈ store.versions, version.id = id ∧ version.connectionId = connection.id
  mode : ∀ account, connection.stripeAccount = some account →
    connection.kind = .stripe ∧ account.livemode = livemode instances connection.instanceId
  revision : connection.revision = changeCount connection.id store.log

structure Sound (store : ConnectionStore) : Prop where
  versionIds : store.versions.map ConnectionVersion.id = List.range store.versions.length
  connectionIds : store.connections.map Connection.id = List.range store.connections.length
  owned : ∀ connection ∈ store.connections, ∀ version ∈ store.versions, version.connectionId = connection.id → Owned instances connection version
  versions : ∀ version ∈ store.versions, Drafted store version
  connections : ∀ connection ∈ store.connections, Connected instances store connection
  accounts : ∀ first ∈ store.connections, ∀ second ∈ store.connections, ∀ account, first.stripeAccount = some account →
    second.stripeAccount = some account → first.id = second.id
  logged : ∀ connectionId, store.connections.length ≤ connectionId → changeCount connectionId store.log = 0
  bound : ∀ connectionId account, .bound connectionId account ∈ store.log → connectionId < store.connections.length ∧
    ∀ connection ∈ store.connections, connection.id = connectionId → connection.stripeAccount = some account
  commits : SafeLog instances store.log

end Law

/-- A version's row as it is later. -/
structure Later (version later : ConnectionVersion) : Prop where
  id : later.id = version.id
  connectionId : later.connectionId = version.connectionId
  instanceId : later.instanceId = version.instanceId
  expectedRevision : later.expectedRevision = version.expectedRevision
  validatedAt : ∀ time, version.validatedAt = some time → ∃ newer, later.validatedAt = some newer ∧ time ≤ newer

structure SameConnection (connection later : Connection) : Prop where
  id : later.id = connection.id
  kind : later.kind = connection.kind
  instanceId : later.instanceId = connection.instanceId

structure Changes (holder : ConnectionLock → Prop) (before after : ConnectionStore) : Prop where
  versions : ∀ version ∈ before.versions, ∃ later ∈ after.versions, Later version later
  connections : ∀ connection ∈ before.connections, ∃ later ∈ after.connections, SameConnection connection later
  accounts : ∀ connection ∈ after.connections, ∀ account, connection.stripeAccount = some account →
    (∃ old ∈ before.connections, old.id = connection.id ∧ old.stripeAccount = some account) ∨
      holder (.account account) ∧ holder (.connection connection.id)

def Keeps (instances : Nat → ProjectInstance) (holder : ConnectionLock → Prop) (store after : ConnectionStore) : Prop :=
  Sound instances after ∧ Changes holder store after

section Tables
variable {instances : Nat → ProjectInstance} {store after : ConnectionStore} {holder : ConnectionLock → Prop}

theorem Later.refl (version : ConnectionVersion) : Later version version :=
  ⟨rfl, rfl, rfl, rfl, fun time found => ⟨time, found, Int.le_refl time⟩⟩

theorem Later.trans {next last : ConnectionVersion} (first : Later version next) (second : Later next last) : Later version last := by
  refine ⟨second.id.trans first.id, second.connectionId.trans first.connectionId, second.instanceId.trans first.instanceId,
    second.expectedRevision.trans first.expectedRevision, fun time stamped => ?_⟩
  obtain ⟨newer, found, past⟩ := first.validatedAt time stamped
  obtain ⟨newest, stands, onward⟩ := second.validatedAt newer found
  exact ⟨newest, stands, past.trans onward⟩

theorem SameConnection.refl (connection : Connection) : SameConnection connection connection :=
  ⟨rfl, rfl, rfl⟩

theorem Changes.refl (holder : ConnectionLock → Prop) (store : ConnectionStore) : Changes holder store store where
  versions := fun version member => ⟨version, member, .refl version⟩
  connections := fun connection member => ⟨connection, member, .refl connection⟩
  accounts := fun connection member _ found => .inl ⟨connection, member, rfl, found⟩

section
variable (sound : Sound instances store) {edit : ConnectionVersion → ConnectionVersion}
include sound

theorem Sound.same : Keeps instances holder store store :=
  ⟨sound, Changes.refl holder store⟩

theorem Sound.connection_unique {first second : Connection} (one : first ∈ store.connections)
    (two : second ∈ store.connections) (same : first.id = second.id) : first = second := by
  have distinct : (store.connections.map Connection.id).Nodup := by
    rw [sound.connectionIds]
    exact List.nodup_range
  exact List.inj_on_of_nodup_map distinct one two same

theorem Sound.version_unique {first second : ConnectionVersion} (one : first ∈ store.versions)
    (two : second ∈ store.versions) (same : first.id = second.id) : first = second := by
  have distinct : (store.versions.map ConnectionVersion.id).Nodup := by
    rw [sound.versionIds]
    exact List.nodup_range
  exact List.inj_on_of_nodup_map distinct one two same

theorem Sound.version_lt (member : version ∈ store.versions) :
    version.id < store.versions.length := by
  have listed := List.mem_map_of_mem (f := ConnectionVersion.id) member
  rw [sound.versionIds] at listed
  exact List.mem_range.mp listed

theorem Sound.connection_lt (member : connection ∈ store.connections) :
    connection.id < store.connections.length := by
  have listed := List.mem_map_of_mem (f := Connection.id) member
  rw [sound.connectionIds] at listed
  exact List.mem_range.mp listed

theorem Sound.safely : CommittedSafely instances store :=
  ⟨fun connection there version member own => (sound.owned connection there version member own).active,
    fun connection there => (sound.connections connection there).points, sound.commits, sound.accounts,
    fun connectionId account entry => (sound.bound connectionId account entry).2,
    fun connection there stripe version member own => (sound.owned connection there version member own).identity stripe⟩

omit sound in
private theorem changeCount_cons (connectionId : Nat) (entry : ConnectionEntry) (log : List ConnectionEntry) :
    changeCount connectionId (entry :: log) = (if entry.changes connectionId then 1 else 0) + changeCount connectionId log := by
  rw [changeCount, changeCount, List.filter_cons]
  split
  · rw [List.length_cons, Nat.add_comm]
  · rw [Nat.zero_add]

omit sound in
/-- Entries that leave the count as it was change nothing. -/
private theorem unchanged_since {connectionId : Nat} {newer older : List ConnectionEntry} {entry : ConnectionEntry}
    (same : changeCount connectionId (newer ++ entry :: older) = changeCount connectionId older) :
    ∀ other ∈ newer, other.changes connectionId = false := by
  have parts : changeCount connectionId (newer ++ entry :: older) = changeCount connectionId newer + changeCount connectionId (entry :: older) := by
    rw [changeCount, List.filter_append, List.length_append]
    rfl
  rw [parts, changeCount_cons] at same
  have none : changeCount connectionId newer = 0 := by omega
  intro other member
  exact Bool.eq_false_iff.mpr (List.filter_eq_nil_iff.mp (List.eq_nil_of_length_eq_zero none) other member)

theorem Sound.rewritten {turn : Connection → Connection}
    {newer : List ConnectionEntry} {receipts : List OperationReceipt} (place : ∀ version ∈ store.versions, Later version (edit version))
    (rows : ∀ connection, SameConnection connection (turn connection))
    (owned : ∀ connection ∈ store.connections, ∀ version ∈ store.versions, version.connectionId = connection.id →
      Owned instances (turn connection) (edit version)) (validated : ∀ version ∈ store.versions, Validated store.now (edit version))
    (points : ∀ connection ∈ store.connections, ∀ id, (turn connection).activeVersionId = some id →
      ∃ version ∈ store.versions, version.id = id ∧ version.connectionId = connection.id)
    (binds : ∀ connection ∈ store.connections, ∀ account, (turn connection).stripeAccount = some account →
      connection.stripeAccount = some account ∨ (holder (.account account) ∧ holder (.connection connection.id)) ∧
        connection.kind = .stripe ∧ account.livemode = livemode instances connection.instanceId)
    (accounts : ∀ first ∈ store.connections, ∀ second ∈ store.connections, ∀ account, (turn first).stripeAccount = some account →
      (turn second).stripeAccount = some account → first.id = second.id)
    (revision : ∀ connection ∈ store.connections, (turn connection).revision = changeCount connection.id (newer ++ store.log))
    (logged : ∀ connectionId, store.connections.length ≤ connectionId → changeCount connectionId (newer ++ store.log) = 0)
    (bound : ∀ connectionId account, .bound connectionId account ∈ newer ++ store.log → connectionId < store.connections.length ∧
      ∀ connection ∈ store.connections, connection.id = connectionId → (turn connection).stripeAccount = some account)
    (commits : SafeLog instances (newer ++ store.log)) :
    Keeps instances holder store ⟨store.now, store.connections.map turn, store.versions.map edit, receipts, newer ++ store.log⟩ := by
  refine ⟨⟨?_, ?_, ?_, ?_, ?_, ?_, ?_, ?_, commits⟩, ?_, ?_, ?_⟩
  · rw [List.map_map, List.length_map, ← sound.versionIds]
    exact List.map_congr_left fun version member => (place version member).id
  · rw [List.map_map, List.length_map, ← sound.connectionIds]
    exact List.map_congr_left fun connection _ => (rows connection).id
  · intro connection there version member own
    obtain ⟨owning, before, rfl⟩ := List.mem_map.mp there
    obtain ⟨old, inside, rfl⟩ := List.mem_map.mp member
    exact owned owning before old inside ((place old inside).connectionId.symm.trans (own.trans (rows owning).id))
  · intro version member
    obtain ⟨old, inside, rfl⟩ := List.mem_map.mp member
    obtain ⟨⟨owning, before, same, instanceId⟩, -, since, older, log, expected⟩ := sound.versions old inside
    obtain ⟨id, connectionId, sameInstance, sameExpected, -⟩ := place old inside
    refine ⟨⟨turn owning, List.mem_map_of_mem before, ?_, ?_⟩, validated old inside, newer ++ since, older, ?_, ?_⟩
    · rw [(rows owning).id, same, connectionId]
    · rw [(rows owning).instanceId, instanceId, sameInstance]
    · rw [id, connectionId, log, List.append_assoc]
    · rw [sameExpected, expected, connectionId]
  · intro connection there
    obtain ⟨owning, before, rfl⟩ := List.mem_map.mp there
    refine ⟨fun id pointed => ?_, fun account found => ?_, (revision owning before).trans (by rw [(rows owning).id])⟩
    · obtain ⟨version, member, same, own⟩ := points owning before id pointed
      have later := place version member
      exact ⟨edit version, List.mem_map_of_mem member, later.id.trans same, later.connectionId.trans (own.trans (rows owning).id.symm)⟩
    · rw [(rows owning).kind, (rows owning).instanceId]
      exact (binds owning before account found).elim ((sound.connections owning before).mode account) And.right
  · intro first one second two account firstBound secondBound
    obtain ⟨old, before, rfl⟩ := List.mem_map.mp one
    obtain ⟨other, also, rfl⟩ := List.mem_map.mp two
    rw [(rows old).id, (rows other).id]
    exact accounts old before other also account firstBound secondBound
  · intro connectionId beyond
    rw [List.length_map] at beyond
    exact logged connectionId beyond
  · intro connectionId account entry
    obtain ⟨within, each⟩ := bound connectionId account entry
    rw [List.length_map]
    refine ⟨within, fun connection there same => ?_⟩
    obtain ⟨owning, before, rfl⟩ := List.mem_map.mp there
    exact each owning before ((rows owning).id.symm.trans same)
  · exact fun version member => ⟨edit version, List.mem_map_of_mem member, place version member⟩
  · exact fun connection member => ⟨turn connection, List.mem_map_of_mem member, rows connection⟩
  · intro connection there account found
    obtain ⟨owning, before, rfl⟩ := List.mem_map.mp there
    rw [(rows owning).id]
    exact (binds owning before account found).imp (fun old => ⟨owning, before, rfl, old⟩) And.left

theorem Sound.edited (place : ∀ version ∈ store.versions, Later version (edit version))
    (owned : ∀ connection ∈ store.connections, ∀ version ∈ store.versions, version.connectionId = connection.id →
      Owned instances connection version → Owned instances connection (edit version))
    (validated : ∀ version ∈ store.versions, Validated store.now version → Validated store.now (edit version)) :
    Keeps instances holder store { store with versions := store.versions.map edit } := by
  have kept := @Sound.rewritten instances store holder sound edit id [] store.receipts place SameConnection.refl
    (fun connection there version member own => owned connection there version member own (sound.owned connection there version member own))
    (fun version member => validated version member (sound.versions version member).validated)
    (fun connection there => (sound.connections connection there).points) (fun connection there account found => .inl found)
    sound.accounts (fun connection there => (sound.connections connection there).revision) sound.logged sound.bound sound.commits
  rwa [List.map_id] at kept

omit sound in
private theorem validated_shape (result : ConnectionValidation) (now : Int) (version : ConnectionVersion) :
    ∃ status eventVerifiedAt eventIdentity, validated result now version = { version with
      status := status, validation := some result, validatedAt := some now, externalIdentity := some result.identity,
      eventVerifiedAt := eventVerifiedAt, eventIdentity := eventIdentity } ∧ (status = .active ↔ version.status = .active) ∧
      (eventIdentity = some result.identity ∨ eventVerifiedAt = none ∨ result.eventVerified = false ∧
        eventVerifiedAt = version.eventVerifiedAt ∧ eventIdentity = version.eventIdentity ∧
          (version.externalIdentity = none ∨ version.externalIdentity = some result.identity)) := by
  have status : (if version.status = .active then VersionStatus.active else .validated) = .active ↔ version.status = .active := by
    split
    · next active => exact iff_of_true rfl active
    · next other => exact iff_of_false (by rintro ⟨⟩) other
  rw [validated]
  split
  · exact ⟨_, _, _, rfl, status, .inl rfl⟩
  · next unverified =>
    split
    · exact ⟨_, _, _, rfl, status, .inr (.inl rfl)⟩
    · next same =>
      refine ⟨_, _, _, rfl, status, .inr (.inr ⟨Bool.eq_false_iff.mpr unverified, rfl, rfl, ?_⟩)⟩
      cases before : version.externalIdentity with
      | none => exact .inl rfl
      | some identity =>
        rw [before] at same
        exact .inr (congrArg some (by simpa using same))

theorem Sound.kind_of (member : connection ∈ store.connections)
    {connectionId : Nat} (matched : store.matchesKind connectionId kind = true) (same : connectionId = connection.id) :
    connection.kind = kind := by
  obtain ⟨other, there, found⟩ := List.any_eq_true.mp matched
  rw [Bool.and_eq_true, beq_iff_eq, beq_iff_eq] at found
  rw [← found.2, sound.connection_unique member there (same.symm.trans found.1.symm)]

theorem Sound.instance_of (there : connection ∈ store.connections)
    (member : version ∈ store.versions) (owned : version.connectionId = connection.id) :
    connection.instanceId = version.instanceId := by
  obtain ⟨owner, inside, same, instanceId⟩ := (sound.versions version member).owner
  rw [sound.connection_unique there inside (owned.symm.trans same.symm)]
  exact instanceId

theorem Sound.validate {instanceId : Nat} {id : Nat} {result : ConnectionValidation}
    {sessions : List CommitRequest} (fits : (ConnectionStep.validate instanceId kind id result).fits instances ⟨store, sessions⟩ = true) :
    Keeps instances holder store (store.validate instanceId kind id result) := by
  apply sound.edited
  · intro version member
    split
    · obtain ⟨status, eventVerifiedAt, eventIdentity, shape, -⟩ := validated_shape result store.now version
      rw [shape]
      exact ⟨rfl, rfl, rfl, rfl, fun time stamped => ⟨store.now, rfl, ((sound.versions version member).validated time stamped).1⟩⟩
    · exact .refl version
  · intro connection there version member own owned
    split
    · next found =>
      obtain ⟨sameId, sameInstance, matched, accepted⟩ := found
      have fitting := List.all_eq_true.mp fits version member
      rw [sameId, sameInstance, matched, accepted] at fitting
      have fitting : validationFits instances instanceId kind result version = true := by simpa using fitting
      obtain ⟨identityFits, eventFits⟩ := Bool.and_eq_true_iff.mp fitting
      have sameKind := sound.kind_of there matched own
      have owner := (sound.instance_of there member own).trans sameInstance
      obtain ⟨status, eventVerifiedAt, eventIdentity, shape, active, event⟩ := validated_shape result store.now version
      rw [shape]
      refine ⟨active.trans owned.active, fun stripe nowActive => ?_, fun provider live happened _ => ?_⟩
      · have wasActive := active.mp nowActive
        rw [wasActive, ← sameKind, stripe] at identityFits
        obtain ⟨account, bound, named⟩ := owned.identity stripe wasActive
        exact ⟨account, bound, (beq_iff_eq.mp (by simpa using identityFits)).symm.trans named⟩
      · rcases event with own | withdrawn | ⟨unverified, sameEvent, sameEventIdentity, absent | same⟩
        · exact own
        · exact absurd withdrawn happened
        · have other : (kind == ConnectionKind.projection) = false := beq_eq_false_iff_ne.mpr (sameKind ▸ provider)
          have recorded : version.eventVerifiedAt.isNone = false := by
            rw [Option.isNone_eq_false_iff, Option.isSome_iff_ne_none]
            exact sameEvent ▸ happened
          rw [owner] at live
          rw [live, other, absent, recorded, unverified] at eventFits
          exact sameEventIdentity.trans (beq_iff_eq.mp (by simpa using eventFits))
        · have kept := owned.events provider live (sameEvent ▸ happened) (by rw [same]; rintro ⟨⟩)
          exact sameEventIdentity.trans (kept.trans same)
    · exact owned
  · intro version member before
    split
    · next found =>
      obtain ⟨status, eventVerifiedAt, eventIdentity, shape, -⟩ := validated_shape result store.now version
      rw [shape]
      intro time stamped
      exact ⟨(Option.some.inj stamped).symm.le, result, rfl, (Bool.and_eq_true_iff.mp found.2.2.2).1, rfl⟩
    · exact before

theorem Sound.recorded {identity : Text} (each : ∀ version ∈ store.versions, edit version = version ∨
      edit version = { version with eventVerifiedAt := some store.now, eventIdentity := some identity } ∧
        (version.externalIdentity = none ∨ version.externalIdentity = some identity)) :
    Keeps instances holder store { store with versions := store.versions.map edit } := by
  apply sound.edited
  · intro version member
    rcases each version member with same | ⟨stamped, -⟩
    · rw [same]
      exact .refl version
    · rw [stamped]
      exact ⟨rfl, rfl, rfl, rfl, fun time found => ⟨time, found, Int.le_refl time⟩⟩
  · intro connection there version member _ owned
    rcases each version member with same | ⟨stamped, fits⟩
    · rw [same]
      exact owned
    · rw [stamped]
      exact ⟨owned.active, owned.identity, fun _ _ _ named => (fits.resolve_left named).symm⟩
  · intro version member before
    rcases each version member with same | ⟨stamped, -⟩
    · rw [same]
      exact before
    · rw [stamped]
      exact before

theorem Sound.recordEvent (id : Nat) (identity : Text) (occurred : Int) :
    Keeps instances holder store (store.recordEvent id identity occurred) := by
  refine @Sound.recorded _ _ _ sound _ identity fun version member => ?_
  split
  · next found => exact .inr ⟨rfl, found.2.1⟩
  · exact .inl rfl

theorem Sound.verified (connectionId versionId : Nat) (account : ProviderAccount) (occurred : Int) :
    Keeps instances holder store (store.verified connectionId versionId account occurred) := by
  rw [ConnectionStore.verified]
  split
  · next mapped =>
    obtain ⟨connection, there, found⟩ := List.any_eq_true.mp mapped
    rw [Bool.and_eq_true, Bool.and_eq_true, beq_iff_eq, beq_iff_eq, beq_iff_eq] at found
    refine @Sound.recorded _ _ _ sound _ account.id fun version member => ?_
    split
    · next here =>
      have stripe := ((sound.connections connection there).mode account found.2).1
      obtain ⟨other, bound, named⟩ :=
        (sound.owned connection there version member (here.1.trans found.1.1.symm)).identity stripe here.2.2.1
      obtain rfl := Option.some.inj (found.2.symm.trans bound)
      exact .inr ⟨rfl, .inr named⟩
    · exact .inl rfl
  · exact sound.same

theorem Sound.later (elapsed : Nat) : Keeps instances holder store { store with now := store.now + elapsed } := by
  obtain ⟨versionIds, connectionIds, owned, versions, connections, accounts, logged, bound, commits⟩ := sound
  have same := Changes.refl holder store
  refine ⟨⟨versionIds, connectionIds, owned, fun version member => ?_, fun connection there => ?_, accounts, logged, bound, commits⟩,
    same.versions, same.connections, same.accounts⟩
  · obtain ⟨owner, validated, draft⟩ := versions version member
    refine ⟨owner, fun time stamped => ?_, draft⟩
    obtain ⟨past, result⟩ := validated time stamped
    exact ⟨past.trans (Int.le_add_of_nonneg_right (Int.natCast_nonneg elapsed)), result⟩
  · obtain ⟨points, mode, revision⟩ := connections connection there
    exact ⟨points, mode, revision⟩

theorem Sound.addVersion (there : connection ∈ store.connections)
    (key fingerprint : Text) : Keeps instances holder store (store.addVersion connection key fingerprint) := by
  have count (connectionId : Nat) :
      changeCount connectionId (store.addVersion connection key fingerprint).log = changeCount connectionId store.log := by
    rw [ConnectionStore.addVersion, changeCount_cons]
    exact Nat.zero_add _
  have entries {connectionId : Nat} {account : ProviderAccount}
      (entry : .bound connectionId account ∈ (store.addVersion connection key fingerprint).log) : .bound connectionId account ∈ store.log :=
    (List.mem_cons.mp entry).resolve_left (by rintro ⟨⟩)
  refine ⟨⟨?_, sound.connectionIds, ?_, ?_, ?_, sound.accounts, ?_, fun id account entry => sound.bound id account (entries entry),
    ⟨by rintro _ _ _ _ ⟨⟩, sound.commits⟩⟩, ?_, ?_, ?_⟩
  · simp only [ConnectionStore.addVersion, List.map_append, sound.versionIds, List.length_append, List.map_cons, List.map_nil,
      List.length_singleton, List.range_succ]
    rfl
  · intro other inside version member owned
    rcases List.mem_append.mp member with old | new
    · exact sound.owned other inside version old owned
    · obtain rfl := List.mem_singleton.mp new
      refine ⟨iff_of_false (by rintro ⟨⟩) fun pointed => ?_, by rintro - ⟨⟩, fun _ _ happened => absurd rfl happened⟩
      obtain ⟨old, before, same, -⟩ := (sound.connections other inside).points _ pointed
      exact absurd same (sound.version_lt before).ne
  · intro version member
    rcases List.mem_append.mp member with old | new
    · obtain ⟨owner, validated, newer, older, log, expected⟩ := sound.versions version old
      refine ⟨owner, validated, .drafted connection.id store.versions.length :: newer, older, ?_, expected⟩
      rw [ConnectionStore.addVersion, log]
      rfl
    · obtain rfl := List.mem_singleton.mp new
      exact ⟨⟨connection, there, rfl, rfl⟩, by rintro time ⟨⟩, [], store.log, rfl, (sound.connections connection there).revision⟩
  · intro other inside
    obtain ⟨points, mode, revision⟩ := sound.connections other inside
    refine ⟨fun id pointed => ?_, mode, revision.trans (count other.id).symm⟩
    obtain ⟨version, member, same⟩ := points id pointed
    exact ⟨version, List.mem_append_left _ member, same⟩
  · intro connectionId beyond
    rw [count]
    exact sound.logged connectionId beyond
  · exact fun version member => ⟨version, List.mem_append_left _ member, .refl version⟩
  · exact fun other member => ⟨other, member, .refl other⟩
  · exact fun other member account found => .inl ⟨other, member, rfl, found⟩

omit sound in
theorem Changes.trans {between : ConnectionStore} (first : Changes holder store between) (second : Changes holder between after) :
    Changes holder store after where
  versions := by
    intro version member
    obtain ⟨later, there, next⟩ := first.versions version member
    obtain ⟨last, inside, more⟩ := second.versions later there
    exact ⟨last, inside, next.trans more⟩
  connections := by
    intro connection member
    obtain ⟨later, there, id, kind, instanceId⟩ := first.connections connection member
    obtain ⟨last, inside, lastId, lastKind, lastInstance⟩ := second.connections later there
    exact ⟨last, inside, lastId.trans id, lastKind.trans kind, lastInstance.trans instanceId⟩
  accounts := by
    intro connection member account found
    rcases second.accounts connection member account found with ⟨old, there, same, bound⟩ | held
    · rcases first.accounts old there account bound with ⟨older, inside, id, was⟩ | ⟨one, two⟩
      · exact .inl ⟨older, inside, id.trans same, was⟩
      · exact .inr ⟨one, same ▸ two⟩
    · exact .inr held

theorem Sound.newConnection (instanceId : Nat) (kind : ConnectionKind) : Keeps instances holder store
    { store with connections := store.connections ++ [⟨store.connections.length, instanceId, kind, 0, false, none, none⟩] } := by
  refine ⟨⟨sound.versionIds, ?_, ?_, ?_, ?_, ?_, ?_, ?_, sound.commits⟩, ?_, ?_, ?_⟩
  · simp only [List.map_append, sound.connectionIds, List.map_cons, List.map_nil, List.length_append, List.length_singleton, List.range_succ]
  · intro connection member version inside own
    rcases List.mem_append.mp member with old | new
    · exact sound.owned connection old version inside own
    · obtain rfl := List.mem_singleton.mp new
      obtain ⟨owner, there, same, -⟩ := (sound.versions version inside).owner
      exact absurd (same.trans own) (sound.connection_lt there).ne
  · intro version member
    obtain ⟨⟨connection, there, same⟩, validated, draft⟩ := sound.versions version member
    exact ⟨⟨connection, List.mem_append_left _ there, same⟩, validated, draft⟩
  · intro connection member
    rcases List.mem_append.mp member with old | new
    · obtain ⟨points, mode, revision⟩ := sound.connections connection old
      exact ⟨points, mode, revision⟩
    · obtain rfl := List.mem_singleton.mp new
      exact ⟨by rintro id ⟨⟩, by rintro account ⟨⟩, (sound.logged store.connections.length (Nat.le_refl _)).symm⟩
  · intro first one second two account firstBound secondBound
    rcases List.mem_append.mp one with old | new
    · rcases List.mem_append.mp two with other | fresh
      · exact sound.accounts first old second other account firstBound secondBound
      · obtain rfl := List.mem_singleton.mp fresh
        cases secondBound
    · obtain rfl := List.mem_singleton.mp new
      cases firstBound
  · intro connectionId beyond
    apply sound.logged connectionId
    rw [List.length_append] at beyond
    exact (Nat.le_add_right _ _).trans beyond
  · intro connectionId account entry
    obtain ⟨within, each⟩ := sound.bound connectionId account entry
    rw [List.length_append]
    refine ⟨within.trans_le (Nat.le_add_right _ _), fun connection there same => ?_⟩
    rcases List.mem_append.mp there with old | new
    · exact each connection old same
    · obtain rfl := List.mem_singleton.mp new
      exact absurd same.symm within.ne
  · exact fun version member => ⟨version, member, .refl version⟩
  · exact fun connection member => ⟨connection, List.mem_append_left _ member, .refl connection⟩
  · intro connection member account found
    rcases List.mem_append.mp member with old | new
    · exact .inl ⟨connection, old, rfl, found⟩
    · obtain rfl := List.mem_singleton.mp new
      cases found

theorem Sound.draft (instanceId : Nat) (kind : ConnectionKind) (key fingerprint : Text) (expectedRevision : Nat) :
    Keeps instances holder store (store.draft instanceId kind key fingerprint expectedRevision) := by
  rw [ConnectionStore.draft]
  split
  · dsimp only
    split
    · exact sound.same
    · obtain ⟨created, changes⟩ : Keeps instances holder store _ := sound.newConnection instanceId kind
      obtain ⟨added, more⟩ : Keeps instances holder _ _ :=
        created.addVersion (List.mem_append_right _ (List.mem_singleton_self _)) key fingerprint
      exact ⟨added, changes.trans more⟩
  · next connection found =>
    split
    · exact sound.same
    · split
      · exact sound.same
      · exact sound.addVersion (List.mem_of_find?_eq_some found) key fingerprint

theorem Sound.disabledAt (there : connection ∈ store.connections)
    (receipts : List OperationReceipt) :
    Keeps instances holder store { store.editConnection connection.id (fun row => { row with enabled := false, revision := row.revision + 1 }) with
      receipts := receipts, log := .disabled connection.id :: store.log } := by
  have row (old : Connection) :
      let row := if old.id = connection.id then { old with enabled := false, revision := old.revision + 1 } else old
      SameConnection old row ∧ row.activeVersionId = old.activeVersionId ∧ row.stripeAccount = old.stripeAccount ∧
        row.revision = (if connection.id = old.id then 1 else 0) + old.revision := by
    by_cases same : old.id = connection.id
    · dsimp only
      rw [if_pos same, if_pos same.symm]
      exact ⟨⟨rfl, rfl, rfl⟩, rfl, rfl, Nat.add_comm _ _⟩
    · dsimp only
      rw [if_neg same, if_neg (Ne.symm same)]
      exact ⟨.refl old, rfl, rfl, (Nat.zero_add _).symm⟩
  have kept := @Sound.rewritten instances store holder sound id _ [.disabled connection.id] receipts (fun version _ => .refl version)
    (fun old => (row old).1)
  rw [List.map_id] at kept
  apply kept
  · intro old before version member own
    obtain ⟨same, active, account, -⟩ := row old
    obtain ⟨isActive, identity, events⟩ := sound.owned old before version member own
    refine ⟨?_, fun stripe => ?_, ?_⟩
    · rw [active]
      exact isActive
    · rw [account]
      exact identity (same.kind.symm.trans stripe)
    · rw [same.kind, same.instanceId]
      exact events
  · exact fun version member => (sound.versions version member).validated
  · exact fun old before id pointed => (sound.connections old before).points id ((row old).2.1.symm.trans pointed)
  · exact fun old before account found => .inl ((row old).2.2.1.symm.trans found)
  · intro first one second two account firstBound secondBound
    exact sound.accounts first one second two account ((row first).2.2.1.symm.trans firstBound) ((row second).2.2.1.symm.trans secondBound)
  · intro old before
    rw [(row old).2.2.2, List.singleton_append, changeCount_cons, (sound.connections old before).revision]
    simp only [ConnectionEntry.changes, beq_iff_eq]
  · intro connectionId beyond
    rw [List.singleton_append, changeCount_cons, sound.logged connectionId beyond, if_neg]
    rw [ConnectionEntry.changes, beq_iff_eq]
    exact ((sound.connection_lt there).trans_le beyond).ne
  · intro connectionId account entry
    obtain ⟨within, each⟩ := sound.bound connectionId account ((List.mem_cons.mp entry).resolve_left (by rintro ⟨⟩))
    exact ⟨within, fun old before same => (row old).2.2.1.trans (each old before same)⟩
  · exact ⟨by rintro _ _ _ _ ⟨⟩, sound.commits⟩

theorem Sound.disable (instanceId : Nat) (kind : ConnectionKind) (key : Text) (revision : Nat) :
    Keeps instances holder store (store.disable instanceId kind key revision) := by
  rw [ConnectionStore.disable]
  split
  · next connection _ found =>
    split
    · exact sound.same
    · exact sound.disabledAt (List.mem_of_find?_eq_some found) _
  · exact sound.same

theorem Sound.completeDeauthorization (connectionId : Nat) :
    Keeps instances holder store (store.completeDeauthorization connectionId) := by
  rw [ConnectionStore.completeDeauthorization]
  split
  · exact sound.same
  · next connection found =>
    split
    · have same := List.find?_some found
      rw [beq_iff_eq] at same
      rw [← same]
      exact sound.disabledAt (List.mem_of_find?_eq_some found) store.receipts
    · exact sound.same

end

end Tables

section Commits
variable (instances : Nat → ProjectInstance)

structure ReadBy (store : ConnectionStore) (request : CommitRequest) (read : ConnectionVersion) (checkedAt : Int) : Prop where
  version : ∃ version ∈ store.versions, version.id = request.versionId ∧ version.connectionId = read.connectionId ∧
    version.instanceId = request.instanceId ∧ version.expectedRevision = read.expectedRevision ∧
      ∃ time, version.validatedAt = some time ∧ checkedAt - validationWindowMs ≤ time
  connection : ∃ connection ∈ store.connections, connection.id = read.connectionId ∧ connection.kind = request.kind ∧
    connection.instanceId = request.instanceId

/-- What it knows of the account that it is about to bind: it is the version's, and no other connection's, and the connection has no other. -/
structure BoundBy (store : ConnectionStore) (request : CommitRequest) (read : ConnectionVersion) (account : ProviderAccount) : Prop where
  stripe : request.kind = .stripe
  named : read.externalIdentity = some account.id
  mode : account.livemode = livemode instances request.instanceId
  free : ∀ connection ∈ store.connections, ∀ bound, connection.stripeAccount = some bound →
    (bound = account → connection.id = read.connectionId) ∧ (connection.id = read.connectionId → bound = account)

def Knows (store : ConnectionStore) (request : CommitRequest) : Prop :=
  match request.stage with
  | .verified read checkedAt => ReadBy store request read checkedAt
  | .bound read account checkedAt => ReadBy store request read checkedAt ∧ BoundBy instances store request read account
  | _ => True

variable {instances} {store after : ConnectionStore} {holder : ConnectionLock → Prop} {request : CommitRequest} {read old : ConnectionVersion}
  {checkedAt : Int}

theorem ReadBy.later (knows : ReadBy store request read checkedAt) (changes : Changes holder store after) :
    ReadBy after request read checkedAt where
  version := by
    obtain ⟨version, member, id, connectionId, instanceId, expected, time, stamped, fresh⟩ := knows.version
    obtain ⟨later, there, sameId, sameConnection, sameInstance, sameExpected, newer⟩ := changes.versions version member
    obtain ⟨last, stands, past⟩ := newer time stamped
    exact ⟨later, there, sameId.trans id, sameConnection.trans connectionId, sameInstance.trans instanceId, sameExpected.trans expected, last,
      stands, fresh.trans past⟩
  connection := by
    obtain ⟨connection, member, id, kind, instanceId⟩ := knows.connection
    obtain ⟨later, there, sameId, sameKind, sameInstance⟩ := changes.connections connection member
    exact ⟨later, there, sameId.trans id, sameKind.trans kind, sameInstance.trans instanceId⟩

/-- What a commit knows holds while others change what it has not locked. -/
theorem Changes.knows (changes : Changes holder store after) (knows : Knows instances store request)
    (apart : ∀ lock ∈ request.locks instances, ¬ holder lock) : Knows instances after request := by
  obtain ⟨instanceId, kind, versionId, key, stage⟩ := request
  cases stage with
  | verified read checkedAt => exact ReadBy.later knows changes
  | bound read account checkedAt =>
    obtain ⟨readBy, stripe, named, mode, free⟩ := knows
    refine ⟨readBy.later changes, stripe, named, mode, ?_⟩
    intro connection member bound found
    rcases changes.accounts connection member bound found with ⟨old, there, same, was⟩ | ⟨accountHeld, connectionHeld⟩
    · rw [← same]
      exact free old there bound was
    · constructor
      · rintro rfl
        exact absurd accountHeld (apart _ (by simp [CommitRequest.locks]))
      · intro own
        rw [own] at connectionHeld
        exact absurd connectionHeld (apart _ (by simp [CommitRequest.locks]))
  | begun | locked | answered | crashed => trivial

private theorem committed_row (id versionId : Nat) (account : Option ProviderAccount) (old : Connection) :
    let row := if old.id = id then { old with
        activeVersionId := some versionId, enabled := true, revision := old.revision + 1, stripeAccount := account.or old.stripeAccount } else old
    row.id = old.id ∧ row.kind = old.kind ∧ row.instanceId = old.instanceId ∧
      row.activeVersionId = (if old.id = id then some versionId else old.activeVersionId) ∧
      row.stripeAccount = (if old.id = id then account.or old.stripeAccount else old.stripeAccount) ∧
      row.revision = (if id = old.id then 1 else 0) + old.revision := by
  by_cases same : old.id = id
  · dsimp only
    rw [if_pos same, if_pos same, if_pos same, if_pos same.symm]
    exact ⟨rfl, rfl, rfl, rfl, rfl, Nat.add_comm _ _⟩
  · dsimp only
    rw [if_neg same, if_neg same, if_neg same, if_neg (Ne.symm same)]
    exact ⟨rfl, rfl, rfl, rfl, rfl, (Nat.zero_add _).symm⟩

/-- What becomes of a version's status once one of its connection's is active. -/
def StatusAfter (connectionId versionId : Nat) (old : ConnectionVersion) (status : VersionStatus) : Prop :=
  (old.id = versionId → status = .active) ∧ (old.id ≠ versionId → old.connectionId = connectionId → status ≠ .active) ∧
    (old.id ≠ versionId → old.connectionId ≠ connectionId → status = old.status)

/-- A version's row once one of its connection's is active: only the status is another. -/
private theorem activated_row (connectionId versionId : Nat) (old : ConnectionVersion) :
    let row := if old.id = versionId then { old with status := VersionStatus.active }
      else if old.connectionId = connectionId ∧ old.status = .active then { old with status := .retired } else old
    ∃ status, row = { old with status := status } ∧ StatusAfter connectionId versionId old status := by
  dsimp only
  split
  · next same => exact ⟨.active, rfl, fun _ => rfl, fun other => absurd same other, fun other => absurd same other⟩
  · next other =>
    split
    · next own => exact ⟨.retired, rfl, fun same => absurd same other, fun _ _ => by rintro ⟨⟩, fun _ apart => absurd own.1 apart⟩
    · next unowned =>
      exact ⟨old.status, rfl, fun same => absurd same other, fun _ own active => unowned ⟨own, active⟩, fun _ _ => rfl⟩

theorem Sound.safe (sound : Sound instances store) (there : connection ∈ store.connections)
    (kind : connection.kind = request.kind) (revision : connection.revision = read.expectedRevision)
    (committable : (store.committable request read).isSome = true) (fits : commitFits instances request read store = true)
    (member : version ∈ store.versions) (id : version.id = request.versionId)
    (owned : version.connectionId = connection.id) (instanceId : version.instanceId = request.instanceId)
    (expected : version.expectedRevision = read.expectedRevision) {time : Int} (stamped : version.validatedAt = some time)
    (fresh : checkedAt - validationWindowMs ≤ time) :
    SafelyActive instances store.log connection.id request.kind { version with status := .active } checkedAt ∧
      (request.kind = .stripe → version.externalIdentity = read.externalIdentity) := by
  have found : (store.committable request read).isNone = false := by rwa [Option.isNone_eq_false_iff]
  rw [commitFits, found, Bool.false_or] at fits
  have each := List.all_eq_true.mp fits version member
  rw [id, bne_self_eq_false, Bool.false_or, Bool.and_eq_true] at each
  obtain ⟨same, happened⟩ := each
  obtain ⟨-, result, validation, passed, named⟩ := (sound.versions version member).validated time stamped
  refine ⟨⟨?_, ⟨result, time, validation, passed, named, stamped, fresh⟩, ?_⟩, ?_⟩
  · obtain ⟨newer, older, log, count⟩ := (sound.versions version member).draft
    refine ⟨newer, older, owned ▸ log, ?_⟩
    have counted := (sound.connections connection there).revision
    rw [revision, ← expected, count, log, ← owned] at counted
    rw [← owned]
    exact unchanged_since counted.symm
  · intro live provider
    have live : livemode instances request.instanceId = true := instanceId ▸ live
    have other : (request.kind == ConnectionKind.projection) = false := beq_eq_false_iff_ne.mpr provider
    rw [live, other] at happened
    have event : version.eventVerifiedAt ≠ none := Option.isSome_iff_ne_none.mp (by simpa using happened)
    refine ⟨event, (sound.owned connection there version member owned).events (kind ▸ provider) ?_ event ?_⟩
    · rw [sound.instance_of there member owned, instanceId]
      exact live
    · rw [named]
      rintro ⟨⟩
  · intro stripe
    rw [stripe] at same
    exact beq_iff_eq.mp (by simpa using same)

/-- The entries of a commit change the connection's revision once, and bind the account, if there is one. -/
private theorem committed_log {connectionId : Nat} {log : List ConnectionEntry}
    (account : Option ProviderAccount) (safe : SafelyActive instances log connectionId kind version checkedAt) (commits : SafeLog instances log) :
    ∃ newer, (account.map fun account => ConnectionEntry.bound connectionId account).toList ++
        (some (ConnectionEntry.committed connectionId kind version checkedAt)).toList ++ log = newer ++ log ∧
      (∀ other, changeCount other (newer ++ log) = (if connectionId = other then 1 else 0) + changeCount other log) ∧
      (∀ other bound, ConnectionEntry.bound other bound ∈ newer ++ log →
        other = connectionId ∧ account = some bound ∨ .bound other bound ∈ log) ∧ SafeLog instances (newer ++ log) := by
  have committed : SafeLog instances (.committed connectionId kind version checkedAt :: log) := by
    refine ⟨?_, commits⟩
    rintro _ _ _ _ ⟨⟩
    exact safe
  cases account with
  | none =>
    refine ⟨[.committed connectionId kind version checkedAt], rfl, ?_, ?_, committed⟩
    · intro other
      rw [List.singleton_append, changeCount_cons]
      simp only [ConnectionEntry.changes, beq_iff_eq]
    · intro other bound member
      exact .inr ((List.mem_cons.mp member).resolve_left (by rintro ⟨⟩))
  | some account =>
    refine ⟨[.bound connectionId account, .committed connectionId kind version checkedAt], rfl, ?_, ?_, ?_, committed⟩
    · intro other
      rw [List.cons_append, List.singleton_append, changeCount_cons, changeCount_cons]
      simp only [ConnectionEntry.changes, Bool.false_eq_true, if_false, Nat.zero_add, beq_iff_eq]
    · intro other bound member
      rcases List.mem_cons.mp member with own | later
      · cases own
        exact .inl ⟨rfl, rfl⟩
      · exact .inr ((List.mem_cons.mp later).resolve_left (by rintro ⟨⟩))
    · rintro _ _ _ _ ⟨⟩

section Activation
variable {connectionId versionId : Nat} {versions : List ConnectionVersion}

private theorem activated_old {later : ConnectionVersion} (member : later ∈ activated connectionId versionId versions) :
    ∃ old ∈ versions, ∃ status, later = { old with status := status } ∧ StatusAfter connectionId versionId old status := by
  obtain ⟨old, inside, same⟩ := List.mem_map.mp member
  obtain ⟨status, shape, after⟩ := activated_row connectionId versionId old
  exact ⟨old, inside, status, same.symm.trans shape, after⟩

private theorem activated_later (member : old ∈ versions) : ∃ status,
    { old with status := status } ∈ activated connectionId versionId versions ∧ StatusAfter connectionId versionId old status := by
  obtain ⟨status, shape, after⟩ := activated_row connectionId versionId old
  exact ⟨status, List.mem_map.mpr ⟨old, member, shape⟩, after⟩

private theorem find_activated (member : version ∈ versions) (id : version.id = versionId)
    (unique : ∀ old ∈ versions, old.id = versionId → old = version) :
    (activated connectionId versionId versions).find? (fun version => version.id == versionId) = some { version with status := .active } := by
  cases found : (activated connectionId versionId versions).find? (fun version => version.id == versionId) with
  | none =>
    obtain ⟨status, there, -⟩ : ∃ status, _ ∈ activated connectionId versionId versions ∧ _ := activated_later member
    exact (List.find?_eq_none.mp found _ there (beq_iff_eq.mpr id)).elim
  | some later =>
    have same := List.find?_some found
    rw [beq_iff_eq] at same
    obtain ⟨old, inside, status, rfl, own, -⟩ := activated_old (List.mem_of_find?_eq_some found)
    rw [own same, unique old inside same]

end Activation

section
variable (sound : Sound instances store) {account : Option ProviderAccount}
include sound

theorem Sound.binds_or (there : connection ∈ store.connections) {taken : ProviderAccount}
    {owning : Connection} (before : owning ∈ store.connections)
    (found : (if owning.id = connection.id then account.or owning.stripeAccount else owning.stripeAccount) = some taken) :
    owning.stripeAccount = some taken ∨ account = some taken ∧ owning = connection := by
  by_cases same : owning.id = connection.id
  · rw [if_pos same] at found
    exact (Option.or_eq_some_iff.mp found).symm.imp And.right fun new => ⟨new, sound.connection_unique before there same⟩
  · rw [if_neg same] at found
    exact .inl found

/-- A commit makes its version the active one of its connection, and leaves the other connections theirs. -/
theorem Sound.activates (there : connection ∈ store.connections) (member : version ∈ store.versions)
    (sameVersion : version.id = request.versionId) (owned : version.connectionId = connection.id)
    (named : connection.kind = .stripe → ∃ bound, account = some bound ∧ version.externalIdentity = some bound.id)
    {owning : Connection} (before : owning ∈ store.connections) (earlier : old ∈ store.versions)
    (own : old.connectionId = owning.id) :
    let row := if owning.id = connection.id then { owning with
        activeVersionId := some request.versionId, enabled := true, revision := owning.revision + 1
        stripeAccount := account.or owning.stripeAccount } else owning
    let later := if old.id = request.versionId then { old with status := VersionStatus.active }
      else if old.connectionId = connection.id ∧ old.status = .active then { old with status := .retired } else old
    Owned instances row later := by
  obtain ⟨isActive, identity, events⟩ := sound.owned owning before old earlier own
  obtain ⟨-, rowKind, rowInstance, rowActive, rowAccount, -⟩ := committed_row connection.id request.versionId account owning
  obtain ⟨status, shape, nowActive, notActive, asBefore⟩ := activated_row connection.id request.versionId old
  have current (same : old.id = request.versionId) : old = version :=
    sound.version_unique earlier member (same.trans sameVersion.symm)
  rw [shape]
  refine ⟨?_, fun stripe active => ?_, ?_⟩
  · rw [rowActive]
    by_cases same : owning.id = connection.id
    · rw [if_pos same]
      by_cases here : old.id = request.versionId
      · exact iff_of_true (nowActive here) (congrArg some here.symm)
      · exact iff_of_false (notActive here (own.trans same)) fun pointed => here (Option.some.inj pointed).symm
    · rw [if_neg same]
      have elsewhere : old.id ≠ request.versionId := fun here => same (own.symm.trans (current here ▸ owned))
      dsimp only
      rw [asBefore elsewhere fun equal => same (own.symm.trans equal)]
      exact isActive
  · rw [rowAccount]
    by_cases same : owning.id = connection.id
    · rw [if_pos same]
      have here : old.id = request.versionId := by
        by_contra elsewhere
        exact notActive elsewhere (own.trans same) active
      obtain rfl := current here
      obtain rfl := sound.connection_unique before there same
      obtain ⟨bound, rfl, same⟩ := named (rowKind.symm.trans stripe)
      exact ⟨bound, rfl, same⟩
    · rw [if_neg same]
      have elsewhere : old.id ≠ request.versionId := fun here => same (own.symm.trans (current here ▸ owned))
      have before := asBefore elsewhere fun equal => same (own.symm.trans equal)
      exact identity (rowKind.symm.trans stripe) (before.symm.trans active)
  · rw [rowKind, rowInstance]
    exact events

theorem Sound.finish (knows : ReadBy store request read checkedAt)
    (binds : ∀ bound, account = some bound → BoundBy instances store request read bound ∧ holder (.account bound) ∧
      holder (.connection read.connectionId))
    (plain : account = none → request.kind ≠ .stripe) (fits : commitFits instances request read store = true) :
    Keeps instances holder store (store.finish request read account checkedAt).1 := by
  rw [ConnectionStore.finish]
  split
  · exact sound.same
  next connection found =>
  have there := List.mem_of_find?_eq_some found
  have place := List.find?_some found
  rw [Bool.and_eq_true, Bool.and_eq_true, beq_iff_eq, beq_iff_eq, beq_iff_eq] at place
  obtain ⟨⟨sameId, -⟩, sameRevision⟩ := place
  obtain ⟨other, inside, otherId, kind, otherInstance⟩ := knows.connection
  obtain rfl := sound.connection_unique there inside (sameId.trans otherId.symm)
  obtain ⟨version, member, sameVersion, owned, instanceId, expected, time, stamped, fresh⟩ := knows.version
  have owned := owned.trans sameId.symm
  obtain ⟨safe, kept⟩ := sound.safe there kind sameRevision (by rw [found]; rfl) fits member sameVersion owned instanceId expected stamped fresh
  have current {old : ConnectionVersion} (before : old ∈ store.versions) (same : old.id = request.versionId) : old = version :=
    sound.version_unique before member (same.trans sameVersion.symm)
  have last : (activated connection.id request.versionId store.versions).find? _ = some _ := find_activated member sameVersion fun old => current
  dsimp only
  rw [last, Option.map_some]
  obtain ⟨newer, log, count, binding, commits⟩ := committed_log account safe sound.commits
  rw [log]
  have rows := committed_row connection.id request.versionId account
  apply sound.rewritten
  · intro old _
    obtain ⟨status, shape, -⟩ := activated_row connection.id request.versionId old
    exact shape ▸ ⟨rfl, rfl, rfl, rfl, fun time found => ⟨time, found, Int.le_refl time⟩⟩
  · exact fun old => ⟨(rows old).1, (rows old).2.1, (rows old).2.2.1⟩
  · intro owning before old earlier own
    apply sound.activates there member sameVersion owned ?_ before earlier own
    intro stripe
    have stripe : request.kind = .stripe := kind.symm.trans stripe
    cases taken : account with
    | none => exact absurd stripe (plain taken)
    | some bound =>
      obtain ⟨bindsBy, -⟩ := binds bound taken
      exact ⟨bound, rfl, (kept stripe).trans bindsBy.named⟩
  · intro old earlier
    obtain ⟨status, shape, -⟩ := activated_row connection.id request.versionId old
    exact shape ▸ (sound.versions old earlier).validated
  · intro owning before versionId pointed
    rw [(rows owning).2.2.2.1] at pointed
    by_cases same : owning.id = connection.id
    · rw [if_pos same] at pointed
      exact ⟨version, member, sameVersion.trans (Option.some.inj pointed), owned.trans same.symm⟩
    · rw [if_neg same] at pointed
      exact (sound.connections owning before).points versionId pointed
  · intro owning before taken found
    rw [(rows owning).2.2.2.2.1] at found
    refine (sound.binds_or there before found).imp_right ?_
    rintro ⟨new, rfl⟩
    obtain ⟨bindsBy, heldAccount, heldConnection⟩ := binds taken new
    rw [sameId]
    exact ⟨⟨heldAccount, heldConnection⟩, kind.trans bindsBy.stripe, bindsBy.mode.trans (congrArg (livemode instances) otherInstance.symm)⟩
  · intro first one second two taken firstBound secondBound
    rw [(rows first).2.2.2.2.1] at firstBound
    rw [(rows second).2.2.2.2.1] at secondBound
    rcases sound.binds_or there one firstBound with firstOld | ⟨new, rfl⟩
    · rcases sound.binds_or there two secondBound with secondOld | ⟨fresh, rfl⟩
      · exact sound.accounts first one second two taken firstOld secondOld
      · obtain ⟨bindsBy, -⟩ := binds taken fresh
        exact ((bindsBy.free first one taken firstOld).1 rfl).trans sameId.symm
    · rcases sound.binds_or there two secondBound with secondOld | ⟨-, rfl⟩
      · obtain ⟨bindsBy, -⟩ := binds taken new
        exact sameId.trans ((bindsBy.free second two taken secondOld).1 rfl).symm
      · rfl
  · intro owning before
    rw [(rows owning).2.2.2.2.2, count, (sound.connections owning before).revision]
  · intro connectionId beyond
    rw [count, sound.logged connectionId beyond, if_neg ((sound.connection_lt there).trans_le beyond).ne]
  · intro connectionId taken entry
    rcases binding connectionId taken entry with ⟨rfl, new⟩ | old
    · refine ⟨sound.connection_lt there, fun owning before same => ?_⟩
      rw [(rows owning).2.2.2.2.1, if_pos same, new]
      rfl
    · obtain ⟨within, each⟩ := sound.bound connectionId taken old
      refine ⟨within, fun owning before same => ?_⟩
      have was := each owning before same
      rw [(rows owning).2.2.2.2.1]
      by_cases here : owning.id = connection.id
      · rw [if_pos here]
        cases new : account with
        | none => exact was
        | some fresh =>
          obtain ⟨bindsBy, -⟩ := binds fresh new
          rw [(bindsBy.free owning before taken was).2 (here.trans sameId)]
          rfl
      · rw [if_neg here]
        exact was
  · exact commits

theorem Sound.version_of (member : version ∈ store.versions)
    (matched : store.matchesKind version.connectionId kind = true) : ∃ connection ∈ store.connections, connection.id = version.connectionId ∧
      connection.kind = kind ∧ connection.instanceId = version.instanceId := by
  obtain ⟨connection, there, same, instanceId⟩ := (sound.versions version member).owner
  exact ⟨connection, there, same, sound.kind_of there matched same.symm, instanceId⟩

theorem Sound.binds (knows : ReadBy store request read checkedAt) {identity : Text} (stripe : request.kind = .stripe)
    (named : read.externalIdentity = some identity)
    (free : store.conflicts read ⟨identity, livemode instances request.instanceId⟩ = false) :
    BoundBy instances store request read ⟨identity, livemode instances request.instanceId⟩ := by
  refine ⟨stripe, named, rfl, ?_⟩
  intro connection there bound found
  have apart := List.any_eq_false.mp free connection there
  rw [Bool.or_eq_true, Bool.and_eq_true, Bool.and_eq_true, not_or, found] at apart
  constructor
  · rintro rfl
    by_contra other
    exact apart.1 ⟨beq_self_eq_true _, bne_iff_ne.mpr other⟩
  · intro own
    obtain ⟨reads, inside, sameId, -, sameInstance⟩ := knows.connection
    obtain rfl := sound.connection_unique there inside (own.trans sameId.symm)
    obtain ⟨-, mode⟩ := (sound.connections connection there).mode bound found
    have same : bound.id = identity := by
      by_contra differs
      exact apart.2 ⟨beq_iff_eq.mpr own, bne_iff_ne.mpr differs⟩
    rw [sameInstance] at mode
    rw [← same, ← mode]

/-- What a statement of a commit keeps that leaves the store as `after` and comes to `next`. -/
abbrev CommitKeeps (instances : Nat → ProjectInstance) (store after : ConnectionStore) (request : CommitRequest) (next : CommitStage) : Prop :=
  Keeps instances (fun lock => lock ∈ request.locks instances ∨ lock ∈ request.wanted instances) store after ∧
    Knows instances after { request with stage := next } ∧
    ∀ lock ∈ CommitRequest.locks instances { request with stage := next }, lock ∈ request.locks instances ∨ lock ∈ request.wanted instances

private theorem commit_same {next : CommitStage} (known : Knows instances store { request with stage := next })
    (locks : ∀ lock ∈ CommitRequest.locks instances { request with stage := next },
      lock ∈ request.locks instances ∨ lock ∈ request.wanted instances) : CommitKeeps instances store store request next :=
  ⟨⟨sound, Changes.refl _ store⟩, known, locks⟩

omit sound in
private theorem commit_left (effect : Keeps instances
    (fun lock => lock ∈ request.locks instances ∨ lock ∈ request.wanted instances) store (store.finish request read account checkedAt).1) :
    CommitKeeps instances store (store.finish request read account checkedAt).1 request
      (store.finish request read account checkedAt).2 := by
  obtain ⟨result, answered⟩ : ∃ result, (store.finish request read account checkedAt).2 = .answered result := by
    rw [ConnectionStore.finish]
    split <;> exact ⟨_, rfl⟩
  rw [CommitKeeps, answered]
  exact ⟨effect, trivial, by rintro lock ⟨⟩⟩

section Stages
variable {instanceId : Nat} {versionId : Nat} {key : Text}

theorem locked_keeps : CommitKeeps instances store (store.commitStatement instances ⟨instanceId, kind, versionId, key, .locked⟩).1
    ⟨instanceId, kind, versionId, key, .locked⟩ (store.commitStatement instances ⟨instanceId, kind, versionId, key, .locked⟩).2 := by
  simp only [CommitKeeps, commitStatement]
  split
  · exact commit_same sound trivial (by rintro lock ⟨⟩)
  split
  · exact commit_same sound trivial (by rintro lock ⟨⟩)
  next read found =>
  split
  · exact commit_same sound trivial (by rintro lock ⟨⟩)
  next matched =>
  split
  · exact commit_same sound trivial (by rintro lock ⟨⟩)
  split
  · exact commit_same sound trivial (by rintro lock ⟨⟩)
  next fresh =>
  split
  · exact commit_same sound trivial (by rintro lock ⟨⟩)
  have member := List.mem_of_find?_eq_some found
  have place := List.find?_some found
  rw [Bool.and_eq_true, beq_iff_eq, beq_iff_eq] at place
  obtain ⟨sameId, sameInstance⟩ := place
  obtain ⟨connection, there, owns, sameKind, inside⟩ := sound.version_of member (by simpa using matched)
  obtain ⟨time, stamped, within⟩ : ∃ time, read.validatedAt = some time ∧ store.now - validationWindowMs ≤ time := by
    simpa [Option.any_eq_true] using fresh
  refine commit_same sound ⟨⟨read, member, sameId, rfl, sameInstance, rfl, time, stamped, within⟩, connection, there, owns, sameKind, ?_⟩
    fun lock holds => .inl holds
  exact inside.trans sameInstance

private theorem verified_keeps (knows : ReadBy store ⟨instanceId, .stripe, versionId, key, .verified read checkedAt⟩ read checkedAt) :
    CommitKeeps instances store (store.commitStatement instances ⟨instanceId, .stripe, versionId, key, .verified read checkedAt⟩).1
      ⟨instanceId, .stripe, versionId, key, .verified read checkedAt⟩
      (store.commitStatement instances ⟨instanceId, .stripe, versionId, key, .verified read checkedAt⟩).2 := by
  simp only [CommitKeeps, commitStatement]
  cases named : read.externalIdentity with
  | none => exact commit_same sound trivial (by rintro lock ⟨⟩)
  | some identity =>
    dsimp only
    split
    · exact commit_same sound trivial (by rintro lock ⟨⟩)
    · next free =>
      have free := Bool.eq_false_iff.mpr free
      refine commit_same sound ⟨⟨knows.version, knows.connection⟩, ?_⟩ ?_
      · obtain ⟨-, account, mode, apart⟩ := sound.binds knows rfl named free
        exact ⟨rfl, account, mode, apart⟩
      · intro lock holds
        simp only [CommitRequest.locks, List.mem_cons, List.not_mem_nil, or_false] at holds
        rcases holds with rfl | rfl | rfl
        · exact .inl (List.mem_singleton_self _)
        · exact .inr (by simp [CommitRequest.wanted, named])
        · exact .inr (by simp [CommitRequest.wanted, named])

end Stages

private theorem commitStatement_keeps (knows : Knows instances store request)
    (fits : ∀ read, request.finishes = some read → commitFits instances request read store = true) :
    CommitKeeps instances store (store.commitStatement instances request).1 request (store.commitStatement instances request).2 := by
  obtain ⟨instanceId, kind, versionId, key, stage⟩ := request
  cases stage with
  | begun => exact commit_same sound trivial fun lock member => .inr member
  | locked => exact locked_keeps sound
  | verified read checkedAt =>
    have knows : ReadBy store ⟨instanceId, kind, versionId, key, .verified read checkedAt⟩ read checkedAt := knows
    by_cases stripe : kind = .stripe
    · subst stripe
      exact verified_keeps sound knows
    · have ends : store.commitStatement instances ⟨instanceId, kind, versionId, key, .verified read checkedAt⟩ =
          store.finish ⟨instanceId, kind, versionId, key, .verified read checkedAt⟩ read none checkedAt := by
        cases kind with
        | stripe => exact absurd rfl stripe
        | apple | google | paddle | projection => rfl
      rw [ends]
      exact commit_left (sound.finish knows (by rintro bound ⟨⟩) (fun _ => stripe) (fits read (if_neg stripe)))
  | bound read account checkedAt =>
    obtain ⟨readBy, bindsBy⟩ := knows
    apply commit_left
    apply sound.finish readBy ?_ (by rintro ⟨⟩) (fits read rfl)
    rintro _ ⟨⟩
    exact ⟨bindsBy, .inl (by simp [CommitRequest.locks]), .inl (by simp [CommitRequest.locks])⟩
  | answered result => exact commit_same sound trivial (by rintro lock ⟨⟩)
  | crashed => exact commit_same sound trivial (by rintro lock ⟨⟩)

end

end Commits

section Runs
variable (instances : Nat → ProjectInstance)

/-- The rules of the connections: who may bind an account, and what a commit knows between its statements. -/
def connectionRules : Discipline ConnectionStore CommitRequest ConnectionLock where
  locks := CommitRequest.locks instances
  valid := Sound instances
  knows := Knows instances
  changes := Changes
  stable := fun changes knows apart => Changes.knows changes knows apart

variable {instances} {served : ServedConnections}

/-- What a step of no commit leaves is sound, and binds no account. -/
theorem Sound.outside (sound : Sound instances served.store) {step : ConnectionStep} (fits : step.fits instances served = true)
    (holder : ConnectionLock → Prop) : Sound instances (stepStore served.store step) ∧ Changes holder served.store (stepStore served.store step) := by
  cases step with
  | wait elapsed => exact sound.later elapsed
  | draft instanceId kind key fingerprint expectedRevision => exact sound.draft instanceId kind key fingerprint expectedRevision
  | validate instanceId kind id result => exact sound.validate fits
  | recordEvent id identity occurred => exact sound.recordEvent id identity occurred
  | verified connectionId versionId account occurred => exact sound.verified connectionId versionId account occurred
  | completeDeauthorization connectionId => exact sound.completeDeauthorization connectionId
  | disable instanceId kind key revision => exact sound.disable instanceId kind key revision
  | commit | advance | crash => exact ⟨sound, Changes.refl holder served.store⟩

theorem perform_keeps (kept : (connectionRules instances).Kept served) {step : ConnectionStep} (fits : step.fits instances served = true) :
    (connectionRules instances).Kept (perform instances served step) := by
  have sound : Sound instances served.store := kept.valid
  have alone : (connectionRules instances).Kept
      (if freeFor (CommitRequest.locks instances) served.sessions.length (stepLocks instances served.store step) served.sessions then
        { served with store := stepStore served.store step } else served) := by
    split
    · next free =>
      obtain ⟨after, changes⟩ := sound.outside fits (· ∈ stepLocks instances served.store step)
      exact kept.alone free after changes
    · exact kept
  cases step with
  | commit instanceId kind versionId key => exact kept.begun rfl trivial
  | advance index =>
    simp only [perform]
    split
    · exact kept
    · next request found =>
      split
      · next free =>
        have fitting : ∀ read, request.finishes = some read → commitFits instances request read served.store = true := by
          intro read last
          rw [ConnectionStep.fits, found, Option.all_some, last, Option.all_some] at fits
          exact fits
        obtain ⟨⟨after, changes⟩, knows, locks⟩ :=
          commitStatement_keeps sound (kept.knows request (List.mem_of_getElem? found)) fitting
        exact kept.statement found free ⟨after, knows, changes, locks⟩
      · exact kept
  | crash index =>
    simp only [perform]
    split
    · exact kept
    · next request found =>
      have free : freeFor (CommitRequest.locks instances) index [] served.sessions = true := by simp [freeFor]
      exact kept.statement found free ⟨sound, trivial, Changes.refl _ _, by rintro lock ⟨⟩⟩
  | wait | draft | validate | recordEvent | verified | completeDeauthorization | disable => exact alone

theorem run_keeps (steps : List ConnectionStep) {served : ServedConnections} (kept : (connectionRules instances).Kept served)
    (fits : orderly instances served steps = true) : (connectionRules instances).Kept (run instances served steps) := by
  induction steps generalizing served with
  | nil => exact kept
  | cons step steps more =>
    rw [orderly, Bool.and_eq_true] at fits
    exact more (perform_keeps kept fits.1) fits.2

private theorem noConnections_kept (instances : Nat → ProjectInstance) (now : Int) : (connectionRules instances).Kept (noConnections now) := by
  refine ⟨⟨rfl, rfl, ?_, ?_, ?_, ?_, ?_, ?_, trivial⟩, ?_, ?_⟩ <;> simp [noConnections, changeCount]

/-- Connection versions are committed safely in every run whose validations answer what a commit or an active version rests on. -/
theorem committed_safely (instances : Nat → ProjectInstance) (now : Int) (steps : List ConnectionStep)
    (fits : orderly instances (noConnections now) steps = true) : CommittedSafely instances (run instances (noConnections now) steps).store := by
  have kept := run_keeps steps (noConnections_kept instances now) fits
  have sound : Sound instances _ := kept.valid
  exact sound.safely

def inEnvironment (environment : Environment) (_ : Nat) : ProjectInstance := ⟨0, environment⟩

def answers (identity : Text) : ConnectionValidation := ⟨identity, false, [("api".toList, true)]⟩

def committedVersion (kind : ConnectionKind) (identity : Text) : List ConnectionStep :=
  [.validate 0 kind 0 (answers identity), .commit 0 kind 0 ['c'], .advance 0, .advance 0, .advance 0]

/-- The active version of a Stripe connection is validated again, and another account answers. -/
def revalidatedRun : List ConnectionStep :=
  .draft 0 .stripe ['d'] [] 0 :: committedVersion .stripe ['a'] ++ [.advance 0, .validate 0 .stripe 0 (answers ['b'])]

def overtakenRun : List ConnectionStep :=
  .draft 0 .stripe ['d'] [] 0 :: committedVersion .stripe ['a'] ++ [.validate 0 .stripe 0 (answers ['b']), .advance 0]

/-- An event of one account is recorded before the version is validated for another. -/
def earlyEventRun : List ConnectionStep :=
  [.draft 0 .stripe ['d'] [] 0, .recordEvent 0 ['a'] 0] ++ committedVersion .stripe ['b'] ++ [.advance 0]

/-- What both Stripe runs leave: the account of the commit, and the identity of the other answer. -/
def boundConnection : Connection := ⟨0, 0, .stripe, 1, true, some 0, some ⟨['a'], false⟩⟩

def activeVersion (identity : Text) : ConnectionVersion :=
  { newVersion 0 0 0 0 ['d'] [] 0 with
    status := .active, validation := some (answers identity), validatedAt := some 0, externalIdentity := some identity }

/-- Without the condition an active Stripe version has another identity than the account bound, and a version is active in production with no
event of its identity verified. -/
theorem committed_safely_fails :
    ¬ CommittedSafely (inEnvironment .sandbox) (run (inEnvironment .sandbox) (noConnections 0) revalidatedRun).store ∧
    ¬ CommittedSafely (inEnvironment .sandbox) (run (inEnvironment .sandbox) (noConnections 0) overtakenRun).store ∧
    ¬ CommittedSafely (inEnvironment .production) (run (inEnvironment .production) (noConnections 0) earlyEventRun).store := by
  have differs {store : ConnectionStore} (connections : store.connections = [boundConnection])
      (versions : store.versions = [activeVersion ['b']]) : ¬ CommittedSafely (inEnvironment .sandbox) store := by
    intro safe
    have same := safe.identity
    rw [connections, versions] at same
    obtain ⟨account, bound, named⟩ := same boundConnection (List.mem_singleton_self _) rfl _ (List.mem_singleton_self _) rfl rfl
    obtain rfl := Option.some.inj bound
    cases Option.some.inj named
  refine ⟨differs rfl rfl, differs rfl rfl, ?_⟩
  intro safe
  have log : (run (inEnvironment .production) (noConnections 0) earlyEventRun).store.log =
      [.bound 0 ⟨['b'], true⟩,
        .committed 0 .stripe { activeVersion ['b'] with eventVerifiedAt := some 0, eventIdentity := some ['a'] } 0, .drafted 0 0] := rfl
  have commits := safe.commits
  rw [log] at commits
  obtain ⟨-, event⟩ := (commits.2.1 _ _ _ _ rfl).verified rfl (by rintro ⟨⟩)
  cases Option.some.inj event

/-- A production version whose event is verified by its validation is committed, and validated again. -/
theorem committed_safely_apple :
    CommittedSafely (inEnvironment .production) (run (inEnvironment .production) (noConnections 0)
      (.draft 0 .apple ['d'] [] 0 :: .validate 0 .apple 0 { answers ['a'] with eventVerified := true } ::
        committedVersion .apple ['a'] ++ [.validate 0 .apple 0 (answers ['b'])])).store := by
  apply committed_safely
  rfl

end Runs

end Quotum.ProviderConnections
