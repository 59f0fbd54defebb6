import Quotum.ProviderOperations

/-! Operations are dispatched at most once, under leases that no two workers hold, in any interleaving of prepares, claims and
settlements. -/

namespace Quotum.ProviderOperations
open General

variable {Request : Type}

section Intents
variable {intent other : PrepareProviderOperation Request}

theorem sameKey_iff : intent.sameKey other = true ↔ intent.projectId = other.projectId ∧
    intent.billingAccountId = other.billingAccountId ∧ intent.provider = other.provider ∧
      intent.idempotencyKey = other.idempotencyKey := by
  simp only [PrepareProviderOperation.sameKey, Bool.and_eq_true, beq_iff_eq, and_assoc]

private theorem sameResource_iff : intent.sameResource other = true ↔ intent.projectId = other.projectId ∧
    intent.provider = other.provider ∧ intent.providerAccountId = other.providerAccountId ∧
      intent.resourceKey = other.resourceKey := by
  simp only [PrepareProviderOperation.sameResource, Bool.and_eq_true, beq_iff_eq, and_assoc]

private theorem sameKey_refl (intent : PrepareProviderOperation Request) : intent.sameKey intent = true :=
  sameKey_iff.mpr ⟨rfl, rfl, rfl, rfl⟩

private theorem sameKey_symm (same : intent.sameKey other = true) : other.sameKey intent = true := by
  obtain ⟨project, account, provider, key⟩ := sameKey_iff.mp same
  exact sameKey_iff.mpr ⟨project.symm, account.symm, provider.symm, key.symm⟩

private theorem sameKey_trans {first second third : PrepareProviderOperation Request} (one : first.sameKey second = true)
    (two : second.sameKey third = true) : first.sameKey third = true := by
  obtain ⟨project, account, provider, key⟩ := sameKey_iff.mp one
  obtain ⟨projects, accounts, providers, keys⟩ := sameKey_iff.mp two
  exact sameKey_iff.mpr ⟨project.trans projects, account.trans accounts, provider.trans providers, key.trans keys⟩

private theorem sameResource_symm (same : intent.sameResource other = true) : other.sameResource intent = true := by
  obtain ⟨project, provider, account, key⟩ := sameResource_iff.mp same
  exact sameResource_iff.mpr ⟨project.symm, provider.symm, account.symm, key.symm⟩

private theorem sameKey_lock (hash : AdvisoryName → Int) (same : intent.sameKey other = true) : keyLock hash intent = keyLock hash other := by
  obtain ⟨project, account, provider, key⟩ := sameKey_iff.mp same
  simp only [keyLock, project, account, provider, key]

private theorem sameResource_lock (hash : AdvisoryName → Int) (same : intent.sameResource other = true) :
    accountLock hash intent = accountLock hash other := by
  obtain ⟨project, provider, account, -⟩ := sameResource_iff.mp same
  simp only [accountLock, project, provider, account]

private theorem repeats_refl [DecidableEq Request] (intent : PrepareProviderOperation Request) : intent.repeats intent = true := by
  simp only [PrepareProviderOperation.repeats, beq_self_eq_true, Bool.and_self]

end Intents

/-- What holds of the ledger in any interleaving. -/
structure Sound (store : OperationStore Request) : Prop where
  ids : store.rows.map OperationRow.id = List.range store.rows.length
  accepted : ∀ row ∈ store.rows, row.intent.accepted = true
  keys : ∀ first ∈ store.rows, ∀ second ∈ store.rows, first.intent.sameKey second.intent = true → first.id = second.id
  resources : ∀ first ∈ store.rows, ∀ second ∈ store.rows, first.intent.sameResource second.intent = true →
    first.status.unresolved = true → second.status.unresolved = true → first.id = second.id
  fresh : ∀ row ∈ store.rows, row.status = .prepared → row.id ∉ store.dispatched ∧ row.leaseToken = none
  known : ∀ id ∈ store.dispatched, id < store.rows.length
  once : store.dispatched.Nodup
  tokens : store.leases.map ProviderOperationLease.token = List.range store.leases.length
  leased : ∀ lease ∈ store.leases, lease.settled = false → store.clock < lease.expiresAt →
    ∃ row ∈ store.rows, row.id = lease.operationId ∧ row.leaseToken = some lease.token ∧ row.leaseUntil = some lease.expiresAt
  recorded : ∀ row ∈ store.rows, ∀ token ∈ row.leaseToken, ∃ lease ∈ store.leases, lease.token = token ∧
    lease.operationId = row.id ∧ row.leaseUntil = some lease.expiresAt ∧ lease.settled = false

section Stores
variable {store after : OperationStore Request} {lease : ProviderOperationLease} {row : OperationRow Request}
  {edit : OperationRow Request → OperationRow Request}

theorem Sound.distinct (sound : Sound store) : (store.rows.map OperationRow.id).Nodup := by
  rw [sound.ids]
  exact List.nodup_range

theorem Sound.unique (sound : Sound store) {first second : OperationRow Request} (firstMember : first ∈ store.rows)
    (secondMember : second ∈ store.rows) (same : first.id = second.id) : first = second :=
  List.inj_on_of_nodup_map sound.distinct firstMember secondMember same

theorem Sound.inside (sound : Sound store) {row : OperationRow Request} (member : row ∈ store.rows) : row.id < store.rows.length := by
  have := List.mem_map_of_mem (f := OperationRow.id) member
  rw [sound.ids] at this
  exact List.mem_range.mp this

theorem Sound.sameLease (sound : Sound store) {first second : ProviderOperationLease} (firstMember : first ∈ store.leases)
    (secondMember : second ∈ store.leases) (same : first.token = second.token) : first = second := by
  have distinct : (store.leases.map ProviderOperationLease.token).Nodup := by
    rw [sound.tokens]
    exact List.nodup_range
  exact List.inj_on_of_nodup_map distinct firstMember secondMember same

/-- A change of rows that no lease or dispatch depends on, while time passes. It may settle some of them. -/
theorem Sound.edited (sound : Sound store) (rows : after.rows = store.rows.map edit)
    (leases : after.leases = store.leases) (dispatched : after.dispatched = store.dispatched) (clock : store.clock ≤ after.clock)
    (kept : ∀ row, (edit row).id = row.id ∧ (edit row).intent = row.intent ∧
      ((edit row).status = row.status ∨ (edit row).status.unresolved = false) ∧
      (edit row).leaseToken = row.leaseToken ∧ (edit row).leaseUntil = row.leaseUntil) : Sound after := by
  have open_ (row : OperationRow Request) (unresolved : (edit row).status.unresolved = true) : (edit row).status = row.status := by
    rcases (kept row).2.2.1 with same | settled
    · exact same
    · rw [settled] at unresolved
      cases unresolved
  have old : ∀ row ∈ after.rows, ∃ earlier ∈ store.rows, edit earlier = row := by
    intro row member
    rw [rows] at member
    exact List.mem_map.mp member
  refine ⟨?_, ?_, ?_, ?_, ?_, ?_, ?_, ?_, ?_, ?_⟩
  · rw [rows, List.map_map, List.length_map, ← sound.ids]
    exact List.map_congr_left fun row _ => (kept row).1
  · intro row member
    obtain ⟨earlier, inside, rfl⟩ := old row member
    rw [(kept earlier).2.1]
    exact sound.accepted earlier inside
  · intro first firstMember second secondMember same
    obtain ⟨one, oneInside, rfl⟩ := old first firstMember
    obtain ⟨other, otherInside, rfl⟩ := old second secondMember
    rw [(kept one).2.1, (kept other).2.1] at same
    rw [(kept one).1, (kept other).1]
    exact sound.keys one oneInside other otherInside same
  · intro first firstMember second secondMember same firstOpen secondOpen
    obtain ⟨one, oneInside, rfl⟩ := old first firstMember
    obtain ⟨other, otherInside, rfl⟩ := old second secondMember
    rw [(kept one).2.1, (kept other).2.1] at same
    rw [(kept one).1, (kept other).1]
    exact sound.resources one oneInside other otherInside same (open_ one firstOpen ▸ firstOpen) (open_ other secondOpen ▸ secondOpen)
  · intro row member prepared
    obtain ⟨earlier, inside, rfl⟩ := old row member
    have before : earlier.status = .prepared := (open_ earlier (by rw [prepared]; rfl)).symm.trans prepared
    rw [(kept earlier).1, (kept earlier).2.2.2.1, dispatched]
    exact sound.fresh earlier inside before
  · intro id member
    rw [dispatched] at member
    rw [rows, List.length_map]
    exact sound.known id member
  · rw [dispatched]
    exact sound.once
  · rw [leases]
    exact sound.tokens
  · intro lease member open_ runs
    rw [leases] at member
    obtain ⟨row, inside, same, token, ending⟩ := sound.leased lease member open_ (by omega)
    refine ⟨edit row, ?_, ?_⟩
    · rw [rows]
      exact List.mem_map_of_mem inside
    · rw [(kept row).1, (kept row).2.2.2.1, (kept row).2.2.2.2]
      exact ⟨same, token, ending⟩
  · intro row member token isToken
    obtain ⟨earlier, inside, rfl⟩ := old row member
    rw [(kept earlier).2.2.2.1] at isToken
    rw [leases, (kept earlier).1, (kept earlier).2.2.2.2]
    exact sound.recorded earlier inside token isToken

/-- A row that moves on: it is not prepared any more, and only its own leases change. -/
structure Moved (store after : OperationStore Request) (row moved : OperationRow Request) : Prop where
  inside : row ∈ store.rows
  id : moved.id = row.id
  intent : moved.intent = row.intent
  dispatched : moved.status ≠ .prepared
  unresolved : row.status.unresolved = true
  rows : after.rows = updateAt OperationRow.id row.id (fun _ => moved) store.rows
  clock : after.clock = store.clock
  once : after.dispatched = store.dispatched ∨ row.status = .prepared ∧ after.dispatched = store.dispatched ++ [row.id]
  tokens : after.leases.map ProviderOperationLease.token = List.range after.leases.length
  leased : ∀ lease ∈ after.leases, lease.settled = false → store.clock < lease.expiresAt →
    lease.operationId = row.id ∧ moved.leaseToken = some lease.token ∧ moved.leaseUntil = some lease.expiresAt ∨
      lease ∈ store.leases ∧ lease.operationId ≠ row.id
  recorded : ∀ token ∈ moved.leaseToken, ∃ lease ∈ after.leases, lease.token = token ∧ lease.operationId = row.id ∧
    moved.leaseUntil = some lease.expiresAt ∧ lease.settled = false
  others : ∀ lease ∈ store.leases, lease.operationId ≠ row.id → lease ∈ after.leases

section Moved
variable {row moved : OperationRow Request}

theorem Moved.old (moves : Moved store after row moved) : ∀ other ∈ after.rows, other = moved ∨ other ∈ store.rows ∧ other.id ≠ row.id := by
  intro other member
  rw [moves.rows] at member
  obtain ⟨earlier, inside, ⟨-, rfl⟩ | ⟨apart, rfl⟩⟩ := mem_updateAt.mp member
  · exact .inl rfl
  · exact .inr ⟨inside, apart⟩

theorem Moved.member (moves : Moved store after row moved) : moved ∈ after.rows := by
  rw [moves.rows]
  exact mem_updateAt.mpr ⟨row, moves.inside, .inl ⟨rfl, rfl⟩⟩

theorem Moved.stays (moves : Moved store after row moved) {other : OperationRow Request} (inside : other ∈ store.rows)
    (apart : other.id ≠ row.id) : other ∈ after.rows := by
  rw [moves.rows]
  exact mem_updateAt.mpr ⟨other, inside, .inr ⟨apart, rfl⟩⟩

/-- Every row after the move stands for one before it. -/
theorem Moved.before (moves : Moved store after row moved) : ∀ other ∈ after.rows, ∃ earlier ∈ store.rows, other.id = earlier.id ∧
    other.intent = earlier.intent ∧ (other.status.unresolved = true → earlier.status.unresolved = true) := by
  intro other member
  rcases moves.old other member with rfl | ⟨inside, -⟩
  · exact ⟨row, moves.inside, moves.id, moves.intent, fun _ => moves.unresolved⟩
  · exact ⟨other, inside, rfl, rfl, fun open_ => open_⟩

theorem Sound.advanced (sound : Sound store) (moves : Moved store after row moved) : Sound after := by
  have length : after.rows.length = store.rows.length := by
    rw [moves.rows, updateAt, List.length_map]
  refine ⟨?_, ?_, ?_, ?_, ?_, ?_, ?_, moves.tokens, ?_, ?_⟩
  · rw [length, ← sound.ids, moves.rows, updateAt, List.map_map]
    apply List.map_congr_left
    intro other _
    rw [Function.comp]
    split
    · next same => exact moves.id.trans same.symm
    · rfl
  · intro other member
    obtain ⟨earlier, inside, -, intent, -⟩ := moves.before other member
    rw [intent]
    exact sound.accepted earlier inside
  · intro first firstMember second secondMember same
    obtain ⟨one, oneInside, oneId, oneIntent, -⟩ := moves.before first firstMember
    obtain ⟨other, otherInside, otherId, otherIntent, -⟩ := moves.before second secondMember
    rw [oneIntent, otherIntent] at same
    rw [oneId, otherId]
    exact sound.keys one oneInside other otherInside same
  · intro first firstMember second secondMember same firstOpen secondOpen
    obtain ⟨one, oneInside, oneId, oneIntent, oneOpen⟩ := moves.before first firstMember
    obtain ⟨other, otherInside, otherId, otherIntent, otherOpen⟩ := moves.before second secondMember
    rw [oneIntent, otherIntent] at same
    rw [oneId, otherId]
    exact sound.resources one oneInside other otherInside same (oneOpen firstOpen) (otherOpen secondOpen)
  · intro other member prepared
    rcases moves.old other member with rfl | ⟨inside, apart⟩
    · exact absurd prepared moves.dispatched
    · obtain ⟨undispatched, free⟩ := sound.fresh other inside prepared
      refine ⟨?_, free⟩
      rcases moves.once with same | ⟨-, appended⟩
      · rwa [same]
      · rw [appended, List.mem_append, List.mem_singleton]
        exact fun either => either.elim undispatched apart
  · intro id member
    rw [length]
    rcases moves.once with same | ⟨-, appended⟩
    · rw [same] at member
      exact sound.known id member
    · rw [appended, List.mem_append, List.mem_singleton] at member
      rcases member with earlier | rfl
      · exact sound.known id earlier
      · exact sound.inside moves.inside
  · rcases moves.once with same | ⟨prepared, appended⟩
    · rw [same]
      exact sound.once
    · rw [appended]
      exact List.Nodup.append sound.once (List.nodup_singleton _)
        (List.disjoint_singleton.mpr (sound.fresh row moves.inside prepared).1)
  · intro lease member open_ runs
    rw [moves.clock] at runs
    rcases moves.leased lease member open_ runs with ⟨same, token, ending⟩ | ⟨earlier, apart⟩
    · exact ⟨moved, moves.member, moves.id.trans same.symm, token, ending⟩
    · obtain ⟨other, inside, same, rest⟩ := sound.leased lease earlier open_ runs
      exact ⟨other, moves.stays inside (by rw [same]; exact apart), same, rest⟩
  · intro other member token isToken
    rcases moves.old other member with rfl | ⟨inside, apart⟩
    · rw [moves.id]
      exact moves.recorded token isToken
    · obtain ⟨lease, earlier, isLease, same, rest⟩ := sound.recorded other inside token isToken
      exact ⟨lease, moves.others lease earlier (by rw [same]; exact apart), isLease, same, rest⟩

end Moved

theorem Sound.editRow (sound : Sound store) (inside : row ∈ store.rows)
    (edit : OperationRow Request → OperationRow Request) :
    (store.editRow row.id edit).rows = updateAt OperationRow.id row.id (fun _ => edit row) store.rows := by
  apply updateAt_congr
  intro other member same
  rw [sound.unique member inside same]

theorem Sound.grant (sound : Sound store) (inside : row ∈ store.rows)
    (free : ∀ ending ∈ row.leaseUntil, row.leaseToken.isSome → ending ≤ store.clock) (edit : OperationRow Request → OperationRow Request)
    (id : (edit row).id = row.id) (intent : (edit row).intent = row.intent) (dispatched : (edit row).status ≠ .prepared)
    (unresolved : row.status.unresolved = true)
    (leases : after.leases = (store.grant row edit).leases) (rows : after.rows = (store.grant row edit).rows)
    (clock : after.clock = store.clock)
    (once : after.dispatched = store.dispatched ∨ row.status = .prepared ∧ after.dispatched = store.dispatched ++ [row.id]) :
    Moved store after row { edit row with
      leaseToken := some store.leases.length
      leaseUntil := some (store.clock + leaseDuration)
      updatedAt := store.clock } := by
  have appended : after.leases = store.leases ++ [⟨row.id, store.leases.length, store.clock + leaseDuration, false⟩] := leases
  refine ⟨inside, id, intent, dispatched, unresolved, ?_, clock, once, ?_, ?_, ?_, ?_⟩
  · rw [rows]
    exact sound.editRow inside _
  · rw [appended, List.map_append, sound.tokens, List.length_append, List.length_singleton, List.range_succ]
    rfl
  · intro lease member open_ runs
    rw [appended, List.mem_append, List.mem_singleton] at member
    rcases member with earlier | rfl
    · right
      refine ⟨earlier, ?_⟩
      intro same
      obtain ⟨other, otherInside, isOther, token, ending⟩ := sound.leased lease earlier open_ runs
      have equal := sound.unique otherInside inside (isOther.trans same)
      subst equal
      have := free lease.expiresAt ending (by rw [token]; rfl)
      omega
    · exact .inl ⟨rfl, rfl, rfl⟩
  · intro token isToken
    cases isToken
    refine ⟨_, by rw [appended]; exact List.mem_append_right _ (List.mem_singleton_self _), rfl, rfl, rfl, rfl⟩
  · intro lease earlier _
    rw [appended]
    exact List.mem_append_left _ earlier

private theorem leasedRow_inv (found : store.leasedRow lease = some row) :
    row ∈ store.rows ∧ row.id = lease.operationId ∧ row.leaseToken = some lease.token ∧
      (∃ ending ∈ row.leaseUntil, store.clock < ending) ∧ row.status.leased = true := by
  have inside := List.mem_of_find?_eq_some found
  have all := List.find?_some found
  simp only [Bool.and_eq_true, beq_iff_eq, Option.any_eq_true, decide_eq_true_eq] at all
  exact ⟨inside, all.1.1.1, all.1.1.2, all.1.2, all.2⟩

/-- The worker whose lease still holds the row is the one that was granted it, and it has not expired. -/
theorem Sound.holder (sound : Sound store) (member : lease ∈ store.leases)
    (found : store.leasedRow lease = some row) : store.holds lease ∧ row.leaseUntil = some lease.expiresAt := by
  obtain ⟨inside, -, token, ⟨ending, isEnding, runs⟩, -⟩ := leasedRow_inv found
  obtain ⟨held, heldMember, same, -, until_, open_⟩ := sound.recorded row inside lease.token token
  have equal := sound.sameLease heldMember member same
  subst equal
  rw [Option.mem_def.mp isEnding] at until_
  cases until_
  exact ⟨⟨member, open_, runs⟩, isEnding⟩

private theorem leased_unresolved {status : ProviderOperationStatus} (leased : status.leased = true) :
    status.unresolved = true ∧ status ≠ .prepared := by
  cases status <;> simp_all [ProviderOperationStatus.leased, ProviderOperationStatus.unresolved]

theorem Sound.written (sound : Sound store) (member : lease ∈ store.leases) (found : store.leasedRow lease = some row)
    {change : ProviderOperationLease → ProviderOperationLease} (id : (edit row).id = row.id) (intent : (edit row).intent = row.intent)
    (dispatched : (edit row).status ≠ .prepared) (token : (change lease).token = lease.token)
    (operation : (change lease).operationId = lease.operationId)
    (agrees : (edit row).leaseToken = none ∧ (change lease).settled = true ∨ (edit row).leaseToken = row.leaseToken ∧
      (edit row).leaseUntil = some (change lease).expiresAt ∧ (change lease).settled = false) :
    Moved store ((store.editRow row.id edit).editLease lease.token change) row (edit row) := by
  obtain ⟨inside, sameRow, isToken, -, leased⟩ := leasedRow_inv found
  have edited : updateAt ProviderOperationLease.token lease.token change store.leases =
      updateAt ProviderOperationLease.token lease.token (fun _ => change lease) store.leases := by
    apply updateAt_congr
    intro other otherMember same
    rw [sound.sameLease otherMember member same]
  have after : ((store.editRow row.id edit).editLease lease.token change).leases =
      updateAt ProviderOperationLease.token lease.token (fun _ => change lease) store.leases := edited
  refine ⟨inside, id, intent, dispatched, (leased_unresolved leased).1, sound.editRow inside edit, rfl, .inl rfl, ?_, ?_, ?_, ?_⟩
  · rw [after]
    have length : (updateAt ProviderOperationLease.token lease.token (fun _ => change lease) store.leases).length = store.leases.length := by
      rw [updateAt, List.length_map]
    rw [length, ← sound.tokens, updateAt, List.map_map]
    apply List.map_congr_left
    intro other _
    rw [Function.comp]
    split
    · next same => exact token.trans same.symm
    · rfl
  · intro other otherMember open_ runs
    rw [after] at otherMember
    obtain ⟨old, oldMember, ⟨-, rfl⟩ | ⟨apart, rfl⟩⟩ := mem_updateAt.mp otherMember
    · rcases agrees with ⟨-, settled⟩ | ⟨kept, until_, -⟩
      · rw [settled] at open_
        cases open_
      · exact .inl ⟨operation.trans sameRow.symm, by rw [kept, token]; exact isToken, until_⟩
    · right
      refine ⟨oldMember, ?_⟩
      intro same
      obtain ⟨held, heldInside, isHeld, heldToken, -⟩ := sound.leased other oldMember open_ runs
      have equal := sound.unique heldInside inside (isHeld.trans same)
      subst equal
      rw [isToken] at heldToken
      exact apart (Option.some.inj heldToken).symm
  · intro isNew newToken
    rcases agrees with ⟨none, -⟩ | ⟨kept, until_, open_⟩
    · rw [none] at newToken
      cases newToken
    · rw [kept, isToken] at newToken
      cases newToken
      refine ⟨change lease, ?_, token, operation.trans sameRow.symm, until_, open_⟩
      rw [after]
      exact mem_updateAt.mpr ⟨lease, member, .inl ⟨rfl, rfl⟩⟩
  · intro other otherMember apart
    rw [after]
    refine mem_updateAt.mpr ⟨other, otherMember, .inr ⟨?_, rfl⟩⟩
    intro same
    rw [sound.sameLease otherMember member same, ← sameRow] at apart
    exact apart rfl

variable (hash : AdvisoryName → Int)

/-- What a step may do to the rows: an operation keeps its intent, and one that is unresolved was so before, or it is recorded
under both of its locks. -/
structure Changes (holder : Int → Prop) (before after : OperationStore Request) : Prop where
  kept : ∀ row ∈ before.rows, ∃ later ∈ after.rows, later.id = row.id ∧ later.intent = row.intent
  stands : ∀ row ∈ after.rows, (∃ earlier ∈ before.rows, row.id = earlier.id ∧ row.intent = earlier.intent ∧
    (row.status.unresolved = true → earlier.status.unresolved = true)) ∨
      holder (keyLock hash row.intent) ∧ holder (accountLock hash row.intent)

/-- What a step of the ledger keeps, when only some operations may be settled by it. -/
structure Effect (holder : Int → Prop) (settles : Nat → Prop) (before after : OperationStore Request) : Prop where
  sound : Sound after
  changes : Changes hash holder before after
  final : FinalKept before after
  settled : ∀ row ∈ after.rows, row.status.unresolved = false →
    (∃ earlier ∈ before.rows, earlier.id = row.id ∧ earlier.status.unresolved = false) ∨ settles row.id

private theorem finalKept_refl (store : OperationStore Request) : FinalKept store store := by
  intro row member _
  exact ⟨[], by rw [List.append_nil]; exact member⟩

theorem FinalKept.trans {before between after : OperationStore Request} (first : FinalKept before between) (second : FinalKept between after) :
    FinalKept before after := by
  intro row member settled
  obtain ⟨appended, inside⟩ := first row member settled
  obtain ⟨more, later⟩ := second _ inside settled
  refine ⟨appended ++ more, ?_⟩
  rw [← List.append_assoc]
  exact later

variable {holder : Int → Prop} {settles : Nat → Prop}

theorem changes_refl (store : OperationStore Request) : Changes hash holder store store :=
  ⟨fun row member => ⟨row, member, rfl, rfl⟩, fun row member => .inl ⟨row, member, rfl, rfl, fun open_ => open_⟩⟩

section
variable (sound : Sound store)
include sound

theorem Sound.same : Effect hash holder settles store store :=
  ⟨sound, changes_refl hash store, finalKept_refl store, fun row member settled => .inl ⟨row, member, rfl, settled⟩⟩

theorem Sound.moves {moved : OperationRow Request} (moves : Moved store after row moved)
    (settled : moved.status.unresolved = true ∨ settles row.id) : Effect hash holder settles store after := by
  refine ⟨sound.advanced moves, ⟨?_, fun other member => .inl (moves.before other member)⟩, ?_, ?_⟩
  · intro other member
    by_cases same : other.id = row.id
    · obtain rfl := sound.unique member moves.inside same
      exact ⟨moved, moves.member, moves.id, moves.intent⟩
    · exact ⟨other, moves.stays member same, rfl, rfl⟩
  · intro other member settled
    refine ⟨[], ?_⟩
    rw [List.append_nil]
    apply moves.stays member
    intro same
    rw [sound.unique member moves.inside same, moves.unresolved] at settled
    cases settled
  · intro other member resolved
    rcases moves.old other member with rfl | ⟨inside, -⟩
    · rw [moves.id]
      exact .inr (settled.resolve_left (Bool.eq_false_iff.mp resolved))
    · exact .inl ⟨other, inside, rfl, resolved⟩

/-- An edit of one row's fields that no lease or dispatch depends on. -/
theorem Sound.annotated (id : Nat)
    (kept : ∀ row, (edit row).id = row.id ∧ (edit row).intent = row.intent ∧ (edit row).status = row.status ∧
      (edit row).leaseToken = row.leaseToken ∧ (edit row).leaseUntil = row.leaseUntil)
    (final : ∀ row, row.status.unresolved = false → ∃ appended, edit row = { row with reviewRequests := row.reviewRequests ++ appended }) :
    Effect hash holder settles store (store.editRow id edit) := by
  let change (row : OperationRow Request) : OperationRow Request := if row.id = id then edit row else row
  have same (row : OperationRow Request) : (change row).id = row.id ∧ (change row).intent = row.intent ∧
      (change row).status = row.status ∧ (change row).leaseToken = row.leaseToken ∧ (change row).leaseUntil = row.leaseUntil := by
    by_cases here : row.id = id
    · simp only [change, if_pos here]
      exact kept row
    · simp only [change, if_neg here, and_self]
  have edited : Sound (store.editRow id edit) := sound.edited rfl rfl rfl le_rfl fun row =>
    ⟨(same row).1, (same row).2.1, .inl (same row).2.2.1, (same row).2.2.2⟩
  refine ⟨edited, ⟨?_, ?_⟩, ?_, ?_⟩
  · intro row member
    exact ⟨_, List.mem_map_of_mem member, (same row).1, (same row).2.1⟩
  · intro row member
    obtain ⟨earlier, inside, rfl⟩ := List.mem_map.mp member
    obtain ⟨sameId, intent, status, -⟩ := same earlier
    exact .inl ⟨earlier, inside, sameId, intent, fun open_ => by rwa [status] at open_⟩
  · intro row member settled
    by_cases here : row.id = id
    · obtain ⟨appended, changed⟩ := final row settled
      refine ⟨appended, mem_updateAt.mpr ⟨row, member, .inl ⟨here, changed.symm⟩⟩⟩
    · exact ⟨[], by rw [List.append_nil]; exact mem_updateAt.mpr ⟨row, member, .inr ⟨here, rfl⟩⟩⟩
  · intro row member settled
    obtain ⟨earlier, inside, rfl⟩ := List.mem_map.mp member
    obtain ⟨sameId, -, status, -⟩ := same earlier
    exact .inl ⟨earlier, inside, sameId.symm, by rwa [status] at settled⟩

theorem Sound.waits (elapsed : Nat) : Effect hash holder settles store { store with clock := store.clock + elapsed } := by
  refine ⟨sound.edited (List.map_id _).symm rfl rfl ?_ fun row => ⟨rfl, rfl, .inl rfl, rfl, rfl⟩, ?_, finalKept_refl store,
    fun row member settled => .inl ⟨row, member, rfl, settled⟩⟩
  · exact Int.le_add_of_nonneg_right (Int.natCast_nonneg elapsed)
  · exact ⟨fun row member => ⟨row, member, rfl, rfl⟩, fun row member => .inl ⟨row, member, rfl, rfl, fun open_ => open_⟩⟩

theorem Sound.claimDispatch_moved (projectId : Nat) (billingAccountId : Text) (id : Nat) :
    store.claimDispatch projectId billingAccountId id = store ∨ ∃ row moved,
      Moved store (store.claimDispatch projectId billingAccountId id) row moved ∧ row.id = id ∧ row.status = .prepared ∧
        moved.status = .inFlight ∧ (store.claimDispatch projectId billingAccountId id).dispatched = store.dispatched ++ [row.id] := by
  simp only [OperationStore.claimDispatch]
  split
  · exact .inl rfl
  · next row found =>
    have inside := List.mem_of_find?_eq_some found
    have claimed := List.find?_some found
    simp only [Bool.and_eq_true, beq_iff_eq] at claimed
    have prepared : row.status = .prepared := claimed.2
    have free := (sound.fresh row inside prepared).2
    refine .inr ⟨row, _, sound.grant inside ?_ (fun row => { row with status := .inFlight, attempts := row.attempts + 1 })
      rfl rfl ?_ ?_ rfl rfl rfl (.inr ⟨prepared, rfl⟩), claimed.1.2, prepared, rfl, rfl⟩
    · intro ending _ held
      rw [free] at held
      cases held
    · exact ProviderOperationStatus.noConfusion
    · rw [prepared]
      rfl

/-- A claim of a recovery moves a row that was dispatched and is not settled, or finds none. -/
theorem Sound.claimReconciliation_moved (projectId : Nat) (billingAccountId : Text) (id : Nat) :
    store.claimReconciliation projectId billingAccountId id = store ∨ ∃ row moved,
      Moved store (store.claimReconciliation projectId billingAccountId id) row moved ∧ row.status ≠ .prepared ∧
        moved.status = .reconciling := by
  simp only [OperationStore.claimReconciliation]
  split
  · exact .inl rfl
  · next row found =>
    have inside := List.mem_of_find?_eq_some found
    have claimed := List.find?_some found
    simp only [Bool.and_eq_true, Bool.or_eq_true, beq_iff_eq] at claimed
    have status := claimed.1.2
    refine .inr ⟨row, _, sound.grant inside ?_
      (fun row => { row with status := .reconciling, recoveryAttempts := row.recoveryAttempts + 1 })
      rfl rfl ?_ ?_ rfl rfl rfl (.inl rfl), ?_, rfl⟩
    · intro ending isEnding _
      have expired := claimed.2
      rw [Option.mem_def.mp isEnding] at expired
      exact of_decide_eq_true expired
    · exact ProviderOperationStatus.noConfusion
    · rcases status with (flying | reconciling) | review
      · rw [flying]
        rfl
      · rw [reconciling]
        rfl
      · rw [review]
        rfl
    · intro prepared
      rw [prepared] at status
      rcases status with (flying | reconciling) | review
      · cases flying
      · cases reconciling
      · cases review

theorem Sound.renew_moved (member : lease ∈ store.leases) :
    store.renew lease = store ∨ ∃ row moved, Moved store (store.renew lease) row moved ∧ row.status.leased = true ∧
      moved.status = row.status := by
  simp only [OperationStore.renew]
  split
  · exact .inl rfl
  · next row found =>
    have open_ := (sound.holder member found).1.2.1
    have leased := (leasedRow_inv found).2.2.2.2
    exact .inr ⟨row, _, sound.written member found rfl rfl (leased_unresolved leased).2 rfl rfl (.inr ⟨rfl, rfl, open_⟩), leased, rfl⟩

theorem Sound.settle_moved (member : lease ∈ store.leases)
    (outcome : ProviderOperationOutcome Request) :
    store.settle lease outcome = store ∨ ∃ row moved, Moved store (store.settle lease outcome) row moved ∧
      (store.holds lease ∧ lease.operationId = row.id) ∧ row.status.leased = true := by
  simp only [OperationStore.settle]
  split
  · exact .inl rfl
  · next row found =>
    refine .inr ⟨row, _, sound.written member found ?_ ?_ ?_ rfl rfl (.inl ⟨?_, rfl⟩),
      ⟨(sound.holder member found).1, (leasedRow_inv found).2.1.symm⟩, (leasedRow_inv found).2.2.2.2⟩
    · cases outcome <;> rfl
    · cases outcome <;> rfl
    · cases outcome with
      | reconciling errorCode =>
        simp only [OperationStore.settleRow]
        split <;> exact ProviderOperationStatus.noConfusion
      | succeeded result providerObjectId => exact ProviderOperationStatus.noConfusion
      | failed errorCode => exact ProviderOperationStatus.noConfusion
      | requiresReview errorCode => exact ProviderOperationStatus.noConfusion
    · cases outcome <;> rfl

theorem Sound.claimDispatch (projectId : Nat) (billingAccountId : Text) (id : Nat) :
    Effect hash holder settles store (store.claimDispatch projectId billingAccountId id) := by
  rcases sound.claimDispatch_moved projectId billingAccountId id with same | ⟨row, moved, moves, -, -, flying, -⟩
  · rw [same]
    exact sound.same hash
  · exact sound.moves hash moves (.inl (by rw [flying]; rfl))

theorem Sound.claimReconciliation (projectId : Nat) (billingAccountId : Text) (id : Nat) :
    Effect hash holder settles store (store.claimReconciliation projectId billingAccountId id) := by
  rcases sound.claimReconciliation_moved projectId billingAccountId id with same | ⟨row, moved, moves, -, reconciling⟩
  · rw [same]
    exact sound.same hash
  · exact sound.moves hash moves (.inl (by rw [reconciling]; rfl))

theorem Sound.renew (member : lease ∈ store.leases) :
    Effect hash holder settles store (store.renew lease) := by
  rcases sound.renew_moved member with same | ⟨row, moved, moves, leased, status⟩
  · rw [same]
    exact sound.same hash
  · exact sound.moves hash moves (.inl (by rw [status]; exact (leased_unresolved leased).1))

theorem Sound.settle (member : lease ∈ store.leases)
    (outcome : ProviderOperationOutcome Request) :
    Effect hash holder (fun id => store.holds lease ∧ lease.operationId = id) store (store.settle lease outcome) := by
  rcases sound.settle_moved member outcome with same | ⟨row, moved, moves, held, -⟩
  · rw [same]
    exact sound.same hash
  · exact sound.moves hash moves (.inr held)

theorem Sound.deferRecovery (projectId id : Nat) : Effect hash holder settles store (store.deferRecovery projectId id) := by
  apply sound.annotated hash id
  · intro row
    split <;> exact ⟨rfl, rfl, rfl, rfl, rfl⟩
  · intro row settled
    refine ⟨[], ?_⟩
    rw [List.append_nil, if_neg]
    rintro ⟨-, leased, -⟩
    rw [(leased_unresolved leased).1] at settled
    cases settled

theorem Sound.requestReview (projectId : Nat) (billingAccountId : Text) (id : Nat) (actor : Text) :
    Effect hash holder settles store (store.requestReview projectId billingAccountId id actor) := by
  apply sound.annotated hash id
  · intro row
    split <;> exact ⟨rfl, rfl, rfl, rfl, rfl⟩
  · intro row _
    split
    · exact ⟨_, rfl⟩
    · exact ⟨[], by rw [List.append_nil]⟩

end

section Intents
variable {hash} {intent : PrepareProviderOperation Request} {before : OperationStore Request}

theorem Changes.unrecorded (changes : Changes hash holder before after) (apart : ¬ holder (keyLock hash intent))
    (unrecorded : ∀ row ∈ before.rows, row.intent.sameKey intent = false) : ∀ row ∈ after.rows, row.intent.sameKey intent = false := by
  intro row member
  rcases changes.stands row member with ⟨earlier, inside, -, same, -⟩ | ⟨keyed, -⟩
  · rw [same]
    exact unrecorded earlier inside
  · apply Bool.eq_false_iff.mpr
    intro same
    rw [sameKey_lock hash same] at keyed
    exact apart keyed

theorem Changes.free (changes : Changes hash holder before after) (apart : ¬ holder (accountLock hash intent))
    (free : ∀ row ∈ before.rows, row.intent.sameResource intent = true → row.status.unresolved = false) :
    ∀ row ∈ after.rows, row.intent.sameResource intent = true → row.status.unresolved = false := by
  intro row member same
  rcases changes.stands row member with ⟨earlier, inside, -, intents, open_⟩ | ⟨-, locked⟩
  · rw [intents] at same
    apply Bool.eq_false_iff.mpr
    intro unresolved
    exact absurd (open_ unresolved) (Bool.eq_false_iff.mp (free earlier inside same))
  · rw [sameResource_lock hash same] at locked
    exact absurd locked apart

end Intents

theorem Sound.recordedUnder (sound : Sound store) {intent : PrepareProviderOperation Request} (accepted : intent.accepted = true)
    (unrecorded : ∀ row ∈ store.rows, row.intent.sameKey intent = false)
    (free : ∀ row ∈ store.rows, row.intent.sameResource intent = true → row.status.unresolved = false)
    (keyed : holder (keyLock hash intent)) (locked : holder (accountLock hash intent)) :
    Effect hash holder settles store
      { store with rows := store.rows ++ [OperationStore.operationOf store.rows.length intent store.clock] } := by
  have either {row : OperationRow Request} (member : row ∈ store.rows ++ [OperationStore.operationOf store.rows.length intent store.clock]) :
      row ∈ store.rows ∨ row = OperationStore.operationOf store.rows.length intent store.clock := by
    rwa [List.mem_append, List.mem_singleton] at member
  refine ⟨⟨?_, ?_, ?_, ?_, ?_, ?_, sound.once, sound.tokens, ?_, ?_⟩, ⟨?_, ?_⟩, ?_, ?_⟩
  · rw [List.map_append, sound.ids, List.length_append, List.length_singleton, List.range_succ]
    rfl
  · intro row member
    rcases either member with old | rfl
    · exact sound.accepted row old
    · exact accepted
  · intro first firstMember second secondMember same
    rcases either firstMember with one | rfl <;> rcases either secondMember with other | rfl
    · exact sound.keys first one second other same
    · exact absurd same (Bool.eq_false_iff.mp (unrecorded first one))
    · exact absurd (sameKey_symm same) (Bool.eq_false_iff.mp (unrecorded second other))
    · rfl
  · intro first firstMember second secondMember same firstOpen secondOpen
    rcases either firstMember with one | rfl <;> rcases either secondMember with other | rfl
    · exact sound.resources first one second other same firstOpen secondOpen
    · exact absurd firstOpen (Bool.eq_false_iff.mp (free first one same))
    · exact absurd secondOpen (Bool.eq_false_iff.mp (free second other (sameResource_symm same)))
    · rfl
  · intro row member prepared
    rcases either member with old | rfl
    · exact sound.fresh row old prepared
    · exact ⟨fun dispatched => absurd (sound.known _ dispatched) (lt_irrefl _), rfl⟩
  · intro id member
    rw [List.length_append]
    exact Nat.lt_add_right _ (sound.known id member)
  · intro lease member open_ runs
    obtain ⟨row, inside, rest⟩ := sound.leased lease member open_ runs
    exact ⟨row, List.mem_append_left _ inside, rest⟩
  · intro row member token isToken
    rcases either member with old | rfl
    · exact sound.recorded row old token isToken
    · cases isToken
  · intro row member
    exact ⟨row, List.mem_append_left _ member, rfl, rfl⟩
  · intro row member
    rcases either member with old | rfl
    · exact .inl ⟨row, old, rfl, rfl, fun open_ => open_⟩
    · exact .inr ⟨keyed, locked⟩
  · intro row member _
    exact ⟨[], by rw [List.append_nil]; exact List.mem_append_left _ member⟩
  · intro row member settled
    rcases either member with old | rfl
    · exact .inl ⟨row, old, rfl, settled⟩
    · cases settled

theorem Sound.findKey (sound : Sound store) (inside : row ∈ store.rows) {intent : PrepareProviderOperation Request}
    (same : row.intent.sameKey intent = true) : (store.rows.find? fun row => row.intent.sameKey intent) = some row := by
  cases found : store.rows.find? fun row => row.intent.sameKey intent with
  | none => exact absurd same (List.find?_eq_none.mp found row inside)
  | some existing =>
    have member := List.mem_of_find?_eq_some found
    have keyed : existing.intent.sameKey intent = true :=
      List.find?_some (p := fun row : OperationRow Request => row.intent.sameKey intent) found
    rw [sound.unique member inside (sound.keys existing member row inside (sameKey_trans keyed (sameKey_symm same)))]

theorem Sound.dispatchedOnce (sound : Sound store) : store.DispatchedOnce where
  once := sound.once
  keys := sound.keys
  resources := sound.resources
  alone := by
    rintro first second ⟨firstMember, firstOpen, firstRuns⟩ ⟨secondMember, secondOpen, secondRuns⟩ same
    obtain ⟨row, inside, isRow, token, -⟩ := sound.leased first firstMember firstOpen firstRuns
    obtain ⟨other, otherInside, isOther, otherToken, -⟩ := sound.leased second secondMember secondOpen secondRuns
    have rows := sound.unique inside otherInside (isRow.trans (same.trans isOther.symm))
    rw [rows, otherToken] at token
    exact sound.sameLease firstMember secondMember (Option.some.inj token).symm

end Stores

section Interleavings
variable [DecidableEq Request] (hash : AdvisoryName → Int)

/-- What a prepare relies on from its earlier statements, and what its answer says of the ledger. -/
def Knows (store : OperationStore Request) (preparation : Preparation Request) : Prop :=
  (preparation.stage ≠ .answered .invalid → preparation.intent.accepted = true) ∧
    match preparation.stage with
    | .unrecorded => ∀ row ∈ store.rows, row.intent.sameKey preparation.intent = false
    | .free => (∀ row ∈ store.rows, row.intent.sameKey preparation.intent = false) ∧
        ∀ row ∈ store.rows, row.intent.sameResource preparation.intent = true → row.status.unresolved = false
    | .answered (.operation id) => ∃ row ∈ store.rows, row.id = id ∧ row.intent.sameKey preparation.intent = true ∧
        row.intent.repeats preparation.intent = true
    | .answered .idempotencyConflict => ∃ row ∈ store.rows, row.intent.sameKey preparation.intent = true ∧
        row.intent.repeats preparation.intent = false
    | .answered .uniqueViolation => False
    | _ => True

theorem Changes.knows {hash : AdvisoryName → Int} {holder : Int → Prop} {before after : OperationStore Request}
    (changes : Changes hash holder before after) {preparation : Preparation Request} (knows : Knows before preparation)
    (apart : ∀ lock ∈ preparation.locks hash, ¬ holder lock) : Knows after preparation := by
  obtain ⟨intent, stage⟩ := preparation
  refine ⟨knows.1, ?_⟩
  cases stage with
  | unrecorded => exact changes.unrecorded (apart _ (by simp [Preparation.locks])) knows.2
  | free => exact ⟨changes.unrecorded (apart _ (by simp [Preparation.locks])) knows.2.1,
      changes.free (apart _ (by simp [Preparation.locks])) knows.2.2⟩
  | answered answer =>
    cases answer with
    | operation id =>
      obtain ⟨row, inside, sameId, same, repeats⟩ := knows.2
      obtain ⟨later, there, laterId, laterIntent⟩ := changes.kept row inside
      exact ⟨later, there, laterId.trans sameId, by rw [laterIntent]; exact same, by rw [laterIntent]; exact repeats⟩
    | idempotencyConflict =>
      obtain ⟨row, inside, same, differs⟩ := knows.2
      obtain ⟨later, there, -, laterIntent⟩ := changes.kept row inside
      exact ⟨later, there, by rw [laterIntent]; exact same, by rw [laterIntent]; exact differs⟩
    | operationPending => trivial
    | uniqueViolation => exact knows.2
    | invalid => trivial
  | begun | keyLocked | locked | abandoned => trivial

/-- The rules of the ledger: who may record an operation, and what a prepare knows between its statements. -/
def ledgerRules : Discipline (OperationStore Request) (Preparation Request) Int where
  locks := Preparation.locks hash
  valid := Sound
  knows := Knows
  changes := Changes hash
  stable := fun changes knows apart => Changes.knows changes knows apart

variable {hash} {store : OperationStore Request} {preparation : Preparation Request} {served : ServedOperations Request}
  {settles : Nat → Prop}

private theorem prepareStatement_keeps (sound : Sound store) (knows : Knows store preparation) :
    Effect hash (fun lock => lock ∈ preparation.locks hash ∨ lock ∈ preparation.wanted hash) settles store
      (prepareStatement store preparation).1 ∧
    Knows (prepareStatement store preparation).1 { preparation with stage := (prepareStatement store preparation).2 } ∧
    ∀ lock ∈ Preparation.locks hash { preparation with stage := (prepareStatement store preparation).2 },
      lock ∈ preparation.locks hash ∨ lock ∈ preparation.wanted hash := by
  obtain ⟨intent, stage⟩ := preparation
  have kept {next : PrepareStage} (knowing : Knows store ⟨intent, next⟩)
      (locks : ∀ lock ∈ Preparation.locks hash ⟨intent, next⟩, lock ∈ Preparation.locks hash ⟨intent, stage⟩ ∨
        lock ∈ Preparation.wanted hash ⟨intent, stage⟩) :
      Effect hash (fun lock => lock ∈ Preparation.locks hash ⟨intent, stage⟩ ∨ lock ∈ Preparation.wanted hash ⟨intent, stage⟩) settles
        store store ∧ Knows store ⟨intent, next⟩ ∧ ∀ lock ∈ Preparation.locks hash ⟨intent, next⟩,
          lock ∈ Preparation.locks hash ⟨intent, stage⟩ ∨ lock ∈ Preparation.wanted hash ⟨intent, stage⟩ :=
    ⟨sound.same hash, knowing, locks⟩
  cases stage with
  | begun => exact kept ⟨fun _ => knows.1 PrepareStage.noConfusion, trivial⟩ fun lock member => .inr member
  | keyLocked =>
    refine kept ⟨fun _ => knows.1 PrepareStage.noConfusion, trivial⟩ fun lock member => ?_
    simpa [prepareStatement, Preparation.locks, Preparation.wanted] using member
  | locked =>
    have accepted := knows.1 PrepareStage.noConfusion
    simp only [prepareStatement]
    split
    · next existing found =>
      have inside := List.mem_of_find?_eq_some found
      have same : existing.intent.sameKey intent = true :=
        List.find?_some (p := fun row : OperationRow Request => row.intent.sameKey intent) found
      by_cases repeats : existing.intent.repeats intent = true
      · rw [if_pos repeats]
        exact kept ⟨fun _ => accepted, existing, inside, rfl, same, repeats⟩ (fun _ none => nomatch none)
      · rw [if_neg repeats]
        exact kept ⟨fun _ => accepted, existing, inside, same, Bool.eq_false_iff.mpr repeats⟩ (fun _ none => nomatch none)
    · next none =>
      refine kept ⟨fun _ => accepted, ?_⟩ fun lock member => .inl member
      intro row member
      exact Bool.eq_false_iff.mpr (List.find?_eq_none.mp none row member)
  | unrecorded =>
    have accepted := knows.1 PrepareStage.noConfusion
    simp only [prepareStatement]
    split
    · exact kept ⟨fun _ => accepted, trivial⟩ (fun _ none => nomatch none)
    · next none =>
      refine kept ⟨fun _ => accepted, knows.2, ?_⟩ fun lock member => .inl member
      intro row member same
      apply Bool.eq_false_iff.mpr
      intro unresolved
      exact none (List.any_eq_true.mpr ⟨row, member, by rw [same, unresolved]; rfl⟩)
  | free =>
    have accepted := knows.1 PrepareStage.noConfusion
    obtain ⟨-, unrecorded, resolved⟩ := knows
    have unique : ¬ (store.rows.any fun row => row.intent.sameKey intent || row.intent.sameResource intent && row.status.unresolved) = true := by
      rw [List.any_eq_true]
      rintro ⟨row, member, taken⟩
      rcases (Bool.or_eq_true _ _).mp taken with keyed | pending
      · exact absurd keyed (Bool.eq_false_iff.mp (unrecorded row member))
      · obtain ⟨same, open_⟩ := (Bool.and_eq_true _ _).mp pending
        exact absurd open_ (Bool.eq_false_iff.mp (resolved row member same))
    have effect : Effect hash (fun lock => lock ∈ Preparation.locks hash ⟨intent, .free⟩ ∨ lock ∈ Preparation.wanted hash ⟨intent, .free⟩)
        settles store { store with rows := store.rows ++ [OperationStore.operationOf store.rows.length intent store.clock] } :=
      sound.recordedUnder hash accepted unrecorded resolved (.inl (by simp [Preparation.locks])) (.inl (by simp [Preparation.locks]))
    simp only [prepareStatement, if_neg unique]
    refine ⟨effect, ⟨fun _ => accepted, ?_⟩, fun _ none => nomatch none⟩
    exact ⟨_, List.mem_append_right _ (List.mem_singleton_self _), rfl, sameKey_refl intent, repeats_refl intent⟩
  | answered answer => exact kept knows (fun _ none => nomatch none)
  | abandoned => exact kept knows (fun _ none => nomatch none)

theorem kept_effect (kept : (ledgerRules hash).Kept served)
    {after : OperationStore Request} (effect : Effect hash (· ∈ ([] : List Int)) settles served.store after) :
    (ledgerRules hash).Kept { served with store := after } := by
  refine kept.alone ?_ effect.sound effect.changes
  simp [freeFor]

theorem perform_keeps (kept : (ledgerRules hash).Kept served) (step : OperationStep Request) :
    (ledgerRules hash).Kept (perform hash served step) ∧ FinalKept served.store (perform hash served step).store ∧
      SettledByHolder served.store step (perform hash served step).store := by
  have sound : Sound served.store := kept.valid
  have same : FinalKept served.store served.store ∧ SettledByHolder served.store step served.store :=
    ⟨finalKept_refl _, fun row member settled => .inl ⟨row, member, rfl, settled⟩⟩
  have alone {after : OperationStore Request} (effect : Effect hash (· ∈ ([] : List Int)) (fun _ => False) served.store after) :
      (ledgerRules hash).Kept { served with store := after } ∧ FinalKept served.store after ∧ SettledByHolder served.store step after :=
    ⟨kept_effect kept effect, effect.final, fun row member settled => .inl ((effect.settled row member settled).resolve_right fun none => none)⟩
  cases step with
  | wait elapsed => exact alone (sound.waits hash elapsed)
  | prepare intent =>
    refine ⟨kept.begun ?_ ?_, same⟩
    · by_cases accepted : intent.accepted = true
      · rw [if_pos accepted]
        rfl
      · rw [if_neg accepted]
        rfl
    · by_cases accepted : intent.accepted = true
      · rw [if_pos accepted]
        exact ⟨fun _ => accepted, trivial⟩
      · rw [if_neg accepted]
        exact ⟨fun apart => absurd rfl apart, trivial⟩
  | advance index =>
    simp only [perform]
    split
    · exact ⟨kept, same⟩
    · next preparation found =>
      split
      · next free =>
        have statement : Effect hash _ (fun _ => False) served.store _ ∧ _ :=
          prepareStatement_keeps sound (kept.knows preparation (List.mem_of_getElem? found))
        obtain ⟨effect, knows, locks⟩ := statement
        exact ⟨kept.statement found free ⟨effect.sound, knows, effect.changes, locks⟩, effect.final,
          fun row member settled => .inl ((effect.settled row member settled).resolve_right fun none => none)⟩
      · exact ⟨kept, same⟩
  | crash index =>
    simp only [perform]
    split
    · exact ⟨kept, same⟩
    · next preparation found =>
      have knows := kept.knows preparation (List.mem_of_getElem? found)
      split
      · exact ⟨kept, same⟩
      · next unanswered =>
        have free : freeFor (Preparation.locks hash) index [] served.sessions = true := by simp [freeFor]
        exact ⟨kept.statement found free ⟨sound, ⟨fun _ => knows.1 (unanswered _), trivial⟩, changes_refl hash served.store,
          fun _ none => nomatch none⟩, same⟩
  | claimDispatch projectId billingAccountId id => exact alone (sound.claimDispatch hash projectId billingAccountId id)
  | claimReconciliation projectId billingAccountId id => exact alone (sound.claimReconciliation hash projectId billingAccountId id)
  | renew lease =>
    simp only [perform]
    cases found : served.store.leases[lease]? with
    | none => exact ⟨kept, same⟩
    | some held => exact alone (sound.renew hash (List.mem_of_getElem? found))
  | settle lease outcome =>
    simp only [perform]
    cases found : served.store.leases[lease]? with
    | none => exact ⟨kept, same⟩
    | some held =>
      have effect : Effect hash (· ∈ ([] : List Int)) _ served.store _ := sound.settle hash (List.mem_of_getElem? found) outcome
      refine ⟨kept_effect kept effect, effect.final, ?_⟩
      intro row member settled
      exact (effect.settled row member settled).imp_right fun holds => ⟨lease, outcome, held, rfl, found, holds⟩
  | deferRecovery projectId id => exact alone (sound.deferRecovery hash projectId id)
  | requestReview projectId billingAccountId id actor =>
    exact alone (sound.requestReview hash projectId billingAccountId id actor)

private theorem runOperations_keeps (steps : List (OperationStep Request)) (kept : (ledgerRules hash).Kept served) :
    (ledgerRules hash).Kept (runOperations hash served steps) ∧ FinalKept served.store (runOperations hash served steps).store := by
  induction steps generalizing served with
  | nil => exact ⟨kept, finalKept_refl _⟩
  | cons step steps more =>
    obtain ⟨keeps, final, -⟩ := perform_keeps kept step
    obtain ⟨later, finals⟩ := more keeps
    exact ⟨later, final.trans finals⟩

theorem emptyLedger_kept (hash : AdvisoryName → Int) (clock : Int) : (ledgerRules hash).Kept (emptyLedger clock : ServedOperations Request) := by
  refine ⟨⟨rfl, ?_, ?_, ?_, ?_, ?_, List.nodup_nil, rfl, ?_, ?_⟩, ?_, ?_⟩ <;> simp [emptyLedger]

private theorem reached_kept (hash : AdvisoryName → Int) (clock : Int) (steps : List (OperationStep Request)) :
    (ledgerRules hash).Kept (runOperations hash (emptyLedger clock) steps) :=
  (runOperations_keeps steps (emptyLedger_kept hash clock)).1

private theorem settle_lost (kept : (ledgerRules hash).Kept served) {index : Nat}
    {lease : ProviderOperationLease} (found : served.store.leases[index]? = some lease) (lost : ¬ served.store.holds lease)
    (outcome : ProviderOperationOutcome Request) : perform hash served (.settle index outcome) = served := by
  have sound : Sound served.store := kept.valid
  have nothing : served.store.leasedRow lease = none := by
    cases held : served.store.leasedRow lease with
    | none => rfl
    | some row => exact absurd (sound.holder (List.mem_of_getElem? found) held).1 lost
  simp only [perform, found, Option.elim_some, OperationStore.settle, nothing]

/-- A prepare under way whose key is taken writes nothing, and answers by the operation that has it. -/
private theorem prepareStatement_repeated (sound : Sound store) (knows : Knows store preparation) {row : OperationRow Request}
    (inside : row ∈ store.rows) (same : row.intent.sameKey preparation.intent = true) (open_ : ∀ answer, preparation.stage ≠ .answered answer) :
    (prepareStatement store preparation).1 = store ∧ ∀ answer, (prepareStatement store preparation).2 = .answered answer →
      answer = repeatAnswer row preparation.intent := by
  obtain ⟨intent, stage⟩ := preparation
  cases stage with
  | begun | keyLocked | abandoned => exact ⟨rfl, fun answer none => nomatch none⟩
  | locked =>
    have found := sound.findKey inside same
    simp only [prepareStatement, found]
    exact ⟨trivial, fun answer given => (PrepareStage.answered.inj given).symm⟩
  | unrecorded => exact absurd same (Bool.eq_false_iff.mp (knows.2 row inside))
  | free => exact absurd same (Bool.eq_false_iff.mp (knows.2.1 row inside))
  | answered answer => exact absurd rfl (open_ answer)

private theorem repeatsAnswered (kept : (ledgerRules hash).Kept served) : RepeatsAnswered hash served := by
  intro row inside index preparation found same open_
  have knows : Knows served.store preparation := kept.knows preparation (List.mem_of_getElem? found)
  obtain ⟨unchanged, answers⟩ := prepareStatement_repeated kept.valid knows inside same open_
  simp only [perform, found]
  split
  · refine ⟨unchanged, fun next answer there given => answers answer ?_⟩
    rw [List.getElem?_set_self (List.getElem?_eq_some_iff.mp found).1] at there
    rw [← Option.some.inj there] at given
    exact given
  · refine ⟨rfl, fun next answer there given => ?_⟩
    rw [Option.some.inj (found.symm.trans there)] at open_
    exact absurd given (open_ answer)

/-- The next statement of the session begun last. -/
theorem advance_last {sessions : List (Preparation Request)} {wanted : List Int}
    (free : freeFor (Preparation.locks hash) sessions.length wanted sessions = true) (asked : preparation.wanted hash ⊆ wanted) :
    perform hash ⟨store, sessions ++ [preparation]⟩ (.advance sessions.length) =
      ⟨(prepareStatement store preparation).1, sessions ++ [{ preparation with stage := (prepareStatement store preparation).2 }]⟩ := by
  have found : (sessions ++ [preparation])[sessions.length]? = some preparation := List.getElem?_concat_length
  simp only [perform, found, if_pos (freeFor_last free asked preparation)]
  rw [List.set_append_right _ _ le_rfl, Nat.sub_self, List.set_cons_zero]

omit [DecidableEq Request] in
private theorem accepted_of_repeats [DecidableEq Request] {first second : PrepareProviderOperation Request} (accepted : first.accepted = true)
    (same : first.sameKey second = true) (repeats : first.repeats second = true) : second.accepted = true := by
  obtain ⟨-, account, -, key⟩ := sameKey_iff.mp same
  simp only [PrepareProviderOperation.repeats, Bool.and_eq_true, beq_iff_eq] at repeats
  obtain ⟨⟨⟨⟨digest, -⟩, provider⟩, operation⟩, resource⟩ := repeats
  rw [PrepareProviderOperation.accepted, ← account, ← key, ← digest, ← provider, ← operation, ← resource]
  exact accepted

private theorem repeatsReturned (kept : (ledgerRules hash).Kept served) : RepeatsReturned hash served := by
  intro row inside intent same free
  have sound : Sound served.store := kept.valid
  refine ⟨?_, fun repeats => accepted_of_repeats (sound.accepted row inside) same repeats⟩
  have begun : runOperations hash served (.prepare intent :: List.replicate 3 (.advance served.sessions.length)) =
      perform hash (perform hash (perform hash ⟨served.store, served.sessions ++
        [⟨intent, if intent.accepted then .begun else .answered .invalid⟩]⟩ (.advance served.sessions.length))
          (.advance served.sessions.length)) (.advance served.sessions.length) := rfl
  rw [begun]
  by_cases accepted : intent.accepted = true
  · rw [if_pos accepted, if_pos accepted, advance_last free (by simp [Preparation.wanted])]
    rw [advance_last free (by simp [Preparation.wanted, prepareStatement])]
    rw [advance_last free (by simp [Preparation.wanted, prepareStatement])]
    simp only [prepareStatement, sound.findKey inside same]
    rfl
  · rw [if_neg accepted, if_neg accepted, advance_last free (by simp [Preparation.wanted])]
    rw [advance_last free (by simp [Preparation.wanted, prepareStatement])]
    rw [advance_last free (by simp [Preparation.wanted, prepareStatement])]
    rfl

/-- In any interleaving an operation is dispatched once, under leases of which one at most is held and whose holder alone settles it.
A settled operation stays, apart from the review requests appended to it, and a repeated prepare writes nothing. -/
theorem operations_dispatched_once (hash : AdvisoryName → Int) (clock : Int) (steps : List (OperationStep Request)) :
    (runOperations hash (emptyLedger clock) steps).store.DispatchedOnce ∧
    (∀ earlier later, steps = earlier ++ later →
      FinalKept (runOperations hash (emptyLedger clock) earlier).store (runOperations hash (emptyLedger clock) steps).store) ∧
    (∀ step, SettledByHolder (runOperations hash (emptyLedger clock) steps).store step
      (runOperations hash (emptyLedger clock) (steps ++ [step])).store) ∧
    (∀ index lease outcome, (runOperations hash (emptyLedger clock) steps).store.leases[index]? = some lease →
      ¬ (runOperations hash (emptyLedger clock) steps).store.holds lease →
        runOperations hash (emptyLedger clock) (steps ++ [.settle index outcome]) = runOperations hash (emptyLedger clock) steps) ∧
    RepeatsAnswered hash (runOperations hash (emptyLedger clock) steps) ∧
    RepeatsReturned hash (runOperations hash (emptyLedger clock) steps) ∧
    ∀ preparation ∈ (runOperations hash (emptyLedger clock) steps).sessions, preparation.stage ≠ .answered .uniqueViolation := by
  have kept := reached_kept hash clock steps
  have sound : Sound (runOperations hash (emptyLedger clock) steps).store := kept.valid
  have next (step : OperationStep Request) : runOperations hash (emptyLedger clock) (steps ++ [step]) =
      perform hash (runOperations hash (emptyLedger clock) steps) step := by
    simp only [runOperations, List.foldl_append, List.foldl_cons, List.foldl_nil]
  refine ⟨sound.dispatchedOnce, ?_, ?_, ?_, repeatsAnswered kept, repeatsReturned kept, ?_⟩
  · rintro earlier later rfl
    have split : runOperations hash (emptyLedger clock) (earlier ++ later) =
        runOperations hash (runOperations hash (emptyLedger clock) earlier) later := List.foldl_append
    rw [split]
    exact (runOperations_keeps later (reached_kept hash clock earlier)).2
  · intro step
    rw [next]
    exact (perform_keeps kept step).2.2
  · intro index lease outcome found lost
    rw [next]
    exact settle_lost kept found lost outcome
  · rintro ⟨intent, stage⟩ member given
    have knows : Knows _ _ := kept.knows ⟨intent, stage⟩ member
    obtain rfl : stage = .answered .uniqueViolation := given
    exact knows.2

def cardCharge : PrepareProviderOperation Nat where
  projectId := 1
  billingAccountId := ['u']
  provider := .stripe
  providerAccountId := ['a']
  connectionVersionId := 1
  idempotencyKey := ['k']
  resourceKey := ['r']
  operation := ['c']
  requestHash := List.replicate 64 '0'
  request := 5

def chargeSteps : List (OperationStep Nat) :=
  .prepare cardCharge :: List.replicate 5 (.advance 0) ++ [.claimDispatch 1 ['u'] 0, .settle 0 (.succeeded 5 ['o'])]

/-- An operator's review request is appended to a charge that has succeeded. -/
theorem succeeded_operation_annotated : ¬ ∀ (hash : AdvisoryName → Int) (clock : Int) (earlier later : List (OperationStep Nat)),
    ∀ row ∈ (runOperations hash (emptyLedger clock) earlier).store.rows, row.status.unresolved = false →
      row ∈ (runOperations hash (emptyLedger clock) (earlier ++ later)).store.rows := by
  intro unchanged
  have kept := unchanged (fun _ => 0) 0 chargeSteps [.requestReview 1 ['u'] 0 ['o', 'p']]
  revert kept
  decide

end Interleavings

end Quotum.ProviderOperations
