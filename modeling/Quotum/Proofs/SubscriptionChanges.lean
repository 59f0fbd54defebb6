import Quotum.General.Outcomes
import Quotum.SubscriptionChanges

/-! A subscription change is applied once, in every run in which no snapshot returns the subscription to the source of a
change that an earlier snapshot applied and that is not settled yet. -/

namespace Quotum.SubscriptionChanges
open General

variable {now : Int} {worker : Text}

section Rows
variable {change next : SubscriptionChange}

/-- A change after a write: what it was requested as stays, and so does every end it reached. -/
structure Continues (change next : SubscriptionChange) : Prop where
  id : next.id = change.id
  source : next.fromPlanVersionId = change.fromPlanVersionId
  target : next.toPlanVersionId = change.toPlanVersionId
  synchronized : change.synchronizedAt.isSome → next.synchronizedAt.isSome
  cancelled : change.status = .cancelled → next.status = .cancelled
  applied : ∀ at_, change.appliedAt = some at_ → next.appliedAt = some at_

theorem Continues.refl (change : SubscriptionChange) : Continues change change :=
  ⟨rfl, rfl, rfl, fun stays => stays, fun stays => stays, fun _ stays => stays⟩

theorem Continues.trans {middle : SubscriptionChange} (first : Continues change middle) (second : Continues middle next) :
    Continues change next where
  id := second.id.trans first.id
  source := second.source.trans first.source
  target := second.target.trans first.target
  synchronized stays := second.synchronized (first.synchronized stays)
  cancelled stays := second.cancelled (first.cancelled stays)
  applied at_ stays := second.applied at_ (first.applied at_ stays)

private theorem applied_unrecorded {at_ : Int} (applied : change.appliedAt = some at_) : change.unrecorded = false := by
  unfold SubscriptionChange.appliedAt at applied
  unfold SubscriptionChange.unrecorded
  split at applied <;> simp_all

private theorem open_unrecorded (open_ : change.open_ = true) : change.unrecorded = true := by
  unfold SubscriptionChange.open_ at open_
  unfold SubscriptionChange.unrecorded
  split at open_ <;> simp_all

/-- A change that no worker has recorded may get any status. -/
private theorem unrecorded_continues (waiting : change.unrecorded = true) (id : next.id = change.id)
    (source : next.fromPlanVersionId = change.fromPlanVersionId) (target : next.toPlanVersionId = change.toPlanVersionId)
    (synchronized : next.synchronizedAt = change.synchronizedAt) : Continues change next where
  id := id
  source := source
  target := target
  synchronized stays := by rwa [synchronized]
  cancelled stays := by simp [SubscriptionChange.unrecorded, stays] at waiting
  applied at_ stays := by
    rw [applied_unrecorded stays] at waiting
    cases waiting

private theorem claimable_unrecorded (due : change.claimable now = true) : change.unrecorded = true := by
  unfold SubscriptionChange.claimable at due
  unfold SubscriptionChange.unrecorded
  split at due <;> simp_all

private theorem heldBy_unrecorded (held : change.heldBy worker = true) : change.unrecorded = true := by
  unfold SubscriptionChange.heldBy at held
  unfold SubscriptionChange.unrecorded
  split at held <;> simp_all

private theorem supersede_continues (planVersionId : Nat) (now : Int) (change : SubscriptionChange) :
    Continues change (change.supersede planVersionId now) := by
  unfold SubscriptionChange.supersede
  split
  · next left =>
    refine unrecorded_continues ?_ rfl rfl rfl rfl
    simp [SubscriptionChange.unrecorded, left.1]
  · exact .refl change

private theorem withdraw_continues (now : Int) (change : SubscriptionChange) : Continues change (change.withdraw now) := by
  unfold SubscriptionChange.withdraw
  split
  · next waits =>
    refine unrecorded_continues ?_ rfl rfl rfl rfl
    simp [SubscriptionChange.unrecorded, waits]
  · exact .refl change

private theorem synchronize_continues (now : Int) (change : SubscriptionChange) : Continues change (change.synchronize now) := by
  unfold SubscriptionChange.synchronize
  split
  · exact ⟨rfl, rfl, rfl, fun _ => rfl, fun stays => stays, fun _ stays => stays⟩
  · exact .refl change

end Rows

section Tables
variable {changes others : List SubscriptionChange} {change next : SubscriptionChange} {write : SubscriptionChange → SubscriptionChange}

def Follows (changes others : List SubscriptionChange) : Prop :=
  ∃ write : SubscriptionChange → SubscriptionChange, others = changes.map write ∧
    ∀ change ∈ changes, Continues change (write change)

private theorem follows_map (each : ∀ change, Continues change (write change)) :
    Follows changes (changes.map write) :=
  ⟨write, rfl, fun change _ => each change⟩

private theorem follows_update {id : Nat} (each : ∀ change ∈ changes, change.id = id → Continues change (write change)) :
    Follows changes (updateAt SubscriptionChange.id id write changes) := by
  refine ⟨fun change => if change.id = id then write change else change, rfl, ?_⟩
  intro change member
  dsimp only
  split
  · next here => exact each change member here
  · exact .refl change

theorem Follows.ids (follows : Follows changes others) : others.map SubscriptionChange.id = changes.map SubscriptionChange.id := by
  obtain ⟨write, rfl, each⟩ := follows
  rw [List.map_map]
  apply List.map_congr_left
  intro change member
  exact (each change member).id

theorem Follows.length (follows : Follows changes others) : others.length = changes.length := by
  obtain ⟨write, rfl, _⟩ := follows
  exact List.length_map write

theorem Follows.forward (follows : Follows changes others) (member : change ∈ changes) :
    ∃ next ∈ others, Continues change next := by
  obtain ⟨write, rfl, each⟩ := follows
  exact ⟨write change, List.mem_map_of_mem member, each change member⟩

theorem Follows.backward (follows : Follows changes others) (member : next ∈ others) :
    ∃ change ∈ changes, Continues change next := by
  obtain ⟨write, rfl, each⟩ := follows
  obtain ⟨change, inside, rfl⟩ := List.mem_map.mp member
  exact ⟨change, inside, each change inside⟩

/-- A change that no later sync can apply: a snapshot settled it, it was cancelled, or a later one was recorded. -/
def Settled (changes : List SubscriptionChange) (change : SubscriptionChange) : Prop :=
  change.synchronizedAt.isSome ∨ change.status = .cancelled ∨
    ∃ later ∈ changes, overtakes SubscriptionChange.appliedAt SubscriptionChange.id later change = true

private theorem overtakes_continues {later nextLater : SubscriptionChange}
    (passed : overtakes SubscriptionChange.appliedAt SubscriptionChange.id later change = true)
    (continues : Continues change next) (continuesLater : Continues later nextLater) :
    overtakes SubscriptionChange.appliedAt SubscriptionChange.id nextLater next = true := by
  obtain ⟨at_, earlier, stamped, isEarlier, order⟩ := overtakes_inv passed
  unfold overtakes
  simp only [continuesLater.applied at_ stamped, continues.applied earlier isEarlier, continues.id, continuesLater.id,
    decide_eq_true_eq]
  exact order

theorem Settled.continues (settled : Settled changes change) (follows : Follows changes others)
    (continues : Continues change next) : Settled others next := by
  rcases settled with synchronized | cancelled | ⟨later, member, passed⟩
  · exact .inl (continues.synchronized synchronized)
  · exact .inr (.inl (continues.cancelled cancelled))
  · obtain ⟨nextLater, inside, continuesLater⟩ := follows.forward member
    exact .inr (.inr ⟨nextLater, inside, overtakes_continues passed continues continuesLater⟩)

private theorem open_unsettled (open_ : change.open_ = true) (unsynchronized : change.synchronizedAt = none) :
    ¬ Settled changes change := by
  rintro (synchronized | cancelled | ⟨later, -, passed⟩)
  · simp [unsynchronized] at synchronized
  · simp [SubscriptionChange.open_, cancelled] at open_
  · obtain ⟨_, at_, -, applied, -⟩ := overtakes_inv passed
    have waiting := open_unrecorded open_
    rw [applied_unrecorded applied] at waiting
    cases waiting

private theorem latest_unsettled (latest : latestApplied changes = some change) (unsynchronized : change.synchronizedAt = none) :
    ¬ Settled changes change := by
  rintro (synchronized | cancelled | ⟨later, member, passed⟩)
  · simp [unsynchronized] at synchronized
  · have stamped := (newest_stamped latest).2
    simp [SubscriptionChange.appliedAt, cancelled] at stamped
  · rw [newest_last latest later member] at passed
    cases passed

private theorem unsettled_latest (distinct : (changes.map SubscriptionChange.id).Nodup) (member : change ∈ changes)
    (recorded : change.unrecorded = false) (unsettled : ¬ Settled changes change) : latestApplied changes = some change := by
  apply newest_eq distinct member
  · cases status : change.status with
    | applied at_ => simp [SubscriptionChange.appliedAt, status]
    | cancelled => exact absurd (.inr (.inl status)) unsettled
    | pending | processing _ _ | failed => simp [SubscriptionChange.unrecorded, status] at recorded
  · intro later inside
    apply Bool.eq_false_iff.mpr
    intro passed
    exact unsettled (.inr (.inr ⟨later, inside, passed⟩))

end Tables

section Resolution
variable {input : SyncInput} {row : ResolutionRow} {version : Resolution}

inductive Resolves (input : SyncInput) (row : ResolutionRow) : Resolution → Prop where
  | adopt {binding : Nat} : row.current = none → Resolves input row ⟨binding, true, row.unsettledId, none, none, false⟩
  | keep {current : Nat} {changeId : Option Nat} : row.current = some current →
      Resolves input row ⟨current, false, changeId, some current, none, false⟩
  | recorded {current : Nat} {change : SubscriptionChange} {carryOver : Option CarryOver} : row.current = some current →
      input.preservePlanVersion = false → row.recordedChange input = some change →
      Resolves input row ⟨change.toPlanVersionId, true, row.unsettledId, some current, carryOver, false⟩
  | reported {current : Nat} {change : SubscriptionChange} {carryOver : Option CarryOver} : row.current = some current →
      input.preservePlanVersion = false → row.recordedChange input = none → row.pendingChange = some change →
      Resolves input row ⟨change.toPlanVersionId, true, some change.id, some current, carryOver, false⟩
  | switched {current binding : Nat} : row.current = some current → input.preservePlanVersion = false →
      row.recordedChange input = none → row.binding = some binding → row.reportsSwitch input = true →
      Resolves input row
        ⟨binding, true, if row.waits input = true then none else row.unsettledId, some current, none, true⟩

private theorem resolve_inv (resolved : resolveSubscriptionPlanVersion input row = some version) : Resolves input row version := by
  unfold resolveSubscriptionPlanVersion at resolved
  split at resolved
  · next none_ =>
    obtain ⟨binding, -, rfl⟩ := Option.map_eq_some_iff.mp resolved
    exact .adopt none_
  · next current held =>
    split at resolved
    · cases resolved
      exact .keep held
    · next free =>
      have free := Bool.eq_false_iff.mpr free
      split at resolved
      · next change found =>
        cases resolved
        exact .recorded held free found
      · next absent =>
        dsimp only at resolved
        split at resolved
        · next change found =>
          cases resolved
          exact .reported held free absent found
        · split at resolved
          · next binding bound =>
            split at resolved
            · next switched =>
              cases resolved
              exact .switched held free absent bound switched.2
            · cases resolved
              exact .keep held
          · cases resolved
            exact .keep held

end Resolution

section Row
variable {subscription : Subscription} {input : SyncInput} {change : SubscriptionChange}

/-- The recorded change a sync applies waits for it: it starts from the current version and its target is shown. -/
private theorem recordedChange_inv (found : (subscription.row input).recordedChange input = some change) :
    latestApplied subscription.changes = some change ∧ change.synchronizedAt = none ∧
      subscription.planVersionId = some change.fromPlanVersionId ∧ change.toPlanVersionId ≠ change.fromPlanVersionId ∧
        (input.snapshot.isSome → input.catalog.shows input.storeProductId change.toPlanVersionId = true) := by
  unfold ResolutionRow.recordedChange at found
  split at found
  · next applies =>
    obtain ⟨waiting, shown⟩ := applies
    unfold Subscription.row at found waiting shown
    dsimp only at found waiting shown
    cases held : subscription.planVersionId with
    | none => simp [held] at found
    | some current =>
      simp only [held, Option.bind_some] at found waiting shown
      simp only [found, Option.bind_some] at waiting shown
      unfold SubscriptionChange.targetFrom at waiting shown
      split at waiting
      · next target =>
        rw [if_pos target] at shown
        obtain ⟨unsynchronized, source, apart, -⟩ := target
        subst source
        refine ⟨found, unsynchronized, rfl, apart, ?_⟩
        intro reported
        rcases shown with shown | absent
        · simpa using shown
        · simp [absent] at reported
      · cases waiting
  · cases found

/-- The open change a sync applies starts from the current version, and the product is bound to its target. -/
private theorem pendingChange_inv (found : (subscription.row input).pendingChange = some change) :
    change ∈ subscription.changes ∧ change.open_ = true ∧ change.synchronizedAt = none ∧
      subscription.planVersionId = some change.fromPlanVersionId ∧ change.toPlanVersionId ≠ change.fromPlanVersionId ∧
        (subscription.row input).binding = some change.toPlanVersionId := by
  unfold Subscription.row at found ⊢
  dsimp only at found ⊢
  obtain ⟨current, held, found⟩ := Option.bind_eq_some_iff.mp found
  obtain ⟨bound, binding, found⟩ := Option.bind_eq_some_iff.mp found
  unfold reportedChange at found
  split at found
  · next apart =>
    obtain ⟨member, stamped⟩ := newest_stamped found
    unfold SubscriptionChange.reportedAt at stamped
    split at stamped
    · next matches_ =>
      obtain ⟨open_, unsynchronized, source, target⟩ := matches_
      subst source target
      exact ⟨member, open_, unsynchronized, held, apart, binding⟩
    · cases stamped
  · cases found

end Row

/-- Whether a snapshot takes the subscription to a plan version it does not hold: a recorded change goes there, or the
product is bound to it while a change is open towards it or the provider switched. -/
def ResolutionRow.returnsTo (row : ResolutionRow) (input : SyncInput) (planVersionId : Nat) : Bool :=
  !input.preservePlanVersion && row.current != some planVersionId &&
    match row.recordedChange input with
    | some change => change.toPlanVersionId == planVersionId
    | none => row.binding == some planVersionId && (row.pendingChange.isSome || row.reportsSwitch input)

variable {planVersionId : Nat}

private theorem returnsTo_recorded {row : ResolutionRow} {input : SyncInput} {change : SubscriptionChange}
    (free : input.preservePlanVersion = false) (elsewhere : row.current ≠ some planVersionId)
    (found : row.recordedChange input = some change) (goes : change.toPlanVersionId = planVersionId) :
    row.returnsTo input planVersionId = true := by
  unfold ResolutionRow.returnsTo
  rw [found]
  simp [free, elsewhere, goes]

private theorem returnsTo_bound {row : ResolutionRow} {input : SyncInput}
    (free : input.preservePlanVersion = false) (elsewhere : row.current ≠ some planVersionId)
    (absent : row.recordedChange input = none) (bound : row.binding = some planVersionId)
    (moves : row.pendingChange.isSome ∨ row.reportsSwitch input = true) : row.returnsTo input planVersionId = true := by
  unfold ResolutionRow.returnsTo
  rw [absent]
  simp [free, elsewhere, bound, moves]

/-- A snapshot returns the subscription to the source of a change applied before, while no worker has recorded that change,
or while no snapshot has settled its record and the return is itself a change still open. -/
def ReturnsEarly (subscription : Subscription) (input : SyncInput) : Prop :=
  ∃ change ∈ subscription.changes, change.id ∈ subscription.applications.map Application.changeId ∧
    (subscription.row input).returnsTo input change.fromPlanVersionId = true ∧
      (change.unrecorded = true ∨
        (subscription.row input).change = some change ∧ change.synchronizedAt = none ∧
          (subscription.row input).pendingChange.isSome)

instance (subscription : Subscription) (input : SyncInput) : Decidable (ReturnsEarly subscription input) :=
  inferInstanceAs (Decidable (∃ change ∈ subscription.changes, _))

def InOrder (subscription : Subscription) : ChangeStep → Prop
  | .sync input => ¬ ReturnsEarly subscription input
  | _ => True

instance (subscription : Subscription) (step : ChangeStep) : Decidable (InOrder subscription step) := by
  cases step <;> unfold InOrder <;> infer_instance

/-- The states of a subscription over the runs whose steps are all allowed. It starts without changes. -/
inductive ChangesReach (allowed : Subscription → ChangeStep → Prop) : Subscription → Prop where
  | opened (planVersionId : Option Nat) (entityScoped : Bool) : ChangesReach allowed ⟨planVersionId, entityScoped, [], []⟩
  | step {subscription next : Subscription} {step : ChangeStep} : ChangesReach allowed subscription →
      allowed subscription step → step.apply subscription = .ok next → ChangesReach allowed next

/-- Every change moved the subscription to its target and carried over at most once, and no snapshot that does not show the
target of a change applies it. -/
structure AppliedOnce (subscription : Subscription) : Prop where
  moved : ∀ changeId, subscription.timesMoved changeId ≤ 1
  carried : ∀ changeId, subscription.timesCarried changeId ≤ 1
  target : ∀ application ∈ subscription.applications, ∃ change ∈ subscription.changes,
    change.id = application.changeId ∧ application.planVersionId = change.toPlanVersionId
  shown : ∀ (input : SyncInput) (next : Subscription), input.snapshot.isSome →
    subscription.materializeSubscriptionAllocations input = .ok next → ∀ change ∈ subscription.changes,
      input.catalog.shows input.storeProductId change.toPlanVersionId = false →
        next.timesMoved change.id = subscription.timesMoved change.id

/-- A change applied before is settled, or the subscription does not hold its source. -/
structure Sound (subscription : Subscription) : Prop where
  keyed : (subscription.changes.map SubscriptionChange.id).Nodup
  bounded : ∀ change ∈ subscription.changes, change.id < subscription.changes.length
  logged : (subscription.applications.map Application.changeId).Nodup
  known : ∀ application ∈ subscription.applications, ∃ change ∈ subscription.changes,
    change.id = application.changeId ∧ application.planVersionId = change.toPlanVersionId
  held : subscription.applications ≠ [] → subscription.planVersionId.isSome
  settled : ∀ change ∈ subscription.changes, change.id ∈ subscription.applications.map Application.changeId →
    Settled subscription.changes change ∨ subscription.planVersionId ≠ some change.fromPlanVersionId

section Writes
variable {subscription : Subscription} {changes : List SubscriptionChange}

section
variable (sound : Sound subscription) {next : Subscription} {id : Nat}
include sound

theorem Sound.follows (follows : Follows subscription.changes changes) :
    Sound { subscription with changes := changes } where
  keyed := by
    rw [follows.ids]
    exact sound.keyed
  bounded := by
    intro next member
    obtain ⟨change, inside, continues⟩ := follows.backward member
    rw [continues.id, follows.length]
    exact sound.bounded change inside
  logged := sound.logged
  known := by
    intro application member
    obtain ⟨change, inside, id, target⟩ := sound.known application member
    obtain ⟨next, also, continues⟩ := follows.forward inside
    exact ⟨next, also, continues.id.trans id, target.trans continues.target.symm⟩
  held := sound.held
  settled := by
    intro next member logged
    obtain ⟨change, inside, continues⟩ := follows.backward member
    rw [continues.id] at logged
    rw [continues.source]
    rcases sound.settled change inside logged with settled | apart
    · exact .inl (settled.continues follows continues)
    · exact .inr apart

/-- A mark on one change that no worker has recorded. -/
theorem Sound.changeAt {may : SubscriptionChange → Bool}
    (found : (subscription.changes.any fun change => change.id == id && may change) = true)
    (unrecorded : ∀ change, may change = true → change.unrecorded = true) {mark : SubscriptionChange → SubscriptionChange}
    (kept : ∀ change, (mark change).id = change.id ∧ (mark change).fromPlanVersionId = change.fromPlanVersionId ∧
      (mark change).toPlanVersionId = change.toPlanVersionId ∧ (mark change).synchronizedAt = change.synchronizedAt) :
    Sound (subscription.changeAt id mark) := by
  apply sound.follows
  apply follows_update
  rintro change member rfl
  obtain ⟨claimed, inside, matches_⟩ := List.any_eq_true.mp found
  rw [Bool.and_eq_true, beq_iff_eq] at matches_
  obtain rfl : claimed = change := List.inj_on_of_nodup_map sound.keyed inside member matches_.1
  obtain ⟨sameId, source, target, synchronized⟩ := kept claimed
  exact unrecorded_continues (unrecorded claimed matches_.2) sameId source target synchronized

theorem Sound.markHeld {mark : SubscriptionChange → SubscriptionChange} (done : subscription.markHeld worker id mark = .ok next)
    (kept : ∀ change, (mark change).id = change.id ∧ (mark change).fromPlanVersionId = change.fromPlanVersionId ∧
      (mark change).toPlanVersionId = change.toPlanVersionId ∧ (mark change).synchronizedAt = change.synchronizedAt) :
    Sound next := by
  unfold Subscription.markHeld at done
  split at done
  · next held =>
    cases done
    exact sound.changeAt held (fun change mine => heldBy_unrecorded mine) kept
  · cases done

theorem Sound.claim (done : subscription.claimSubscriptionChange worker id now = .ok next) : Sound next := by
  unfold Subscription.claimSubscriptionChange at done
  split at done
  · next due =>
    cases done
    exact sound.changeAt due (fun change claimable => claimable_unrecorded claimable) fun change => ⟨rfl, rfl, rfl, rfl⟩
  · cases done

theorem Sound.retry (done : subscription.retryRecurringJob id now = .ok next) : Sound next := by
  unfold Subscription.retryRecurringJob at done
  split at done
  · cases done
  · next change found =>
    split at done
    · cases done
    · next failed =>
      split at done
      · cases done
      · split at done
        · cases done
        · cases done
          obtain ⟨member, same⟩ := findAt_inv found
          apply @Sound.changeAt _ sound _ fun other => decide (other.status = .failed)
          · exact List.any_eq_true.mpr ⟨change, member, by simpa [same] using failed⟩
          · intro other parked
            simp [SubscriptionChange.unrecorded, of_decide_eq_true parked]
          · exact fun other => ⟨rfl, rfl, rfl, rfl⟩

theorem Sound.prepare {request : ChangeRequest} (done : subscription.prepareSubscriptionChange request now = .ok next) : Sound next := by
  unfold Subscription.prepareSubscriptionChange at done
  split at done
  · cases done
  · next current held =>
    split at done
    · cases done
    · cases done
      have fresh : ∀ change ∈ subscription.changes, change.id ≠ subscription.changes.length :=
        fun change member => Nat.ne_of_lt (sound.bounded change member)
      refine ⟨?_, ?_, sound.logged, ?_, sound.held, ?_⟩
      · rw [List.map_append, List.nodup_append]
        refine ⟨sound.keyed, by simp, ?_⟩
        intro id member other also
        obtain ⟨change, inside, rfl⟩ := List.mem_map.mp member
        simp only [List.map_cons, List.map_nil, List.mem_singleton] at also
        rw [also]
        exact fresh change inside
      · intro change member
        simp only [List.length_append, List.length_cons, List.length_nil]
        rcases List.mem_append.mp member with old | new
        · exact Nat.lt_succ_of_lt (sound.bounded change old)
        · obtain rfl := List.mem_singleton.mp new
          exact Nat.lt_succ_self _
      · intro application member
        obtain ⟨change, inside, matches_⟩ := sound.known application member
        exact ⟨change, List.mem_append_left _ inside, matches_⟩
      · intro change member logged
        rcases List.mem_append.mp member with old | new
        · rcases sound.settled change old logged with settled | apart
          · left
            rcases settled with synchronized | cancelled | ⟨later, inside, passed⟩
            · exact .inl synchronized
            · exact .inr (.inl cancelled)
            · exact .inr (.inr ⟨later, List.mem_append_left _ inside, passed⟩)
          · exact .inr apart
        · obtain rfl := List.mem_singleton.mp new
          obtain ⟨application, inside, same⟩ := List.mem_map.mp logged
          obtain ⟨change, known, id, -⟩ := sound.known application inside
          exact absurd (id.trans same) (fresh change known)

end

end Writes

section Syncs
variable {subscription next : Subscription} {input : SyncInput} {version : Resolution} {change : SubscriptionChange}

def Resolution.settleRow (version : Resolution) (now : Int) (change : SubscriptionChange) : SubscriptionChange :=
  let left := if version.providerSwitch = true then change.supersede version.planVersionId now else change
  if version.changeId = some left.id then left.synchronize now else left

private theorem settle_rows (version : Resolution) (now : Int) (changes : List SubscriptionChange) :
    version.settle now changes = changes.map (version.settleRow now) := by
  unfold Resolution.settle Resolution.settleRow updateAt
  cases version.changeId with
  | none => cases version.providerSwitch <;> simp
  | some id => cases version.providerSwitch <;> simp [eq_comm]

private theorem settleRow_continues (version : Resolution) (now : Int) (change : SubscriptionChange) :
    Continues change (version.settleRow now change) := by
  have left : Continues change (if version.providerSwitch = true then change.supersede version.planVersionId now else change) := by
    split
    · exact supersede_continues version.planVersionId now change
    · exact .refl change
  unfold Resolution.settleRow
  dsimp only
  revert left
  generalize (if version.providerSwitch = true then change.supersede version.planVersionId now else change) = written
  intro left
  split
  · exact left.trans (synchronize_continues now written)
  · exact left

private theorem settle_follows (version : Resolution) (now : Int) (changes : List SubscriptionChange) :
    Follows changes (version.settle now changes) := by
  rw [settle_rows]
  exact follows_map (settleRow_continues version now)

private theorem settleRow_synchronized {at_ : Int} (named : version.changeId = some change.id) (applied : change.appliedAt = some at_) :
    (version.settleRow now change).synchronizedAt.isSome := by
  have stays : change.supersede version.planVersionId now = change := by
    unfold SubscriptionChange.supersede
    rw [if_neg]
    rintro ⟨pending, -⟩
    simp [SubscriptionChange.appliedAt, pending] at applied
  unfold Resolution.settleRow
  rw [stays, ite_self]
  dsimp only
  rw [if_pos named]
  unfold SubscriptionChange.synchronize
  split
  · rfl
  · next settled =>
    by_contra absent
    exact settled ⟨by simp [applied], by simpa using absent⟩

section
variable (sound : Sound subscription)
include sound

/-- A change in the log that is not settled does not start from the current version. -/
theorem Sound.unlogged (member : change ∈ subscription.changes)
    (unsettled : ¬ Settled subscription.changes change) (source : subscription.planVersionId = some change.fromPlanVersionId) :
    change.id ∉ subscription.applications.map Application.changeId := by
  intro logged
  rcases sound.settled change member logged with settled | apart
  · exact unsettled settled
  · exact apart source

/-- A move of the subscription to a version, by at most one change, which it did not apply before. -/
theorem Sound.moves {changes : List SubscriptionChange}
    {added : Option Application} (follows : Follows subscription.changes changes)
    (applies : ∀ application, added = some application → ∃ change ∈ subscription.changes, change.id = application.changeId ∧
      application.planVersionId = change.toPlanVersionId ∧ planVersionId ≠ change.fromPlanVersionId ∧
        change.id ∉ subscription.applications.map Application.changeId)
    (stays : ∀ change ∈ subscription.changes, ∀ written ∈ changes, Continues change written →
      change.id ∈ subscription.applications.map Application.changeId → ¬ Settled changes written →
        ¬ Settled subscription.changes change → subscription.planVersionId ≠ some change.fromPlanVersionId →
          planVersionId ≠ change.fromPlanVersionId) :
    Sound { subscription with
      planVersionId := some planVersionId, changes := changes
      applications := subscription.applications ++ added.toList } where
  keyed := (sound.follows follows).keyed
  bounded := (sound.follows follows).bounded
  logged := by
    cases added with
    | none => simpa using sound.logged
    | some application =>
      obtain ⟨change, -, same, -, -, absent⟩ := applies application rfl
      simp only [Option.toList_some, List.map_append, List.map_cons, List.map_nil]
      rw [← same]
      exact List.nodup_append.mpr ⟨sound.logged, by simp, by
        intro id inside other also
        obtain rfl := List.mem_singleton.mp also
        exact fun equal => absent (equal ▸ inside)⟩
  known := by
    intro application member
    rcases List.mem_append.mp member with old | new
    · exact (sound.follows follows).known application old
    · obtain ⟨change, inside, id, target, -⟩ := applies application (Option.mem_toList.mp new)
      obtain ⟨written, also, continues⟩ := follows.forward inside
      exact ⟨written, also, continues.id.trans id, target.trans continues.target.symm⟩
  held _ := rfl
  settled := by
    intro written member logged
    obtain ⟨change, inside, continues⟩ := follows.backward member
    rw [continues.source]
    rw [continues.id, List.map_append, List.mem_append] at logged
    rcases logged with old | new
    · by_contra left
      rw [not_or, not_not] at left
      have unsettled : ¬ Settled subscription.changes change := fun settled => left.1 (settled.continues follows continues)
      have elsewhere := (sound.settled change inside old).resolve_left unsettled
      exact stays change inside written member continues old left.1 unsettled elsewhere (Option.some.inj left.2)
    · right
      obtain ⟨application, appended, same⟩ := List.mem_map.mp new
      obtain ⟨applied, known, id, -, apart, -⟩ := applies application (Option.mem_toList.mp appended)
      obtain rfl : applied = change := List.inj_on_of_nodup_map sound.keyed known inside (id.trans same)
      exact fun same => apart (Option.some.inj same)

variable (inOrder : ¬ ReturnsEarly subscription input) {carryOver : Option CarryOver} {current : Nat}
include inOrder

theorem Sound.ordered
    (member : change ∈ subscription.changes) (logged : change.id ∈ subscription.applications.map Application.changeId)
    (unsettled : ¬ Settled subscription.changes change)
    (returns : (subscription.row input).returnsTo input change.fromPlanVersionId = true) :
    latestApplied subscription.changes = some change ∧ (subscription.row input).pendingChange = none := by
  have recorded : change.unrecorded = false := by
    apply Bool.eq_false_iff.mpr
    intro unrecorded
    exact inOrder ⟨change, member, logged, returns, .inl unrecorded⟩
  have latest := unsettled_latest sound.keyed member recorded unsettled
  refine ⟨latest, ?_⟩
  rw [← Option.not_isSome_iff_eq_none]
  intro open_
  refine inOrder ⟨change, member, logged, returns, .inr ⟨?_, ?_, open_⟩⟩
  · obtain ⟨pending, found⟩ := Option.isSome_iff_exists.mp open_
    have held := (pendingChange_inv found).2.2.2.1
    simpa [Subscription.row, held] using latest
  · by_contra synchronized
    exact unsettled (.inl (Option.isSome_iff_ne_none.mpr synchronized))

/-- The sync of a recorded change, which was not applied before. -/
theorem Sound.syncRecorded (held : subscription.planVersionId = some current) (free : input.preservePlanVersion = false)
    (found : (subscription.row input).recordedChange input = some change) :
    Sound (subscription.settle input
      ⟨change.toPlanVersionId, true, (subscription.row input).unsettledId, some current, carryOver, false⟩) := by
  obtain ⟨latest, unsynchronized, source, apart, -⟩ := recordedChange_inv found
  have member := (newest_stamped latest).1
  have named : (subscription.row input).unsettledId = some change.id := by
    unfold ResolutionRow.unsettledId Subscription.row
    simp [held, latest, unsynchronized]
  apply sound.moves (settle_follows _ input.now subscription.changes)
  · intro application added
    unfold Resolution.application Resolution.appliedChangeId at added
    simp only [named, Option.isSome_some, and_self, ↓reduceIte, Option.map_some, Option.some.injEq] at added
    subst added
    exact ⟨change, member, rfl, rfl, apart, sound.unlogged member (latest_unsettled latest unsynchronized) source⟩
  · intro applied inside written also continues logged _ unsettled elsewhere returned
    have returns := returnsTo_recorded free elsewhere found returned
    obtain ⟨same, -⟩ := sound.ordered inOrder inside logged unsettled returns
    obtain rfl : applied = change := Option.some.inj (same.symm.trans latest)
    exact elsewhere source

/-- The sync of a change that is still open, which was not applied before. -/
theorem Sound.syncReported (free : input.preservePlanVersion = false)
    (absent : (subscription.row input).recordedChange input = none) (found : (subscription.row input).pendingChange = some change) :
    Sound (subscription.settle input ⟨change.toPlanVersionId, true, some change.id, some current, carryOver, false⟩) := by
  obtain ⟨member, open_, unsynchronized, source, apart, bound⟩ := pendingChange_inv found
  apply sound.moves (settle_follows _ input.now subscription.changes)
  · intro application added
    unfold Resolution.application Resolution.appliedChangeId at added
    simp only [Option.isSome_some, and_self, ↓reduceIte, Option.map_some, Option.some.injEq] at added
    subst added
    exact ⟨change, member, rfl, rfl, apart, sound.unlogged member (open_unsettled open_ unsynchronized) source⟩
  · intro applied inside written also continues logged _ unsettled elsewhere returned
    have returns := returnsTo_bound free elsewhere absent (bound.trans (congrArg some returned)) (.inl (by simp [found]))
    obtain ⟨-, none_⟩ := sound.ordered inOrder inside logged unsettled returns
    rw [found] at none_
    cases none_

/-- A switch of the provider settles the latest recorded change, so that a return to its source does not apply it again. -/
theorem Sound.syncSwitched {binding : Nat}
    (held : subscription.planVersionId = some current) (free : input.preservePlanVersion = false)
    (absent : (subscription.row input).recordedChange input = none)
    (bound : (subscription.row input).binding = some binding) (switched : (subscription.row input).reportsSwitch input = true) :
    Sound (subscription.settle input ⟨binding, true,
      if (subscription.row input).waits input = true then none else (subscription.row input).unsettledId,
      some current, none, true⟩) := by
  apply sound.moves (settle_follows _ input.now subscription.changes)
  · intro application added
    simp [Resolution.application, Resolution.appliedChangeId] at added
  · intro applied inside written also continues logged unsettledAfter unsettled elsewhere returned
    have returns := returnsTo_bound free elsewhere absent (bound.trans (congrArg some returned)) (.inr switched)
    obtain ⟨latest, -⟩ := sound.ordered inOrder inside logged unsettled returns
    have unsynchronized : applied.synchronizedAt = none := by
      by_contra synchronized
      exact unsettled (.inl (Option.isSome_iff_ne_none.mpr synchronized))
    have other : applied.fromPlanVersionId ≠ current := fun same => elsewhere (held.trans (congrArg some same.symm))
    have settles : (subscription.row input).waits input = false := by
      simp [ResolutionRow.waits, Subscription.row, held, latest, SubscriptionChange.targetFrom, other]
    have named : (subscription.row input).unsettledId = some applied.id := by
      unfold ResolutionRow.unsettledId Subscription.row
      simp [held, latest, unsynchronized]
    obtain ⟨at_, recorded⟩ := Option.isSome_iff_exists.mp (newest_stamped latest).2
    rw [settle_rows] at also
    obtain ⟨change, known, rfl⟩ := List.mem_map.mp also
    obtain rfl : change = applied :=
      List.inj_on_of_nodup_map sound.keyed known inside ((settleRow_continues _ input.now change).id.symm.trans continues.id)
    refine unsettledAfter (.inl (settleRow_synchronized ?_ recorded))
    simp [settles, named]

theorem Sound.sync
    (done : subscription.materializeSubscriptionAllocations input = .ok next) : Sound next := by
  unfold Subscription.materializeSubscriptionAllocations at done
  split at done
  · cases done
    exact sound
  · next version resolved =>
    split at done
    · cases done
    · cases done
      cases resolve_inv resolved with
      | adopt held =>
        have untouched : subscription.applications = [] := by
          by_contra applied
          have some_ := sound.held applied
          simp [show subscription.planVersionId = none from held] at some_
        apply sound.moves (settle_follows _ input.now subscription.changes)
        · intro application added
          simp [Resolution.application, Resolution.appliedChangeId] at added
        · intro applied _ _ _ _ logged
          simp [untouched] at logged
      | @keep current changeId held =>
        have follows := settle_follows ⟨current, false, changeId, some current, none, false⟩ input.now subscription.changes
        simpa [Subscription.settle, Resolution.application, Resolution.appliedChangeId] using sound.follows follows
      | recorded held free found => exact sound.syncRecorded inOrder held free found
      | reported _ free absent found => exact sound.syncReported inOrder free absent found
      | switched held free absent bound switched => exact sound.syncSwitched inOrder held free absent bound switched

end

private theorem sync_shows (shown : input.snapshot.isSome) (distinct : (subscription.changes.map SubscriptionChange.id).Nodup)
    (done : subscription.materializeSubscriptionAllocations input = .ok next) (member : change ∈ subscription.changes)
    (hidden : input.catalog.shows input.storeProductId change.toPlanVersionId = false) :
    next.timesMoved change.id = subscription.timesMoved change.id := by
  have apart : ∀ applied ∈ subscription.changes,
      input.catalog.shows input.storeProductId applied.toPlanVersionId = true → applied.id ≠ change.id := by
    intro applied inside visible same
    obtain rfl : applied = change := List.inj_on_of_nodup_map distinct inside member same
    rw [hidden] at visible
    cases visible
  unfold Subscription.materializeSubscriptionAllocations at done
  split at done
  · cases done
    rfl
  · next version resolved =>
    split at done
    · cases done
    · cases done
      unfold Subscription.timesMoved Subscription.settle
      rw [List.countP_append, Nat.add_eq_left, List.countP_eq_zero]
      intro application added named
      rw [Option.mem_toList] at added
      rw [beq_iff_eq] at named
      unfold Resolution.application Resolution.appliedChangeId at added
      cases resolve_inv resolved with
      | adopt held => simp at added
      | keep held => simp at added
      | switched held free absent bound switched => simp at added
      | @recorded current applied _ held free found =>
        obtain ⟨latest, unsynchronized, source, -, visible⟩ := recordedChange_inv found
        simp [ResolutionRow.unsettledId, Subscription.row, source, latest, unsynchronized] at added
        subst added
        exact apart applied (newest_stamped latest).1 (visible shown) named
      | @reported current applied _ held free absent found =>
        obtain ⟨inside, -, -, -, -, bound⟩ := pendingChange_inv found
        have visible : input.catalog.shows input.storeProductId applied.toPlanVersionId = true := by
          unfold Catalog.shows
          rw [Bool.or_eq_true, beq_iff_eq]
          exact .inl bound
        simp at added
        subst added
        exact apart applied inside visible named

end Syncs

section Runs
variable {subscription next : Subscription}

private theorem sound_opened (planVersionId : Option Nat) (entityScoped : Bool) : Sound ⟨planVersionId, entityScoped, [], []⟩ where
  keyed := .nil
  bounded _ member := absurd member List.not_mem_nil
  logged := .nil
  known _ member := absurd member List.not_mem_nil
  held applied := absurd rfl applied
  settled _ member := absurd member List.not_mem_nil

theorem Sound.step (sound : Sound subscription) {step : ChangeStep} (ordered : InOrder subscription step)
    (done : step.apply subscription = .ok next) : Sound next := by
  cases step with
  | prepare request now => exact sound.prepare done
  | claim worker id now => exact sound.claim done
  | renew worker id now => exact sound.markHeld done fun _ => ⟨rfl, rfl, rfl, rfl⟩
  | markApplied worker id now => exact sound.markHeld done fun _ => ⟨rfl, rfl, rfl, rfl⟩
  | markFailed worker id now => exact sound.markHeld done fun _ => ⟨rfl, rfl, rfl, rfl⟩
  | markCancelled worker id now => exact sound.markHeld done fun _ => ⟨rfl, rfl, rfl, rfl⟩
  | retry id now => exact sound.retry done
  | supersedePending now =>
    cases done
    exact sound.follows (follows_map (withdraw_continues now))
  | sync input => exact sound.sync ordered done

theorem reaches_sound (reached : ChangesReach InOrder subscription) : Sound subscription := by
  induction reached with
  | opened planVersionId entityScoped => exact sound_opened planVersionId entityScoped
  | step _ ordered done sound => exact sound.step ordered done

theorem Sound.moved (sound : Sound subscription) (changeId : Nat) : subscription.timesMoved changeId ≤ 1 := by
  have once := List.nodup_iff_count_le_one.mp sound.logged changeId
  rwa [List.count, List.countP_map] at once

theorem Sound.carried (sound : Sound subscription) (changeId : Nat) : subscription.timesCarried changeId ≤ 1 := by
  refine le_trans ?_ (sound.moved changeId)
  apply List.countP_mono_left
  intro application _ both
  exact (Bool.and_eq_true_iff.mp both).1

/-- In every run of requests, worker steps and syncs in which no snapshot returns the subscription early, each change is
applied once, by a snapshot that shows its target. -/
theorem changes_applied_once (reached : ChangesReach InOrder subscription) : AppliedOnce subscription := by
  have sound := reaches_sound reached
  refine ⟨sound.moved, sound.carried, sound.known, ?_⟩
  intro input next shown done change member hidden
  exact sync_shows shown sound.keyed done member hidden

end Runs

section Example

def twoPlans : Catalog where
  storeProducts := [⟨10, ['s'], ['w']⟩, ⟨20, ['s'], ['w']⟩]
  planBindings := [⟨10, 1⟩, ⟨20, 2⟩]
  priceBindings := [⟨1, 10, ['s'], ['w']⟩, ⟨2, 20, ['s'], ['w']⟩]
  publishedVersions := [1, 2]
  entityScopedVersions := []

def snapshotOf (storeProductId previousStoreProductId : Nat) (now : Int) : ChangeStep :=
  .sync ⟨storeProductId, .active, some ⟨some previousStoreProductId, none, none⟩, false, twoPlans, now⟩

def upgrade : ChangeStep :=
  .prepare ⟨2, .immediate, 0, ⟨[], [['c']]⟩, false⟩ 0

/-- An upgrade that a snapshot shows before its worker recorded it, and a return to the source in between. -/
def returnedEarly : List ChangeStep :=
  [upgrade, .claim ['a'] 0 1, snapshotOf 20 10 2, snapshotOf 10 20 3, .markApplied ['a'] 0 4, snapshotOf 20 10 5]

def upgradeRow (status : ChangeStatus) (attempts : Nat) (updatedAt : Int) (synchronizedAt : Option Int) : SubscriptionChange :=
  ⟨0, 1, 2, .immediate, 0, ⟨[], [['c']]⟩, false, status, attempts, 0, updatedAt, synchronizedAt⟩

def upgraded : Application := ⟨0, 2, some ⟨[], [['c']]⟩⟩

theorem run_reaches {allowed : Subscription → ChangeStep → Prop} {subscription next : Subscription} {steps : List ChangeStep}
    (always : ∀ subscription step, allowed subscription step) (reached : ChangesReach allowed subscription)
    (done : steps.foldlM ChangeStep.apply subscription = .ok next) : ChangesReach allowed next := by
  induction steps generalizing subscription with
  | nil =>
    cases done
    exact reached
  | cons step rest ih =>
    rw [List.foldlM_cons] at done
    obtain ⟨middle, first, later⟩ := bind_ok done
    exact ih (.step reached (always subscription step) first) later

/-- A subscription that returned to its source before the worker recorded the change carries over twice. -/
theorem change_applied_twice : ∃ subscription, ChangesReach (fun _ _ => True) subscription ∧ ¬ AppliedOnce subscription := by
  refine ⟨⟨some 2, false, [upgradeRow (.applied 4) 1 5 (some 5)], [upgraded, upgraded]⟩, ?_, ?_⟩
  · apply @run_reaches _ _ _ returnedEarly (fun _ _ => trivial) (.opened (some 1) false)
    decide
  · intro once
    exact absurd (once.carried 0) (by decide)

/-- The same upgrade, recorded and settled before the subscription returns to its source. -/
theorem changes_applied_once_upgrade :
    AppliedOnce ⟨some 2, false, [upgradeRow (.applied 3) 1 4 (some 4)], [upgraded]⟩ := by
  have requested : ChangesReach InOrder ⟨some 1, false, [upgradeRow .pending 0 0 none], []⟩ :=
    @ChangesReach.step _ _ _ upgrade (.opened (some 1) false) (by decide) (by decide)
  have claimed : ChangesReach InOrder ⟨some 1, false, [upgradeRow (.processing 1 ['a']) 1 1 none], []⟩ :=
    @ChangesReach.step _ _ _ (.claim ['a'] 0 1) requested (by decide) (by decide)
  have shown : ChangesReach InOrder ⟨some 2, false, [upgradeRow (.processing 1 ['a']) 1 1 none], [upgraded]⟩ :=
    @ChangesReach.step _ _ _ (snapshotOf 20 10 2) claimed (by decide) (by decide)
  have recorded : ChangesReach InOrder ⟨some 2, false, [upgradeRow (.applied 3) 1 3 none], [upgraded]⟩ :=
    @ChangesReach.step _ _ _ (.markApplied ['a'] 0 3) shown (by decide) (by decide)
  have returned : ChangesReach InOrder ⟨some 1, false, [upgradeRow (.applied 3) 1 4 (some 4)], [upgraded]⟩ :=
    @ChangesReach.step _ _ _ (snapshotOf 10 20 4) recorded (by decide) (by decide)
  have again : ChangesReach InOrder ⟨some 2, false, [upgradeRow (.applied 3) 1 4 (some 4)], [upgraded]⟩ :=
    @ChangesReach.step _ _ _ (snapshotOf 20 10 5) returned (by decide) (by decide)
  exact changes_applied_once again

end Example

end Quotum.SubscriptionChanges
