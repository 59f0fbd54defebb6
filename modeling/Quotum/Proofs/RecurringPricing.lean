import Quotum.RecurringPricing
import Quotum.Proofs.Promotions

/-! A subscription change, its promotion and its migration job agree as long as no ended request with a promotion is repeated. -/

namespace Quotum.RecurringPricing
open General Promotions SubscriptionChanges

variable {change : SubscriptionChange} {job : MigrationJob} {changeId : Nat} {state : PromotionState} {now : Int} {worker : Text}
   {operation : RecurringOperation}

def redemptionFor (change : SubscriptionChange) : PromotionRedemptionStatus :=
  match change.status with
  | .pending | .processing _ _ => .reserved
  | .applied _ => .applied
  | .failed | .cancelled => .released

def jobFor (change : SubscriptionChange) : MigrationStatus :=
  match change.status with
  | .pending | .processing _ _ => .waitingProvider
  | .applied _ => .applied
  | .failed | .cancelled => .failed

private theorem redemptionFor_open : redemptionFor change = .reserved ↔ change.open_ = true := by
  unfold redemptionFor SubscriptionChange.open_
  cases change.status <;> simp

private theorem jobFor_open : jobFor change = .waitingProvider ↔ change.open_ = true := by
  unfold jobFor SubscriptionChange.open_
  cases change.status <;> simp

structure Tied (customerId : Nat) (prepared : PreparedChange) (redemption : PromotionRedemption) : Prop where
  change : redemption.subscriptionChangeId = some prepared.id
  customer : redemption.customerId = customerId
  key : ∃ key, prepared.idempotencyKey = .request key ∧ redemption.idempotencyKey = .request key
  hash : ∃ code, prepared.requestHash.promotionCodeId = some code ∧ redemption.requestHash = .request code prepared.requestHash.rest
  status : redemption.status = redemptionFor prepared.change

/-- Every redemption is tied to one change, and every tied row has the status its change asks for. -/
structure Coherent (tables : ChangeTables) : Prop where
  below : ∀ prepared ∈ tables.changes, prepared.id < tables.changes.length
  distinct : (tables.changes.map PreparedChange.id).Nodup
  keyed : (tables.changes.map PreparedChange.idempotencyKey).Nodup
  single : ∀ first ∈ tables.changes, ∀ second ∈ tables.changes, first.change.open_ = true → second.change.open_ = true → first = second
  redemptionsDistinct : (tables.promotions.redemptions.map PromotionRedemption.id).Nodup
  tied : ∀ redemption ∈ tables.promotions.redemptions, ∃ prepared ∈ tables.changes, Tied tables.customerId prepared redemption
  tiedOnce : (tables.promotions.redemptions.map PromotionRedemption.subscriptionChangeId).Nodup
  jobsDistinct : (tables.jobs.map MigrationJob.id).Nodup
  jobs : ∀ job ∈ tables.jobs, ∀ changeId ∈ job.subscriptionChangeId,
    ∃ prepared ∈ tables.changes, prepared.id = changeId ∧ job.status = jobFor prepared.change

def Promised (tables : ChangeTables) : Prop :=
  ∀ prepared ∈ tables.changes, prepared.requestHash.promotionCodeId.isSome = true →
    ∃ redemption ∈ tables.promotions.redemptions, redemption.subscriptionChangeId = some prepared.id

theorem ChangeTables.Unstaged.coherent {tables : ChangeTables} (unstaged : tables.Unstaged) : Coherent tables where
  below := by simp [unstaged.unprepared]
  distinct := by simp [unstaged.unprepared]
  keyed := by simp [unstaged.unprepared]
  single := by simp [unstaged.unprepared]
  redemptionsDistinct := by simp [unstaged.unredeemed]
  tied := by simp [unstaged.unredeemed]
  tiedOnce := by simp [unstaged.unredeemed]
  jobsDistinct := unstaged.distinct
  jobs := by
    intro job member changeId tied
    rw [(unstaged.waiting job member).1] at tied
    cases tied

theorem ChangeTables.Unstaged.promised {tables : ChangeTables} (unstaged : tables.Unstaged) : Promised tables := by
  intro prepared member
  rw [unstaged.unprepared] at member
  cases member

section Coherent
variable {tables next : ChangeTables} {prepared : PreparedChange} {row redemption : PromotionRedemption} {around : Surroundings}
  {input : ReserveInput}

section
variable (coherent : Coherent tables)
include coherent

theorem Coherent.same {first second : PreparedChange} (here : first ∈ tables.changes)
    (there : second ∈ tables.changes) (ids : first.id = second.id) : first = second :=
  List.inj_on_of_nodup_map coherent.distinct here there ids

theorem Coherent.sameKey {first second : PreparedChange} (here : first ∈ tables.changes)
    (there : second ∈ tables.changes) (keys : first.idempotencyKey = second.idempotencyKey) : first = second :=
  List.inj_on_of_nodup_map coherent.keyed here there keys

theorem Coherent.sameTie {first second : PromotionRedemption}
    (here : first ∈ tables.promotions.redemptions) (there : second ∈ tables.promotions.redemptions)
    (ties : first.subscriptionChangeId = second.subscriptionChangeId) : first = second :=
  List.inj_on_of_nodup_map coherent.tiedOnce here there ties

theorem Coherent.status (member : prepared ∈ tables.changes) (inside : redemption ∈ tables.promotions.redemptions)
    (tied : redemption.subscriptionChangeId = some prepared.id) : Tied tables.customerId prepared redemption := by
  obtain ⟨other, there, holds⟩ := coherent.tied redemption inside
  have same : other = prepared := coherent.same there member (Option.some.inj (holds.change.symm.trans tied))
  exact same ▸ holds

theorem Coherent.jobStatus (member : prepared ∈ tables.changes)
    (inside : job ∈ tables.jobs) (tied : job.subscriptionChangeId = some prepared.id) :
    job.status = jobFor prepared.change := by
  obtain ⟨other, there, ids, status⟩ := coherent.jobs job inside prepared.id tied
  rw [status, coherent.same there member ids]

theorem Coherent.agree : tables.Agree where
  single := coherent.single
  reserved := by
    intro redemption inside reserved changeId tied
    obtain ⟨prepared, member, holds⟩ := coherent.tied redemption inside
    have here : prepared.id = changeId := Option.some.inj (holds.change.symm.trans tied)
    have open_ := redemptionFor_open.mp (holds.status.symm.trans reserved)
    exact List.any_eq_true.mpr ⟨prepared, member, by simp [here, open_]⟩
  applied := by
    intro prepared member applied
    have status : redemptionFor prepared.change = .applied ∧ jobFor prepared.change = .applied := by
      unfold SubscriptionChange.appliedAt at applied
      unfold redemptionFor jobFor
      cases status : prepared.change.status <;> simp_all
    constructor
    · intro redemption inside tied
      exact (coherent.status member inside tied).status.trans status.1
    · intro job inside tied
      exact (coherent.jobStatus member inside tied).trans status.2
  ended := by
    intro prepared member ended
    have status : redemptionFor prepared.change = .released ∧ jobFor prepared.change = .failed := by
      unfold PreparedChange.ended at ended
      unfold redemptionFor jobFor
      cases status : prepared.change.status <;> simp_all
    constructor
    · intro redemption inside tied
      exact (coherent.status member inside tied).status.trans status.1
    · intro job inside tied waiting
      have failed := (coherent.jobStatus member inside tied).trans status.2
      rw [waiting] at failed
      cases failed

end

/-- A row edited within one operation: its ties stay, and it gets the status unless it is tied elsewhere. -/
structure Settled (changeId : Nat) (status : PromotionRedemptionStatus) (row edited : PromotionRedemption) : Prop where
  id : edited.id = row.id
  customer : edited.customerId = row.customerId
  key : edited.idempotencyKey = row.idempotencyKey
  hash : edited.requestHash = row.requestHash
  tie : edited.subscriptionChangeId = row.subscriptionChangeId
  here : row.subscriptionChangeId = some changeId → edited.status = status
  elsewhere : row.subscriptionChangeId ≠ some changeId → edited.status = row.status

structure JobMoved (changeId : Nat) (status : MigrationStatus) (job moved : MigrationJob) : Prop where
  id : moved.id = job.id
  tie : moved.subscriptionChangeId = job.subscriptionChangeId
  here : job.subscriptionChangeId = some changeId → moved.status = status
  elsewhere : job.subscriptionChangeId ≠ some changeId → moved.status = job.status

structure Moves (tables next : ChangeTables) (prepared : PreparedChange) (edit : SubscriptionChange → SubscriptionChange)
    (settle : PromotionRedemption → PromotionRedemption) (move : MigrationJob → MigrationJob) : Prop where
  keptId : ∀ change, (edit change).id = change.id
  customer : next.customerId = tables.customerId
  changes : next.changes = updateAt PreparedChange.id prepared.id (PreparedChange.edit edit) tables.changes
  redemptions : next.promotions.redemptions = tables.promotions.redemptions.map settle
  settled : ∀ row ∈ tables.promotions.redemptions, Settled prepared.id (redemptionFor (edit prepared.change)) row (settle row)
  jobs : next.jobs = tables.jobs.map move
  moved : ∀ job ∈ tables.jobs, JobMoved prepared.id (jobFor (edit prepared.change)) job (move job)

section Moves
variable {prepared : PreparedChange} {edit : SubscriptionChange → SubscriptionChange}
  {settle : PromotionRedemption → PromotionRedemption} {move : MigrationJob → MigrationJob}

section
variable (moves : Moves tables next prepared edit settle move)
include moves

theorem Moves.changeAfter {other : PreparedChange} (member : other ∈ tables.changes) :
    ∃ later ∈ next.changes, later.id = other.id ∧ later.idempotencyKey = other.idempotencyKey ∧ later.requestHash = other.requestHash ∧
      (other.id = prepared.id → later.change = edit other.change) ∧ (other.id ≠ prepared.id → later = other) := by
  by_cases here : other.id = prepared.id
  · refine ⟨other.edit edit, ?_, moves.keptId other.change, rfl, rfl, fun _ => rfl, fun apart => absurd here apart⟩
    rw [moves.changes]
    exact mem_updateAt.mpr ⟨other, member, .inl ⟨here, rfl⟩⟩
  · refine ⟨other, ?_, rfl, rfl, rfl, fun same => absurd same here, fun _ => rfl⟩
    rw [moves.changes]
    exact mem_updateAt.mpr ⟨other, member, .inr ⟨here, rfl⟩⟩

theorem Moves.changeBefore {later : PreparedChange} (member : later ∈ next.changes) :
    ∃ other ∈ tables.changes, later.id = other.id ∧ later.requestHash = other.requestHash ∧
      ((other.id = prepared.id ∧ later = other.edit edit) ∨ (other.id ≠ prepared.id ∧ later = other)) := by
  rw [moves.changes] at member
  obtain ⟨other, inside, ⟨here, rfl⟩ | ⟨apart, rfl⟩⟩ := mem_updateAt.mp member
  · exact ⟨other, inside, moves.keptId other.change, rfl, .inl ⟨here, rfl⟩⟩
  · exact ⟨later, inside, rfl, rfl, .inr ⟨apart, rfl⟩⟩

def StaysSingle (tables : ChangeTables) (prepared : PreparedChange) (edit : SubscriptionChange → SubscriptionChange) : Prop :=
  (edit prepared.change).open_ = true → ∀ other ∈ tables.changes, other.change.open_ = true → other = prepared

theorem Moves.single (coherent : Coherent tables) (member : prepared ∈ tables.changes)
    (alone : StaysSingle tables prepared edit) :
    ∀ first ∈ next.changes, ∀ second ∈ next.changes, first.change.open_ = true → second.change.open_ = true → first = second := by
  intro first here second there firstOpen secondOpen
  obtain ⟨one, oneInside, -, -, ⟨oneHere, rfl⟩ | ⟨oneApart, rfl⟩⟩ := moves.changeBefore here
  · have oneIs := coherent.same oneInside member oneHere
    obtain ⟨two, twoInside, -, -, ⟨twoHere, rfl⟩ | ⟨twoApart, rfl⟩⟩ := moves.changeBefore there
    · rw [oneIs, coherent.same twoInside member twoHere]
    · rw [oneIs] at firstOpen
      exact absurd (alone firstOpen _ twoInside secondOpen ▸ rfl) twoApart
  · obtain ⟨two, twoInside, -, -, ⟨twoHere, rfl⟩ | ⟨twoApart, rfl⟩⟩ := moves.changeBefore there
    · rw [coherent.same twoInside member twoHere] at secondOpen
      exact absurd (alone secondOpen _ oneInside firstOpen ▸ rfl) oneApart
    · exact coherent.single _ oneInside _ twoInside firstOpen secondOpen

theorem Moves.tied (coherent : Coherent tables) (member : prepared ∈ tables.changes)
    (inside : redemption ∈ next.promotions.redemptions) :
    ∃ later ∈ next.changes, Tied next.customerId later redemption := by
  rw [moves.redemptions] at inside
  obtain ⟨row, there, rfl⟩ := List.mem_map.mp inside
  have settled := moves.settled row there
  obtain ⟨other, otherInside, holds⟩ := coherent.tied row there
  obtain ⟨later, laterInside, ids, keys, hashes, here, apart⟩ := moves.changeAfter otherInside
  refine ⟨later, laterInside, ?_, ?_, ?_, ?_, ?_⟩
  · rw [settled.tie, holds.change, ids]
  · rw [settled.customer, holds.customer, moves.customer]
  · rw [settled.key, keys]
    exact holds.key
  · rw [settled.hash, hashes]
    exact holds.hash
  · by_cases same : other.id = prepared.id
    · rw [settled.here (by rw [holds.change, same]), here same, coherent.same otherInside member same]
    · rw [settled.elsewhere (by rw [holds.change]; simpa using same), holds.status, apart same]

theorem Moves.jobTied (coherent : Coherent tables) (member : prepared ∈ tables.changes)
    (inside : job ∈ next.jobs) (tie : changeId ∈ job.subscriptionChangeId) :
    ∃ later ∈ next.changes, later.id = changeId ∧ job.status = jobFor later.change := by
  rw [moves.jobs] at inside
  obtain ⟨old, there, rfl⟩ := List.mem_map.mp inside
  have moved := moves.moved old there
  rw [moved.tie] at tie
  obtain ⟨other, otherInside, otherId, status⟩ := coherent.jobs old there changeId tie
  obtain ⟨later, laterInside, ids, -, -, here, apart⟩ := moves.changeAfter otherInside
  refine ⟨later, laterInside, ids.trans otherId, ?_⟩
  by_cases same : other.id = prepared.id
  · rw [moved.here (by rw [← same, otherId]; exact tie), here same, coherent.same otherInside member same]
  · have elsewhere : old.subscriptionChangeId ≠ some prepared.id := by
      intro again
      exact same (otherId.trans (Option.some.inj (tie.symm.trans again)))
    rw [moved.elsewhere elsewhere, status, apart same]

theorem Moves.coherent (coherent : Coherent tables)
    (member : prepared ∈ tables.changes) (alone : StaysSingle tables prepared edit) : Coherent next where
  below := by
    intro later inside
    obtain ⟨other, there, ids, -⟩ := moves.changeBefore inside
    rw [ids, moves.changes, updateAt, List.length_map]
    exact coherent.below other there
  distinct := by
    rw [moves.changes, updateAt_keys fun row => moves.keptId row.change]
    exact coherent.distinct
  keyed := by
    have kept : next.changes.map PreparedChange.idempotencyKey = tables.changes.map PreparedChange.idempotencyKey := by
      rw [moves.changes, updateAt, List.map_map]
      apply List.map_congr_left
      intro row _
      rw [Function.comp]
      split <;> rfl
    rw [kept]
    exact coherent.keyed
  single := moves.single coherent member alone
  redemptionsDistinct := by
    have kept : next.promotions.redemptions.map PromotionRedemption.id = tables.promotions.redemptions.map PromotionRedemption.id := by
      rw [moves.redemptions, List.map_map]
      exact List.map_congr_left fun row there => (moves.settled row there).id
    rw [kept]
    exact coherent.redemptionsDistinct
  tied := fun _ inside => moves.tied coherent member inside
  tiedOnce := by
    have kept : next.promotions.redemptions.map PromotionRedemption.subscriptionChangeId =
        tables.promotions.redemptions.map PromotionRedemption.subscriptionChangeId := by
      rw [moves.redemptions, List.map_map]
      exact List.map_congr_left fun row there => (moves.settled row there).tie
    rw [kept]
    exact coherent.tiedOnce
  jobsDistinct := by
    have kept : next.jobs.map MigrationJob.id = tables.jobs.map MigrationJob.id := by
      rw [moves.jobs, List.map_map]
      exact List.map_congr_left fun job there => (moves.moved job there).id
    rw [kept]
    exact coherent.jobsDistinct
  jobs := fun _ inside _ tie => moves.jobTied coherent member inside tie

theorem Moves.promised (promised : Promised tables) : Promised next := by
  intro later member requested
  obtain ⟨other, inside, ids, hashes, -⟩ := moves.changeBefore member
  rw [hashes] at requested
  obtain ⟨row, there, tie⟩ := promised other inside requested
  refine ⟨settle row, ?_, ?_⟩
  · rw [moves.redemptions]
    exact List.mem_map_of_mem there
  · rw [(moves.settled row there).tie, tie, ids]

end

end Moves

private theorem settled_same {status : PromotionRedemptionStatus}
    (same : row.subscriptionChangeId = some changeId → row.status = status) : Settled changeId status row row :=
  ⟨rfl, rfl, rfl, rfl, rfl, same, fun _ => rfl⟩

private theorem jobMoved_same {status : MigrationStatus}
    (same : job.subscriptionChangeId = some changeId → job.status = status) : JobMoved changeId status job job :=
  ⟨rfl, rfl, same, fun _ => rfl⟩

/-- The edit of a change to which no row is tied, or whose ties keep their statuses. -/
private theorem changeAt_moves {edit : SubscriptionChange → SubscriptionChange}
    (keptId : ∀ change, (edit change).id = change.id)
    (redemptions : ∀ row ∈ tables.promotions.redemptions, row.subscriptionChangeId = some prepared.id →
      row.status = redemptionFor (edit prepared.change))
    (jobs : ∀ job ∈ tables.jobs, job.subscriptionChangeId = some prepared.id → job.status = jobFor (edit prepared.change)) :
    Moves tables (tables.changeAt prepared.id edit) prepared edit id id where
  keptId := keptId
  customer := rfl
  changes := rfl
  redemptions := (List.map_id _).symm
  settled := fun row there => settled_same (redemptions row there)
  jobs := (List.map_id _).symm
  moved := fun job there => jobMoved_same (jobs job there)

structure Kept (tables : ChangeTables) : Prop where
  coherent : Coherent tables
  promised : Promised tables

theorem Kept.openEdit (kept : Kept tables) (member : prepared ∈ tables.changes)
    (open_ : prepared.change.open_ = true) (edit : SubscriptionChange → SubscriptionChange)
    (keptId : ∀ change, (edit change).id = change.id) (stillOpen : (edit prepared.change).open_ = true) :
    Kept (tables.changeAt prepared.id edit) := by
  have moves : Moves tables (tables.changeAt prepared.id edit) prepared edit id id := by
    apply changeAt_moves keptId
    · intro row inside tied
      rw [(kept.coherent.status member inside tied).status, redemptionFor_open.mpr open_, redemptionFor_open.mpr stillOpen]
    · intro job inside tied
      rw [kept.coherent.jobStatus member inside tied, jobFor_open.mpr open_, jobFor_open.mpr stillOpen]
  exact ⟨moves.coherent kept.coherent member fun _ other inside otherOpen => kept.coherent.single other inside prepared member otherOpen open_,
    moves.promised kept.promised⟩

structure Restatus (status : PromotionRedemptionStatus) (row edited : PromotionRedemption) : Prop where
  id : edited.id = row.id
  customer : edited.customerId = row.customerId
  key : edited.idempotencyKey = row.idempotencyKey
  hash : edited.requestHash = row.requestHash
  tie : edited.subscriptionChangeId = row.subscriptionChangeId
  status : edited.status = status

def EndsReserved (status : PromotionRedemptionStatus) (state : PromotionState)
    (operation : PromotionRedemption → Except PromotionErrorCode PromotionState) : Prop :=
  ∀ row ∈ state.redemptions, row.status = .reserved → ∃ later edit, operation row = .ok later ∧
    later.redemptions = updateAt PromotionRedemption.id row.id edit state.redemptions ∧ ∀ other, Restatus status other (edit other)

private theorem apply_ends (distinct : (state.redemptions.map PromotionRedemption.id).Nodup) :
    EndsReserved .applied state fun row => applyPromotionRedemption nonNegative ⟨row.id, none, none⟩ state := by
  intro row member reserved
  have unused : ¬ (row.status = .applied ∨ row.status = .reversed) := by simp [reserved]
  simp only [applyPromotionRedemption, findAt_member distinct member, if_neg unused]
  exact ⟨_, _, rfl, rfl, fun other => ⟨rfl, rfl, rfl, rfl, rfl, rfl⟩⟩

private theorem release_ends (distinct : (state.redemptions.map PromotionRedemption.id).Nodup) :
    EndsReserved .released state fun row => releasePromotionRedemption nonNegative row.id state := by
  intro row member reserved
  have waiting : ¬ row.status ≠ .reserved := by simp [reserved]
  simp only [releasePromotionRedemption, findAt_member distinct member, if_neg waiting]
  exact ⟨_, _, rfl, rfl, fun other => ⟨rfl, rfl, rfl, rfl, rfl, rfl⟩⟩

def settleRedemption (operation : PromotionRedemption → Except PromotionErrorCode PromotionState) (changeId : Nat)
    (tables : ChangeTables) : Except ChangeFailure ChangeTables :=
  match tables.changeRedemption changeId with
  | none => .ok tables
  | some redemption => tables.withPromotions (operation redemption)

private theorem settleRedemption_ok (coherent : Coherent tables) (member : prepared ∈ tables.changes)
    (open_ : prepared.change.open_ = true) {status : PromotionRedemptionStatus} {edited : ChangeTables}
    (promotions : edited.promotions = tables.promotions) {operation : PromotionRedemption → Except PromotionErrorCode PromotionState}
    (ends : EndsReserved status tables.promotions operation) :
    ∃ later settle, settleRedemption operation prepared.id edited = .ok { edited with promotions := later } ∧
      later.redemptions = tables.promotions.redemptions.map settle ∧
      ∀ row ∈ tables.promotions.redemptions, Settled prepared.id status row (settle row) := by
  have reserved {row : PromotionRedemption} (inside : row ∈ tables.promotions.redemptions)
      (tied : row.subscriptionChangeId = some prepared.id) : row.status = .reserved :=
    (coherent.status member inside tied).status.trans (redemptionFor_open.mpr open_)
  unfold settleRedemption ChangeTables.changeRedemption
  rw [promotions]
  cases found : tables.promotions.redemptions.find? fun redemption =>
      redemption.subscriptionChangeId == some prepared.id && redemption.status == .reserved with
  | none =>
    refine ⟨edited.promotions, id, rfl, ?_, ?_⟩
    · rw [promotions, List.map_id]
    · intro row inside
      apply settled_same
      intro tied
      have absent := List.find?_eq_none.mp found row inside
      simp [tied, reserved inside tied] at absent
  | some row =>
    have inside := List.mem_of_find?_eq_some found
    have isTied : row.subscriptionChangeId = some prepared.id ∧ row.status = .reserved := by
      simpa using List.find?_some found
    obtain ⟨later, edit, succeeded, rows, restatus⟩ := ends row inside isTied.2
    refine ⟨later, fun other => if other.id = row.id then edit other else other, ?_, rows, ?_⟩
    · simp only [succeeded, ChangeTables.withPromotions]
    · intro other there
      have only : other.subscriptionChangeId = some prepared.id ↔ other.id = row.id := by
        constructor
        · intro tied
          rw [coherent.sameTie there inside (tied.trans isTied.1.symm)]
        · intro ids
          rw [List.inj_on_of_nodup_map coherent.redemptionsDistinct there inside ids]
          exact isTied.1
      by_cases same : other.id = row.id
      · have edits := restatus other
        simp only [if_pos same]
        exact ⟨edits.id, edits.customer, edits.key, edits.hash, edits.tie, fun _ => edits.status,
          fun apart => absurd (only.mpr same) apart⟩
      · simp only [if_neg same]
        exact settled_same fun tied => absurd (only.mp tied) same

private theorem moveJob_moved (coherent : Coherent tables) (member : prepared ∈ tables.changes)
    (open_ : prepared.change.open_ = true) {status : MigrationStatus} (inside : job ∈ tables.jobs) :
    JobMoved prepared.id status job
      (if job.subscriptionChangeId = some prepared.id ∧ job.status = .waitingProvider then { job with status := status } else job) := by
  by_cases tied : job.subscriptionChangeId = some prepared.id
  · have waiting : job.status = .waitingProvider :=
      (coherent.jobStatus member inside tied).trans (jobFor_open.mpr open_)
    rw [if_pos ⟨tied, waiting⟩]
    exact ⟨rfl, rfl, fun _ => rfl, fun apart => absurd tied apart⟩
  · rw [if_neg fun both => tied both.1]
    exact jobMoved_same fun here => absurd here tied

theorem Kept.closed (kept : Kept tables) (member : prepared ∈ tables.changes)
    (open_ : prepared.change.open_ = true) {edit : SubscriptionChange → SubscriptionChange}
    (keptId : ∀ change, (edit change).id = change.id) (closed : (edit prepared.change).open_ = false)
    {operation : PromotionRedemption → Except PromotionErrorCode PromotionState}
    (ends : EndsReserved (redemptionFor (edit prepared.change)) tables.promotions operation)
    (succeeded : (settleRedemption operation prepared.id (tables.changeAt prepared.id edit)).map
      (ChangeTables.moveJobs prepared.id (jobFor (edit prepared.change))) = .ok next) : Kept next := by
  obtain ⟨later, settle, settled, rows, each⟩ := @settleRedemption_ok tables prepared kept.coherent member open_
    (redemptionFor (edit prepared.change)) (tables.changeAt prepared.id edit) rfl operation ends
  rw [settled] at succeeded
  obtain rfl := Except.ok.inj succeeded
  have moves : Moves tables (ChangeTables.moveJobs prepared.id (jobFor (edit prepared.change))
      { tables.changeAt prepared.id edit with promotions := later }) prepared edit settle fun job =>
        if job.subscriptionChangeId = some prepared.id ∧ job.status = .waitingProvider then
          { job with status := jobFor (edit prepared.change) } else job := {
    keptId := keptId
    customer := rfl
    changes := rfl
    redemptions := rows
    settled := each
    jobs := rfl
    moved := fun _ inside => moveJob_moved kept.coherent member open_ inside }
  refine ⟨moves.coherent kept.coherent member ?_, moves.promised kept.promised⟩
  intro stillOpen
  rw [closed] at stillOpen
  cases stillOpen

private theorem claimable_open (claimable : change.claimable now = true) : change.open_ = true := by
  unfold SubscriptionChange.claimable at claimable
  unfold SubscriptionChange.open_
  cases status : change.status <;> simp_all

private theorem heldBy_open (held : change.heldBy worker = true) : change.open_ = true := by
  unfold SubscriptionChange.heldBy at held
  unfold SubscriptionChange.open_
  cases status : change.status <;> simp_all

private theorem held_inv (found : tables.held worker changeId = some prepared) :
    prepared ∈ tables.changes ∧ prepared.id = changeId ∧ prepared.change.open_ = true := by
  unfold ChangeTables.held at found
  have holds : prepared.id = changeId ∧ prepared.change.heldBy worker = true := by simpa using List.find?_some found
  exact ⟨List.mem_of_find?_eq_some found, holds.1, heldBy_open holds.2⟩

section
variable (kept : Kept tables)
include kept

theorem Kept.claim (succeeded : tables.claimSubscriptionChange worker changeId now = .ok next) : Kept next := by
  unfold ChangeTables.claimSubscriptionChange at succeeded
  split at succeeded
  · next due =>
    obtain rfl := Except.ok.inj succeeded
    obtain ⟨prepared, member, holds⟩ := List.any_eq_true.mp due
    have claims : prepared.id = changeId ∧ prepared.change.claimable now = true := by simpa using holds
    obtain ⟨rfl, claimable⟩ := claims
    exact kept.openEdit member (claimable_open claimable) (SubscriptionChange.claim worker now) (fun _ => rfl) rfl
  · cases succeeded

theorem Kept.renew (succeeded : tables.renewSubscriptionChangeLease worker changeId now = .ok next) : Kept next := by
  unfold ChangeTables.renewSubscriptionChangeLease at succeeded
  split at succeeded
  · cases succeeded
  · next prepared found =>
    obtain rfl := Except.ok.inj succeeded
    obtain ⟨member, rfl, open_⟩ := held_inv found
    exact kept.openEdit member open_ (SubscriptionChange.renew worker now) (fun _ => rfl) rfl

theorem Kept.markApplied (succeeded : tables.markSubscriptionChangeApplied worker changeId now = .ok next) : Kept next := by
  unfold ChangeTables.markSubscriptionChangeApplied at succeeded
  split at succeeded
  · cases succeeded
  · next prepared found =>
    obtain ⟨member, rfl, open_⟩ := held_inv found
    exact @Kept.closed tables next prepared kept member open_ (SubscriptionChange.markApplied now) (fun _ => rfl) rfl
      _ (apply_ends kept.coherent.redemptionsDistinct) succeeded

theorem Kept.ended (member : prepared ∈ tables.changes)
    (open_ : prepared.change.open_ = true) (edit : SubscriptionChange → SubscriptionChange)
    (keptId : ∀ change, (edit change).id = change.id)
    (ended : (edit prepared.change).status = .failed ∨ (edit prepared.change).status = .cancelled)
    (succeeded : (tables.changeAt prepared.id edit).endChange prepared.id = .ok next) : Kept next := by
  have released : redemptionFor (edit prepared.change) = .released := by
    unfold redemptionFor
    rcases ended with status | status <;> rw [status]
  have failed : jobFor (edit prepared.change) = .failed := by
    unfold jobFor
    rcases ended with status | status <;> rw [status]
  have closed : (edit prepared.change).open_ = false := by
    unfold SubscriptionChange.open_
    rcases ended with status | status <;> rw [status]
  have ends := release_ends kept.coherent.redemptionsDistinct
  rw [← released] at ends
  apply kept.closed member open_ keptId closed ends
  rw [failed]
  exact succeeded

theorem Kept.markFailed (succeeded : tables.markSubscriptionChangeFailed worker changeId now = .ok next) : Kept next := by
  unfold ChangeTables.markSubscriptionChangeFailed at succeeded
  split at succeeded
  · cases succeeded
  · next prepared found =>
    obtain ⟨member, rfl, open_⟩ := held_inv found
    by_cases failed : (prepared.change.markFailed now).status = .failed
    · rw [if_pos failed] at succeeded
      exact kept.ended member open_ (SubscriptionChange.markFailed now) (fun _ => rfl) (.inl failed) succeeded
    · rw [if_neg failed] at succeeded
      obtain rfl := Except.ok.inj succeeded
      apply kept.openEdit member open_ (SubscriptionChange.markFailed now) (fun _ => rfl)
      unfold SubscriptionChange.markFailed at failed ⊢
      unfold SubscriptionChange.open_
      by_cases spent : prepared.change.attempts ≥ RECURRING_JOB_MAX_ATTEMPTS
      · exact absurd (if_pos spent) failed
      · simp only [if_neg spent]

theorem Kept.markCancelled (succeeded : tables.markSubscriptionChangeCancelled worker changeId now = .ok next) : Kept next := by
  unfold ChangeTables.markSubscriptionChangeCancelled at succeeded
  split at succeeded
  · cases succeeded
  · next prepared found =>
    obtain ⟨member, rfl, open_⟩ := held_inv found
    exact kept.ended member open_ (SubscriptionChange.cancel now) (fun _ => rfl) (.inr rfl) succeeded

end

private theorem pending_open (pending : (prepared.change.status == .pending) = true) :
    prepared.change.open_ = true := by
  unfold SubscriptionChange.open_
  rw [eq_of_beq pending]

theorem Kept.supersedePending (kept : Kept tables)
    (succeeded : tables.supersedePendingSubscriptionChange now = .ok next) : Kept next := by
  unfold ChangeTables.supersedePendingSubscriptionChange at succeeded
  split at succeeded
  · obtain rfl := Except.ok.inj succeeded
    exact kept
  · next prepared found =>
    have pending : (prepared.change.status == .pending) = true := by simpa using List.find?_some found
    exact kept.ended (List.mem_of_find?_eq_some found) (pending_open pending) (SubscriptionChange.cancel now) (fun _ => rfl) (.inr rfl)
      succeeded

theorem Kept.cancelSuperseded (kept : Kept tables) {planVersionId : Nat}
    (succeeded : tables.cancelSupersededSubscriptionChanges planVersionId now = .ok next) : Kept next := by
  unfold ChangeTables.cancelSupersededSubscriptionChanges at succeeded
  have queued {prepared : PreparedChange} (inside : prepared ∈ tables.changes.filter (ChangeTables.superseded planVersionId)) :
      prepared ∈ tables.changes ∧ prepared.change.open_ = true := by
    obtain ⟨member, left⟩ := List.mem_filter.mp inside
    unfold ChangeTables.superseded at left
    simp only [Bool.and_eq_true] at left
    exact ⟨member, pending_open left.1.1⟩
  have one := alone_of_equal (List.Nodup.filter (ChangeTables.superseded planVersionId) (List.Nodup.of_map _ kept.coherent.distinct))
    fun first here second there => kept.coherent.single first (queued here).1 second (queued there).1 (queued here).2 (queued there).2
  rcases one with none | ⟨prepared, alone⟩
  · rw [none] at succeeded
    obtain rfl := Except.ok.inj succeeded
    exact kept
  · obtain ⟨member, open_⟩ := queued (alone ▸ List.mem_singleton_self prepared)
    rw [alone, List.foldlM_cons] at succeeded
    cases cancelled : tables.cancelQueued prepared.id now with
    | error failure =>
      rw [cancelled] at succeeded
      cases succeeded
    | ok stored =>
      rw [cancelled] at succeeded
      obtain rfl := Except.ok.inj succeeded
      exact kept.ended member open_ (SubscriptionChange.cancel now) (fun _ => rfl) (.inr rfl) cancelled

theorem Kept.retry (kept : Kept tables)
    (succeeded : tables.retryRecurringJob changeId now = .ok next) : Kept next := by
  unfold ChangeTables.retryRecurringJob at succeeded
  split at succeeded
  · cases succeeded
  · next prepared found =>
    obtain ⟨member, rfl⟩ := findAt_inv found
    split_ifs at succeeded with notFailed carried newer
    obtain rfl := Except.ok.inj succeeded
    simp only [Bool.or_eq_true, not_or, Bool.not_eq_true, List.any_eq_false, beq_iff_eq] at carried
    have moves : Moves tables (tables.changeAt prepared.id (SubscriptionChange.retry now)) prepared (SubscriptionChange.retry now) id id :=
      changeAt_moves (fun _ => rfl) (fun row inside tied => absurd tied (carried.1 row inside))
        fun job inside tied => absurd tied (carried.2 job inside)
    refine ⟨moves.coherent kept.coherent member ?_, moves.promised kept.promised⟩
    intro _ other inside otherOpen
    by_contra apart
    apply newer
    refine List.any_eq_true.mpr ⟨other, inside, ?_⟩
    have ids : other.id ≠ prepared.id := fun same => apart (kept.coherent.same inside member same)
    simp [ids, otherOpen]

private theorem releaseReservations_none {clamp : Int → Int} {picked : PromotionRedemption → Bool}
    (none : ∀ row ∈ state.redemptions, picked row = false) : releaseReservations clamp picked state = state := by
  have rows : (state.redemptions.map fun row => if picked row then row.release else row) = state.redemptions := by
    rw [List.map_congr_left (g := id), List.map_id]
    intro row inside
    simp [none row inside]
  have counts (code : PromotionCode) : (state.redemptions.countP fun row => picked row && row.promotionCodeId == code.id) = 0 := by
    apply List.countP_eq_zero.mpr
    intro row inside
    simp [none row inside]
  unfold releaseReservations
  simp only [counts, if_true, rows, List.map_id']

/-- A reservation of a change never expires before the change ends. -/
theorem Coherent.unexpired (coherent : Coherent tables) {hasPurchased : Bool}
    (inside : row ∈ tables.promotions.redemptions) : row.isExpired (tables.surroundings now hasPurchased) = false := by
  unfold PromotionRedemption.isExpired
  by_cases reserved : row.status = .reserved
  · obtain ⟨prepared, member, tied⟩ := coherent.tied row inside
    have waits := coherent.agree.reserved row inside reserved prepared.id tied.change
    have stays : row.subscriptionChangeId.any (tables.surroundings now hasPurchased).openChange = true := by
      rw [tied.change]
      exact waits
    rw [stays, Bool.not_true, Bool.and_false]
  · simp [reserved]

theorem Kept.sweep (kept : Kept tables) (now : Int) (locked : Nat → Bool) (limit : Nat) :
    tables.sweepReservations now locked limit = tables := by
  have unexpired : sweptReservations (tables.surroundings now false) locked limit tables.promotions.redemptions = [] := by
    unfold sweptReservations
    have none : (tables.promotions.redemptions.filter fun row =>
        row.isExpired (tables.surroundings now false) && !locked row.id) = [] := by
      apply List.filter_eq_nil_iff.mpr
      intro row inside
      simp [kept.coherent.unexpired inside]
    rw [none, List.insertionSort_nil, List.take_nil]
  unfold ChangeTables.sweepReservations releaseExpiredPromotionReservations
  rw [unexpired, releaseReservations_none (by simp)]

def ChangeTables.append (change : PreparedChange) (tables : ChangeTables) : ChangeTables :=
  { tables with changes := tables.changes ++ [change] }

theorem Coherent.appended (coherent : Coherent tables) (closed : tables.anyOpen = false)
    (fresh : tables.findKey prepared.idempotencyKey = none) (id : prepared.id = tables.changes.length) :
    Coherent (tables.append prepared) where
  below := by
    intro other inside
    rw [ChangeTables.append, List.length_append, List.length_singleton]
    rcases List.mem_append.mp inside with old | new
    · have := coherent.below other old
      omega
    · rw [List.mem_singleton.mp new, id]
      omega
  distinct := by
    rw [ChangeTables.append, List.map_append, List.map_singleton, ← List.concat_eq_append, List.nodup_concat]
    refine ⟨?_, coherent.distinct⟩
    intro taken
    obtain ⟨other, inside, same⟩ := List.mem_map.mp taken
    have := coherent.below other inside
    omega
  keyed := by
    rw [ChangeTables.append, List.map_append, List.map_singleton, ← List.concat_eq_append, List.nodup_concat]
    refine ⟨?_, coherent.keyed⟩
    intro taken
    obtain ⟨other, inside, same⟩ := List.mem_map.mp taken
    have absent := List.find?_eq_none.mp fresh other inside
    simp [same] at absent
  single := by
    have shut {other : PreparedChange} (inside : other ∈ tables.changes) : other.change.open_ = false := by
      have := List.any_eq_false.mp closed other inside
      simpa using this
    intro first here second there firstOpen secondOpen
    rcases List.mem_append.mp here with old | new
    · rw [shut old] at firstOpen
      cases firstOpen
    · rcases List.mem_append.mp there with old | again
      · rw [shut old] at secondOpen
        cases secondOpen
      · rw [List.mem_singleton.mp new, List.mem_singleton.mp again]
  redemptionsDistinct := coherent.redemptionsDistinct
  tied := by
    intro redemption inside
    obtain ⟨other, there, tied⟩ := coherent.tied redemption inside
    exact ⟨other, List.mem_append_left _ there, tied⟩
  tiedOnce := coherent.tiedOnce
  jobsDistinct := coherent.jobsDistinct
  jobs := by
    intro job inside changeId tie
    obtain ⟨other, there, holds⟩ := coherent.jobs job inside changeId tie
    exact ⟨other, List.mem_append_left _ there, holds⟩

theorem Kept.setJob (kept : Kept tables) (member : job ∈ tables.jobs) (untied : job.subscriptionChangeId = none)
    (status : MigrationStatus) {changeId : Option Nat}
    (tie : ∀ id ∈ changeId, ∃ prepared ∈ tables.changes, prepared.id = id ∧ status = jobFor prepared.change) :
    Kept (tables.setJob job.id status changeId) where
  promised := kept.promised
  coherent := {
    below := kept.coherent.below
    distinct := kept.coherent.distinct
    keyed := kept.coherent.keyed
    single := kept.coherent.single
    redemptionsDistinct := kept.coherent.redemptionsDistinct
    tied := kept.coherent.tied
    tiedOnce := kept.coherent.tiedOnce
    jobsDistinct := by
      have sameIds := @updateAt_keys _ _ _ MigrationJob.id job.id (fun job : MigrationJob =>
        { job with status := status, subscriptionChangeId := job.subscriptionChangeId.or changeId }) (fun _ => rfl) tables.jobs
      rw [ChangeTables.setJob, sameIds]
      exact kept.coherent.jobsDistinct
    jobs := by
      intro moved inside id tied
      obtain ⟨old, there, ⟨same, rfl⟩ | ⟨apart, rfl⟩⟩ := mem_updateAt.mp inside
      · have here : old = job := List.inj_on_of_nodup_map kept.coherent.jobsDistinct there member same
        rw [here, untied, Option.none_or] at tied
        exact tie id tied
      · exact kept.coherent.jobs moved there id tied }

theorem Kept.staged (kept : Kept tables) {job : MigrationJob} (member : job ∈ tables.jobs) (untied : job.subscriptionChangeId = none)
    (requestHash : ChangeHash) : Kept (tables.stageOutcome job.id requestHash) := by
  unfold ChangeTables.stageOutcome
  split
  · exact kept.setJob member untied _ (by simp)
  · next prepared found =>
    have inside := (findAt_inv found).1
    split
    · exact kept.setJob member untied _ (by simp)
    · split
      · exact kept.setJob member untied _ (by simp)
      · exact kept.setJob member untied _ (by simp)
      · exact kept.setJob member untied _ (by simp)
      · next pending =>
        refine kept.setJob member untied _ fun id here => ⟨prepared, inside, Option.some.inj here, ?_⟩
        simp only [jobFor, pending]
      · next processing =>
        refine kept.setJob member untied _ fun id here => ⟨prepared, inside, Option.some.inj here, ?_⟩
        simp only [jobFor, processing]

/-- A job whose change is staged is not claimed again. -/
theorem Coherent.claimable_untied (coherent : Coherent tables) (member : job ∈ tables.jobs)
    (claimable : job.status = .pending ∨ job.status = .processing) : job.subscriptionChangeId = none := by
  cases tie : job.subscriptionChangeId with
  | none => rfl
  | some changeId =>
    obtain ⟨prepared, -, -, status⟩ := coherent.jobs job member changeId tie
    rw [status] at claimable
    unfold jobFor at claimable
    cases shape : prepared.change.status <;> simp [shape] at claimable

theorem Kept.stage (kept : Kept tables) (jobId : Nat) (decision : StageDecision) (now : Int) :
    Kept (tables.stageCatalogMigrationChange jobId decision now) := by
  unfold ChangeTables.stageCatalogMigrationChange
  split
  · exact kept
  · next job found =>
    obtain ⟨member, rfl⟩ := findAt_inv found
    by_cases taken : job.status ≠ .pending ∧ job.status ≠ .processing
    · rw [if_pos taken]
      exact kept
    · rw [if_neg taken]
      have untied := kept.coherent.claimable_untied member (by tauto)
      cases decision with
      | leave => exact kept.setJob member untied _ (by simp)
      | finish status => exact kept.setJob member untied _ (by simp)
      | change fromPlanVersionId request rest =>
        by_cases taken : (tables.anyOpen || (tables.findKey (.migration job.id)).isSome) = true
        · simp only [if_pos taken]
          exact kept.staged member untied _
        · simp only [if_neg taken]
          refine @Kept.staged (tables.append
            ⟨newChange tables.changes.length fromPlanVersionId request now, .migration job.id, ⟨none, rest⟩⟩) ?_ job member untied _
          have free := taken
          simp only [Bool.or_eq_true, not_or, Bool.not_eq_true, Option.isSome_eq_false_iff, Option.isNone_iff_eq_none] at free
          refine ⟨kept.coherent.appended free.1 free.2 rfl, ?_⟩
          intro prepared inside requested
          rcases List.mem_append.mp inside with old | new
          · exact kept.promised prepared old requested
          · rw [List.mem_singleton.mp new] at requested
            cases requested

private theorem takeUse_unexpired (unexpired : ∀ row ∈ state.redemptions, row.isExpired around = false) :
    releaseReservations nonNegative (fun redemption => redemption.customerId == input.customerId &&
      redemption.promotionCodeId == input.promotionCodeId && redemption.isExpired around) state = state := by
  apply releaseReservations_none
  intro row inside
  rw [unexpired row inside, Bool.and_false]

/-- A use is taken only of a code that can be used. -/
private theorem takeUse_usable {existing : Option PromotionRedemption} {next : PromotionState}
    (unexpired : ∀ row ∈ state.redemptions, row.isExpired around = false)
    (succeeded : takeUse nonNegative around input existing state = .ok next) :
    usable around input state = true ∧ next.redemptions = storeUse input existing state.redemptions := by
  unfold takeUse at succeeded
  rw [takeUse_unexpired unexpired] at succeeded
  unfold usable
  cases found : findAt PromotionCode.id input.promotionCodeId state.codes with
  | none =>
    simp only [found] at succeeded
    cases succeeded
  | some code =>
    simp only [found] at succeeded
    split at succeeded
    · cases succeeded
    · next unavailable =>
      split_ifs at succeeded with spent bought shut
      obtain rfl := Except.ok.inj succeeded
      simp only [Bool.not_eq_true] at spent bought
      have stands : code.available around.now = true := by simpa using shut
      simp [unavailable, spent, bought, stands]

private theorem takeUse_succeeds (existing : Option PromotionRedemption)
    (unexpired : ∀ row ∈ state.redemptions, row.isExpired around = false) (isUsable : usable around input state = true) :
    ∃ next, takeUse nonNegative around input existing state = .ok next ∧ next.redemptions = storeUse input existing state.redemptions := by
  unfold usable at isUsable
  unfold takeUse
  rw [takeUse_unexpired unexpired]
  cases found : findAt PromotionCode.id input.promotionCodeId state.codes with
  | none =>
    simp only [found] at isUsable
    cases isUsable
  | some code =>
    simp only [found, Bool.and_eq_true, Option.isNone_iff_eq_none, Bool.not_eq_true'] at isUsable
    obtain ⟨⟨⟨unavailable, unspent⟩, unbought⟩, stands⟩ := isUsable
    simp only [found, unavailable, unspent, unbought, stands, Bool.false_eq_true, if_false, Bool.not_true]
    exact ⟨_, rfl, rfl⟩

theorem Coherent.reserved (coherent : Coherent tables) (member : prepared ∈ tables.changes)
    (open_ : prepared.change.open_ = true) {input : PrepareInput} {use : PromotionUse}
    (key : prepared.idempotencyKey = .request input.idempotencyKey) (hash : prepared.requestHash = ⟨some use.promotionCodeId, input.rest⟩)
    (unredeemed : ∀ row ∈ tables.promotions.redemptions, row.subscriptionChangeId ≠ some prepared.id) {promotions : PromotionState}
    (rows : promotions.redemptions = tables.promotions.redemptions ++
      [reservation (ChangeTables.reserveInput input use prepared.id tables.customerId) tables.promotions.redemptions]) :
    Coherent { tables with promotions := promotions } where
  below := coherent.below
  distinct := coherent.distinct
  keyed := coherent.keyed
  single := coherent.single
  redemptionsDistinct := by
    rw [rows, List.map_append, List.map_singleton, ← List.concat_eq_append, List.nodup_concat]
    exact ⟨freshId_apart _, coherent.redemptionsDistinct⟩
  tied := by
    intro row inside
    rw [rows] at inside
    rcases List.mem_append.mp inside with old | new
    · exact coherent.tied row old
    · rw [List.mem_singleton.mp new]
      refine ⟨prepared, member, rfl, rfl, ⟨_, key, rfl⟩, ⟨_, by rw [hash], ?_⟩, (redemptionFor_open.mpr open_).symm⟩
      rw [hash]
      rfl
  tiedOnce := by
    rw [rows, List.map_append, List.map_singleton, ← List.concat_eq_append, List.nodup_concat]
    refine ⟨?_, coherent.tiedOnce⟩
    intro taken
    obtain ⟨row, inside, same⟩ := List.mem_map.mp taken
    exact unredeemed row inside same
  jobsDistinct := coherent.jobsDistinct
  jobs := coherent.jobs

theorem Coherent.keyTied (coherent : Coherent tables) {customerId key : Nat}
    (found : (tables.promotions.redemptions.find? fun row => row.customerId == customerId && row.idempotencyKey == .request key) = some row) :
    row ∈ tables.promotions.redemptions ∧
      ∃ prepared ∈ tables.changes, prepared.idempotencyKey = .request key ∧ Tied tables.customerId prepared row := by
  have inside := List.mem_of_find?_eq_some found
  have matched : row.customerId = customerId ∧ row.idempotencyKey = .request key := by simpa using List.find?_some found
  obtain ⟨prepared, member, tied⟩ := coherent.tied row inside
  obtain ⟨own, preparedKey, rowKey⟩ := tied.key
  rw [matched.2] at rowKey
  obtain rfl := IdempotencyKey.request.inj rowKey
  exact ⟨inside, prepared, member, preparedKey, tied⟩

private theorem ended_of_released {change : PreparedChange} (released : redemptionFor change.change = .released) : change.ended = true := by
  unfold redemptionFor at released
  unfold PreparedChange.ended
  cases status : change.change.status <;> simp_all

/-- A repeated request finds its redemption, and takes a use again only where it is a reopening one. -/
theorem Kept.repeated (kept : Kept tables) {input : PrepareInput} {existing : PreparedChange} {version : Nat}
    (resolved : input.resolution = .ok version)
    (found : tables.findKey (.request input.idempotencyKey) = some existing) (hash : existing.requestHash = input.requestHash)
    (reopensNot : tables.reopens (.prepare input) = false) (succeeded : tables.reservePromotion input existing.id = .ok next) :
    Kept next := by
  obtain ⟨member, key⟩ := findAt_inv found
  unfold ChangeTables.reservePromotion at succeeded
  split at succeeded
  · obtain rfl := Except.ok.inj succeeded
    exact kept
  · next use requested =>
    have promised : existing.requestHash.promotionCodeId.isSome = true := by
      rw [hash, PrepareInput.requestHash, requested]
      rfl
    obtain ⟨row, inside, tie⟩ := kept.promised existing member promised
    have tied := kept.coherent.status member inside tie
    obtain ⟨own, existingKey, rowKey⟩ := tied.key
    obtain rfl := ChangeKey.request.inj (existingKey.symm.trans key)
    split at succeeded
    · next promotions reserved =>
      obtain rfl := Except.ok.inj succeeded
      unfold reservePromotionRedemption at reserved
      split at reserved
      · next missing =>
        have absent := List.find?_eq_none.mp missing row inside
        simp [ChangeTables.reserveInput, tied.customer, rowKey] at absent
      · next other again =>
        obtain ⟨there, prepared, preparedMember, preparedKey, preparedTied⟩ := kept.coherent.keyTied again
        have sameChange := kept.coherent.sameKey preparedMember member (preparedKey.trans key.symm)
        obtain rfl : other = row := kept.coherent.sameTie there inside (by rw [preparedTied.change, sameChange, tie])
        split_ifs at reserved with conflict used
        · obtain rfl := Except.ok.inj reserved
          exact kept
        · rw [not_ne_iff] at used
          have ended := ended_of_released (tied.status.symm.trans used)
          have taken := (takeUse_usable (fun row inside => kept.coherent.unexpired inside) reserved).1
          unfold ChangeTables.reopens at reopensNot
          simp [resolved, requested, found, hash, ended, taken] at reopensNot
    · cases succeeded

theorem Kept.requested (kept : Kept tables) {input : PrepareInput} (closed : tables.anyOpen = false)
    (fresh : tables.findKey (.request input.idempotencyKey) = none) (id : prepared.id = tables.changes.length)
    (key : prepared.idempotencyKey = .request input.idempotencyKey) (hash : prepared.requestHash = input.requestHash)
    (open_ : prepared.change.open_ = true)
    (succeeded : (tables.append prepared).reservePromotion input prepared.id = .ok next) : Kept next := by
  have coherent : Coherent (tables.append prepared) := kept.coherent.appended closed (by rw [key]; exact fresh) id
  have member : prepared ∈ (tables.append prepared).changes := List.mem_append_right _ (List.mem_singleton_self prepared)
  have unredeemed {row : PromotionRedemption} (inside : row ∈ tables.promotions.redemptions) :
      row.subscriptionChangeId ≠ some prepared.id := by
    intro tie
    obtain ⟨other, there, tied⟩ := kept.coherent.tied row inside
    have below := kept.coherent.below other there
    rw [Option.some.inj (tied.change.symm.trans tie), id] at below
    omega
  unfold ChangeTables.reservePromotion at succeeded
  split at succeeded
  · next plain =>
    obtain rfl := Except.ok.inj succeeded
    refine ⟨coherent, ?_⟩
    intro other inside requested
    rcases List.mem_append.mp inside with old | new
    · exact kept.promised other old requested
    · rw [List.mem_singleton.mp new, hash, PrepareInput.requestHash, plain] at requested
      cases requested
  · next use asked =>
    split at succeeded
    · next promotions reserved =>
      obtain rfl := Except.ok.inj succeeded
      unfold reservePromotionRedemption at reserved
      split at reserved
      · have rows := (takeUse_usable (fun row inside => coherent.unexpired inside) reserved).2
        refine ⟨coherent.reserved member open_ key (by rw [hash, PrepareInput.requestHash, asked]; rfl) (fun _ => unredeemed) rows, ?_⟩
        intro other inside requested
        rcases List.mem_append.mp inside with old | new
        · obtain ⟨row, there, tie⟩ := kept.promised other old requested
          refine ⟨row, ?_, tie⟩
          rw [rows]
          exact List.mem_append_left _ there
        · rw [List.mem_singleton.mp new]
          refine ⟨reservation (ChangeTables.reserveInput input use prepared.id tables.customerId) tables.promotions.redemptions, ?_, rfl⟩
          rw [rows]
          exact List.mem_append_right _ (List.mem_singleton_self _)
      · next other again =>
        obtain ⟨inside, owner, there, ownerKey, tied⟩ := coherent.keyTied again
        have same : owner = prepared := coherent.sameKey there member (ownerKey.trans key.symm)
        exact absurd (same ▸ tied.change) (unredeemed inside)
    · cases succeeded

theorem Kept.prepare (kept : Kept tables) {input : PrepareInput} (reopensNot : tables.reopens (.prepare input) = false)
    (succeeded : tables.prepareSubscriptionChange input = .ok next) : Kept next := by
  unfold ChangeTables.prepareSubscriptionChange at succeeded
  split at succeeded
  · cases succeeded
  · next version resolved =>
    split at succeeded
    · next existing found =>
      split_ifs at succeeded with conflict
      exact kept.repeated resolved found (not_ne_iff.mp conflict) reopensNot succeeded
    · next fresh =>
      split_ifs at succeeded with busy
      exact @Kept.requested tables next ⟨newChange tables.changes.length version input.request input.now,
        .request input.idempotencyKey, input.requestHash⟩ kept input (Bool.not_eq_true _ ▸ busy) fresh rfl rfl rfl rfl succeeded

/-- What a request asks for when it is repeated after its change ended, and the use can be taken again. -/
private theorem reopens_inv (reopens : tables.reopens operation = true) :
    ∃ input version use existing, operation = .prepare input ∧ input.resolution = .ok version ∧ input.promotion = some use ∧
      tables.findKey (.request input.idempotencyKey) = some existing ∧ existing.requestHash = input.requestHash ∧
      existing.ended = true ∧ usable (tables.surroundings input.now input.hasPurchased)
        (ChangeTables.reserveInput input use existing.id tables.customerId) tables.promotions = true := by
  unfold ChangeTables.reopens at reopens
  cases operation with
  | prepare input =>
    simp only [Bool.and_eq_true] at reopens
    obtain ⟨resolved, repeated⟩ := reopens
    split at resolved
    · next version here =>
      split at repeated
      · next use existing asked found =>
        simp only [Bool.and_eq_true, beq_iff_eq] at repeated
        exact ⟨input, version, use, existing, rfl, here, asked, found, repeated.1.1, repeated.1.2, repeated.2⟩
      · cases repeated
    · cases resolved
  | _ => cases reopens

private theorem released_of_ended (ended : prepared.ended = true) :
    redemptionFor prepared.change = .released ∧ prepared.change.open_ = false := by
  unfold PreparedChange.ended at ended
  unfold redemptionFor SubscriptionChange.open_
  cases status : prepared.change.status <;> simp_all

/-- Such a request breaks the agreement: the redemption is reserved again on the ended change. -/
theorem Kept.reopened (kept : Kept tables) (reopens : tables.reopens operation = true) :
    ¬ (operation.after tables).Agree := by
  obtain ⟨input, version, use, existing, rfl, resolved, asked, found, hash, ended, isUsable⟩ := reopens_inv reopens
  obtain ⟨member, key⟩ := findAt_inv found
  have promised : existing.requestHash.promotionCodeId.isSome = true := by
    rw [hash, PrepareInput.requestHash, asked]
    rfl
  obtain ⟨row, inside, tie⟩ := kept.promised existing member promised
  have tied := kept.coherent.status member inside tie
  obtain ⟨own, existingKey, rowKey⟩ := tied.key
  obtain rfl := ChangeKey.request.inj (existingKey.symm.trans key)
  have rowFound : (tables.promotions.redemptions.find? fun row =>
      row.customerId == tables.customerId && row.idempotencyKey == .request input.idempotencyKey) = some row := by
    cases again : tables.promotions.redemptions.find? fun row =>
        row.customerId == tables.customerId && row.idempotencyKey == .request input.idempotencyKey with
    | none =>
      have absent := List.find?_eq_none.mp again row inside
      simp [tied.customer, rowKey] at absent
    | some other =>
      obtain ⟨there, prepared, preparedMember, preparedKey, preparedTied⟩ := kept.coherent.keyTied again
      have sameChange := kept.coherent.sameKey preparedMember member (preparedKey.trans key.symm)
      rw [kept.coherent.sameTie there inside (by rw [preparedTied.change, sameChange, tie])]
  obtain ⟨code, codeAsked, rowHash⟩ := tied.hash
  have sameHash : ¬ row.requestHash ≠ (ChangeTables.reserveInput input use existing.id tables.customerId).requestHash := by
    rw [not_ne_iff, rowHash]
    rw [hash, PrepareInput.requestHash, asked] at codeAsked ⊢
    obtain rfl := Option.some.inj codeAsked
    rfl
  have released : row.status = .released := tied.status.trans (released_of_ended ended).1
  obtain ⟨promotions, succeeded, rows⟩ := takeUse_succeeds (some row) (fun row inside => kept.coherent.unexpired inside) isUsable
  have prepared : tables.prepareSubscriptionChange input = .ok { tables with promotions := promotions } := by
    have reserved : reservePromotionRedemption nonNegative (tables.surroundings input.now input.hasPurchased)
        (ChangeTables.reserveInput input use existing.id tables.customerId) tables.promotions = .ok promotions := by
      unfold reservePromotionRedemption
      simp only [ChangeTables.reserveInput] at rowFound succeeded sameHash ⊢
      rw [rowFound]
      simp only [if_neg sameHash, if_neg (not_ne_iff.mpr released), succeeded]
    simp only [ChangeTables.prepareSubscriptionChange, resolved, found, hash, ne_eq, not_true_eq_false, if_false,
      ChangeTables.reservePromotion, asked, reserved]
  simp only [RecurringOperation.after, RecurringOperation.perform, prepared]
  intro agree
  have again : row.reserveAgain (some (input.request.effectiveAt + day)) ∈ promotions.redemptions := by
    rw [rows]
    exact mem_updateAt.mpr ⟨row, inside, .inl ⟨rfl, rfl⟩⟩
  have status : (row.reserveAgain (some (input.request.effectiveAt + day))).status = .reserved := by
    unfold PromotionRedemption.reserveAgain
    rw [if_pos released]
    rfl
  have keepsTie : (row.reserveAgain (some (input.request.effectiveAt + day))).subscriptionChangeId = some existing.id := by
    unfold PromotionRedemption.reserveAgain
    rw [if_pos released]
    exact tie
  obtain ⟨other, there, waits⟩ := List.any_eq_true.mp (agree.reserved _ again status existing.id keepsTie)
  simp only [Bool.and_eq_true, beq_iff_eq] at waits
  rw [kept.coherent.same there member waits.1, (released_of_ended ended).2] at waits
  cases waits.2

theorem Kept.perform (kept : Kept tables) (reopensNot : tables.reopens operation = false)
    (succeeded : operation.perform tables = .ok next) : Kept next := by
  cases operation with
  | prepare input => exact kept.prepare reopensNot succeeded
  | stage jobId decision now =>
    obtain rfl := Except.ok.inj succeeded
    exact kept.stage jobId decision now
  | claim worker changeId now => exact kept.claim succeeded
  | renew worker changeId now => exact kept.renew succeeded
  | markApplied worker changeId now => exact kept.markApplied succeeded
  | markFailed worker changeId now => exact kept.markFailed succeeded
  | markCancelled worker changeId now => exact kept.markCancelled succeeded
  | retry changeId now => exact kept.retry succeeded
  | supersedePending now => exact kept.supersedePending succeeded
  | cancelSuperseded planVersionId now => exact kept.cancelSuperseded succeeded
  | sweep now locked limit =>
    obtain rfl := Except.ok.inj succeeded
    rw [kept.sweep]
    exact kept

theorem Kept.after (kept : Kept tables) (reopensNot : tables.reopens operation = false) :
    Kept (operation.after tables) := by
  unfold RecurringOperation.after
  split
  · next succeeded => exact kept.perform reopensNot succeeded
  · exact kept

theorem Kept.run (kept : Kept tables) {operations : List RecurringOperation} (never : neverReopens tables operations = true) :
    Kept (runChanges tables operations) := by
  unfold runChanges
  induction operations generalizing tables with
  | nil => exact kept
  | cons operation rest ih =>
    rw [neverReopens, Bool.and_eq_true, Bool.not_eq_true'] at never
    exact ih (kept.after never.1) never.2

end Coherent

/-- A change, its promotion and its migration job agree in every run that repeats no ended request with a promotion whose use
can be taken again, and the first such request breaks the agreement. -/
theorem change_promotion_and_job_agree {tables : ChangeTables} (unstaged : tables.Unstaged) (operations : List RecurringOperation)
    (never : neverReopens tables operations = true) :
    (runChanges tables operations).Agree ∧ ∀ operation, (runChanges tables operations).reopens operation = true →
      ¬ (operation.after (runChanges tables operations)).Agree := by
  have kept : Kept (runChanges tables operations) := Kept.run ⟨unstaged.coherent, unstaged.promised⟩ never
  exact ⟨kept.coherent.agree, fun _ reopens => kept.reopened reopens⟩

def launchCode : PromotionCode where
  id := 1
  promotionActive := true
  allowedChannels := [.web]
  active := true
  startsAt := none
  expiresAt := none
  billingAccountId := none
  maxRedemptions := none
  maxRedemptionsPerCustomer := some 1
  firstPurchaseOnly := false
  redeemedCount := 0
  reservedCount := 0

def newSubscription : ChangeTables where
  customerId := 7
  changes := []
  jobs := [⟨3, .pending, none⟩]
  promotions := ⟨[launchCode], []⟩

def upgrade (now : Int) : RecurringOperation :=
  .prepare {
    idempotencyKey := 4
    rest := 0
    promotion := some ⟨1, 9⟩
    request := ⟨2, .immediate, now, ⟨[], []⟩, false⟩
    resolution := .ok 1
    hasPurchased := true
    now := now }

/-- A request with a promotion is applied, and a migration job that waited is staged and fails with its change. -/
theorem change_promotion_and_job_agree_migrated :
    (runChanges newSubscription [upgrade 0, .claim "worker".toList 0 0, upgrade 5, .markApplied "worker".toList 0 10,
      .stage 3 (.change 2 ⟨5, .immediate, 20, ⟨[], []⟩, false⟩ 0) 20, .supersedePending 30, upgrade 40]).Agree := by
  have unstaged : newSubscription.Unstaged := ⟨rfl, rfl, by decide, by decide⟩
  exact (@change_promotion_and_job_agree newSubscription unstaged _ (by decide)).1

/-- A cancelled change's request that is repeated reserves its promotion on the cancelled change. -/
theorem repeated_request_reopens :
    newSubscription.Unstaged ∧ ¬ (runChanges newSubscription [upgrade 0, .supersedePending 10, upgrade 20]).Agree := by
  refine ⟨⟨rfl, rfl, by decide, by decide⟩, ?_⟩
  intro agree
  have waits := agree.reserved (reservation (ChangeTables.reserveInput
    ⟨4, 0, some ⟨1, 9⟩, ⟨2, .immediate, 20, ⟨[], []⟩, false⟩, .ok 1, true, 20⟩ ⟨1, 9⟩ 0 7) []) (by decide) rfl 0 rfl
  revert waits
  decide

end Quotum.RecurringPricing
