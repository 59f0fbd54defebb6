import Quotum.UsageProjections

/-! No usage change is lost: until it is delivered, the customer's job is open and will show it. -/

namespace Quotum.UsageProjections
open General

inductive ProjectionReach : Projections → Prop where
  | fresh (sequence : Nat) : ProjectionReach ⟨0, sequence, none, [], 0, []⟩
  | step {state next : Projections} {step : ProjectionStep} : ProjectionReach state → step.apply state = some next →
      ProjectionReach next

/-- Whether a job will show a usage change: it is open, and it has no payload, is to be read again, or was read after it. -/
def ProjectionSyncJob.shows (change : Nat) (job : ProjectionSyncJob) : Bool :=
  job.opened && (job.payload.isNone || job.reprojectionRequested || job.payload.any fun payload => decide (change ≤ payload.changes))

/-- Every usage change that no delivered payload shows is going to be shown. -/
def NoneLost (state : Projections) : Prop :=
  ∀ change, state.delivered < change → change ≤ state.changes → ∃ job, state.job = some job ∧ job.shows change = true

/-- A payload stays with the job, sequence number and all, until a step marks it delivered. -/
def KeepsPayload (step : ProjectionStep) (state next : Projections) : Prop :=
  ∀ job payload, state.job = some job → job.payload = some payload →
    (∃ later, next.job = some later ∧ later.payload = some payload) ∨
      ((∃ worker now, step = .succeed worker now) ∧ payload.changes ≤ next.delivered)

structure Sound (state : Projections) : Prop where
  read : ∀ job payload, state.job = some job → job.payload = some payload →
    payload.changes ≤ state.changes ∧ (payload.changes = state.changes ∨ job.reprojectionRequested = true)
  closed : ∀ job, state.job = some job → job.status = .succeeded → job.payload = none ∧ state.changes ≤ state.delivered
  absent : state.job = none → state.changes = 0
  held : ∀ job, state.job = some job → ∀ claim ∈ state.claims, job.isHeldBy claim.worker = true → claim.payload = job.payload
  workers : (state.claims.map Claim.worker).Nodup
  ordered : state.materialized.Pairwise fun payload later => payload.sequence < later.sequence
  numbered : ∀ payload ∈ state.materialized, payload.sequence ≤ state.projectionSequence

section Claims
variable {claims : List Claim} {worker : Text}

theorem mem_dropClaim {claim : Claim} (member : claim ∈ dropClaim worker claims) : claim ∈ claims ∧ claim.worker ≠ worker := by
  simpa [dropClaim] using member

theorem dropClaim_workers (distinct : (claims.map Claim.worker).Nodup) : ((dropClaim worker claims).map Claim.worker).Nodup :=
  distinct.sublist (List.filter_sublist.map _)

theorem isHeldBy_iff {job : ProjectionSyncJob} : job.isHeldBy worker = true ↔ job.status = .processing ∧ job.lockedBy = some worker := by
  unfold ProjectionSyncJob.isHeldBy
  rw [Bool.and_eq_true, beq_iff_eq, beq_iff_eq]

end Claims

section Steps
variable {state next : Projections} {job : ProjectionSyncJob} {worker : Text} {now : Int}

/-- A state whose job is the same, and whose claims are some of those there were. -/
theorem Sound.drop (sound : Sound state) (worker : Text) : Sound { state with claims := dropClaim worker state.claims } where
  read := sound.read
  closed := sound.closed
  absent := sound.absent
  held := fun job isJob claim member => sound.held job isJob claim (mem_dropClaim member).1
  workers := dropClaim_workers sound.workers
  ordered := sound.ordered
  numbered := sound.numbered

/-- A job that is changed without a new payload, and is held by no one after it. -/
theorem Sound.released (sound : Sound state) (isJob : state.job = some job) {change : ProjectionSyncJob → ProjectionSyncJob}
    (payload : (change job).payload = job.payload) (reprojected : (change job).reprojectionRequested = job.reprojectionRequested)
    (open_ : (change job).status = .pending ∨ (change job).status = .failed) {claims : List Claim}
    (distinct : (claims.map Claim.worker).Nodup) : Sound { state with job := some (change job), claims := claims } where
  read := by
    rintro other found ⟨⟩ isFound
    rw [payload] at isFound
    rw [reprojected]
    exact sound.read job found isJob isFound
  closed := by
    rintro other ⟨⟩ succeeded
    rcases open_ with same | same <;> rw [same] at succeeded <;> cases succeeded
  absent := by rintro ⟨⟩
  held := by
    rintro other ⟨⟩ claim - held
    obtain ⟨processing, -⟩ := isHeldBy_iff.mp held
    rcases open_ with same | same <;> rw [same] at processing <;> cases processing
  workers := distinct
  ordered := sound.ordered
  numbered := sound.numbered

theorem KeepsPayload.same {step : ProjectionStep} (payload : ∀ job, state.job = some job → ∃ later, next.job = some later ∧ later.payload = job.payload) :
    KeepsPayload step state next := by
  intro job found isJob isFound
  obtain ⟨later, isLater, same⟩ := payload job isJob
  exact .inl ⟨later, isLater, same.trans isFound⟩

theorem Sound.change (sound : Sound state) (dueAt : Int) : Sound (enqueueUsageProjection dueAt state) := by
  unfold enqueueUsageProjection
  cases isJob : state.job with
  | none =>
    refine ⟨?_, ?_, ?_, ?_, sound.workers, sound.ordered, sound.numbered⟩
    · rintro job payload ⟨⟩ ⟨⟩
    · rintro job ⟨⟩ ⟨⟩
    · rintro ⟨⟩
    · rintro job ⟨⟩ claim - held
      cases held
  | some job =>
    refine ⟨?_, ?_, ?_, ?_, sound.workers, sound.ordered, sound.numbered⟩
    · rintro other payload ⟨⟩ isPayload
      obtain ⟨read, -⟩ := sound.read job payload isJob isPayload
      refine ⟨read.trans (Nat.le_succ _), .inr ?_⟩
      simp [ProjectionSyncJob.requeue, show job.payload = some payload from isPayload]
    · rintro other ⟨⟩ succeeded
      unfold ProjectionSyncJob.requeue at succeeded
      simp only at succeeded
      split at succeeded <;> cases succeeded
    · rintro ⟨⟩
    · rintro other ⟨⟩ claim member held
      obtain ⟨processing, lockedBy⟩ := isHeldBy_iff.mp held
      have was : job.status = .processing := by
        by_contra idle
        simp [ProjectionSyncJob.requeue, idle] at processing
      simp only [ProjectionSyncJob.requeue, was, if_true] at lockedBy
      exact sound.held job isJob claim member (isHeldBy_iff.mpr ⟨was, lockedBy⟩)

theorem claim_inv (claimed : claimProjectionSyncJob worker now state = some next) : ∃ job, state.job = some job ∧
    (∀ claim ∈ state.claims, claim.worker ≠ worker) ∧
    next = { state with job := some (job.claim worker now), claims := state.claims ++ [⟨worker, job.payload⟩] } := by
  unfold claimProjectionSyncJob at claimed
  split at claimed
  · next job isJob free =>
    split at claimed
    · cases claimed
      refine ⟨job, isJob, ?_, rfl⟩
      intro claim member same
      have := List.find?_eq_none.mp free claim member
      simp [same] at this
    · cases claimed
  · cases claimed

theorem Sound.claimed (sound : Sound state) (isJob : state.job = some job) (free : ∀ claim ∈ state.claims, claim.worker ≠ worker) :
    Sound { state with job := some (job.claim worker now), claims := state.claims ++ [⟨worker, job.payload⟩] } where
  read := by
    rintro other payload ⟨⟩ isPayload
    exact sound.read job payload isJob isPayload
  closed := by rintro other ⟨⟩ ⟨⟩
  absent := by rintro ⟨⟩
  held := by
    rintro other ⟨⟩ claim member held
    obtain ⟨-, lockedBy⟩ := isHeldBy_iff.mp held
    rcases List.mem_append.mp member with old | new
    · exact absurd (Option.some.inj lockedBy).symm (free claim old)
    · rw [List.mem_singleton.mp new]
      rfl
  workers := by
    rw [List.map_append, List.nodup_append]
    refine ⟨sound.workers, List.nodup_singleton _, ?_⟩
    intro one member other also
    obtain ⟨claim, inside, rfl⟩ := List.mem_map.mp member
    rw [List.map_singleton, List.mem_singleton] at also
    rw [also]
    exact free claim inside
  ordered := sound.ordered
  numbered := sound.numbered

theorem materialize_inv (built : buildUsageProjection worker state = some next) : next = state ∨ ∃ job, state.job = some job ∧
    job.isHeldBy worker = true ∧ job.payload = none ∧ next = { state with
      projectionSequence := state.projectionSequence + 1
      job := some (job.materialize ⟨state.projectionSequence + 1, state.changes⟩)
      claims := updateAt Claim.worker worker (Claim.read ⟨state.projectionSequence + 1, state.changes⟩) state.claims
      materialized := state.materialized ++ [⟨state.projectionSequence + 1, state.changes⟩] } := by
  unfold buildUsageProjection at built
  split at built
  · next job claim isJob isClaim =>
    split at built
    · cases built
    · split at built
      · next held =>
        cases built
        obtain ⟨held, empty⟩ := (Bool.and_eq_true _ _).mp held
        exact .inr ⟨job, isJob, held, Option.isNone_iff_eq_none.mp empty, rfl⟩
      · cases built
        exact .inl rfl
  · cases built

theorem Sound.materialized_ (sound : Sound state) (held : job.isHeldBy worker = true) :
    Sound { state with
      projectionSequence := state.projectionSequence + 1
      job := some (job.materialize ⟨state.projectionSequence + 1, state.changes⟩)
      claims := updateAt Claim.worker worker (Claim.read ⟨state.projectionSequence + 1, state.changes⟩) state.claims
      materialized := state.materialized ++ [⟨state.projectionSequence + 1, state.changes⟩] } where
  read := by
    rintro other payload ⟨⟩ ⟨⟩
    exact ⟨le_refl _, .inl rfl⟩
  closed := by
    rintro other ⟨⟩ succeeded
    rw [show (job.materialize ⟨state.projectionSequence + 1, state.changes⟩).status = job.status from rfl,
      (isHeldBy_iff.mp held).1] at succeeded
    cases succeeded
  absent := by rintro ⟨⟩
  held := by
    rintro other ⟨⟩ claim member holds
    obtain ⟨before, inside, ⟨-, rfl⟩ | ⟨apart, rfl⟩⟩ := mem_updateAt.mp member
    · rfl
    · have lockedBy : job.lockedBy = some claim.worker := (isHeldBy_iff.mp holds).2
      rw [(isHeldBy_iff.mp held).2] at lockedBy
      exact absurd (Option.some.inj lockedBy).symm apart
  workers := by
    have kept : ∀ claim : Claim, (claim.read ⟨state.projectionSequence + 1, state.changes⟩).worker = claim.worker := fun _ => rfl
    rw [updateAt_keys kept]
    exact sound.workers
  ordered := by
    refine List.pairwise_append.mpr ⟨sound.ordered, List.pairwise_singleton _ _, ?_⟩
    intro payload member last also
    rw [List.mem_singleton.mp also]
    exact Nat.lt_succ_of_le (sound.numbered payload member)
  numbered := by
    intro payload member
    rcases List.mem_append.mp member with old | new
    · exact (sound.numbered payload old).trans (Nat.le_succ _)
    · rw [List.mem_singleton.mp new]

theorem succeed_inv (marked : markProjectionSyncJobSucceeded worker now state = some next) :
    (∃ job, state.job = some job ∧ next = { state with claims := dropClaim worker state.claims }) ∨
    ∃ job payload, state.job = some job ∧ ⟨worker, some payload⟩ ∈ state.claims ∧ job.isHeldBy worker = true ∧ next = { state with
      job := some (job.succeed now)
      claims := dropClaim worker state.claims
      delivered := max state.delivered payload.changes } := by
  unfold markProjectionSyncJobSucceeded at marked
  split at marked
  · next job other payload isJob isClaim =>
    obtain ⟨member, same⟩ := findAt_inv isClaim
    split at marked
    · next held =>
      cases marked
      rw [show other = worker from same] at member
      exact .inr ⟨job, payload, isJob, member, held, rfl⟩
    · cases marked
      exact .inl ⟨job, isJob, rfl⟩
  · cases marked

theorem Sound.succeeds (sound : Sound state) {payload : UsagePayload} (isJob : state.job = some job)
    (claimed : ⟨worker, some payload⟩ ∈ state.claims) (held : job.isHeldBy worker = true) : Sound { state with
      job := some (job.succeed now)
      claims := dropClaim worker state.claims
      delivered := max state.delivered payload.changes } where
  read := by rintro other found ⟨⟩ ⟨⟩
  closed := by
    rintro other ⟨⟩ succeeded
    refine ⟨rfl, ?_⟩
    obtain ⟨-, current | requested⟩ := sound.read job payload isJob (sound.held job isJob _ claimed held).symm
    · exact current.ge.trans (le_max_right _ _)
    · simp [ProjectionSyncJob.succeed, requested] at succeeded
  absent := by rintro ⟨⟩
  held := by
    rintro other ⟨⟩ claim - holds
    cases (isHeldBy_iff.mp holds).2
  workers := dropClaim_workers sound.workers
  ordered := sound.ordered
  numbered := sound.numbered

theorem fail_inv {error : Text} {retryAt : Option Int} (marked : markProjectionSyncJobFailed worker error retryAt state = some next) :
    (∃ job, state.job = some job ∧ next = { state with claims := dropClaim worker state.claims }) ∨
    ∃ job, state.job = some job ∧ next = { state with
      job := some (job.fail error retryAt), claims := dropClaim worker state.claims } := by
  unfold markProjectionSyncJobFailed at marked
  split at marked
  · next job claim isJob isClaim =>
    split at marked
    · cases marked
      exact .inr ⟨job, isJob, rfl⟩
    · cases marked
      exact .inl ⟨job, isJob, rfl⟩
  · cases marked

theorem retry_inv (retried : (retryProjectionSyncJob now state).toOption = some next) :
    ∃ job, state.job = some job ∧ next = { state with job := some (job.retry now) } := by
  unfold retryProjectionSyncJob at retried
  split at retried
  · cases retried
  · next job isJob =>
    split at retried
    · cases retried
      exact ⟨job, isJob, rfl⟩
    · cases retried

theorem Sound.step (sound : Sound state) {step : ProjectionStep} (applied : step.apply state = some next) :
    Sound next ∧ KeepsPayload step state next := by
  have still : ∀ other : Projections, other.job = state.job → KeepsPayload step state other := by
    intro other same
    exact .same fun job isJob => ⟨job, same.trans isJob, rfl⟩
  cases step with
  | change dueAt =>
    cases applied
    refine ⟨sound.change dueAt, .same ?_⟩
    intro job isJob
    unfold enqueueUsageProjection
    rw [isJob]
    exact ⟨_, rfl, rfl⟩
  | otherProjection =>
    cases applied
    exact ⟨⟨sound.read, sound.closed, sound.absent, sound.held, sound.workers, sound.ordered,
      fun payload member => (sound.numbered payload member).trans (Nat.le_succ _)⟩, still _ rfl⟩
  | claim worker now =>
    obtain ⟨job, isJob, free, rfl⟩ := claim_inv applied
    refine ⟨sound.claimed isJob free, .same ?_⟩
    intro other isOther
    rw [isJob] at isOther
    cases isOther
    exact ⟨_, rfl, rfl⟩
  | prepare worker =>
    cases applied
    unfold prepareProjectionSyncJobDelivery
    split
    · exact ⟨sound, still _ rfl⟩
    · exact ⟨sound.drop worker, still _ rfl⟩
  | materialize worker =>
    rcases materialize_inv applied with rfl | ⟨job, isJob, held, empty, rfl⟩
    · exact ⟨sound, still _ rfl⟩
    · refine ⟨sound.materialized_ held, ?_⟩
      intro other payload isOther isPayload
      rw [isJob] at isOther
      cases isOther
      rw [empty] at isPayload
      cases isPayload
  | succeed worker now =>
    rcases succeed_inv applied with ⟨job, isJob, rfl⟩ | ⟨job, payload, isJob, claimed, held, rfl⟩
    · exact ⟨sound.drop worker, still _ rfl⟩
    · refine ⟨sound.succeeds isJob claimed held, ?_⟩
      intro other found isOther isFound
      rw [isJob] at isOther
      cases isOther
      rw [← sound.held job isJob _ claimed held] at isFound
      cases isFound
      exact .inr ⟨⟨worker, now, rfl⟩, le_max_right _ _⟩
  | fail worker error retryAt =>
    rcases fail_inv applied with ⟨job, isJob, rfl⟩ | ⟨job, isJob, rfl⟩
    · exact ⟨sound.drop worker, still _ rfl⟩
    · refine ⟨?_, .same ?_⟩
      · have open_ : (job.fail error retryAt).status = .pending ∨ (job.fail error retryAt).status = .failed := by
          unfold ProjectionSyncJob.fail
          cases retryAt
          · exact .inr rfl
          · exact .inl rfl
        exact @Sound.released _ job sound isJob (ProjectionSyncJob.fail error retryAt) rfl rfl open_ _ (dropClaim_workers sound.workers)
      · intro other isOther
        rw [isJob] at isOther
        cases isOther
        exact ⟨_, rfl, rfl⟩
  | crash worker =>
    cases applied
    exact ⟨sound.drop worker, still _ rfl⟩
  | operatorRetry now =>
    obtain ⟨job, isJob, rfl⟩ := retry_inv applied
    refine ⟨@Sound.released _ job sound isJob (ProjectionSyncJob.retry now) rfl rfl (.inl rfl) _ sound.workers, .same ?_⟩
    intro other isOther
    rw [isJob] at isOther
    cases isOther
    exact ⟨_, rfl, rfl⟩

theorem reach_sound (reach : ProjectionReach state) : Sound state := by
  induction reach with
  | fresh sequence =>
    exact ⟨by rintro job payload ⟨⟩, by rintro job ⟨⟩, fun _ => rfl, by rintro job ⟨⟩, List.nodup_nil, List.Pairwise.nil, by simp⟩
  | step _ applied ih => exact (ih.step applied).1

theorem Sound.noneLost (sound : Sound state) : NoneLost state := by
  intro change undelivered made
  cases isJob : state.job with
  | none =>
    have := sound.absent isJob
    omega
  | some job =>
    have opened : job.opened = true := by
      cases status : job.status with
      | succeeded =>
        have := (sound.closed job isJob status).2
        omega
      | pending | processing | failed => simp [ProjectionSyncJob.opened, status]
    refine ⟨job, rfl, ?_⟩
    unfold ProjectionSyncJob.shows
    rw [opened, Bool.true_and]
    cases isPayload : job.payload with
    | none => rfl
    | some payload =>
      rcases (sound.read job payload isJob isPayload).2 with current | requested
      · simp only [Option.isNone_some, Option.any_some, Bool.false_or, Bool.or_eq_true, decide_eq_true_eq]
        right
        omega
      · simp [requested]

end Steps

def sender : Text :=
  "billing-worker-1".toList

def readProjections : Projections where
  changes := 1
  projectionSequence := 1
  job := some (((newJob 1000).claim sender 1000).materialize ⟨1, 1⟩)
  claims := [⟨sender, some ⟨1, 1⟩⟩]
  delivered := 0
  materialized := [⟨1, 1⟩]

theorem read_projections : ProjectionReach readProjections :=
  @ProjectionReach.step _ _ (.materialize sender)
    (@ProjectionReach.step _ _ (.claim sender 1000) (@ProjectionReach.step _ _ (.change 1000) (.fresh 0) rfl) rfl) rfl

end Quotum.UsageProjections
