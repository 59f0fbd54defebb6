import Quotum.AutoTopups
import Quotum.General.Outcomes

/-! What automatic top-ups count against the budget of an interval: every open or settled job once. -/

namespace Quotum.AutoTopups
open General Decimal

def AutoTopupJob.live (job : AutoTopupJob) : Bool :=
  job.status.live

def AutoTopupJob.holds (start : Int) (job : AutoTopupJob) : Bool :=
  job.live && job.budgetIntervalStartedAt == some start

section Shares
variable (counted : Nat → Bool) (start : Int)

/-- The purchases a job has in an interval: one if it settled there or holds its reservation there. -/
def purchaseShare (job : AutoTopupJob) : Nat :=
  if job.status = .succeeded then (if counted job.id then 1 else 0) else if job.holds start then 1 else 0

def spendShare (job : AutoTopupJob) : Nat :=
  if job.status = .succeeded then (if counted job.id then job.chargedAmountMinor.getD 0 else 0)
  else if job.holds start then job.amountMinor.getD 0 else 0

end Shares

/-- The counters of the current interval are the shares of the jobs, where a set of settled jobs counts in it; at
most those when clocks are off. -/
structure Tally (agree : Prop) (counted : Nat → Bool) (account : TopupAccount) : Prop where
  purchases : account.state.purchasesInInterval ≤ (account.jobs.map (purchaseShare counted account.state.intervalStartedAt)).sum
  spend : account.state.spendMinorInInterval ≤ (account.jobs.map (spendShare counted account.state.intervalStartedAt)).sum
  exactPurchases : agree →
    account.state.purchasesInInterval = (account.jobs.map (purchaseShare counted account.state.intervalStartedAt)).sum
  exactSpend : agree →
    account.state.spendMinorInInterval = (account.jobs.map (spendShare counted account.state.intervalStartedAt)).sum
  begun : agree → ∀ job ∈ account.jobs, job.live = true → ∀ start, job.budgetIntervalStartedAt = some start →
    start ≤ account.state.intervalStartedAt

/-- One job at most is open, none while the policy is suspended, and otherwise the counters are within the budget. -/
structure Sound (policy : AutoTopupPolicy) (account : TopupAccount) : Prop where
  ids : (account.jobs.map AutoTopupJob.id).Nodup
  fresh : ∀ job ∈ account.jobs, job.id < account.jobs.length
  single : ∀ job ∈ account.jobs, ∀ other ∈ account.jobs, job.live = true → other.live = true → job.id = other.id
  idle : account.state.status = .suspended → ∀ job ∈ account.jobs, job.live = false
  within : account.state.status ≠ .suspended →
    exceeds policy account.state.purchasesInInterval account.state.spendMinorInInterval = false

inductive Normalized (policy : AutoTopupPolicy) (clock : TopupClock) (state : AutoTopupState) : AutoTopupState → Prop where
  | kept : Normalized policy clock state state
  | rolled (open_ : state.status ≠ .suspended) (ended : state.expired policy clock = true) :
      Normalized policy clock state { state with
        intervalStartedAt := clock.now
        purchasesInInterval := 0
        spendMinorInInterval := 0
        status := state.closed clock }

/-- What a write on an open job does: its row changes, and its share of the interval's counters with it. -/
structure JobStep (policy : AutoTopupPolicy) (clock : TopupClock) (account next : TopupAccount) (job : AutoTopupJob)
    (base : AutoTopupState) (change : AutoTopupJob → AutoTopupJob) : Prop where
  member : job ∈ account.jobs
  live : job.live = true
  normalized : Normalized policy clock account.state base
  keeps : ∀ row, (change row).id = row.id
  jobs : next.jobs = updateAt AutoTopupJob.id job.id change account.jobs
  interval : next.state.intervalStartedAt = base.intervalStartedAt
  purchases : ∀ counted : Nat → Bool, counted job.id = true → (next.state.purchasesInInterval : Int) =
    max 0 ((base.purchasesInInterval : Int) - purchaseShare counted base.intervalStartedAt job +
      purchaseShare counted base.intervalStartedAt (change job))
  spend : ∀ counted : Nat → Bool, counted job.id = true → (next.state.spendMinorInInterval : Int) =
    max 0 ((base.spendMinorInInterval : Int) - spendShare counted base.intervalStartedAt job +
      spendShare counted base.intervalStartedAt (change job))
  begun : ∀ start, (change job).live = true → (change job).budgetIntervalStartedAt = some start →
    job.budgetIntervalStartedAt = some start ∨ start = base.intervalStartedAt
  suspended : next.state.status = .suspended → (change job).live = false
  within : base.status ≠ .suspended → exceeds policy base.purchasesInInterval base.spendMinorInInterval = false →
    next.state.status ≠ .suspended → exceeds policy next.state.purchasesInInterval next.state.spendMinorInInterval = false

section Exceeds
variable {policy : AutoTopupPolicy}

private theorem exceeds_iff {purchases spend : Int} : exceeds policy purchases spend = false ↔
    purchases ≤ policy.maxPurchasesPerInterval ∧ ∀ most, policy.maxSpendMinor = some most → spend ≤ most := by
  unfold exceeds
  cases policy.maxSpendMinor <;> simp

private theorem exceeds_mono {purchases spend lessPurchases lessSpend : Int} (kept : exceeds policy purchases spend = false)
    (fewer : lessPurchases ≤ purchases) (less : lessSpend ≤ spend) : exceeds policy lessPurchases lessSpend = false := by
  obtain ⟨bound, most⟩ := exceeds_iff.mp kept
  exact exceeds_iff.mpr ⟨fewer.trans bound, fun value same => less.trans (most value same)⟩

private theorem exceeds_zero : exceeds policy 0 0 = false :=
  exceeds_iff.mpr ⟨Int.natCast_nonneg _, fun _ _ => Int.natCast_nonneg _⟩

end Exceeds

section Normalize
variable {policy : AutoTopupPolicy} {clock : TopupClock} {state base : AutoTopupState}

private theorem normalize_inv (done : normalizeInterval policy clock state = .ok base) : Normalized policy clock state base := by
  unfold normalizeInterval at done
  obtain ⟨checked, -, done⟩ := bind_ok done
  split at done
  · next ended =>
    cases done
    exact .rolled ended.1 ended.2
  · cases done
    exact .kept

private theorem closed_open (state : AutoTopupState) (clock : TopupClock) : state.closed clock ≠ .suspended := by
  unfold AutoTopupState.closed
  split <;> decide

theorem Normalized.open (normalized : Normalized policy clock state base) (open_ : state.status ≠ .suspended) :
    base.status ≠ .suspended := by
  cases normalized with
  | kept => exact open_
  | rolled => exact closed_open state clock

theorem Normalized.within (normalized : Normalized policy clock state base)
    (kept : exceeds policy state.purchasesInInterval state.spendMinorInInterval = false) :
    exceeds policy base.purchasesInInterval base.spendMinorInInterval = false := by
  cases normalized with
  | kept => exact kept
  | rolled => exact exceeds_zero

end Normalize

section Tallies
variable {agree : Prop} {counted : Nat → Bool} {account next : TopupAccount} {job : AutoTopupJob} {jobs : List AutoTopupJob}
  {policy : AutoTopupPolicy}

private theorem shares_zero {start : Int}
    (before : ∀ job ∈ jobs, job.live = true → ∀ begun, job.budgetIntervalStartedAt = some begun → begun < start) :
    (jobs.map (purchaseShare (fun _ => false) start)).sum = 0 ∧ (jobs.map (spendShare (fun _ => false) start)).sum = 0 := by
  have apart : ∀ job ∈ jobs, job.holds start = false := by
    intro job member
    unfold AutoTopupJob.holds
    by_contra held
    rw [Bool.not_eq_false, Bool.and_eq_true, beq_iff_eq] at held
    have := before job member held.1 start held.2
    omega
  constructor
  · apply List.sum_eq_zero
    intro value listed
    obtain ⟨job, member, rfl⟩ := List.mem_map.mp listed
    unfold purchaseShare
    rw [apart job member]
    simp
  · apply List.sum_eq_zero
    intro value listed
    obtain ⟨job, member, rfl⟩ := List.mem_map.mp listed
    unfold spendShare
    rw [apart job member]
    simp

/-- A new interval starts with no shares. -/
theorem Tally.rolled (tally : Tally agree counted account) {state : AutoTopupState} (purchases : state.purchasesInInterval = 0)
    (spend : state.spendMinorInInterval = 0) (later : agree → account.state.intervalStartedAt < state.intervalStartedAt) :
    Tally agree (fun _ => false) { account with state := state } := by
  have before : agree → ∀ job ∈ account.jobs, job.live = true → ∀ begun, job.budgetIntervalStartedAt = some begun →
      begun < state.intervalStartedAt :=
    fun holds job member live begun same => lt_of_le_of_lt (tally.begun holds job member live begun same) (later holds)
  refine ⟨?_, ?_, ?_, ?_, ?_⟩
  · simp only [purchases]
    exact Nat.zero_le _
  · simp only [spend]
    exact Nat.zero_le _
  · intro holds
    simp only [purchases]
    exact (shares_zero (before holds)).1.symm
  · intro holds
    simp only [spend]
    exact (shares_zero (before holds)).2.symm
  · exact fun holds job member live begun same => le_of_lt (before holds job member live begun same)

theorem Tally.normalized {clock : TopupClock} {base : AutoTopupState} (tally : Tally agree counted account)
    (normalized : Normalized policy clock account.state base) :
    ∃ counted, Tally agree counted { account with state := base } := by
  cases normalized with
  | kept => exact ⟨counted, tally⟩
  | rolled open_ ended =>
    refine ⟨_, tally.rolled rfl rfl fun _ => ?_⟩
    unfold AutoTopupState.expired at ended
    have := of_decide_eq_true ended
    have := policy.atLeastMinute
    simp only
    omega

/-- The shares of the jobs that did not settle do not depend on which settled ones count. -/
private theorem shares_live (live : job.live = true) (counted other : Nat → Bool) (start : Int) :
    purchaseShare counted start job = purchaseShare other start job ∧ spendShare counted start job = spendShare other start job := by
  have open_ : job.status ≠ .succeeded := by
    intro settled
    unfold AutoTopupJob.live at live
    rw [settled] at live
    cases live
  unfold purchaseShare spendShare
  rw [if_neg open_, if_neg open_, if_neg open_, if_neg open_]
  exact ⟨rfl, rfl⟩

private theorem updateAt_total (distinct : (jobs.map AutoTopupJob.id).Nodup)
    (member : job ∈ jobs) (change : AutoTopupJob → AutoTopupJob) (share : AutoTopupJob → Nat) :
    (((updateAt AutoTopupJob.id job.id change jobs).map share).sum : Int) = (jobs.map share).sum - share job + share (change job) := by
  have moved := updateAt_sum distinct member change share
  omega

theorem Tally.stepped {clock : TopupClock} {base : AutoTopupState}
    {change : AutoTopupJob → AutoTopupJob} (tally : Tally agree counted { account with state := base })
    (distinct : (account.jobs.map AutoTopupJob.id).Nodup) (step : JobStep policy clock account next job base change) :
    ∃ counted, Tally agree counted next := by
  let settled : Nat → Bool := fun id => counted id || id == job.id
  have here : settled job.id = true := by simp [settled]
  have same : ∀ row ∈ account.jobs,
      purchaseShare settled base.intervalStartedAt row = purchaseShare counted base.intervalStartedAt row ∧
        spendShare settled base.intervalStartedAt row = spendShare counted base.intervalStartedAt row := by
    intro row member
    by_cases one : row.id = job.id
    · have row_eq : row = job := List.inj_on_of_nodup_map distinct member step.member one
      rw [row_eq]
      exact shares_live step.live settled counted _
    · have apart : settled row.id = counted row.id := by simp [settled, one]
      unfold purchaseShare spendShare
      rw [apart]
      exact ⟨rfl, rfl⟩
  have purchaseSum : (account.jobs.map (purchaseShare settled base.intervalStartedAt)).sum =
      (account.jobs.map (purchaseShare counted base.intervalStartedAt)).sum :=
    congrArg List.sum (List.map_congr_left fun row member => (same row member).1)
  have spendSum : (account.jobs.map (spendShare settled base.intervalStartedAt)).sum =
      (account.jobs.map (spendShare counted base.intervalStartedAt)).sum :=
    congrArg List.sum (List.map_congr_left fun row member => (same row member).2)
  have purchaseTotal := updateAt_total distinct step.member change (purchaseShare settled base.intervalStartedAt)
  have spendTotal := updateAt_total distinct step.member change (spendShare settled base.intervalStartedAt)
  have purchases := step.purchases settled here
  have spend := step.spend settled here
  have purchaseBound := tally.purchases
  have spendBound := tally.spend
  simp only at purchaseBound spendBound
  refine ⟨settled, ?_, ?_, ?_, ?_, ?_⟩
  · rw [step.interval, step.jobs]
    omega
  · rw [step.interval, step.jobs]
    omega
  · intro holds
    have before := tally.exactPurchases holds
    simp only at before
    rw [step.interval, step.jobs]
    omega
  · intro holds
    have before := tally.exactSpend holds
    simp only at before
    rw [step.interval, step.jobs]
    omega
  · intro holds row member live start begun
    rw [step.interval]
    rw [step.jobs] at member
    rcases mem_updateAt.mp member with ⟨old, inside, ⟨id, rfl⟩ | ⟨-, rfl⟩⟩
    · have one : old = job := List.inj_on_of_nodup_map distinct inside step.member id
      subst one
      rcases step.begun start live begun with kept | now
      · exact tally.begun holds old inside step.live start kept
      · exact le_of_eq now
    · exact tally.begun holds row inside live start begun

end Tallies

section Soundness
variable {policy : AutoTopupPolicy} {clock : TopupClock} {account next : TopupAccount}

theorem Sound.stepped {base : AutoTopupState} {job : AutoTopupJob} {change : AutoTopupJob → AutoTopupJob}
    (sound : Sound policy account) (step : JobStep policy clock account next job base change) : Sound policy next := by
  have open_ : account.state.status ≠ .suspended := by
    intro suspended
    have := sound.idle suspended job step.member
    rw [step.live] at this
    cases this
  have rows : ∀ row ∈ next.jobs, (∃ old ∈ account.jobs, old.id = row.id ∧ (row.live = true → old.live = true)) ∧
      (row.live = true → row = change job) := by
    intro row member
    rw [step.jobs] at member
    rcases mem_updateAt.mp member with ⟨old, inside, ⟨id, rfl⟩ | ⟨apart, rfl⟩⟩
    · have one : old = job := List.inj_on_of_nodup_map sound.ids inside step.member id
      subst one
      exact ⟨⟨old, inside, (step.keeps old).symm, fun _ => step.live⟩, fun _ => rfl⟩
    · refine ⟨⟨row, inside, rfl, id⟩, ?_⟩
      intro live
      exact absurd (sound.single row inside job step.member live step.live) apart
  refine ⟨?_, ?_, ?_, ?_, ?_⟩
  · rw [step.jobs, updateAt_keys step.keeps]
    exact sound.ids
  · intro row member
    obtain ⟨⟨old, inside, id, -⟩, -⟩ := rows row member
    have length : next.jobs.length = account.jobs.length := by
      rw [step.jobs]
      simp [updateAt]
    rw [length, ← id]
    exact sound.fresh old inside
  · intro row member other listed live also
    rw [(rows row member).2 live, (rows other listed).2 also]
  · intro suspended row member
    by_contra live
    rw [Bool.not_eq_false] at live
    have ended := step.suspended suspended
    rw [← (rows row member).2 live, live] at ended
    cases ended
  · exact step.within (step.normalized.open open_) (step.normalized.within (sound.within open_))

end Soundness

section Share
variable {counted : Nat → Bool} {start : Int} {job : AutoTopupJob}

private theorem live_unsettled (live : job.live = true) : job.status ≠ .succeeded := by
  intro settled
  unfold AutoTopupJob.live at live
  rw [settled] at live
  cases live

private theorem purchase_open (live : job.live = true) :
    purchaseShare counted start job = if job.budgetIntervalStartedAt = some start then 1 else 0 := by
  unfold purchaseShare AutoTopupJob.holds
  rw [if_neg (live_unsettled live), live, Bool.true_and]
  simp only [beq_iff_eq]

private theorem spend_open (live : job.live = true) :
    spendShare counted start job = if job.budgetIntervalStartedAt = some start then job.amountMinor.getD 0 else 0 := by
  unfold spendShare AutoTopupJob.holds
  rw [if_neg (live_unsettled live), live, Bool.true_and]
  simp only [beq_iff_eq]

private theorem purchase_ended (ended : job.live = false) (unsettled : job.status ≠ .succeeded) : purchaseShare counted start job = 0 := by
  unfold purchaseShare AutoTopupJob.holds
  rw [if_neg unsettled, ended]
  rfl

private theorem spend_ended (ended : job.live = false) (unsettled : job.status ≠ .succeeded) : spendShare counted start job = 0 := by
  unfold spendShare AutoTopupJob.holds
  rw [if_neg unsettled, ended]
  rfl

end Share

section Inversions
variable {policy : AutoTopupPolicy} {clock : TopupClock} {account next : TopupAccount} {job : AutoTopupJob}
  {change : AutoTopupJob → AutoTopupJob} {amount : Nat}

theorem JobStep.quiet {base : AutoTopupState} (member : job ∈ account.jobs)
    (live : job.live = true) (open_ : account.state.status ≠ .suspended) (normalized : Normalized policy clock account.state base)
    (keeps : ∀ row, (change row).id = row.id) (lives : (change job).live = true)
    (interval : (change job).budgetIntervalStartedAt = job.budgetIntervalStartedAt)
    (amount : (change job).amountMinor = job.amountMinor) :
    JobStep policy clock account (updateJob job.id change { account with state := base }) job base change := by
  refine ⟨member, live, normalized, keeps, rfl, rfl, ?_, ?_, ?_, ?_, fun _ kept _ => kept⟩
  · intro counted _
    rw [purchase_open live, purchase_open lives, interval]
    simp only [updateJob]
    omega
  · intro counted _
    rw [spend_open live, spend_open lives, interval, amount]
    simp only [updateJob]
    omega
  · intro start _ begun
    exact .inl (interval ▸ begun)
  · exact fun suspended => absurd suspended (normalized.open open_)

private theorem reservedIn_iff {state : AutoTopupState} :
    job.reservedIn state = true ↔ job.budgetIntervalStartedAt = some state.intervalStartedAt := by
  unfold AutoTopupJob.reservedIn
  exact beq_iff_eq

private theorem terminate_status (job : AutoTopupJob) : job.terminate.status = .failed :=
  rfl

private theorem terminate_step (member : job ∈ account.jobs) (live : job.live = true)
    (done : terminateUnclaimableJob policy clock job account = .ok next) :
    ∃ base, JobStep policy clock account next job base AutoTopupJob.terminate := by
  unfold terminateUnclaimableJob at done
  obtain ⟨base, normalized, done⟩ := bind_ok done
  cases done
  have ended : job.terminate.status ≠ .succeeded := by
    rw [terminate_status]
    decide
  refine ⟨base, member, live, normalize_inv normalized, fun _ => rfl, rfl, ?_, ?_, ?_, ?_, ?_, ?_⟩
  · simp only [updateJob]
    split <;> rfl
  · intro counted _
    rw [purchase_open live, purchase_ended rfl ended]
    simp only [updateJob, reservedIn_iff]
    split
    · simp only
      omega
    · omega
  · intro counted _
    rw [spend_open live, spend_ended rfl ended]
    simp only [updateJob, reservedIn_iff]
    split
    · simp only
      omega
    · omega
  · intro start lives
    cases lives
  · exact fun _ => rfl
  · intro _ kept _
    simp only [updateJob]
    split
    · exact exceeds_mono kept (by simp only; omega) (by simp only; omega)
    · exact kept

private theorem suspend_step (member : job ∈ account.jobs) (live : job.live = true)
    (done : suspendUnclaimableJob policy clock job account = .ok next) :
    ∃ base, JobStep policy clock account next job base AutoTopupJob.terminate := by
  unfold suspendUnclaimableJob at done
  obtain ⟨ended, terminated, done⟩ := bind_ok done
  cases done
  obtain ⟨base, step⟩ := terminate_step member live terminated
  exact ⟨base, { step with
    suspended := fun _ => rfl
    within := fun _ _ open_ => absurd rfl open_ }⟩

private theorem safeMinor_inv {value : Option Int} {name : String} (read : safeMinor value name = .ok amount) :
    value = some (amount : Int) := by
  unfold safeMinor at read
  split at read
  · cases read
  · split at read
    · cases read
    · next bounds =>
      cases read
      congr 1
      omega

private theorem amount_inv {name : String} (read : safeMinor (job.amountMinor.map Int.ofNat) name = .ok amount) :
    job.amountMinor = some amount := by
  have same := safeMinor_inv read
  cases shape : job.amountMinor with
  | none => simp [shape] at same
  | some value =>
    rw [shape, Option.map_some, Option.some_inj] at same
    exact congrArg some (Int.ofNat_inj.mp same)

private theorem claim_live (worker : Text) (now : Int) (interval : Option Int) (job : AutoTopupJob) :
    (job.claim worker now interval).live = true :=
  rfl

private theorem claim_interval (worker : Text) (now : Int) (interval : Option Int) (job : AutoTopupJob) :
    (job.claim worker now interval).budgetIntervalStartedAt = interval :=
  rfl

private theorem reserve_step {base : AutoTopupState} (member : job ∈ account.jobs) (live : job.live = true)
    (open_ : account.state.status ≠ .suspended) (normalized : Normalized policy clock account.state base)
    (priced : job.amountMinor = some amount) (fresh : job.reservedIn base = false)
    (room : exceeds policy (base.purchasesInInterval + 1) (base.spendMinorInInterval + amount) = false) (worker : Text) :
    JobStep policy clock account
      (updateJob job.id (AutoTopupJob.claim worker clock.now (some base.intervalStartedAt)) { account with state := { base with
        purchasesInInterval := base.purchasesInInterval + 1
        spendMinorInInterval := base.spendMinorInInterval + amount } })
      job base (AutoTopupJob.claim worker clock.now (some base.intervalStartedAt)) := by
  have apart : ¬ job.budgetIntervalStartedAt = some base.intervalStartedAt := by
    intro held
    rw [reservedIn_iff.mpr held] at fresh
    cases fresh
  refine ⟨member, live, normalized, fun _ => rfl, rfl, rfl, ?_, ?_, ?_, ?_, ?_⟩
  · intro counted _
    rw [purchase_open live, purchase_open (claim_live ..), claim_interval, if_neg apart, if_pos rfl]
    simp only [updateJob]
    omega
  · intro counted _
    have same : (job.claim worker clock.now (some base.intervalStartedAt)).amountMinor = some amount := priced
    rw [spend_open live, spend_open (claim_live ..), claim_interval, if_neg apart, if_pos rfl, same]
    simp only [updateJob, Option.getD_some]
    omega
  · intro start _ begun
    exact .inr (Option.some.inj begun).symm
  · exact fun suspended => absurd suspended (normalized.open open_)
  · intro _ _ _
    simp only [updateJob]
    exact_mod_cast room

private theorem claim_step (member : job ∈ account.jobs) (live : job.live = true) {active : Bool} {worker : Text}
    {claimed : Option ClaimedJob} (open_ : account.state.status ≠ .suspended)
    (done : prepareClaimedJob policy clock active worker job account = .ok (next, claimed)) :
    ∃ base change, JobStep policy clock account next job base change := by
  unfold prepareClaimedJob at done
  obtain ⟨base, normalized, done⟩ := bind_ok done
  split at done
  · obtain ⟨ended, terminated, done⟩ := bind_ok done
    cases done
    obtain ⟨base, step⟩ := terminate_step member live terminated
    exact ⟨base, _, step⟩
  · obtain ⟨amount, read, done⟩ := bind_ok done
    have priced := amount_inv read
    split at done
    · obtain ⟨ended, terminated, done⟩ := bind_ok done
      cases done
      obtain ⟨base, step⟩ := suspend_step member live terminated
      exact ⟨base, _, step⟩
    · simp only at done
      split at done
      · obtain ⟨ended, terminated, done⟩ := bind_ok done
        cases done
        obtain ⟨base, step⟩ := terminate_step member live terminated
        exact ⟨base, _, step⟩
      · next room =>
        cases done
        cases reserving : !job.reservedIn base && !job.recovering with
        | false =>
          have interval : (if job.recovering = true then job.budgetIntervalStartedAt else some base.intervalStartedAt) =
              job.budgetIntervalStartedAt := by
            split
            · rfl
            · next fresh =>
              rw [Bool.and_eq_false_iff, Bool.not_eq_false', Bool.not_eq_false'] at reserving
              exact (reservedIn_iff.mp (reserving.resolve_right fresh)).symm
          rw [interval]
          exact ⟨base, _, .quiet member live open_ (normalize_inv normalized) (fun _ => rfl) rfl rfl rfl⟩
        | true =>
          rw [reserving] at room
          rw [Bool.and_eq_true, Bool.not_eq_true', Bool.not_eq_true'] at reserving
          rw [if_neg (by rw [reserving.2]; decide)]
          exact ⟨base, _, reserve_step member live open_ (normalize_inv normalized) priced reserving.1
            ((Bool.eq_false_iff).mpr fun beyond => room ⟨rfl, beyond⟩) worker⟩

private theorem find_inv {id : Nat} (found : findJob id account = .ok job) : job ∈ account.jobs ∧ job.id = id := by
  unfold findJob at found
  split at found
  · cases found
  · next known =>
    cases found
    exact findAt_inv known

private theorem lock_live {worker : Text} {locked : Unit} (held : requireProcessingLock job worker = .ok locked) : job.live = true := by
  unfold requireProcessingLock at held
  split at held
  · cases held
  · next processing =>
    rw [not_or, not_not] at processing
    unfold AutoTopupJob.live
    rw [processing.1]
    rfl

private theorem settle_status (amountPaid : Nat) (charge : ChargeSucceeded) (job : AutoTopupJob) :
    (job.settle amountPaid charge).status = .succeeded :=
  rfl

private theorem purchase_settled {counted : Nat → Bool} {start : Int} (settled : job.status = .succeeded) (here : counted job.id = true) :
    purchaseShare counted start job = 1 := by
  unfold purchaseShare
  rw [if_pos settled, if_pos here]

private theorem spend_settled {counted : Nat → Bool} {start : Int} (settled : job.status = .succeeded) (here : counted job.id = true) :
    spendShare counted start job = job.chargedAmountMinor.getD 0 := by
  unfold spendShare
  rw [if_pos settled, if_pos here]

private theorem succeed_step {worker : Text} {id : Nat} {charge : ChargeSucceeded} {opened : Bool}
    (done : markAutoTopupSucceeded policy clock worker id charge account = .ok (next, opened)) :
    next = account ∨ ∃ job base change, JobStep policy clock account next job base change := by
  unfold markAutoTopupSucceeded at done
  obtain ⟨job, found, done⟩ := bind_ok done
  obtain ⟨amountPaid, paid, done⟩ := bind_ok done
  split at done
  · cases done
  split at done
  · obtain ⟨stored, -, done⟩ := bind_ok done
    split at done
    · cases done
    · cases done
      exact .inl rfl
  · obtain ⟨locked, held, done⟩ := bind_ok done
    obtain ⟨base, normalized, done⟩ := bind_ok done
    obtain ⟨expected, read, done⟩ := bind_ok done
    have live := lock_live held
    have priced := amount_inv read
    simp only at done
    split at done
    · cases done
    · next nonnegative =>
      cases done
      refine .inr ⟨job, base, AutoTopupJob.settle amountPaid charge, (find_inv found).1, live, normalize_inv normalized, fun _ => rfl,
        rfl, rfl, ?_, ?_, ?_, fun _ => rfl, ?_⟩
      · intro counted here
        rw [purchase_open live, purchase_settled (settle_status ..) here]
        simp only [updateJob]
        unfold AutoTopupJob.settledPurchases
        simp only [reservedIn_iff]
        split
        · omega
        · omega
      · intro counted here
        rw [spend_open live, spend_settled (settle_status ..) here, priced]
        have charged : (job.settle amountPaid charge).chargedAmountMinor = some amountPaid := rfl
        rw [charged]
        simp only [updateJob, Option.getD_some]
        unfold AutoTopupJob.settledSpend at nonnegative ⊢
        by_cases reserved : job.budgetIntervalStartedAt = some base.intervalStartedAt
        · rw [if_pos (reservedIn_iff.mpr reserved)] at nonnegative ⊢
          rw [if_pos reserved]
          omega
        · rw [if_neg fun held => reserved (reservedIn_iff.mp held)] at nonnegative ⊢
          rw [if_neg reserved]
          omega
      · intro start lives
        cases lives
      · intro _ _ open_
        simp only [updateJob] at open_ ⊢
        split at open_
        · exact absurd rfl open_
        · next kept =>
          rw [Int.toNat_of_nonneg (by omega)]
          exact Bool.eq_false_iff.mpr kept

section Failed
variable {counted : Nat → Bool} {start nextAttemptAt : Int} {externalInvoiceId externalPaymentId : Option Text} {kind : FailureKind}
  {retryScheduled : Bool}

private theorem failedStatus_unsettled : failedStatus kind retryScheduled ≠ .succeeded := by
  unfold failedStatus
  split
  · decide
  · split <;> decide

private theorem failedStatus_ended : (failedStatus kind false).live = false := by
  unfold failedStatus
  rw [if_neg (by decide)]
  split <;> rfl

/-- A failed attempt leaves nothing reserved. -/
private theorem shares_failed (job : AutoTopupJob) :
    purchaseShare counted start (job.fail (failedStatus kind retryScheduled) nextAttemptAt externalInvoiceId externalPaymentId) = 0 ∧
      spendShare counted start (job.fail (failedStatus kind retryScheduled) nextAttemptAt externalInvoiceId externalPaymentId) = 0 := by
  have unsettled : ¬ (job.fail (failedStatus kind retryScheduled) nextAttemptAt externalInvoiceId externalPaymentId).status =
      .succeeded := failedStatus_unsettled
  have free : (job.fail (failedStatus kind retryScheduled) nextAttemptAt externalInvoiceId externalPaymentId).holds start = false := by
    unfold AutoTopupJob.holds AutoTopupJob.fail
    rw [Bool.and_eq_false_iff]
    exact .inr rfl
  unfold purchaseShare spendShare
  rw [if_neg unsettled, if_neg unsettled, free]
  exact ⟨rfl, rfl⟩

end Failed

private theorem fail_step {worker : Text} {id : Nat} {kind : FailureKind} {retryDelayMs : Option Nat}
    {externalInvoiceId externalPaymentId : Option Text} {result : Bool × Bool}
    (done : markAutoTopupFailed policy clock worker id kind retryDelayMs externalInvoiceId externalPaymentId account =
      .ok (next, result)) : ∃ job base change, JobStep policy clock account next job base change := by
  unfold markAutoTopupFailed at done
  obtain ⟨job, found, done⟩ := bind_ok done
  obtain ⟨locked, held, done⟩ := bind_ok done
  obtain ⟨base, normalized, done⟩ := bind_ok done
  obtain ⟨expected, read, done⟩ := bind_ok done
  have live := lock_live held
  have priced := amount_inv read
  simp only at done
  generalize opened : (kind != .retryable || decide (account.state.consecutiveFailures + 1 ≥ policy.maxConsecutiveFailures)) =
    circuitOpened at done
  cases done
  refine ⟨job, base, AutoTopupJob.fail (failedStatus kind (!circuitOpened && retryDelayMs.isSome)) (clock.now + retryDelayMs.getD 0)
    externalInvoiceId externalPaymentId, (find_inv found).1, live, normalize_inv normalized, fun _ => rfl, rfl, rfl, ?_, ?_, ?_, ?_, ?_⟩
  · intro counted _
    rw [purchase_open live, (shares_failed job).1]
    simp only [updateJob]
    simp only [reservedIn_iff]
    split
    · omega
    · omega
  · intro counted _
    rw [spend_open live, (shares_failed job).2, priced]
    simp only [updateJob, Option.getD_some]
    simp only [reservedIn_iff]
    split
    · omega
    · omega
  · intro start _ begun
    cases begun
  · intro suspended
    cases circuitOpened with
    | true => exact failedStatus_ended
    | false => exact absurd suspended (closed_open base clock)
  · intro _ kept _
    simp only [updateJob]
    exact exceeds_mono kept (by omega) (by omega)

section
variable (open_ : ∀ job ∈ account.jobs, job.live = true → account.state.status ≠ .suspended)
include open_

private theorem checkpoint_step {worker : Text} {id : Nat} {invoiceId : Text} {phase : Option TopupPhase} {result : Option ChargeSucceeded}
    (done : checkpointAutoTopup worker id invoiceId phase result account = .ok next) :
    ∃ job base change, JobStep policy clock account next job base change := by
  unfold checkpointAutoTopup at done
  split at done
  · cases done
  · split at done
    · cases done
    · next job found =>
      split at done
      · next owned =>
        cases done
        obtain ⟨member, rfl⟩ := findAt_inv found
        have live : job.live = true := by
          unfold AutoTopupJob.live
          rw [owned.1]
          rfl
        exact ⟨job, account.state, _, .quiet member live (open_ job member live) .kept (fun _ => rfl) live rfl rfl⟩
      · cases done

private theorem retry_step {worker : Text} {id delayMs : Nat}
    (done : retryAutoTopupCompletion clock worker id delayMs account = .ok next) :
    ∃ job base change, JobStep policy clock account next job base change := by
  unfold retryAutoTopupCompletion at done
  split at done
  · cases done
  · next job found =>
    split at done
    · next owned =>
      cases done
      obtain ⟨member, rfl⟩ := findAt_inv found
      have live : job.live = true := by
        unfold AutoTopupJob.live
        rw [owned.1]
        rfl
      have lives : (job.defer (clock.now + delayMs)).live = true := by
        unfold AutoTopupJob.live AutoTopupJob.defer
        simp only
        split <;> rfl
      exact ⟨job, account.state, _, .quiet member live (open_ job member live) .kept (fun _ => rfl) lives rfl rfl⟩
    · cases done

private theorem row_step {id : Nat} (keeps : ∀ row, (change row).id = row.id)
    (fixed : ∀ row, row.live = false → change row = row) (lives : ∀ row, row.live = true → (change row).live = true)
    (interval : ∀ row, (change row).budgetIntervalStartedAt = row.budgetIntervalStartedAt)
    (amount : ∀ row, (change row).amountMinor = row.amountMinor) :
    updateJob id change account = account ∨
      ∃ job base change', JobStep policy clock account (updateJob id change account) job base change' := by
  by_cases present : ∃ job ∈ account.jobs, job.id = id ∧ job.live = true
  · obtain ⟨job, member, rfl, live⟩ := present
    exact .inr ⟨job, account.state, change, .quiet member live (open_ job member live) .kept keeps (lives job live) (interval job)
      (amount job)⟩
  · left
    have same : updateAt AutoTopupJob.id id change account.jobs = account.jobs := by
      apply updateAt_fixed
      intro row member here
      apply fixed
      by_contra live
      exact present ⟨row, member, here, Bool.not_eq_false _ ▸ live⟩
    unfold updateJob
    rw [same]

private theorem renew_step (worker : Text) (id : Nat) :
    renewAutoTopupJobLease clock worker id account = account ∨
      ∃ job base change, JobStep policy clock account (renewAutoTopupJobLease clock worker id account) job base change := by
  refine row_step open_ ?_ ?_ ?_ ?_ ?_
  all_goals intro row; unfold AutoTopupJob.renew
  · split <;> rfl
  · intro ended
    rw [if_neg]
    rintro ⟨processing, -⟩
    unfold AutoTopupJob.live at ended
    rw [processing] at ended
    cases ended
  · intro live
    split
    · exact live
    · exact live
  · split <;> rfl
  · split <;> rfl

private theorem resume_step (id : Nat) :
    resumeAutoTopupReview clock id account = account ∨
      ∃ job base change, JobStep policy clock account (resumeAutoTopupReview clock id account) job base change := by
  refine row_step open_ ?_ ?_ ?_ ?_ ?_
  all_goals intro row; unfold AutoTopupJob.resume
  · split <;> rfl
  · intro ended
    rw [if_neg]
    intro review
    unfold AutoTopupJob.live at ended
    rw [review] at ended
    cases ended
  · intro live
    split
    · rfl
    · exact live
  · split <;> rfl
  · split <;> rfl

end

end Inversions

def Timely (policy : AutoTopupPolicy) (clock : TopupClock) : Prop :=
  clock.now < clock.startedAt + policy.limitIntervalSeconds * 1000

section Schedule
variable {policy : AutoTopupPolicy} {clock : TopupClock} {account : TopupAccount} {agree : Prop} {counted : Nat → Bool}
  {state : AutoTopupState}

private theorem schedule_inv (policy : AutoTopupPolicy) (clock : TopupClock) (account : TopupAccount) (availableUnits : Nat)
    (triggerKey : Text) (price : Option Nat) (currency : Option Text) (supported : Bool) :
    let next := scheduleAutoTopupIfNeeded policy clock availableUnits triggerKey price currency supported account
    next = account ∨ account.state.status ≠ .suspended ∧
      (next = { account with state := scheduledInterval policy clock account.state } ∨
        (∀ job ∈ account.jobs, job.live = false) ∧ ∃ cooldownUntil jobs,
          next = ⟨{ scheduledInterval policy clock account.state with status := .cooldown, cooldownUntil := cooldownUntil }, jobs⟩ ∧
            (jobs = account.jobs ∨ ∃ job : AutoTopupJob, jobs = account.jobs ++ [job] ∧ job.id = account.jobs.length ∧
              job.status ≠ .succeeded ∧ job.budgetIntervalStartedAt = none)) := by
  intro next
  unfold next scheduleAutoTopupIfNeeded
  simp only
  split
  · exact .inl rfl
  · next proceeds =>
    rw [not_or] at proceeds
    refine .inr ⟨proceeds.2, ?_⟩
    split
    · exact .inl rfl
    · next admits =>
      simp only [not_or] at admits
      right
      refine ⟨?_, _, _, rfl, ?_⟩
      · intro job member
        have none := admits.2.2.2.2
        rw [List.any_eq_true] at none
        by_contra live
        exact none ⟨job, member, Bool.not_eq_false _ ▸ live⟩
      · split
        · exact .inl rfl
        · refine .inr ⟨_, rfl, rfl, ?_, rfl⟩
          simp only
          split <;> decide

private theorem scheduled_open (open_ : account.state.status ≠ .suspended) :
    (scheduledInterval policy clock account.state).status ≠ .suspended := by
  unfold scheduledInterval
  split
  · nofun
  · exact open_

theorem Sound.scheduled (sound : Sound policy account) (open_ : account.state.status ≠ .suspended) :
    Sound policy { account with state := scheduledInterval policy clock account.state } := by
  refine { sound with idle := ?_, within := ?_ }
  · exact fun suspended => absurd suspended (scheduled_open open_)
  · unfold scheduledInterval
    intro _
    simp only
    split
    · exact exceeds_zero
    · exact sound.within open_

theorem Sound.retitled (sound : Sound policy account) (open_ : account.state.status ≠ .suspended)
    (still : state.status ≠ .suspended) (purchases : state.purchasesInInterval = account.state.purchasesInInterval)
    (spend : state.spendMinorInInterval = account.state.spendMinorInInterval) : Sound policy { account with state := state } := by
  refine { sound with idle := fun suspended => absurd suspended still, within := ?_ }
  intro _
  simp only [purchases, spend]
  exact sound.within open_

theorem Tally.scheduled (tally : Tally agree counted account) (timely : agree → Timely policy clock) :
    ∃ counted, Tally agree counted { account with state := scheduledInterval policy clock account.state } := by
  unfold scheduledInterval
  split
  · next ended =>
    refine ⟨_, tally.rolled rfl rfl ?_⟩
    intro holds
    have within := timely holds
    unfold Timely at within
    unfold AutoTopupState.expired at ended
    have := of_decide_eq_true ended
    simp only
    omega
  · exact ⟨counted, tally⟩

theorem Sound.enqueued (sound : Sound policy { account with state := state })
    (none : ∀ job ∈ account.jobs, job.live = false) {job : AutoTopupJob} (id : job.id = account.jobs.length)
    (open_ : state.status ≠ .suspended) : Sound policy { state := state, jobs := account.jobs ++ [job] } := by
  have later : ∀ row ∈ account.jobs ++ [job], row.live = true → row = job := by
    intro row member live
    rcases List.mem_append.mp member with old | new
    · rw [none row old] at live
      cases live
    · exact List.mem_singleton.mp new
  refine ⟨?_, ?_, ?_, fun suspended => absurd suspended open_, sound.within⟩
  · simp only [List.map_append, List.map_cons, List.map_nil]
    refine List.nodup_append.mpr ⟨sound.ids, by simp, ?_⟩
    rintro first inside last single rfl
    obtain ⟨row, member, rfl⟩ := List.mem_map.mp inside
    have := sound.fresh row member
    rw [List.mem_singleton] at single
    simp only at this
    omega
  · intro row member
    rw [List.length_append]
    rcases List.mem_append.mp member with old | new
    · have := sound.fresh row old
      simp only at this
      omega
    · rw [List.mem_singleton.mp new, id]
      simp
  · intro row member other listed live also
    rw [later row member live, later other listed also]

theorem Tally.enqueued (tally : Tally agree counted { account with state := state }) {job : AutoTopupJob}
    (unsettled : job.status ≠ .succeeded) (free : job.budgetIntervalStartedAt = none) :
    Tally agree counted { state := state, jobs := account.jobs ++ [job] } := by
  have idle : job.holds state.intervalStartedAt = false := by
    unfold AutoTopupJob.holds
    rw [free, Bool.and_eq_false_iff]
    exact .inr rfl
  have purchase : purchaseShare counted state.intervalStartedAt job = 0 := by
    unfold purchaseShare
    rw [if_neg unsettled, idle]
    rfl
  have spend : spendShare counted state.intervalStartedAt job = 0 := by
    unfold spendShare
    rw [if_neg unsettled, idle]
    rfl
  have purchaseSum : ((account.jobs ++ [job]).map (purchaseShare counted state.intervalStartedAt)).sum =
      (account.jobs.map (purchaseShare counted state.intervalStartedAt)).sum := by
    rw [List.map_append, List.sum_append, List.map_cons, List.map_nil, List.sum_cons, List.sum_nil, purchase, add_zero, add_zero]
  have spendSum : ((account.jobs ++ [job]).map (spendShare counted state.intervalStartedAt)).sum =
      (account.jobs.map (spendShare counted state.intervalStartedAt)).sum := by
    rw [List.map_append, List.sum_append, List.map_cons, List.map_nil, List.sum_cons, List.sum_nil, spend, add_zero, add_zero]
  refine ⟨?_, ?_, ?_, ?_, ?_⟩
  · simp only [purchaseSum]
    exact tally.purchases
  · simp only [spendSum]
    exact tally.spend
  · simp only [purchaseSum]
    exact tally.exactPurchases
  · simp only [spendSum]
    exact tally.exactSpend
  · intro holds row member live start begun
    rcases List.mem_append.mp member with old | new
    · exact tally.begun holds row old live start begun
    · rw [List.mem_singleton.mp new, free] at begun
      cases begun

/-- A change of the state that is neither of its interval nor of its counters. -/
theorem Tally.retitled (tally : Tally agree counted account) (interval : state.intervalStartedAt = account.state.intervalStartedAt)
    (purchases : state.purchasesInInterval = account.state.purchasesInInterval)
    (spend : state.spendMinorInInterval = account.state.spendMinorInInterval) :
    Tally agree counted { account with state := state } := by
  refine ⟨?_, ?_, ?_, ?_, ?_⟩
  · simp only [interval, purchases]
    exact tally.purchases
  · simp only [interval, spend]
    exact tally.spend
  · simp only [interval, purchases]
    exact tally.exactPurchases
  · simp only [interval, spend]
    exact tally.exactSpend
  · simp only [interval]
    exact tally.begun

end Schedule

/-- The accounts of one policy that writes lead to, by whatever workers and on clocks of a kind. -/
inductive Reaches (policy : AutoTopupPolicy) (clocks : TopupClock → Prop) : TopupAccount → Prop where
  | opened (start : Int) : Reaches policy clocks ⟨⟨.ready, start, 0, 0, 0, none⟩, []⟩
  | step {clock : TopupClock} {write : TopupWrite} {account next : TopupAccount} (reached : Reaches policy clocks account)
      (kind : clocks clock) (done : write.apply policy clock account = .ok next) : Reaches policy clocks next

section Runs
variable {policy : AutoTopupPolicy} {clock : TopupClock} {account next : TopupAccount} {agree : Prop} {counted : Nat → Bool}

theorem map_ok {α : Type} {result : Except Failure (TopupAccount × α)} (done : Prod.fst <$> result = .ok next) :
    ∃ value, result = .ok (next, value) := by
  cases result with
  | error failure => cases done
  | ok pair =>
    cases done
    exact ⟨pair.2, rfl⟩

private theorem claim_write_step {active : Bool} {worker : Text} {staleAfterMs id : Nat} {claimed : Option ClaimedJob}
    (open_ : ∀ job ∈ account.jobs, job.live = true → account.state.status ≠ .suspended)
    (done : claimAutoTopupJob policy clock active worker staleAfterMs id account = .ok (next, claimed)) :
    next = account ∨ ∃ job base change, JobStep policy clock account next job base change := by
  unfold claimAutoTopupJob at done
  split at done
  · cases done
  · split at done
    · cases done
      exact .inl rfl
    · next job found =>
      split at done
      · next claimable =>
        obtain ⟨member, -⟩ := findAt_inv found
        have live : job.live = true := by
          unfold AutoTopupJob.claimable at claimable
          simp only [Bool.or_eq_true, Bool.and_eq_true, beq_iff_eq] at claimable
          unfold AutoTopupJob.live
          rcases claimable with ⟨pending, -⟩ | ⟨processing, -⟩
          · rw [pending]
            rfl
          · rw [processing]
            rfl
        obtain ⟨base, change, step⟩ := claim_step member live (open_ job member live) done
        exact .inr ⟨job, base, change, step⟩
      · cases done
        exact .inl rfl

private theorem job_kept (sound : Sound policy account) (tally : Tally agree counted account)
    (moved : next = account ∨ ∃ job base change, JobStep policy clock account next job base change) :
    Sound policy next ∧ ∃ counted, Tally agree counted next := by
  rcases moved with rfl | ⟨job, base, change, step⟩
  · exact ⟨sound, counted, tally⟩
  · obtain ⟨before, normalized⟩ := tally.normalized step.normalized
    exact ⟨sound.stepped step, normalized.stepped sound.ids step⟩

private theorem schedule_kept (sound : Sound policy account) (tally : Tally agree counted account) (timely : agree → Timely policy clock)
    (availableUnits : Nat) (triggerKey : Text) (price : Option Nat) (currency : Option Text) (supported : Bool) :
    Sound policy (scheduleAutoTopupIfNeeded policy clock availableUnits triggerKey price currency supported account) ∧
      ∃ counted, Tally agree counted
        (scheduleAutoTopupIfNeeded policy clock availableUnits triggerKey price currency supported account) := by
  rcases schedule_inv policy clock account availableUnits triggerKey price currency supported with
    same | ⟨open_, same | ⟨none, cooldownUntil, jobs, same, added⟩⟩
  · rw [same]
    exact ⟨sound, counted, tally⟩
  · rw [same]
    exact ⟨sound.scheduled open_, tally.scheduled timely⟩
  · rw [same]
    have cooled : Sound policy { account with state :=
        { scheduledInterval policy clock account.state with status := .cooldown, cooldownUntil := cooldownUntil } } :=
      (sound.scheduled open_).retitled (scheduled_open open_) nofun rfl rfl
    obtain ⟨before, rolled⟩ := tally.scheduled timely
    have tallied : Tally agree before { account with state :=
        { scheduledInterval policy clock account.state with status := .cooldown, cooldownUntil := cooldownUntil } } :=
      rolled.retitled rfl rfl rfl
    rcases added with rfl | ⟨job, rfl, id, unsettled, free⟩
    · exact ⟨cooled, before, tallied⟩
    · exact ⟨cooled.enqueued none id nofun, before, tallied.enqueued unsettled free⟩

theorem kept_step (sound : Sound policy account) (tally : Tally agree counted account) (timely : agree → Timely policy clock)
    {write : TopupWrite} (done : write.apply policy clock account = .ok next) :
    Sound policy next ∧ ∃ counted, Tally agree counted next := by
  have open_ : ∀ job ∈ account.jobs, job.live = true → account.state.status ≠ .suspended := by
    intro job member live suspended
    rw [sound.idle suspended job member] at live
    cases live
  cases write with
  | schedule availableUnits triggerKey price currency supported =>
    cases done
    exact schedule_kept sound tally timely availableUnits triggerKey price currency supported
  | claim active worker staleAfterMs id =>
    obtain ⟨claimed, done⟩ := map_ok done
    exact job_kept sound tally (claim_write_step open_ done)
  | renew worker id =>
    cases done
    exact job_kept sound tally (renew_step open_ worker id)
  | checkpoint worker id invoiceId phase result =>
    exact job_kept sound tally (.inr (@checkpoint_step policy clock account next open_ worker id invoiceId phase result done))
  | retry worker id delayMs => exact job_kept sound tally (.inr (retry_step open_ done))
  | resume id =>
    cases done
    exact job_kept sound tally (resume_step open_ id)
  | succeed worker id charge =>
    obtain ⟨opened, done⟩ := map_ok done
    exact job_kept sound tally (succeed_step done)
  | fail worker id kind retryDelayMs externalInvoiceId externalPaymentId =>
    obtain ⟨result, done⟩ := map_ok done
    exact job_kept sound tally (.inr (fail_step done))

theorem reaches_kept {clocks : TopupClock → Prop} (timely : agree → ∀ clock, clocks clock → Timely policy clock)
    (reached : Reaches policy clocks account) : Sound policy account ∧ ∃ counted, Tally agree counted account := by
  induction reached with
  | opened start =>
    refine ⟨⟨by simp, by simp, by simp, by simp, fun _ => exceeds_zero⟩, fun _ => false, ?_⟩
    exact ⟨le_refl _, le_refl _, fun _ => rfl, fun _ => rfl, by simp⟩
  | step _ kind done ih =>
    obtain ⟨sound, counted, tally⟩ := ih
    exact kept_step sound tally (fun holds => timely holds _ kind) done

end Runs

/-- In every account that workers reach, an open policy has counted at most its maximum of purchases and of spend in the
current interval, and the counters are made of one share at most of each job: of those that settled in the interval, and
of the open one that holds its reservation there. They are exactly these shares when transactions take less than the
interval. -/
theorem topup_budget_kept {policy : AutoTopupPolicy} {clocks : TopupClock → Prop} {account : TopupAccount}
    (reached : Reaches policy clocks account) :
    (account.state.status ≠ .suspended → account.state.purchasesInInterval ≤ policy.maxPurchasesPerInterval ∧
      ∀ most, policy.maxSpendMinor = some most → account.state.spendMinorInInterval ≤ most) ∧
    ∃ counted, Tally (∀ clock, clocks clock → Timely policy clock) counted account := by
  obtain ⟨sound, tally⟩ := reaches_kept id reached
  refine ⟨?_, tally⟩
  intro open_
  obtain ⟨purchases, spend⟩ := exceeds_iff.mp (sound.within open_)
  exact ⟨by exact_mod_cast purchases, fun most same => by exact_mod_cast spend most same⟩

section Daily

def dailyPolicy : AutoTopupPolicy := ⟨10, 30, 86400, 3, some 1500, 3, by decide⟩

def atNoon : TopupClock := ⟨43200000, 43200000⟩

def usd : Text := "USD".toList

def lowWallet : Text := "wallet:low".toList

def worker : Text := "worker-1".toList

def scheduled : AutoTopupJob :=
  ⟨0, lowWallet, .pending, .charge, some 500, some usd, 0, 43200000, none, none, none, none, none, none, 0, none⟩

def reserved : TopupAccount :=
  ⟨⟨.cooldown, 0, 1, 500, 0, some 43230000⟩, [scheduled.claim worker 43200000 (some 0)]⟩

end Daily

theorem topup_budget_kept_reserved : reserved.state.purchasesInInterval ≤ dailyPolicy.maxPurchasesPerInterval ∧
    ∃ counted, Tally (∀ clock, clock = atNoon → Timely dailyPolicy clock) counted reserved := by
  have enqueued : Reaches dailyPolicy (fun clock => clock = atNoon) ⟨⟨.cooldown, 0, 0, 0, 0, some 43230000⟩, [scheduled]⟩ :=
    .step (.opened 0) rfl (show (TopupWrite.schedule 0 lowWallet (some 500) (some usd) true).apply dailyPolicy atNoon
      ⟨⟨.ready, 0, 0, 0, 0, none⟩, []⟩ = .ok ⟨⟨.cooldown, 0, 0, 0, 0, some 43230000⟩, [scheduled]⟩ by decide)
  have claimed : Reaches dailyPolicy (fun clock => clock = atNoon) reserved :=
    .step enqueued rfl (show (TopupWrite.claim true worker 300000 0).apply dailyPolicy atNoon
      ⟨⟨.cooldown, 0, 0, 0, 0, some 43230000⟩, [scheduled]⟩ = .ok reserved by decide)
  obtain ⟨within, tally⟩ := topup_budget_kept claimed
  exact ⟨(within (by decide)).1, tally⟩

end Quotum.AutoTopups
