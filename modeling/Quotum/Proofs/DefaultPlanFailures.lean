import Quotum.DefaultPlanPasses
import Quotum.General.Outcomes

/-! The backoff of a failing pass. It doubles an interval before it takes the least of it and an hour, so a pass that fails often enough
has no interval left, and the error escapes the worker's loop. -/

namespace Quotum.DefaultPlanPasses
open General DefaultEntitlements

/-- How often in a row a pass can fail and still have its next failure recorded. -/
def longestBackoff : Nat := 38

structure FailedSlice where
  recordedAt : Int
  job : DefaultPlanJob
  error : Text
  passes : List DefaultPlanReconciliation

namespace FailedSlice

def record (slice : FailedSlice) : Except Failure (List DefaultPlanReconciliation) :=
  recordDefaultPlanFailure slice.recordedAt slice.job slice.error slice.passes

/-- Whether the failed pass, where it is still open, has not failed too often in a row before. -/
def Spared (slice : FailedSlice) : Prop :=
  ∀ pass, (slice.passes.find? fun pass => pass.named slice.job) = some pass → pass.attempts ≤ longestBackoff

/-- A recorded failure moves the pass's next attempt to between half a minute and an hour from then, and changes no other pass. -/
def BacksOff (slice : FailedSlice) (recorded : List DefaultPlanReconciliation) : Prop :=
  List.Forall₂ (fun (before after : DefaultPlanReconciliation) =>
    if before.named slice.job then
      after.attempts = before.attempts + 1 ∧ slice.recordedAt + backoffUnit ≤ after.nextAttemptAt ∧
        after.nextAttemptAt ≤ slice.recordedAt + backoffCap ∧ after.named slice.job = true ∧ after.afterCustomerId = before.afterCustomerId
    else after = before) slice.passes recorded

end FailedSlice

section Backoff
variable {attempts : Nat}

theorem backoff_ok (few : attempts ≤ longestBackoff) :
    ∃ delay, backoff attempts = .ok delay ∧ backoffUnit ≤ delay ∧ delay ≤ backoffCap := by
  have doubled : 2 ^ attempts ≤ 2 ^ longestBackoff := Nat.pow_le_pow_right (by omega) few
  have small : 2 ^ attempts * backoffUnit ≤ maxInterval := (Nat.mul_le_mul_right _ doubled).trans (by decide)
  have unit : backoffUnit ≤ 2 ^ attempts * backoffUnit := Nat.le_mul_of_pos_left _ (Nat.two_pow_pos attempts)
  exact ⟨_, if_pos small, le_min unit (by decide), min_le_right _ _⟩

theorem backoff_raises (many : longestBackoff < attempts) : backoff attempts = .error (.internal "interval out of range") := by
  have doubled : 2 ^ (longestBackoff + 1) ≤ 2 ^ attempts := Nat.pow_le_pow_right (by omega) many
  have large : maxInterval < 2 ^ attempts * backoffUnit := lt_of_lt_of_le (by decide) (Nat.mul_le_mul_right backoffUnit doubled)
  exact if_neg (Nat.not_le.mpr large)

end Backoff

theorem changePass_changed (job : DefaultPlanJob) (change : DefaultPlanReconciliation → DefaultPlanReconciliation)
    {relation : DefaultPlanReconciliation → DefaultPlanReconciliation → Prop} (passes : List DefaultPlanReconciliation)
    (changed : ∀ pass, if pass.named job then relation pass (change pass) else True) :
    List.Forall₂ (fun before after => if before.named job then relation before after else after = before) passes
      (changePass job change passes) := by
  rw [changePass, List.forall₂_map_right_iff, List.forall₂_same]
  intro pass _
  have here := changed pass
  by_cases named : pass.named job = true
  · rw [if_pos named] at here ⊢
    rw [if_pos named]
    exact here
  · rw [if_neg named, if_neg named]

namespace FailedSlice
variable {slice : FailedSlice}

theorem record_spared (spared : slice.Spared) : ∃ recorded, slice.record = .ok recorded ∧ slice.BacksOff recorded := by
  rw [record, recordDefaultPlanFailure]
  cases found : slice.passes.find? fun pass => pass.named slice.job with
  | none =>
    refine ⟨_, rfl, ?_⟩
    rw [BacksOff, List.forall₂_same]
    intro pass member
    rw [if_neg (List.find?_eq_none.mp found pass member)]
  | some held =>
    obtain ⟨delay, waits, least, most⟩ := backoff_ok (spared held found)
    simp only [waits, ok_bind]
    refine ⟨_, rfl, changePass_changed slice.job _ slice.passes ?_⟩
    intro pass
    split
    · next named =>
      have nearest : (backoffUnit : Int) ≤ delay := Int.ofNat_le.mpr least
      have farthest : (delay : Int) ≤ backoffCap := Int.ofNat_le.mpr most
      exact ⟨rfl, Int.add_le_add_left nearest _, Int.add_le_add_left farthest _, named, rfl⟩
    · trivial

/-- A failure is recorded, with its pass backed off, exactly if the pass has not failed too often. -/
theorem record_iff : (∃ recorded, slice.record = .ok recorded ∧ slice.BacksOff recorded) ↔ slice.Spared := by
  refine ⟨?_, record_spared⟩
  rintro ⟨recorded, done, -⟩ held found
  by_contra many
  rw [record, recordDefaultPlanFailure, found] at done
  simp only [backoff_raises (Nat.not_le.mp many)] at done
  cases done

end FailedSlice

section Worker
variable (versions : Nat → PlanVersion) (limit scanSize : Nat)

def failedSlices (passes : List DefaultPlanReconciliation) : List BatchInput → List FailedSlice
  | [] => []
  | batch :: rest =>
    match duePass batch.now passes with
    | none => []
    | some due =>
      let later := failedSlices (reconcileDefaultPlanBatch versions limit scanSize batch passes).1 rest
      match batch.run with
      | .commits _ _ => later
      | .fails recordedAt error =>
        let slice : FailedSlice := ⟨recordedAt, ⟨due.id, due.projectId⟩, error, batch.beforeRecord (batch.beforeSlice passes)⟩
        slice :: if slice.record.isOk then later else []

variable {versions limit scanSize}

/-- The loop returns, with each failed slice's pass backed off, exactly if none of them has failed too often. -/
theorem reconcileBatches_iff (turns : List BatchInput) (result : PlanGrantReconciliationResult) (passes : List DefaultPlanReconciliation) :
    ((∃ final, (reconcileBatches versions limit scanSize result passes turns).2 = .ok final) ∧
      ∀ slice ∈ failedSlices versions limit scanSize passes turns, ∃ recorded, slice.record = .ok recorded ∧ slice.BacksOff recorded) ↔
    ∀ slice ∈ failedSlices versions limit scanSize passes turns, slice.Spared := by
  simp only [FailedSlice.record_iff]
  refine ⟨And.right, fun spared => ⟨?_, spared⟩⟩
  induction turns generalizing result passes with
  | nil => exact ⟨result, rfl⟩
  | cons batch rest ih =>
    rw [failedSlices] at spared
    rw [reconcileBatches]
    cases due : duePass batch.now passes with
    | none =>
      have idle : reconcileDefaultPlanBatch versions limit scanSize batch passes = (passes, .ok none) := by
        rw [reconcileDefaultPlanBatch, due]
      rw [idle]
      exact ⟨result, rfl⟩
    | some pass =>
      rw [due] at spared
      cases run : batch.run with
      | commits takenElsewhere view =>
        rw [run] at spared
        have committed : ∃ found slice, reconcileDefaultPlanBatch versions limit scanSize batch passes = (found, .ok (some slice)) := by
          rw [reconcileDefaultPlanBatch, due]
          simp only [run]
          exact ⟨_, _, rfl⟩
        obtain ⟨found, slice, done⟩ := committed
        rw [done] at spared ⊢
        exact ih _ found spared
      | fails recordedAt error =>
        rw [run] at spared
        obtain ⟨recorded, done, -⟩ := FailedSlice.record_spared (spared _ List.mem_cons_self)
        have backed : reconcileDefaultPlanBatch versions limit scanSize batch passes = (recorded, .ok (some ⟨0, 0, true⟩)) := by
          rw [FailedSlice.record] at done
          rw [reconcileDefaultPlanBatch, due]
          simp only [run, done]
        rw [backed] at spared ⊢
        apply ih _ recorded
        intro slice member
        apply spared slice
        simp only [done]
        exact List.mem_cons_of_mem _ member

end Worker

/-- A worker pass, with what happens to the passes before it. -/
structure WorkerCall where
  meanwhile : Meanwhile
  limit : Nat
  scanSize : Nat
  maxBatches : Nat
  expired : Nat
  turns : Nat → BatchInput

section Runs
variable (versions : Nat → PlanVersion)

namespace WorkerCall

def perform (call : WorkerCall) (passes : List DefaultPlanReconciliation) :
    List DefaultPlanReconciliation × Except Failure PlanGrantReconciliationResult :=
  reconcilePlanGrants versions call.limit call.scanSize call.maxBatches call.expired call.turns (call.meanwhile passes)

def failed (call : WorkerCall) (passes : List DefaultPlanReconciliation) : List FailedSlice :=
  failedSlices versions (min call.limit 100) call.scanSize (call.meanwhile passes) ((List.range call.maxBatches).map call.turns)

def Accepted (call : WorkerCall) : Prop :=
  0 < call.limit ∧ (0 < call.scanSize ∧ call.scanSize < 2 ^ 53) ∧ 0 < call.maxBatches ∧ call.maxBatches < 2 ^ 53

end WorkerCall

def results (passes : List DefaultPlanReconciliation) : List WorkerCall → List (Except Failure PlanGrantReconciliationResult)
  | [] => []
  | call :: rest => (call.perform versions passes).2 :: results (call.perform versions passes).1 rest

def allFailed (passes : List DefaultPlanReconciliation) : List WorkerCall → List FailedSlice
  | [] => []
  | call :: rest => call.failed versions passes ++ allFailed (call.perform versions passes).1 rest

theorem perform_batches {call : WorkerCall} (accepted : call.Accepted) (passes : List DefaultPlanReconciliation) :
    call.perform versions passes =
      reconcileBatches versions (min call.limit 100) call.scanSize ⟨call.expired, 0, 0, 0⟩ (call.meanwhile passes)
        ((List.range call.maxBatches).map call.turns) := by
  obtain ⟨some_, ⟨scans, scanned⟩, batches, batched⟩ := accepted
  have options : ¬((call.scanSize : Int) < 1 ∨ (maxSafeInteger : Int) < call.scanSize ∨ (call.maxBatches : Int) < 1 ∨
      (maxSafeInteger : Int) < call.maxBatches) := by
    simp only [maxSafeInteger]
    omega
  have capped : (min (call.limit : Int) maxLimit).toNat = min call.limit 100 := by
    simp only [maxLimit]
    omega
  rw [WorkerCall.perform, reconcilePlanGrants, if_neg (by omega), if_neg options, capped]
  rfl

/-- Failures of a pass in a row are all recorded exactly if it fails no more than thirty-nine times. -/
theorem record_times {job : DefaultPlanJob} (failures : List (Int × Text)) {passes : List DefaultPlanReconciliation}
    {held : DefaultPlanReconciliation} (found : (passes.find? fun pass => pass.named job) = some held) :
    (∃ after, failures.foldlM (fun passes failure => recordDefaultPlanFailure failure.1 job failure.2 passes) passes = .ok after) ↔
      held.attempts + failures.length ≤ longestBackoff + 1 ∨ failures = [] := by
  induction failures generalizing passes held with
  | nil => exact ⟨fun _ => .inr rfl, fun _ => ⟨passes, rfl⟩⟩
  | cons failure rest ih =>
    rw [List.foldlM_cons, recordDefaultPlanFailure, found, List.length_cons]
    by_cases few : held.attempts ≤ longestBackoff
    · obtain ⟨delay, waits, -⟩ := backoff_ok few
      simp only [waits, ok_bind, pure, Except.pure, reduceCtorEq, or_false]
      have next : ((changePass job (fun pass => { pass with
          attempts := pass.attempts + 1, lastError := some failure.2, nextAttemptAt := failure.1 + delay }) passes).find?
            fun pass => pass.named job) = some { held with
              attempts := held.attempts + 1, lastError := some failure.2, nextAttemptAt := failure.1 + delay } := by
        have kept (pass : DefaultPlanReconciliation) : (if pass.named job = true then { pass with
            attempts := pass.attempts + 1, lastError := some failure.2, nextAttemptAt := failure.1 + delay } else pass).named job =
              pass.named job := by
          split
          · rfl
          · rfl
        rw [changePass, List.find?_map]
        simp only [Function.comp_def, kept, found, Option.map_some]
        rw [if_pos (List.find?_some found)]
      rw [ih next]
      have count : held.attempts + 1 + rest.length = held.attempts + (rest.length + 1) := by omega
      simp only [count]
      refine ⟨?_, Or.inl⟩
      rintro (within | rfl)
      · exact within
      · exact Nat.succ_le_succ few
    · simp only [backoff_raises (Nat.not_le.mp few), reduceCtorEq, or_false]
      refine ⟨fun raised => ?_, fun within => absurd within (by omega)⟩
      obtain ⟨_, done⟩ := raised
      cases done

/-- In every run of worker passes, whatever else happens to the passes, a failing pass is backed off by half a minute to an hour and
no worker pass stops at it, exactly if no pass fails that has failed thirty-nine times in a row. -/
theorem failing_pass_never_blocks :
    (∀ calls passes, (∀ call ∈ calls, call.Accepted) →
      (((∀ result ∈ results versions passes calls, ∃ final, result = .ok final) ∧
        ∀ slice ∈ allFailed versions passes calls, ∃ recorded, slice.record = .ok recorded ∧ slice.BacksOff recorded) ↔
      ∀ slice ∈ allFailed versions passes calls, slice.Spared)) ∧
    ∀ (job : DefaultPlanJob) (failures : List (Int × Text)) (passes : List DefaultPlanReconciliation) held,
      (passes.find? fun pass => pass.named job) = some held → held.attempts = 0 →
        ((∃ after, failures.foldlM (fun passes failure => recordDefaultPlanFailure failure.1 job failure.2 passes) passes = .ok after) ↔
          failures.length ≤ longestBackoff + 1) := by
  refine ⟨?_, ?_⟩
  · intro calls passes accepted
    induction calls generalizing passes with
    | nil => simp [results, allFailed]
    | cons call rest ih =>
      have options := accepted call List.mem_cons_self
      have here := @reconcileBatches_iff versions (min call.limit 100) call.scanSize
        ((List.range call.maxBatches).map call.turns) ⟨call.expired, 0, 0, 0⟩ (call.meanwhile passes)
      rw [← perform_batches versions options passes] at here
      have later := ih (call.perform versions passes).1 fun other member => accepted other (List.mem_cons_of_mem _ member)
      simp only [results, allFailed, List.forall_mem_cons, List.forall_mem_append, WorkerCall.failed]
      rw [← here, ← later]
      tauto
  · intro job failures passes held found fresh
    rw [record_times failures found, fresh, Nat.zero_add]
    refine ⟨?_, Or.inl⟩
    rintro (within | rfl)
    · exact within
    · exact Nat.zero_le _

end Runs

section Blocked

def anyVersion : Nat → PlanVersion :=
  fun _ => ⟨[], .base, none⟩

def hour : Int := 3600000000

def failingCall (meanwhile : Meanwhile) (turn : Nat) : WorkerCall :=
  ⟨meanwhile, 25, 1000, 10, 0, fun _ => ⟨turn * hour, id, .fails (turn * hour) ['x'], id⟩⟩

/-- A pass that fails every hour, until another project publishes a default plan. -/
def failingCalls : List WorkerCall :=
  failingCall (scheduleDefaultPlanPass 0 1 1) 0 :: ((List.range 38).map fun turn => failingCall id (turn + 1)) ++
    [failingCall (scheduleDefaultPlanPass (39 * hour) 2 2) 39]

theorem failingCall_accepted (meanwhile : Meanwhile) (turn : Nat) : (failingCall meanwhile turn).Accepted := by
  refine ⟨?_, ⟨?_, ?_⟩, ?_, ?_⟩ <;> norm_num [failingCall]

/-- The fortieth failure in a row stops the worker before it reaches the other project's pass. -/
theorem failing_pass_blocks : (∀ call ∈ failingCalls, call.Accepted) ∧
    ∃ result ∈ results anyVersion [] failingCalls, ∀ final, result ≠ .ok final := by
  constructor
  · intro call member
    rcases List.mem_append.mp member with first | last
    · rcases List.mem_cons.mp first with rfl | hourly
      · exact failingCall_accepted _ _
      · obtain ⟨turn, -, rfl⟩ := List.mem_map.mp hourly
        exact failingCall_accepted _ _
    · rw [List.mem_singleton.mp last]
      exact failingCall_accepted _ _
  · have stopped : (results anyVersion [] failingCalls).any (fun result => !result.isOk) = true := by decide
    obtain ⟨result, member, raised⟩ := List.any_eq_true.mp stopped
    refine ⟨result, member, ?_⟩
    rintro final rfl
    cases raised

end Blocked

end Quotum.DefaultPlanPasses
