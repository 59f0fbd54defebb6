import Quotum.Proofs.ErasureRows

/-! The run of an erasure: its counts, its lease, and the drained steps behind its cursor. -/

namespace Quotum.ErasureRuns
open General ErasureBatches

section Batches
variable {context : CustomerErasureContext} {batch : CustomerErasureBatch} {step : CustomerErasureStep} {rows : List Row} {index : Nat}

/-- A row after a batch: as it was, or what the batch made of one that it took. -/
private theorem run_inv {now : Int} {chosen : List Nat} {next : Row} (member : next ∈ batch.run context now chosen rows) :
    (next ∈ rows ∧ (batch.selects context next && chosen.contains next.key) = false) ∨
      ∃ row ∈ rows, batch.selects context row = true ∧ batch.change context now row = some next := by
  obtain ⟨row, inside, became⟩ := List.mem_filterMap.mp member
  split at became
  · next taken => exact .inr ⟨row, inside, asks_first taken, became⟩
  · next skipped =>
    obtain rfl := Option.some.inj became
    exact .inl ⟨inside, by simpa only [Bool.not_eq_true] using skipped⟩

/-- A batch takes the rows that it changes, and none of them again. -/
private theorem batch_shrinks (member : batch ∈ batchesOf step) (apart : context.subjectId ≠ context.erasedMarker) (now : Int) (chosen : List Nat)
    (rows : List Row) : selectedRows batch context (batch.run context now chosen rows) + changedRows batch context chosen rows =
      selectedRows batch context rows := by
  induction rows with
  | nil => rfl
  | cons row rest ih =>
    simp only [selectedRows, changedRows, CustomerErasureBatch.run] at ih ⊢
    rw [List.filterMap_cons, List.countP_cons, List.countP_cons]
    cases taken : (batch.selects context row && chosen.contains row.key) with
    | false =>
      simp only [Bool.false_eq_true, if_false, List.countP_cons]
      omega
    | true =>
      have selected := asks_first taken
      simp only [if_true, selected]
      cases changed : batch.change context now row with
      | none =>
        simp only
        omega
      | some next =>
        have settled := (finished member apart selected changed).1 step batch member
        simp only [List.countP_cons, settled, Bool.false_eq_true, if_false]
        omega

private theorem batch_drained (member : batch ∈ batchesOf step) (apart : context.subjectId ≠ context.erasedMarker) {now : Int} {chosen : List Nat}
    (all : selectedRows batch context rows ≤ changedRows batch context chosen rows) :
    ∀ row ∈ batch.run context now chosen rows, batch.selects context row = false := by
  have shrunk := batch_shrinks member apart now chosen rows
  have none : selectedRows batch context (batch.run context now chosen rows) = 0 := by omega
  intro row inside
  simpa only [Bool.not_eq_true] using List.countP_eq_zero.mp none row inside

def stepRank : CustomerErasureStep → Nat
  | .deleteRows => 0
  | .rewriteIds => 1
  | .scrubPayloads => 2
  | .scrubUsageEvents => 3
  | .scanUnlinkedStoreEvents => 4
  | .verify => 5

/-- The steps before one, and its batches before an index, have nothing left to take. -/
def Drained (context : CustomerErasureContext) (step : CustomerErasureStep) (index : Nat) (rows : List Row) : Prop :=
  ∀ batch, ((∃ earlier, stepRank earlier < stepRank step ∧ batch ∈ batchesOf earlier) ∨
    batch ∈ (batchesOf step).take index) → ∀ row ∈ rows, batch.selects context row = false

private theorem drained_known (member : (∃ earlier, stepRank earlier < stepRank step ∧
    batch ∈ batchesOf earlier) ∨ batch ∈ (batchesOf step).take index) : ∃ step, batch ∈ batchesOf step := by
  rcases member with ⟨earlier, -, known⟩ | taken
  · exact ⟨earlier, known⟩
  · exact ⟨step, List.mem_of_mem_take taken⟩

/-- Rows that are settled change nothing. -/
theorem Drained.mono {after : List Row} (drained : Drained context step index rows)
    (kept : ∀ row ∈ after, row ∈ rows ∨ Settled context row) : Drained context step index after := by
  intro batch known row member
  rcases kept row member with old | settled
  · exact drained batch known row old
  · obtain ⟨other, inside⟩ := drained_known known
    exact settled other batch inside

theorem Drained.earlier (drained : Drained context step index rows) : Drained context step 0 rows := by
  intro batch known
  rcases known with before | none
  · exact drained batch (.inl before)
  · cases none

theorem Drained.batchDone (drained : Drained context step index rows)
    (found : (batchesOf step)[index]? = some batch) (none : ∀ row ∈ rows, batch.selects context row = false) :
    Drained context step (index + 1) rows := by
  intro other known
  rcases known with before | taken
  · exact drained other (.inl before)
  · rw [List.take_add_one, found, Option.toList_some, List.mem_append] at taken
    rcases taken with earlier | last
    · exact drained other (.inr earlier)
    · obtain rfl := List.mem_singleton.mp last
      exact none

private theorem rank_next (earlier step : CustomerErasureStep)
    (before : stepRank earlier < stepRank (nextStep step)) :
    stepRank earlier < stepRank step ∨ earlier = step ∨ step = .verify := by
  cases step <;> cases earlier <;> simp_all [nextStep, stepRank]

theorem Drained.stepDone (drained : Drained context step (batchesOf step).length rows) :
    Drained context (nextStep step) 0 rows := by
  intro other known
  rcases known with ⟨earlier, before, inside⟩ | none
  · rcases rank_next earlier step before with ranked | rfl | rfl
    · exact drained other (.inl ⟨earlier, ranked, inside⟩)
    · exact drained other (.inr (by rw [List.take_length]; exact inside))
    · exact drained other (.inl ⟨earlier, before, inside⟩)
  · cases none

theorem Drained.settled (drained : Drained context .verify index rows) : ∀ row ∈ rows, Settled context row := by
  intro row member step batch inside
  have before : stepRank step < 5 ∨ step = .verify := by
    cases step <;> simp [stepRank]
  rcases before with earlier | rfl
  · exact drained batch (.inl ⟨step, earlier, inside⟩) row member
  · cases inside

theorem Drained.stageAt (drained : Drained context step index rows) :
    (∀ at_, stageAt step index = .working at_ → Drained context step at_ rows) ∧
      (stageAt step index = .saving → Drained context step (batchesOf step).length rows) ∧
      (stageAt step index = .verifying → step = .verify) := by
  simp only [ErasureRuns.stageAt]
  split
  · next verify => exact ⟨nofun, nofun, fun _ => verify⟩
  · split
    · refine ⟨?_, nofun, nofun⟩
      intro at_ same
      injection same with equal
      rwa [← equal]
    · next beyond =>
      refine ⟨nofun, ?_, nofun⟩
      intro _ other known
      apply drained other
      rwa [List.take_of_length_le (Nat.not_lt.mp beyond), ← List.take_length (l := batchesOf step)]

end Batches

/-- What the counts and the lease keep in any run: the holder's counts are the receipt's, which are those of the committed batches. -/
structure Tracks (world : World) : Prop where
  counts : world.erasure.counts.changed = world.committed
  held : ∀ worker work, world.works worker = some work → world.erasure.lockedBy = some worker → work.counts = world.erasure.counts
  closed : world.erasure.state = .completed → world.erasure.lockedBy = none

section Worlds
variable {world : World} {worker : Nat} {rows after : List Row} {context : CustomerErasureContext} {work : Work}
  {step : CustomerErasureStep} {erasure : CustomerErasure} {action : ErasureAction}

private theorem setWork_inv {work : Option Work} {other : Nat} {found : Work} (there : (world.setWork worker work).works other = some found) :
    (other = worker ∧ work = some found) ∨ (other ≠ worker ∧ world.works other = some found) := by
  simp only [World.setWork, Function.update_apply] at there
  split at there
  · next same => exact .inl ⟨same, there⟩
  · next apart => exact .inr ⟨apart, there⟩

theorem Tracks.setWork (tracks : Tracks world) {work : Option Work}
    (same : ∀ next, work = some next → world.erasure.lockedBy = some worker → next.counts = world.erasure.counts) :
    Tracks (world.setWork worker work) := by
  refine ⟨tracks.counts, ?_, tracks.closed⟩
  intro other found there locked
  rcases setWork_inv there with ⟨rfl, here⟩ | ⟨-, old⟩
  · exact same found here locked
  · exact tracks.held other found old locked

/-- A receipt without a lease. -/
theorem Tracks.unlocked (free : erasure.lockedBy = none)
    (counts : erasure.counts.changed = world.committed) : Tracks { world with erasure := erasure } := by
  refine ⟨counts, ?_, fun _ => free⟩
  intro other found _ locked
  rw [free] at locked
  cases locked

section
variable (tracks : Tracks world)
include tracks

theorem Tracks.staged (found : world.works worker = some work) (step : CustomerErasureStep)
    (stage : WorkStage) : Tracks (world.setWork worker (some { work with step := step, stage := stage })) := by
  apply tracks.setWork
  intro next same locked
  obtain rfl := Option.some.inj same
  exact tracks.held worker work found locked

theorem Tracks.dropped : Tracks (world.setWork worker none) := tracks.setWork nofun

theorem Tracks.claim (worker leaseSeconds : Nat) : Tracks (world.claim worker leaseSeconds) := by
  simp only [World.claim]
  split
  · next due =>
    obtain ⟨idle, isOpen, -, -⟩ := due
    have running : world.erasure.state ≠ .completed := by
      rcases isOpen with state | state | state <;> simp [state]
    split
    · refine ⟨tracks.counts, ?_, fun completed => absurd completed running⟩
      intro other found there locked
      obtain rfl := Option.some.inj locked
      rcases setWork_inv there with ⟨-, here⟩ | ⟨apart, -⟩
      · obtain rfl := Option.some.inj here
        rfl
      · exact absurd rfl apart
    · refine ⟨tracks.counts, ?_, fun completed => absurd completed running⟩
      intro other found there locked
      obtain rfl := Option.some.inj locked
      rw [Option.isNone_iff_eq_none] at idle
      exact absurd (idle.symm.trans there) nofun
  · exact tracks

theorem Tracks.runBatch (worker limit : Nat) (chosen : List Nat) (overdue : Bool) :
    Tracks (world.runBatch worker limit chosen overdue) := by
  simp only [World.runBatch]
  split
  · exact tracks
  · next work found =>
    split
    · split
      · exact tracks
      · next batch _ =>
        split
        · exact tracks
        · split
          · next locked =>
            have same := tracks.held worker work found locked
            refine ⟨?_, ?_, tracks.closed⟩
            · simp only [World.setWork, Counts.add, same, tracks.counts]
            · intro other next there again
              obtain rfl := Option.some.inj (locked.symm.trans again)
              rcases setWork_inv there with ⟨-, here⟩ | ⟨apart, -⟩
              · obtain rfl := Option.some.inj here
                rfl
              · exact absurd rfl apart
          · exact tracks.staged found _ _
    · exact tracks

theorem Tracks.saveCursor (worker : Nat) (overdue : Bool) : Tracks (world.saveCursor worker overdue) := by
  simp only [World.saveCursor]
  split
  · exact tracks
  · next work found =>
    split
    · by_cases locked : world.erasure.lockedBy = some worker
      · have same := tracks.held worker work found locked
        simp only [locked, if_true]
        have saved : Tracks { world with erasure := { world.erasure with
            state := if nextStep work.step = .verify then .verifying else .running
            cursor := some (nextStep work.step)
            counts := work.counts
            lockedBy := some worker } } := by
          refine ⟨by rw [same]; exact tracks.counts, ?_, ?_⟩
          · intro other next there again
            obtain rfl := Option.some.inj again
            exact (tracks.held worker next there locked).trans same.symm
          · intro completed
            split at completed <;> cases completed
        exact saved.staged found _ _
      · simp only [locked, if_false]
        exact tracks.staged found _ _
    · exact tracks

theorem Tracks.release (worker : Nat) : Tracks (world.release worker) := by
  simp only [World.release]
  split
  · exact tracks
  · next work found =>
    split
    · next errorCode _ =>
      split
      · next locked =>
        refine Tracks.dropped (Tracks.unlocked rfl ?_)
        split
        · rw [tracks.held worker work found locked]
          exact tracks.counts
        · exact tracks.counts
      · exact tracks.dropped
    · exact tracks

theorem Tracks.verify (worker : Nat) : Tracks (world.verify worker) := by
  simp only [World.verify]
  split
  · exact tracks
  · next work found =>
    split
    · split
      · split
        · next locked =>
          refine Tracks.dropped (Tracks.unlocked rfl ?_)
          rw [tracks.held worker work found locked]
          exact tracks.counts
        · exact tracks.dropped
      · split
        · next locked =>
          refine Tracks.dropped (Tracks.unlocked rfl ?_)
          rw [tracks.held worker work found locked]
          exact tracks.counts
        · exact tracks.staged found _ _
    · exact tracks

theorem Tracks.fail (worker : Nat) (errorCode : Text) : Tracks (world.fail worker errorCode) := by
  simp only [World.fail]
  split
  · exact tracks
  · next work found =>
    split
    · exact tracks.dropped
    · exact tracks.staged found _ _

theorem Tracks.perform (action : ErasureAction) : Tracks (action.perform world) := by
  cases action with
  | wait elapsed => exact ⟨tracks.counts, tracks.held, tracks.closed⟩
  | claim worker leaseSeconds => exact tracks.claim worker leaseSeconds
  | runBatch worker limit chosen overdue => exact tracks.runBatch worker limit chosen overdue
  | saveCursor worker overdue => exact tracks.saveCursor worker overdue
  | release worker => exact tracks.release worker
  | verify worker => exact tracks.verify worker
  | fail worker errorCode => exact tracks.fail worker errorCode
  | crash worker => exact tracks.dropped
  | replay =>
    simp only [ErasureAction.perform, World.replay]
    split
    · exact Tracks.unlocked rfl tracks.counts
    · exact tracks
  | sweep =>
    simp only [ErasureAction.perform, World.sweep]
    split
    · next completed => exact Tracks.unlocked (tracks.closed completed.1) tracks.counts
    · exact tracks
  | write rows => exact ⟨tracks.counts, tracks.held, tracks.closed⟩

end

theorem Tracks.run (actions : List ErasureAction) : ∀ {world : World}, Tracks world → Tracks (runErasure world actions) := by
  induction actions with
  | nil => exact fun tracks => tracks
  | cons action rest ih => exact fun tracks => ih (tracks.perform action)

/-- What a worker without the lease leaves as it is. -/
def Untouched (before after : World) : Prop :=
  after.erasure = before.erasure ∧ after.rows = before.rows ∧ after.committed = before.committed

section
variable (unheld : world.erasure.lockedBy ≠ some worker)
include unheld

private theorem runBatch_unheld (limit : Nat) (chosen : List Nat) (overdue : Bool) :
    Untouched world (world.runBatch worker limit chosen overdue) := by
  simp only [World.runBatch, unheld, if_false]
  split
  · exact ⟨rfl, rfl, rfl⟩
  · split
    · split
      · exact ⟨rfl, rfl, rfl⟩
      · split <;> exact ⟨rfl, rfl, rfl⟩
    · exact ⟨rfl, rfl, rfl⟩

private theorem saveCursor_unheld (overdue : Bool) :
    Untouched world (world.saveCursor worker overdue) := by
  simp only [World.saveCursor, unheld, if_false]
  split
  · exact ⟨rfl, rfl, rfl⟩
  · split <;> exact ⟨rfl, rfl, rfl⟩

private theorem release_unheld : Untouched world (world.release worker) := by
  simp only [World.release, unheld, if_false]
  split
  · exact ⟨rfl, rfl, rfl⟩
  · split <;> exact ⟨rfl, rfl, rfl⟩

private theorem verify_unheld : Untouched world (world.verify worker) := by
  simp only [World.verify, unheld, if_false]
  split
  · exact ⟨rfl, rfl, rfl⟩
  · split
    · split <;> exact ⟨rfl, rfl, rfl⟩
    · exact ⟨rfl, rfl, rfl⟩

end

private theorem fail_untouched (world : World) (worker : Nat) (errorCode : Text) : Untouched world (world.fail worker errorCode) := by
  simp only [World.fail]
  split
  · exact ⟨rfl, rfl, rfl⟩
  · split <;> exact ⟨rfl, rfl, rfl⟩

private theorem claim_rows (world : World) (worker leaseSeconds : Nat) : (world.claim worker leaseSeconds).rows = world.rows ∧
    (world.claim worker leaseSeconds).committed = world.committed ∧
    (world.claim worker leaseSeconds).erasure.state = world.erasure.state := by
  simp only [World.claim]
  split
  · split <;> exact ⟨rfl, rfl, rfl⟩
  · exact ⟨rfl, rfl, rfl⟩

theorem Untouched.unchanged {after : World} (untouched : Untouched world after) :
    ¬ (after.rows ≠ world.rows ∨ after.committed ≠ world.committed ∨ after.erasure.state ≠ world.erasure.state) := by
  obtain ⟨erasure, rows, committed⟩ := untouched
  simp only [erasure, rows, committed, ne_eq, not_true_eq_false, or_self, not_false_eq_true]

private theorem leased_by (works : action.worker = some worker)
    (unheld : world.erasure.lockedBy ≠ some worker → Untouched world (action.perform world))
    (changed : (action.perform world).rows ≠ world.rows ∨ (action.perform world).committed ≠ world.committed ∨
      (action.perform world).erasure.state ≠ world.erasure.state) :
    ∃ worker, action.worker = some worker ∧ world.erasure.lockedBy = some worker := by
  by_cases held : world.erasure.lockedBy = some worker
  · exact ⟨worker, works, held⟩
  · exact absurd changed (unheld held).unchanged

theorem Tracks.accounted (tracks : Tracks world) : world.Accounted where
  counts := tracks.counts
  leased action unwritten unplayed changed := by
    cases action with
    | wait elapsed => exact absurd changed (Untouched.unchanged ⟨rfl, rfl, rfl⟩)
    | claim worker leaseSeconds =>
      obtain ⟨rows, committed, state⟩ := claim_rows world worker leaseSeconds
      rcases changed with other | other | other
      · exact absurd rows other
      · exact absurd committed other
      · exact absurd state other
    | runBatch worker limit chosen overdue => exact leased_by rfl (fun unheld => runBatch_unheld unheld limit chosen overdue) changed
    | saveCursor worker overdue => exact leased_by rfl (fun unheld => saveCursor_unheld unheld overdue) changed
    | release worker => exact leased_by rfl release_unheld changed
    | verify worker => exact leased_by rfl verify_unheld changed
    | fail worker errorCode => exact absurd changed (fail_untouched world worker errorCode).unchanged
    | crash worker => exact absurd changed (Untouched.unchanged ⟨rfl, rfl, rfl⟩)
    | replay => exact absurd rfl unplayed
    | sweep =>
      refine absurd changed ?_
      simp only [ErasureAction.perform, World.sweep]
      split <;> simp
    | write rows => exact absurd rfl (unwritten rows)
  frozen completed action := by
    have unheld (worker : Nat) : world.erasure.lockedBy ≠ some worker := by
      rw [tracks.closed completed]
      exact nofun
    cases action with
    | wait elapsed => exact .inl rfl
    | claim worker leaseSeconds =>
      left
      simp only [ErasureAction.perform, World.claim, completed]
      split
      · next due => exact absurd due.2.1 (by simp)
      · rfl
    | runBatch worker limit chosen overdue => exact .inl (runBatch_unheld (unheld worker) limit chosen overdue).1
    | saveCursor worker overdue => exact .inl (saveCursor_unheld (unheld worker) overdue).1
    | release worker => exact .inl (release_unheld (unheld worker)).1
    | verify worker => exact .inl (verify_unheld (unheld worker)).1
    | fail worker errorCode => exact .inl (fail_untouched world worker errorCode).1
    | crash worker => exact .inl rfl
    | replay =>
      left
      simp only [ErasureAction.perform, World.replay, completed]
      rfl
    | sweep =>
      simp only [ErasureAction.perform, World.sweep]
      split
      · exact .inr ⟨trivial, rfl⟩
      · exact .inl rfl
    | write rows => exact .inl rfl

structure Tellable (context : CustomerErasureContext) (rows : List Row) : Prop where
  apart : context.subjectId ≠ context.erasedMarker
  rest : ∀ row ∈ rows, Settled context row → Forgotten context row
  silent : ∀ row ∈ rows, markerShows context row = false

theorem Erasable.tellable (erasable : Erasable context rows) :
    Tellable context rows where
  apart := erasable.subject
  rest row member settled := settled.forgotten (erasable.recognized row member) (erasable.silent row member)
  silent := erasable.silent

theorem Tellable.run (tellable : Tellable context rows)
    {batch : CustomerErasureBatch} (member : batch ∈ batchesOf step) (now : Int) (chosen : List Nat) :
    Tellable context (batch.run context now chosen rows) := by
  refine ⟨tellable.apart, ?_, ?_⟩
  · intro next inside settled
    rcases run_inv inside with ⟨old, -⟩ | ⟨row, _, selected, changed⟩
    · exact tellable.rest next old settled
    · exact (finished member tellable.apart selected changed).2.1
  · intro next inside
    rcases run_inv inside with ⟨old, -⟩ | ⟨row, before, selected, changed⟩
    · exact tellable.silent next old
    · apply Bool.eq_false_iff.mpr
      intro shown
      have earlier := (finished member tellable.apart selected changed).2.2 shown
      rw [tellable.silent row before] at earlier
      cases earlier

theorem Tellable.write (tellable : Tellable context rows)
    (written : ∀ row ∈ after, row ∈ rows ∨ Elsewhere context row) : Tellable context after := by
  refine ⟨tellable.apart, ?_, ?_⟩
  · intro row member settled
    rcases written row member with old | elsewhere
    · exact tellable.rest row old settled
    · exact settled.forgotten elsewhere.2.1 elsewhere.settled.2
  · intro row member
    rcases written row member with old | elsewhere
    · exact tellable.silent row old
    · exact elsewhere.settled.2

def Behind (context : CustomerErasureContext) (rows : List Row) (work : Work) : Prop :=
  match work.stage with
  | .working index => Drained context work.step index rows
  | .saving => Drained context work.step (batchesOf work.step).length rows
  | .verifying => Drained context work.step 0 rows ∧ work.step = .verify
  | .releasing _ => Drained context work.step 0 rows

theorem Behind.earlier (behind : Behind context rows work) :
    Drained context work.step 0 rows := by
  simp only [Behind] at behind
  split at behind
  · exact behind.earlier
  · exact behind.earlier
  · exact behind.1
  · exact behind

theorem Behind.mono (behind : Behind context rows work)
    (kept : ∀ row ∈ after, row ∈ rows ∨ Settled context row) : Behind context after work := by
  simp only [Behind] at behind ⊢
  split at behind
  · exact behind.mono kept
  · exact behind.mono kept
  · exact ⟨behind.1.mono kept, behind.2⟩
  · exact behind.mono kept

theorem Behind.stageAt {index : Nat}
    (drained : Drained context step index rows) (isStep : work.step = step) (stage : work.stage = stageAt step index) :
    Behind context rows work := by
  obtain ⟨working, saving, verifying⟩ := drained.stageAt
  simp only [Behind, stage, isStep]
  split
  · next at_ here => exact working at_ here
  · next here => exact saving here
  · next here => exact ⟨drained.earlier, verifying here⟩
  · exact drained.earlier

structure Sound (world : World) : Prop where
  tellable : Tellable world.context world.rows
  cursor : Drained world.context (world.erasure.cursor.getD .deleteRows) 0 world.rows
  works : ∀ worker work, world.works worker = some work → world.erasure.lockedBy = some worker → Behind world.context world.rows work
  closed : world.erasure.state = .completed → world.erasure.lockedBy = none ∧ world.erasure.subjectId = none ∧
    ∀ row ∈ world.rows, Settled world.context row
  unfailed : world.erasure.state ≠ .failed

section
variable (sound : Sound world)
include sound

/-- Whoever verifies under the lease finds no residual. -/
theorem Sound.unresidual {worker : Nat} (found : world.works worker = some work) (verifying : work.stage = .verifying)
    (locked : world.erasure.lockedBy = some worker) :
    Drained world.context .verify 0 world.rows ∧ world.rows.any (residualCheck world.context) = false := by
  have behind := sound.works worker work found locked
  simp only [Behind, verifying] at behind
  obtain ⟨drained, isVerify⟩ := behind
  rw [isVerify] at drained
  refine ⟨drained, List.any_eq_false.mpr fun row member => ?_⟩
  have settled := drained.settled row member
  rw [residual_none settled (sound.tellable.rest row member settled) (sound.tellable.silent row member)]
  exact Bool.false_ne_true

theorem Sound.completes : world.Completes where
  verified worker work found verifying locked := by
    obtain ⟨-, none⟩ := sound.unresidual found verifying locked
    simp only [World.verify, found, verifying, none, Bool.false_eq_true, if_false, locked, if_true]
    exact ⟨rfl, rfl⟩
  unfailed := sound.unfailed
  forgotten completed := by
    obtain ⟨-, subject, settled⟩ := sound.closed completed
    exact ⟨subject, fun row member => sound.tellable.rest row member (settled row member)⟩

/-- Rows that are settled, or were there, keep what is behind every stage. -/
theorem Sound.setRows (tellable : Tellable world.context after)
    (kept : ∀ row ∈ after, row ∈ world.rows ∨ Settled world.context row) : Sound { world with rows := after } where
  tellable := tellable
  cursor := sound.cursor.mono kept
  works worker work found locked := (sound.works worker work found locked).mono kept
  closed completed := by
    obtain ⟨free, subject, settled⟩ := sound.closed completed
    refine ⟨free, subject, ?_⟩
    intro row member
    exact (kept row member).elim (settled row) fun known => known
  unfailed := sound.unfailed

theorem Sound.setWork {work : Option Work}
    (behind : ∀ next, work = some next → world.erasure.lockedBy = some worker → Behind world.context world.rows next) :
    Sound (world.setWork worker work) := by
  refine ⟨sound.tellable, sound.cursor, ?_, sound.closed, sound.unfailed⟩
  intro other found there locked
  rcases setWork_inv there with ⟨rfl, here⟩ | ⟨-, old⟩
  · exact behind found here locked
  · exact sound.works other found old locked

theorem Sound.dropped : Sound (world.setWork worker none) := sound.setWork nofun

theorem Sound.releasing (found : world.works worker = some work) (errorCode : Option Text) :
    Sound (world.setWork worker (some { work with stage := .releasing errorCode })) := by
  apply sound.setWork
  intro next same locked
  obtain rfl := Option.some.inj same
  exact (sound.works worker work found locked).earlier

theorem Sound.claim (worker leaseSeconds : Nat) : Sound (world.claim worker leaseSeconds) := by
  simp only [World.claim]
  split
  · next due =>
    obtain ⟨idle, isOpen, -, -⟩ := due
    have running : world.erasure.state ≠ .completed := by
      rcases isOpen with state | state | state <;> simp [state]
    split
    · refine ⟨sound.tellable, sound.cursor, ?_, fun completed => absurd completed running, sound.unfailed⟩
      intro other found there locked
      obtain rfl := Option.some.inj locked
      rcases setWork_inv there with ⟨-, here⟩ | ⟨apart, -⟩
      · obtain rfl := Option.some.inj here
        exact Behind.stageAt sound.cursor rfl rfl
      · exact absurd rfl apart
    · refine ⟨sound.tellable, sound.cursor, ?_, fun completed => absurd completed running, sound.unfailed⟩
      intro other found there locked
      obtain rfl := Option.some.inj locked
      rw [Option.isNone_iff_eq_none] at idle
      exact absurd (idle.symm.trans there) nofun
  · exact sound

theorem Sound.runBatch (tracks : Tracks world) (worker limit : Nat) (chosen : List Nat) (overdue : Bool) :
    Sound (world.runBatch worker limit chosen overdue) := by
  simp only [World.runBatch]
  split
  · exact sound
  · next work found =>
    split
    · next index working =>
      split
      · exact sound
      · next batch here =>
        split
        · exact sound
        · next limited =>
          split
          · next locked =>
            have known : batch ∈ batchesOf work.step := List.mem_of_getElem? here
            have behind := sound.works worker work found locked
            simp only [Behind, working] at behind
            have kept : ∀ row ∈ batch.run world.context world.now chosen world.rows, row ∈ world.rows ∨ Settled world.context row := by
              intro row member
              rcases run_inv member with ⟨old, -⟩ | ⟨before, _, selected, changed⟩
              · exact .inl old
              · exact .inr (finished known sound.tellable.apart selected changed).1
            have drained := behind.mono kept
            have after := sound.setRows (sound.tellable.run known world.now chosen) kept
            refine ⟨after.tellable, drained.earlier, ?_, ?_, after.unfailed⟩
            · intro other next there again
              obtain rfl := Option.some.inj (locked.symm.trans again)
              rcases setWork_inv there with ⟨-, last⟩ | ⟨apart, -⟩
              · obtain rfl := Option.some.inj last
                by_cases few : changedRows batch world.context chosen world.rows < limit
                · have all : selectedRows batch world.context world.rows ≤ changedRows batch world.context chosen world.rows := by omega
                  have none : ∀ row ∈ batch.run world.context world.now chosen world.rows, batch.selects world.context row = false :=
                    batch_drained known sound.tellable.apart all
                  exact Behind.stageAt (drained.batchDone here none) rfl (by simp only [few, if_true])
                · simp only [few, if_false]
                  cases overdue with
                  | true => exact drained.earlier
                  | false => exact drained
              · exact absurd rfl apart
            · intro completed
              rw [tracks.closed completed] at locked
              cases locked
          · exact sound.releasing found _
    · exact sound

theorem Sound.saveCursor (worker : Nat) (overdue : Bool) :
    Sound (world.saveCursor worker overdue) := by
  simp only [World.saveCursor]
  split
  · exact sound
  · next work found =>
    split
    · next saving =>
      refine ⟨sound.tellable, ?_, ?_, ?_, ?_⟩
      · by_cases locked : world.erasure.lockedBy = some worker
        · have behind := sound.works worker work found locked
          simp only [Behind, saving] at behind
          simp only [World.setWork, locked, if_true]
          exact behind.stepDone
        · simp only [World.setWork, locked, if_false]
          exact sound.cursor
      · intro other next there again
        have locked : world.erasure.lockedBy = some other := by
          by_cases held : world.erasure.lockedBy = some worker
          · simp only [World.setWork, held, if_true] at again
            exact held.trans again
          · simpa only [World.setWork, held, if_false] using again
        rcases setWork_inv there with ⟨rfl, last⟩ | ⟨_, old⟩
        · obtain rfl := Option.some.inj last
          have behind := sound.works other work found locked
          simp only [Behind, saving] at behind
          have drained := behind.stepDone
          by_cases late : overdue = true ∧ nextStep work.step ≠ .verify
          · simp only [late, and_self, ne_eq, not_false_eq_true, if_true]
            exact drained
          · simp only [late, if_false]
            exact Behind.stageAt drained rfl rfl
        · exact sound.works other next old locked
      · intro completed
        by_cases held : world.erasure.lockedBy = some worker
        · simp only [World.setWork, held, if_true] at completed
          split at completed <;> cases completed
        · simp only [World.setWork, held, if_false] at completed ⊢
          exact sound.closed completed
      · by_cases held : world.erasure.lockedBy = some worker
        · simp only [World.setWork, held, if_true]
          split <;> exact nofun
        · simp only [World.setWork, held, if_false]
          exact sound.unfailed
    · exact sound

/-- A receipt without a lease, whose cursor has drained steps behind it. -/
theorem Sound.unlocked (free : erasure.lockedBy = none)
    (cursor : Drained world.context (erasure.cursor.getD .deleteRows) 0 world.rows)
    (closed : erasure.state = .completed → erasure.subjectId = none ∧ ∀ row ∈ world.rows, Settled world.context row)
    (unfailed : erasure.state ≠ .failed) : Sound { world with erasure := erasure } := by
  refine ⟨sound.tellable, cursor, ?_, fun completed => ⟨free, closed completed⟩, unfailed⟩
  intro other found _ locked
  rw [free] at locked
  cases locked

theorem Sound.release (tracks : Tracks world) (worker : Nat) : Sound (world.release worker) := by
  simp only [World.release]
  split
  · exact sound
  · next work found =>
    split
    · next errorCode releasing =>
      split
      · next locked =>
        refine Sound.dropped (sound.unlocked rfl ?_ ?_ sound.unfailed)
        · split
          · have behind := sound.works worker work found locked
            simp only [Behind, releasing] at behind
            exact behind
          · exact sound.cursor
        · intro completed
          have held := tracks.closed completed
          rw [held] at locked
          cases locked
      · exact sound.dropped
    · exact sound

omit sound in
/-- The first step has nothing before it. -/
private theorem drained_first (context : CustomerErasureContext) (rows : List Row) : Drained context .deleteRows 0 rows := by
  intro batch known
  rcases known with ⟨earlier, before, -⟩ | none
  · exact absurd before (Nat.not_lt_zero _)
  · cases none

theorem Sound.verify (worker : Nat) : Sound (world.verify worker) := by
  simp only [World.verify]
  split
  · exact sound
  · next work found =>
    split
    · next verifying =>
      by_cases locked : world.erasure.lockedBy = some worker
      · obtain ⟨drained, none⟩ := sound.unresidual found verifying locked
        simp only [none, Bool.false_eq_true, if_false, locked, if_true]
        exact Sound.dropped (sound.unlocked rfl (drained_first _ _) (fun _ => ⟨rfl, drained.settled⟩) nofun)
      · simp only [locked, if_false]
        split
        · exact sound.dropped
        · exact sound.releasing found _
    · exact sound

theorem Sound.fail (worker : Nat) (errorCode : Text) : Sound (world.fail worker errorCode) := by
  simp only [World.fail]
  split
  · exact sound
  · next work found =>
    split
    · exact sound.dropped
    · exact sound.releasing found _

theorem Sound.perform (tracks : Tracks world)
    (undisturbed : ∀ rows, action = .write rows → ∀ row ∈ rows, row ∈ world.rows ∨ Elsewhere world.context row) :
    Sound (action.perform world) := by
  cases action with
  | wait elapsed => exact ⟨sound.tellable, sound.cursor, sound.works, sound.closed, sound.unfailed⟩
  | claim worker leaseSeconds => exact sound.claim worker leaseSeconds
  | runBatch worker limit chosen overdue => exact sound.runBatch tracks worker limit chosen overdue
  | saveCursor worker overdue => exact sound.saveCursor worker overdue
  | release worker => exact sound.release tracks worker
  | verify worker => exact sound.verify worker
  | fail worker errorCode => exact sound.fail worker errorCode
  | crash worker => exact sound.dropped
  | replay =>
    simp only [ErasureAction.perform, World.replay]
    split
    · next failed => exact absurd failed sound.unfailed
    · exact sound
  | sweep =>
    simp only [ErasureAction.perform, World.sweep]
    split
    · next completed => exact sound.unlocked (tracks.closed completed.1) sound.cursor (fun ended => (sound.closed ended).2) sound.unfailed
    · exact sound
  | write rows =>
    have written := undisturbed rows rfl
    apply sound.setRows (sound.tellable.write written)
    intro row member
    exact (written row member).imp_right fun elsewhere => elsewhere.settled.1

end

theorem Sound.run (actions : List ErasureAction) : ∀ {world : World}, Sound world → Tracks world → Undisturbed world actions →
    Sound (runErasure world actions) := by
  induction actions with
  | nil => exact fun sound _ _ => sound
  | cons action rest ih => exact fun sound tracks undisturbed => ih (sound.perform tracks undisturbed.1) (tracks.perform action) undisturbed.2

end Worlds

section Requested
variable (now : Int) (context : CustomerErasureContext) (requestHash : Text) (tombstoneExpiresAt : Int) (rows : List Row)

theorem Tracks.requested : Tracks (requested now context requestHash tombstoneExpiresAt rows) :=
  ⟨rfl, fun _ _ found => (nomatch found), fun completed => (nomatch completed)⟩

theorem Sound.requested (erasable : Erasable context rows) : Sound (requested now context requestHash tombstoneExpiresAt rows) :=
  ⟨erasable.tellable, drained_first context rows, fun _ _ found => (nomatch found), fun completed => (nomatch completed), nofun⟩

end Requested

private theorem undisturbed_of {actions : List ErasureAction} (unwritten : ∀ rows, ErasureAction.write rows ∉ actions) :
    ∀ world, Undisturbed world actions := by
  induction actions with
  | nil => exact fun _ => trivial
  | cons action rest ih =>
    intro world
    constructor
    · intro rows written
      exact absurd (written ▸ List.mem_cons_self) (unwritten rows)
    · exact ih (fun rows member => unwritten rows (List.mem_cons_of_mem action member)) _

section Example

def storeEvent : Row where
  key := 1
  table := .storeEvents
  id := "event".toList
  projectId := 1
  customerId := some 1
  createdAt := 5
  columns := fun
    | .rawPayload => .json (.object [("total".toList, .number "5".toList)])
    | .processingStatus => .text "applied".toList
    | _ => .null

def allSteps : List ErasureAction :=
  .claim 1 60 :: (List.replicate 31 [ErasureAction.runBatch 1 100 [1] false, .saveCursor 1 false]).flatten ++ [.verify 1]

private theorem allSteps_unwritten (rows : List Row) : ErasureAction.write rows ∉ allSteps := by
  simp [allSteps]

end Example

end Quotum.ErasureRuns
