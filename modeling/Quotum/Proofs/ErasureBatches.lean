import Quotum.ErasureBatches

/-! An erasure's batches change rows of the erased account only, but for unlinked store events that show its id without naming it. -/

namespace Quotum.ErasureBatches
open General

section Selection
variable {context : CustomerErasureContext} {row : Row} {batch : CustomerErasureBatch}

theorem selects_iff : batch.selects context row = true ↔
    row.table = batch.table ∧ row.projectId = context.projectId ∧ batch.needs context row = true := by
  simp only [CustomerErasureBatch.selects, Bool.and_eq_true, decide_eq_true_eq, and_assoc]

/-- A batch that takes rows of the account only. -/
def Owned (batch : CustomerErasureBatch) : Prop :=
  ∀ context row, batch.selects context row = true → belongs context row = true

private theorem owned_customer (asks : ∀ context row, batch.needs context row = true → ofCustomer context row = true) : Owned batch := by
  intro context row selected
  obtain ⟨-, project, needed⟩ := selects_iff.mp selected
  simp only [belongs, project, asks context row needed, decide_true, Bool.true_or, Bool.and_true]

private theorem owned_account (carries : batch.table.hasAccountId = true)
    (asks : ∀ context row, batch.needs context row = true → ofAccount context row = true) : Owned batch := by
  intro context row selected
  obtain ⟨table, project, needed⟩ := selects_iff.mp selected
  simp only [belongs, project, table, carries, asks context row needed, decide_true, Bool.and_self, Bool.or_true, Bool.true_or]

theorem asks_first {first second : Bool} (both : (first && second) = true) : first = true :=
  (Bool.and_eq_true_iff.mp both).1

private theorem owned_first {more : CustomerErasureContext → Row → Bool}
    (asks : batch.needs = fun context row => ofCustomer context row && more context row) : Owned batch := by
  refine owned_customer fun context row asked => ?_
  rw [asks] at asked
  exact asks_first asked

private theorem owned_delete : ∀ batch ∈ deleteBatches, Owned batch := by
  have customers (table : Table) : Owned (deleteBatch table ofCustomer) := owned_customer fun _ _ asked => asked
  intro batch member
  simp only [deleteBatches, List.mem_cons, List.not_mem_nil, or_false] at member
  rcases member with rfl | rfl | rfl | rfl | rfl | rfl | rfl | rfl | rfl | rfl
  · exact customers _
  · exact customers _
  · exact customers _
  · exact customers _
  · exact customers _
  · exact customers _
  · exact customers _
  · exact customers _
  · exact customers _
  · exact owned_account rfl fun _ _ asked => asks_first asked

private theorem owned_reason (table : Table) : Owned (reasonBatch table) := owned_first rfl

private theorem owned_payload (table : Table) : Owned (payloadBatch table) := owned_first rfl

private theorem owned_rewrite : ∀ batch ∈ rewriteBatches, Owned batch := by
  intro batch member
  simp only [rewriteBatches, List.mem_cons, List.not_mem_nil, or_false] at member
  rcases member with rfl | rfl | rfl | rfl | rfl | rfl | rfl | rfl | rfl | rfl | rfl
  · exact owned_first rfl
  · exact owned_account rfl fun _ _ asked => asked
  · exact owned_account rfl fun _ _ asked => asked
  · exact owned_account rfl fun _ _ asked => asked
  · exact owned_account rfl fun _ _ asked => asked
  · exact owned_first rfl
  · exact owned_first rfl
  · exact owned_first rfl
  · exact owned_first rfl
  · exact owned_reason _
  · exact owned_reason _

private theorem owned_audit : Owned catalogAuditLogBatch := by
  intro context row selected
  obtain ⟨table, project, needed⟩ := selects_iff.mp selected
  have entry : row.table = .catalogAuditLog := table
  have named : auditNames context row = true := needed
  simp only [belongs, project, entry, named, decide_true, Bool.and_self, Bool.or_true, Bool.true_or]

private theorem owned_scrub : ∀ batch ∈ scrubBatches, Owned batch := by
  intro batch member
  simp only [scrubBatches, List.mem_cons, List.not_mem_nil, or_false] at member
  rcases member with rfl | rfl | rfl | rfl | rfl | rfl | rfl | rfl
  · exact owned_first rfl
  · exact owned_payload _
  · exact owned_first rfl
  · exact owned_payload _
  · exact owned_first rfl
  · exact owned_first rfl
  · exact owned_first rfl
  · exact owned_audit

private theorem owned_usageEvents : Owned usageEventBatch := owned_first rfl

private theorem unlinked_belongs (selected : unlinkedStoreEventBatch.selects context row = true)
    (named : (row.columns .rawPayload).names context.subjectId = true) : belongs context row = true := by
  obtain ⟨table, project, needed⟩ := selects_iff.mp selected
  have event : row.table = .storeEvents := table
  have unlinked : row.customerId.isNone = true := asks_first (asks_first (asks_first needed))
  simp only [belongs, project, event, unlinked, named, decide_true, Bool.and_self, Bool.or_true]

private theorem belongs_names (selected : unlinkedStoreEventBatch.selects context row = true) (own : belongs context row = true) :
    (row.columns .rawPayload).names context.subjectId = true := by
  obtain ⟨table, project, needed⟩ := selects_iff.mp selected
  have event : row.table = .storeEvents := table
  have unlinked : row.customerId = none := Option.isNone_iff_eq_none.mp (asks_first (asks_first (asks_first needed)))
  simpa [belongs, project, event, unlinked, ofCustomer, Table.hasAccountId] using own

/-- What any batch takes. -/
theorem selects_belongs {step : CustomerErasureStep} (member : batch ∈ batchesOf step) (selected : batch.selects context row = true)
    (named : unlinkedStoreEventBatch.selects context row = true → (row.columns .rawPayload).names context.subjectId = true) :
    belongs context row = true := by
  cases step with
  | deleteRows => exact owned_delete batch member context row selected
  | rewriteIds => exact owned_rewrite batch member context row selected
  | scrubPayloads => exact owned_scrub batch member context row selected
  | scrubUsageEvents =>
    obtain rfl := List.mem_singleton.mp member
    exact owned_usageEvents context row selected
  | scanUnlinkedStoreEvents =>
    obtain rfl := List.mem_singleton.mp member
    exact unlinked_belongs selected (named selected)
  | verify => cases member

end Selection

section Runs
variable {context : CustomerErasureContext} {row : Row} {rows : List Row}

/-- A row that no batch takes stays as it is. -/
theorem run_kept {batch : CustomerErasureBatch} (now : Int) (chosen : List Nat) (unselected : batch.selects context row = false)
    (member : row ∈ rows) : row ∈ batch.run context now chosen rows := by
  apply List.mem_filterMap.mpr
  refine ⟨row, member, ?_⟩
  simp only [unselected, Bool.false_and, Bool.false_eq_true, if_false]

private theorem runBatches_kept (batchRuns : List BatchRun)
    (unselected : ∀ step, ∀ batch ∈ batchesOf step, batch.selects context row = false) : ∀ {rows : List Row}, row ∈ rows →
    row ∈ runBatches context rows batchRuns := by
  induction batchRuns with
  | nil => exact fun member => member
  | cons batchRun rest ih =>
    intro rows member
    apply ih
    simp only [BatchRun.perform]
    split
    · exact member
    · next batch found =>
      exact run_kept batchRun.now batchRun.chosen (unselected batchRun.step batch (List.mem_of_getElem? found)) member

/-- A blanked event is no longer what it was. -/
private theorem blanked_apart (selected : unlinkedStoreEventBatch.selects context row = true) : row.assign (blankedEvent row) ≠ row := by
  intro same
  have needed := (selects_iff.mp selected).2.2
  have payload : row.columns .rawPayload = erasedPayload := by
    rw [← same]
    rfl
  have other : (row.columns .rawPayload).isOtherThan Value.isErasedPayload = true :=
    (Bool.and_eq_true_iff.mp (asks_first needed)).2
  rw [payload] at other
  cases other

private theorem scan_changes (database : Database) (member : row ∈ database.rows) (selected : unlinkedStoreEventBatch.selects context row = true)
    (now : Int) : row ∉ unlinkedStoreEventBatch.run context now [row.key] database.rows := by
  intro kept
  obtain ⟨old, inside, became⟩ := List.mem_filterMap.mp kept
  split at became
  · next taken =>
    have key : row.key = old.key := by
      obtain rfl := Option.some.inj became
      rfl
    obtain rfl := List.inj_on_of_nodup_map database.distinct member inside key
    exact blanked_apart selected (Option.some.inj became)
  · next skipped =>
    obtain rfl := Option.some.inj became
    exact skipped (by simp [selected])

end Runs

/-- The batches of an erasure leave every row of other accounts as it is exactly when each unlinked event that the scan takes, which
shows the account id in its payload's text, names it. -/
theorem erasure_changes_own_rows (context : CustomerErasureContext) (database : Database) :
    (∀ batchRuns, ∀ row ∈ database.rows, belongs context row = false → row ∈ runBatches context database.rows batchRuns) ↔
      ∀ row ∈ database.rows, unlinkedStoreEventBatch.selects context row = true →
        (row.columns .rawPayload).names context.subjectId = true := by
  constructor
  · intro kept row member selected
    by_contra unnamed
    have foreign : belongs context row = false := by
      apply Bool.eq_false_iff.mpr
      exact fun own => unnamed (belongs_names selected own)
    exact scan_changes database member selected 0 (kept [⟨.scanUnlinkedStoreEvents, 0, 0, [row.key]⟩] row member foreign)
  · intro named batchRuns row member foreign
    refine runBatches_kept batchRuns ?_ member
    intro step batch known
    apply Bool.eq_false_iff.mpr
    intro selected
    rw [selects_belongs known selected (named row member)] at foreign
    cases foreign

def shorterId : CustomerErasureContext := ⟨0, 1, ['u'], "acct_1".toList, 0⟩

def otherEvent : Row where
  key := 0
  table := .storeEvents
  id := ['e']
  projectId := 0
  customerId := none
  createdAt := 0
  columns
    | .rawPayload => .json (.object [("billingAccountId".toList, .string "acct_12".toList)])
    | .processingStatus => .text "pending".toList
    | .nextAttemptAt => .time 0
    | _ => .null

/-- Its erasure skips the event and blanks the payload. -/
theorem erasure_changes_other_event : ¬ ∀ (context : CustomerErasureContext) (database : Database) (batchRuns : List BatchRun),
    ∀ row ∈ database.rows, belongs context row = false → row ∈ runBatches context database.rows batchRuns := by
  intro claim
  let database : Database := ⟨[otherEvent], by decide⟩
  have kept := claim shorterId database [⟨.scanUnlinkedStoreEvents, 0, 0, [0]⟩] otherEvent List.mem_cons_self (by decide)
  have statuses : (runBatches shorterId [otherEvent] [⟨.scanUnlinkedStoreEvents, 0, 0, [0]⟩]).map
      (fun row => (row.columns .processingStatus).isText "pending".toList) = [false] := by decide
  have pending := List.mem_map_of_mem (f := fun row : Row => (row.columns .processingStatus).isText "pending".toList) kept
  rw [statuses] at pending
  exact absurd pending (by decide)

end Quotum.ErasureBatches
