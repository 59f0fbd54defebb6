import Quotum.ErasureRuns
import Quotum.Proofs.ErasureBatches

/-! What the batches of an erasure make of single rows: no batch takes a changed row again, and it holds nothing any more. -/

namespace Quotum.ErasureRuns
open General ErasureBatches

section Rows
variable {context : CustomerErasureContext} {row next : Row} {batch : CustomerErasureBatch}
  {assignments : CustomerErasureContext → Int → Row → List (Column × Value)} {kind : Table} {value : Value}
  {step : CustomerErasureStep} {second : Bool}

def Settled (context : CustomerErasureContext) (row : Row) : Prop :=
  ∀ step, ∀ batch ∈ batchesOf step, batch.selects context row = false

/-- The batches but for the scan of unlinked events: one a table. -/
def steadyBatches : List CustomerErasureBatch := deleteBatches ++ rewriteBatches ++ scrubBatches ++ [usageEventBatch]

private theorem batchesOf_cases (member : batch ∈ batchesOf step) :
    batch ∈ steadyBatches ∨ batch = unlinkedStoreEventBatch := by
  simp only [steadyBatches, List.mem_append]
  cases step with
  | deleteRows => exact .inl (.inl (.inl (.inl member)))
  | rewriteIds => exact .inl (.inl (.inl (.inr member)))
  | scrubPayloads => exact .inl (.inl (.inr member))
  | scrubUsageEvents => exact .inl (.inr member)
  | scanUnlinkedStoreEvents => exact .inr (List.mem_singleton.mp member)
  | verify => cases member

private theorem steady_tables : (steadyBatches.map CustomerErasureBatch.table).Nodup := by decide

private theorem settled_of (known : batch ∈ steadyBatches) (table : row.table = batch.table) (again : batch.selects context row = false)
    (scanned : unlinkedStoreEventBatch.selects context row = false) : Settled context row := by
  intro step other member
  rcases batchesOf_cases member with steady | rfl
  · apply Bool.eq_false_iff.mpr
    intro selected
    have same : other = batch := List.inj_on_of_nodup_map steady_tables steady known ((selects_iff.mp selected).1.symm.trans table)
    rw [same, again] at selected
    cases selected
  · exact scanned

structure Finished (context : CustomerErasureContext) (batch : CustomerErasureBatch) (row next : Row) : Prop where
  table : next.table = batch.table
  again : batch.selects context next = false
  scanned : unlinkedStoreEventBatch.selects context next = false
  forgotten : Forgotten context next
  silent : markerShows context next = true → markerShows context row = true

private theorem unneeded (unneeded : batch.needs context row = false) : batch.selects context row = false := by
  simp only [CustomerErasureBatch.selects, unneeded, Bool.and_false]

private theorem unscanned {table : Table} (of : row.table = table) (apart : table ≠ .storeEvents) :
    unlinkedStoreEventBatch.selects context row = false := by
  apply Bool.eq_false_iff.mpr
  intro selected
  exact apart (of.symm.trans (selects_iff.mp selected).1)

def mayShow : Table → Bool
  | .customers | .paddleCheckoutReservations | .storeEvents | .purchases | .billingInvoices | .subscriptions | .promotionRedemptions
  | .promotionAppleSignatureAttempts => true
  | _ => false

private theorem unshown (row : Row) {table : Table} (of : row.table = table) (never : mayShow table = false) : markerShows context row = false := by
  subst of
  simp only [markerShows]
  split <;> simp_all [mayShow]

def Finishes (batch : CustomerErasureBatch) : Prop :=
  ∀ (context : CustomerErasureContext) (now : Int) (row next : Row), context.subjectId ≠ context.erasedMarker →
    batch.selects context row = true → batch.change context now row = some next → Finished context batch row next

private theorem finishes_delete (table : Table) (needs : CustomerErasureContext → Row → Bool) : Finishes (deleteBatch table needs) :=
  fun _ _ _ _ _ _ changed => nomatch changed

private theorem finishes_update {needs : CustomerErasureContext → Row → Bool} (apart : kind ≠ .storeEvents)
    (makes : ∀ (context : CustomerErasureContext) (now : Int) (row next : Row), next = row.assign (assignments context now row) →
      row.table = kind → context.subjectId ≠ context.erasedMarker → needs context next = false ∧ Forgotten context next ∧
        (markerShows context next = true → markerShows context row = true)) :
    Finishes (updateBatch kind assignments needs) := by
  intro context now row next foreign selected changed
  have table : row.table = kind := (selects_iff.mp selected).1
  obtain ⟨again, forgotten, silent⟩ := makes context now row next (Option.some.inj changed).symm table foreign
  obtain rfl := Option.some.inj changed
  exact ⟨table, unneeded again, unscanned table apart, forgotten, silent⟩

/-- A batch over a table whose rows never show the account's id. -/
private theorem finishes_unshown {needs : CustomerErasureContext → Row → Bool} (never : mayShow kind = false)
    (makes : ∀ (context : CustomerErasureContext) (now : Int) (row next : Row), next = row.assign (assignments context now row) →
      row.table = kind → context.subjectId ≠ context.erasedMarker → needs context next = false ∧ Forgotten context next) :
    Finishes (updateBatch kind assignments needs) := by
  apply finishes_update
  · rintro rfl
    cases never
  · intro context now row next is_ table foreign
    obtain ⟨again, forgotten⟩ := makes context now row next is_ table foreign
    refine ⟨again, forgotten, ?_⟩
    rw [unshown next (is_ ▸ table) never]
    rintro ⟨⟩

private theorem and_none {first : Bool} (none : second = false) : (first && second) = false := by
  rw [none, Bool.and_false]

private theorem notLikeErased_marked (rest : Text) : (Value.text (erasedPrefix ++ rest)).notLikeErased = false := by
  simp [Value.notLikeErased, List.isPrefixOf_iff_prefix]

private theorem finishes_entity : Finishes entityBatch := by
  apply finishes_unshown rfl
  rintro context now row _ rfl table _
  refine ⟨and_none ?_, fun _ => ?_⟩
  · refine Bool.or_eq_false_iff.mpr ⟨?_, rfl⟩
    have marked := notLikeErased_marked (context.erasureId ++ ':' :: row.id)
    rwa [← List.append_assoc] at marked
  · simp only [Row.assign, table]
    exact fun _ => ⟨rfl, rfl⟩

private theorem marked_apart (apart : context.subjectId ≠ context.erasedMarker) :
    (Value.text context.erasedMarker).isText context.subjectId = false :=
  decide_eq_false apart.symm

private theorem keptNull_nullOr (column : Column) (value : Value) (row : Row) : nullOr (row.keptNull column value) value := by
  simp only [Row.keptNull]
  split
  · exact .inl rfl
  · exact .inr rfl

private theorem finishes_providerOperation : Finishes providerOperationBatch := by
  apply finishes_unshown rfl
  rintro context now row _ rfl table apart
  refine ⟨marked_apart apart, fun _ => ?_⟩
  simp only [Row.assign, table]
  exact ⟨marked_apart apart, fun _ => ⟨rfl, rfl, rfl, keptNull_nullOr _ _ _⟩⟩

private theorem finishes_commercialActionPreview : Finishes commercialActionPreviewBatch := by
  apply finishes_unshown rfl
  rintro context now row _ rfl table apart
  refine ⟨marked_apart apart, fun _ => ?_⟩
  simp only [Row.assign, table]
  exact ⟨marked_apart apart, fun _ => ⟨rfl, rfl, rfl, rfl, rfl, keptNull_nullOr _ _ _⟩⟩

private theorem finishes_refundRequest : Finishes refundRequestBatch := by
  apply finishes_unshown rfl
  rintro context now row _ rfl table apart
  refine ⟨marked_apart apart, fun _ => ?_⟩
  simp only [Row.assign, table]
  exact ⟨marked_apart apart, fun _ => ⟨rfl, rfl, rfl⟩⟩

private theorem finishes_promotionCode : Finishes promotionCodeBatch := by
  apply finishes_unshown rfl
  rintro context now row _ rfl table apart
  refine ⟨marked_apart apart, fun _ => ?_⟩
  simp only [Row.assign, table]
  exact marked_apart apart

private theorem marker_begins (context : CustomerErasureContext) : context.erasedMarker.head? = some 'e' := rfl

private theorem actor_begins (context : CustomerErasureContext) : context.accountActor.head? = some 'b' := rfl

private theorem marker_actor (context : CustomerErasureContext) : context.erasedMarker ≠ context.accountActor := by
  intro same
  have heads := marker_begins context
  rw [same, actor_begins] at heads
  exact absurd (Option.some.inj heads) (by decide)

private theorem erasedActor_apart (context : CustomerErasureContext) (row : Row) :
    (erasedActor context row).isText context.accountActor = false := by
  simp only [erasedActor]
  split
  · exact decide_eq_false (marker_actor context)
  · next other => simpa only [Row.isOf, Bool.not_eq_true] using other

private theorem finishes_planGrant : Finishes planGrantBatch := by
  apply finishes_unshown rfl
  rintro context now row _ rfl table _
  have actor := erasedActor_apart context row
  refine ⟨and_none (Bool.or_eq_false_iff.mpr ⟨actor, rfl⟩), fun _ => ?_⟩
  simp only [Row.assign, table]
  exact fun _ => ⟨actor, rfl⟩

private theorem finishes_balanceAllocation : Finishes balanceAllocationBatch := by
  apply finishes_unshown rfl
  rintro context now row _ rfl table _
  refine ⟨and_none (notLikeErased_marked _), fun _ => ?_⟩
  simp only [Row.assign, table]
  exact fun _ => rfl

private theorem finishes_reason (listed : kind = .operatorGrants ∨ kind = .administrativeDebits) : Finishes (reasonBatch kind) := by
  rcases listed with rfl | rfl <;>
  · apply finishes_unshown rfl
    rintro context now row _ rfl table _
    refine ⟨and_none rfl, fun _ => ?_⟩
    simp only [Row.assign, table]
    exact fun _ => rfl

private theorem finishes_promotionRedemption : Finishes promotionRedemptionBatch := by
  apply finishes_update (by rintro ⟨⟩)
  rintro context now row _ rfl table _
  refine ⟨and_none (notLikeErased_marked _), fun _ => ?_, fun shown => ?_⟩
  · simp only [Row.assign, table]
    exact fun _ => ⟨erasedActor_apart context row, rfl, rfl, rfl, rfl, rfl, keptNull_nullOr _ _ _⟩
  · simp only [markerShows, Row.assign, table] at shown ⊢
    cases key : row.columns .reversalIdempotencyKey <;> simpa [Row.keptNull, key, Value.isNull, erasedKey, markedKey, ofCustomer] using shown

private theorem finishes_promotionAppleSignatureAttempt : Finishes promotionAppleSignatureAttemptBatch := by
  apply finishes_update (by rintro ⟨⟩)
  rintro context now row _ rfl table _
  refine ⟨and_none (notLikeErased_marked _), fun _ => ?_, fun shown => ?_⟩
  · simp only [Row.assign, table]
    exact fun _ => ⟨rfl, rfl⟩
  · simpa only [markerShows, Row.assign, table, ofCustomer, markedKey] using shown

private theorem blanked_closed (status : Value) : isOpenStatus (if isOpenStatus status then .text "skipped".toList else status) = false := by
  split
  · rfl
  · next closed => simpa only [Bool.not_eq_true] using closed

/-- A blanked event has nothing for a scan. -/
private theorem blanked_unscanned (row : Row) : unlinkedStoreEventBatch.selects context (row.assign (blankedEvent row)) = false :=
  unneeded (by
    have blank : ((row.assign (blankedEvent row)).columns .rawPayload).isOtherThan Value.isErasedPayload = false := rfl
    simp only [unlinkedStoreEventBatch, updateBatch, blank, Bool.and_false, Bool.false_and])

private theorem blanked_needs (row : Row) : storeEventBatch.needs context (row.assign (blankedEvent row)) = false := by
  have closed := blanked_closed (row.columns .processingStatus)
  refine and_none (Bool.or_eq_false_iff.mpr ⟨Bool.or_eq_false_iff.mpr ⟨rfl, closed⟩, rfl⟩)

private theorem blanked_forgotten (table : row.table = .storeEvents) : Forgotten context (row.assign (blankedEvent row)) := by
  intro _
  simp only [Row.assign, table]
  exact ⟨fun _ => ⟨rfl, rfl, blanked_closed (row.columns .processingStatus)⟩, fun _ _ => rfl⟩

private theorem finishes_storeEvent : Finishes storeEventBatch := by
  intro context now row next _ selected changed
  obtain ⟨table, _, needed⟩ := selects_iff.mp selected
  have event : row.table = .storeEvents := table
  obtain rfl := Option.some.inj changed
  refine ⟨table, unneeded (blanked_needs row), blanked_unscanned row, blanked_forgotten event, ?_⟩
  have own : decide (row.customerId = some context.customerId) = true := asks_first needed
  intro shown
  simp only [markerShows, Row.assign, event, ofCustomer, own, Bool.true_or, Bool.and_true] at shown ⊢
  exact shown

private theorem finishes_unlinked : Finishes unlinkedStoreEventBatch := by
  intro context now row next _ selected changed
  obtain ⟨table, _, needed⟩ := selects_iff.mp selected
  have event : row.table = .storeEvents := table
  obtain rfl := Option.some.inj changed
  refine ⟨table, blanked_unscanned row, blanked_unscanned row, blanked_forgotten event, ?_⟩
  have unlinked : row.customerId.isNone = true := asks_first (asks_first (asks_first needed))
  have shows_ : (row.columns .rawPayload).shows context.subjectId = true := (Bool.and_eq_true_iff.mp needed).2
  intro shown
  simp only [markerShows, Row.assign, event, ofCustomer, unlinked, shows_, Bool.and_true, Bool.or_true] at shown ⊢
  exact (Bool.and_eq_true_iff.mp shown).imp_right asks_first |> Bool.and_eq_true_iff.mpr

private theorem finishes_payload (listed : kind = .purchases ∨ kind = .billingInvoices) : Finishes (payloadBatch kind) := by
  rcases listed with rfl | rfl <;>
  · apply finishes_update (by rintro ⟨⟩)
    rintro context now row _ rfl table _
    refine ⟨and_none rfl, fun _ => ?_, fun shown => ?_⟩
    · simp only [Row.assign, table]
      exact fun _ => rfl
    · simpa only [markerShows, Row.assign, table, ofCustomer] using shown

private theorem finishes_subscription : Finishes subscriptionBatch := by
  apply finishes_update (by rintro ⟨⟩)
  rintro context now row _ rfl table _
  refine ⟨and_none rfl, fun _ => ?_, fun shown => ?_⟩
  · simp only [Row.assign, table]
    exact fun _ => ⟨rfl, rfl⟩
  · simpa only [markerShows, Row.assign, table, ofCustomer] using shown

private theorem finishes_subscriptionChange : Finishes subscriptionChangeBatch := by
  apply finishes_unshown rfl
  rintro context now row _ rfl table _
  refine ⟨and_none rfl, fun _ => ?_⟩
  simp only [Row.assign, table]
  exact fun _ => rfl

private theorem finishes_usageAlert : Finishes usageAlertBatch := by
  apply finishes_unshown rfl
  rintro context now row _ rfl table _
  refine ⟨and_none rfl, fun _ => ?_⟩
  simp only [Row.assign, table]
  exact fun _ => ⟨rfl, rfl⟩

private theorem finishes_autoTopupPolicy : Finishes autoTopupPolicyBatch := by
  apply finishes_unshown rfl
  rintro context now row _ rfl table _
  refine ⟨and_none rfl, fun _ => ?_⟩
  simp only [Row.assign, table]
  exact fun _ => rfl

private theorem finishes_audit : Finishes catalogAuditLogBatch := by
  apply finishes_unshown rfl
  rintro context now row _ rfl table _
  refine ⟨rfl, fun _ => ?_⟩
  simp only [Row.assign, table]
  rfl

/-- The metadata that stays has kept names only. -/
private theorem restricted_within (value : Value) : hasOtherMetadata (restrictedMetadata value) = false := by
  cases value with
  | json json => simp only [restrictedMetadata, hasOtherMetadata, Json.within_restrict, Bool.not_true]
  | null | infinity => rfl
  | text text => rfl
  | bool value => rfl
  | time at_ => rfl
  | digest of => rfl

private theorem finishes_usageEvent : Finishes usageEventBatch := by
  apply finishes_unshown rfl
  rintro context now row _ rfl table _
  have within := restricted_within (row.columns .metadata)
  refine ⟨and_none (Bool.or_eq_false_iff.mpr ⟨rfl, within⟩), fun _ => ?_⟩
  simp only [Row.assign, table]
  exact fun _ => ⟨rfl, within⟩

private theorem finishes_steady : ∀ batch ∈ steadyBatches, Finishes batch := by
  intro batch member
  simp only [steadyBatches, deleteBatches, rewriteBatches, scrubBatches, List.cons_append, List.nil_append, List.mem_cons,
    List.not_mem_nil, or_false] at member
  rcases member with rfl | rfl | rfl | rfl | rfl | rfl | rfl | rfl | rfl | rfl | rewritten
  · exact finishes_delete _ _
  · exact finishes_delete _ _
  · exact finishes_delete _ _
  · exact finishes_delete _ _
  · exact finishes_delete _ _
  · exact finishes_delete _ _
  · exact finishes_delete _ _
  · exact finishes_delete _ _
  · exact finishes_delete _ _
  · exact finishes_delete _ _
  · rcases rewritten with rfl | rfl | rfl | rfl | rfl | rfl | rfl | rfl | rfl | rfl | rfl | scrubbed
    · exact finishes_entity
    · exact finishes_providerOperation
    · exact finishes_commercialActionPreview
    · exact finishes_refundRequest
    · exact finishes_promotionCode
    · exact finishes_planGrant
    · exact finishes_promotionRedemption
    · exact finishes_promotionAppleSignatureAttempt
    · exact finishes_balanceAllocation
    · exact finishes_reason (.inl rfl)
    · exact finishes_reason (.inr rfl)
    · rcases scrubbed with rfl | rfl | rfl | rfl | rfl | rfl | rfl | rfl | rfl
      · exact finishes_storeEvent
      · exact finishes_payload (.inl rfl)
      · exact finishes_subscription
      · exact finishes_payload (.inr rfl)
      · exact finishes_subscriptionChange
      · exact finishes_usageAlert
      · exact finishes_autoTopupPolicy
      · exact finishes_audit
      · exact finishes_usageEvent

theorem finished (member : batch ∈ batchesOf step) (apart : context.subjectId ≠ context.erasedMarker)
    {now : Int} (selected : batch.selects context row = true) (changed : batch.change context now row = some next) :
    Settled context next ∧ Forgotten context next ∧ (markerShows context next = true → markerShows context row = true) := by
  rcases batchesOf_cases member with steady | rfl
  · have done := finishes_steady batch steady context now row next apart selected changed
    exact ⟨settled_of steady done.table done.again done.scanned, done.forgotten, done.silent⟩
  · have done := finishes_unlinked context now row next apart selected changed
    obtain rfl := Option.some.inj changed
    have steady : storeEventBatch ∈ steadyBatches := by simp [steadyBatches, scrubBatches]
    exact ⟨settled_of steady done.table (unneeded (blanked_needs row)) done.scanned, done.forgotten, done.silent⟩

theorem Settled.needs (settled : Settled context row) (step : CustomerErasureStep) (member : batch ∈ batchesOf step)
    (table : row.table = batch.table) (project : row.projectId = context.projectId) : batch.needs context row = false := by
  have unselected := settled step batch member
  apply Bool.eq_false_iff.mpr
  intro needed
  rw [selects_iff.mpr ⟨table, project, needed⟩] at unselected
  cases unselected

private theorem second_none {first : Bool} (none : (first && second) = false) (holds : first = true) : second = false := by
  rw [holds, Bool.true_and] at none
  exact none

private theorem own_done {batch : CustomerErasureBatch} (none : batch.needs context row = false)
    (asks : batch.needs context row = (ofCustomer context row && second)) : ofCustomer context row = true → second = false :=
  second_none (asks ▸ none)

private theorem holds_of_not {value : Bool} (none : (!value) = false) : value = true := by
  simpa using none

private theorem erased_names (erased : value.isOtherThan Value.isErasedPayload = false) (name : Text) : value.names name = false := by
  cases value with
  | json document =>
    cases document with
    | object fields =>
      match fields with
      | [(field, .bool true)] => rfl
      | [] => cases erased
      | [(_, .null)] => cases erased
      | [(_, .bool false)] => cases erased
      | [(_, .number _)] => cases erased
      | [(_, .string _)] => cases erased
      | [(_, .array _)] => cases erased
      | [(_, .object _)] => cases erased
      | _ :: _ :: _ => simp [Value.isOtherThan, Value.isErasedPayload] at erased
    | null => rfl
    | bool value => rfl
    | number digits => rfl
    | string text => cases erased
    | array items => cases erased
  | null | infinity => rfl
  | text content => rfl
  | bool value => rfl
  | time at_ => rfl
  | digest of => rfl

theorem Settled.storeEvent_forgotten (settled : Settled context row) (recognized : looksErased context row = false)
    (table : row.table = .storeEvents) : Forgotten context row := by
  intro project
  simp only [looksErased, project, decide_true, Bool.true_and, table] at recognized ⊢
  constructor
  · intro own
    have inside : storeEventBatch ∈ scrubBatches := by simp [scrubBatches]
    obtain ⟨first, -⟩ := Bool.or_eq_false_iff.mp (own_done (settled.needs .scrubPayloads inside table project) rfl own)
    obtain ⟨second, status⟩ := Bool.or_eq_false_iff.mp first
    obtain ⟨payload, error⟩ := Bool.or_eq_false_iff.mp second
    exact ⟨payload, holds_of_not error, status⟩
  · intro unlinked since
    have none : unlinkedStoreEventBatch.needs context row = false :=
      settled.needs .scanUnlinkedStoreEvents List.mem_cons_self table project
    apply Bool.eq_false_iff.mpr
    intro named
    cases shown : (row.columns .rawPayload).shows context.subjectId with
    | false =>
      simp only [unlinked, Option.isNone_none, named, shown] at recognized
      cases recognized
    | true =>
      cases other : (row.columns .rawPayload).isOtherThan Value.isErasedPayload with
      | false =>
        rw [erased_names other] at named
        cases named
      | true =>
        simp only [unlinkedStoreEventBatch, updateBatch, unlinked, Option.isNone_none, since, decide_true, other, shown] at none
        cases none

/-- A settled row that does not merely look erased holds nothing. -/
theorem Settled.forgotten (settled : Settled context row) (recognized : looksErased context row = false)
    (silent : markerShows context row = false) : Forgotten context row := by
  have storeEvent := settled.storeEvent_forgotten recognized
  intro project
  simp only [looksErased, markerShows, project, decide_true, Bool.true_and] at recognized silent
  have deleted {table : Table} (member : deleteBatch table ofCustomer ∈ deleteBatches) (of : row.table = table) :
      ofCustomer context row = false := settled.needs .deleteRows member of project
  have rewritten (batch : CustomerErasureBatch) (member : batch ∈ rewriteBatches) (of : row.table = batch.table) :
      batch.needs context row = false := settled.needs .rewriteIds member of project
  have scrubbed (batch : CustomerErasureBatch) (member : batch ∈ scrubBatches) (of : row.table = batch.table) :
      batch.needs context row = false := settled.needs .scrubPayloads member of project
  cases table : row.table with
  | projectionSyncJobs | domainEvents | referralCodes | checkoutRequests | paymentSetupSessions | clientIdempotencyClaims
  | entitlements | providerCustomers | providerCustomerUnlinks => exact deleted (by simp [deleteBatches]) table
  | paddleCheckoutReservations =>
    simp only [table] at silent
    have closed : (ofAccount context row && !(row.columns .closedAt).isNull) = false :=
      settled.needs .deleteRows (List.mem_of_getLast? rfl) table project
    apply Bool.eq_false_iff.mpr
    intro own
    rw [own, Bool.true_and] at closed silent
    rw [silent] at closed
    cases closed
  | entities =>
    simp only [table] at recognized
    intro own
    obtain ⟨key, metadata⟩ := Bool.or_eq_false_iff.mp (own_done (rewritten entityBatch (by simp [rewriteBatches]) table) rfl own)
    rw [own, key, metadata] at recognized
    cases recognized
  | providerOperations =>
    simp only [table] at recognized
    have none : ofAccount context row = false := rewritten providerOperationBatch (by simp [rewriteBatches]) table
    exact ⟨none, fun marked => absurd marked (Bool.eq_false_iff.mp recognized)⟩
  | commercialActionPreviews =>
    simp only [table] at recognized
    have none : ofAccount context row = false := rewritten commercialActionPreviewBatch (by simp [rewriteBatches]) table
    exact ⟨none, fun marked => absurd marked (Bool.eq_false_iff.mp recognized)⟩
  | refundRequests =>
    simp only [table] at recognized
    have none : ofAccount context row = false := rewritten refundRequestBatch (by simp [rewriteBatches]) table
    exact ⟨none, fun marked => absurd marked (Bool.eq_false_iff.mp recognized)⟩
  | promotionCodes => exact rewritten promotionCodeBatch (by simp [rewriteBatches]) table
  | planGrants =>
    intro own
    exact Bool.or_eq_false_iff.mp (own_done (rewritten planGrantBatch (by simp [rewriteBatches]) table) rfl own)
  | promotionRedemptions =>
    simp only [table] at recognized
    intro own
    rw [own, own_done (rewritten promotionRedemptionBatch (by simp [rewriteBatches]) table) rfl own] at recognized
    cases recognized
  | promotionAppleSignatureAttempts =>
    simp only [table] at recognized
    intro own
    rw [own, own_done (rewritten promotionAppleSignatureAttemptBatch (by simp [rewriteBatches]) table) rfl own] at recognized
    cases recognized
  | balanceAllocations =>
    simp only [table] at recognized
    intro own
    rw [own, own_done (rewritten balanceAllocationBatch (by simp [rewriteBatches]) table) rfl own] at recognized
    cases recognized
  | operatorGrants =>
    exact own_done (rewritten (reasonBatch .operatorGrants) (by simp [rewriteBatches]) table) rfl
  | administrativeDebits =>
    exact own_done (rewritten (reasonBatch .administrativeDebits) (by simp [rewriteBatches]) table) rfl
  | storeEvents => simpa only [table] using storeEvent table project
  | purchases =>
    exact own_done (scrubbed (payloadBatch .purchases) (by simp [scrubBatches]) table) rfl
  | subscriptions =>
    intro own
    obtain ⟨first, -⟩ := Bool.or_eq_false_iff.mp (own_done (scrubbed subscriptionBatch (by simp [scrubBatches]) table) rfl own)
    obtain ⟨rawState, error⟩ := Bool.or_eq_false_iff.mp first
    exact ⟨rawState, holds_of_not error⟩
  | billingInvoices =>
    exact own_done (scrubbed (payloadBatch .billingInvoices) (by simp [scrubBatches]) table) rfl
  | subscriptionChanges =>
    intro own
    exact holds_of_not (own_done (scrubbed subscriptionChangeBatch (by simp [scrubBatches]) table) rfl own)
  | usageAlerts =>
    intro own
    exact Bool.or_eq_false_iff.mp (own_done (scrubbed usageAlertBatch (by simp [scrubBatches]) table) rfl own)
  | autoTopupPolicies =>
    exact own_done (scrubbed autoTopupPolicyBatch (by simp [scrubBatches]) table) rfl
  | catalogAuditLog => exact scrubbed catalogAuditLogBatch (by simp [scrubBatches]) table
  | usageEvents =>
    intro own
    obtain ⟨receipt, metadata⟩ := Bool.or_eq_false_iff.mp
      (own_done (settled.needs .scrubUsageEvents (List.mem_singleton_self usageEventBatch) table project) rfl own)
    exact ⟨holds_of_not receipt, metadata⟩
  | customers =>
    simp only [table] at silent
    exact silent

private theorem shows_blank (blank : isBlank value) {part : Text} (shown : value.shows part = true) :
    emptyObject.shows part = true := by
  cases value with
  | json document =>
    cases document with
    | object fields =>
      cases fields with
      | nil => exact shown
      | cons field rest => cases blank
    | null => cases blank
    | bool value => cases blank
    | number digits => cases blank
    | string text => cases blank
    | array items => cases blank
  | null | infinity => cases shown
  | text content => cases shown
  | bool value => cases shown
  | time at_ => cases shown
  | digest of => cases shown

private theorem shows_erased (erased : value.isOtherThan Value.isErasedPayload = false) {part : Text}
    (shown : value.shows part = true) : erasedPayload.shows part = true := by
  cases value with
  | json document =>
    have same : Value.isErasedPayload (.json document) = true := holds_of_not erased
    simp only [Value.isErasedPayload] at same
    split at same
    · next name found =>
      rw [of_decide_eq_true same] at found
      injection found with equal
      rw [equal] at shown
      exact shown
    · cases same
  | null | infinity => cases shown
  | text content => cases shown
  | bool value => cases shown
  | time at_ => cases shown
  | digest of => cases shown

/-- The verification finds nothing in rows that hold nothing and whose markers do not show the id. -/
theorem residual_none (settled : Settled context row) (forgotten : Forgotten context row) (silent : markerShows context row = false) :
    residualCheck context row = false := by
  apply Bool.eq_false_iff.mpr
  intro found
  have project : row.projectId = context.projectId := of_decide_eq_true (asks_first found)
  have nothing := forgotten project
  simp only [residualCheck, markerShows, project, decide_true, Bool.true_and] at found silent
  have absent {check : Bool} (none : check = false) (holds : check = true) : False := by
    rw [none] at holds
    cases holds
  cases table : row.table with
  | customers | projectionSyncJobs | paddleCheckoutReservations | promotionCodes | catalogAuditLog =>
    simp only [table] at found nothing
    exact absent nothing found
  | providerOperations | commercialActionPreviews | refundRequests =>
    simp only [table] at found nothing
    exact absent nothing.1 found
  | storeEvents =>
    simp only [table] at found silent nothing
    obtain ⟨both, shown⟩ := Bool.and_eq_true_iff.mp found
    obtain ⟨whose, since⟩ := Bool.and_eq_true_iff.mp both
    cases own : ofCustomer context row with
    | true =>
      have marker := shows_erased (nothing.1 own).1 shown
      rw [marker, since, own] at silent
      cases silent
    | false =>
      rw [own, Bool.false_or] at whose
      cases other : (row.columns .rawPayload).isOtherThan Value.isErasedPayload with
      | false =>
        have marker := shows_erased other shown
        rw [marker, since, own, whose, shown] at silent
        cases silent
      | true =>
        have unneeded : unlinkedStoreEventBatch.needs context row = false :=
          settled.needs .scanUnlinkedStoreEvents List.mem_cons_self table project
        simp only [unlinkedStoreEventBatch, updateBatch, whose, since, other, shown] at unneeded
        cases unneeded
  | purchases | billingInvoices =>
    simp only [table] at found silent nothing
    obtain ⟨own, shown⟩ := Bool.and_eq_true_iff.mp found
    rw [own, shows_blank (nothing own) shown] at silent
    cases silent
  | subscriptions =>
    simp only [table] at found silent nothing
    obtain ⟨own, shown⟩ := Bool.and_eq_true_iff.mp found
    rw [own, shows_blank (nothing own).1 shown] at silent
    cases silent
  | promotionRedemptions =>
    simp only [table] at found silent nothing
    obtain ⟨own, shown⟩ := Bool.and_eq_true_iff.mp found
    obtain ⟨-, -, -, result, reversalResult, key, reversalKey⟩ := nothing own
    rw [own, Bool.true_and] at silent
    rcases reversalKey with null | marked
    · simp only [key, null, result, reversalResult, Value.concatenated, Value.isNull, erasedKey, markedKey] at shown silent
      simp only [List.append_nil, if_true] at shown silent
      exact absent silent shown
    · simp only [key, marked, result, reversalResult, Value.concatenated, Value.isNull, erasedKey, markedKey] at shown silent
      simp only [List.append_nil, Bool.false_eq_true, if_false] at shown silent
      exact absent silent shown
  | promotionAppleSignatureAttempts =>
    simp only [table] at found silent nothing
    obtain ⟨own, shown⟩ := Bool.and_eq_true_iff.mp found
    obtain ⟨key, result⟩ := nothing own
    rw [own, Bool.true_and] at silent
    simp only [key, result, erasedKey] at shown
    exact absent silent shown
  | domainEvents | referralCodes | checkoutRequests | paymentSetupSessions | clientIdempotencyClaims | entitlements
  | providerCustomers | providerCustomerUnlinks | entities | planGrants | balanceAllocations | operatorGrants
  | administrativeDebits | subscriptionChanges | usageAlerts | autoTopupPolicies | usageEvents => simp [table] at found

/-- A row of somebody else has nothing for the batches, and the markers do not show in it. -/
theorem Elsewhere.settled (elsewhere : Elsewhere context row) : Settled context row ∧ markerShows context row = false := by
  obtain ⟨foreign, -, unshown⟩ := elsewhere
  have unscanned : unlinkedStoreEventBatch.selects context row = false := by
    apply Bool.eq_false_iff.mpr
    intro selected
    obtain ⟨table, -, needed⟩ := selects_iff.mp selected
    obtain ⟨first, shown⟩ := Bool.and_eq_true_iff.mp needed
    have unlinked : row.customerId = none := Option.isNone_iff_eq_none.mp (asks_first (asks_first first))
    rw [unshown table unlinked] at shown
    cases shown
  constructor
  · intro step batch member
    apply Bool.eq_false_iff.mpr
    intro selected
    rw [selects_belongs member selected fun scanned => absurd scanned (Bool.eq_false_iff.mp unscanned)] at foreign
    cases foreign
  · apply Bool.eq_false_iff.mpr
    intro shown
    have project : row.projectId = context.projectId := of_decide_eq_true (asks_first shown)
    simp only [belongs, project, decide_true, Bool.true_and, Bool.or_eq_false_iff] at foreign
    obtain ⟨⟨⟨customer, account⟩, -⟩, -⟩ := foreign
    simp only [markerShows, project, decide_true, Bool.true_and, customer, Bool.false_and, Bool.false_or] at shown
    split at shown
    · next table => simp [table, Table.hasAccountId, shown] at account
    · next table => simp [table, Table.hasAccountId, asks_first shown] at account
    · next table =>
      obtain ⟨unlinked, payload⟩ := Bool.and_eq_true_iff.mp (Bool.and_eq_true_iff.mp shown).2
      rw [unshown table (Option.isNone_iff_eq_none.mp unlinked)] at payload
      cases payload
    all_goals cases shown

end Rows

end Quotum.ErasureRuns
