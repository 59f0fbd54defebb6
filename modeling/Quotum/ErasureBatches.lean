import Quotum.General.Json

/-! What an erasure does with the rows of one account, batch by batch: which rows a batch selects and what it makes of them. -/

namespace Quotum.ErasureBatches
open General

abbrev Text := List Char

inductive Table where
  | projectionSyncJobs
  | domainEvents
  | referralCodes
  | checkoutRequests
  | paymentSetupSessions
  | clientIdempotencyClaims
  | entitlements
  | providerCustomers
  | providerCustomerUnlinks
  | paddleCheckoutReservations
  | entities
  | providerOperations
  | commercialActionPreviews
  | refundRequests
  | promotionCodes
  | planGrants
  | promotionRedemptions
  | promotionAppleSignatureAttempts
  | balanceAllocations
  | operatorGrants
  | administrativeDebits
  | storeEvents
  | purchases
  | subscriptions
  | billingInvoices
  | subscriptionChanges
  | usageAlerts
  | autoTopupPolicies
  | catalogAuditLog
  | usageEvents
  | customers
  deriving DecidableEq

inductive Column where
  | billingAccountId
  | closedAt
  | externalId
  | metadata
  | resourceKey
  | requestHash
  | request
  | result
  | intent
  | preview
  | providerContext
  | intentHash
  | stateFingerprint
  | executionResult
  | reason
  | executionIdempotencyKey
  | providerIdempotencyKey
  | active
  | deactivatedAt
  | deactivatedBy
  | actor
  | reversalReason
  | reversalResult
  | idempotencyKey
  | reversalIdempotencyKey
  | sourceKey
  | rawPayload
  | processingError
  | processingStatus
  | nextAttemptAt
  | lockedAt
  | lockedBy
  | rawState
  | providerReconciliationError
  | providerReconciliationNextAttemptAt
  | lastError
  | details
  | receipt
  deriving DecidableEq

/-- A column's value; `infinity` is later than every time, a digest stands for the text it is taken of. -/
inductive Value where
  | null
  | text (text : Text)
  | json (json : Json)
  | bool (value : Bool)
  | time (at_ : Int)
  | infinity
  | digest (of : Text)

structure Row where
  key : Nat
  table : Table
  id : Text
  projectId : Nat
  customerId : Option Nat
  createdAt : Int
  columns : Column → Value

/-- Everything a step needs to find one account's rows after its id was rewritten. -/
structure CustomerErasureContext where
  projectId : Nat
  customerId : Nat
  erasureId : Text
  /-- The original billing account id. -/
  subjectId : Text
  /-- When the account row was first written, which bounds the unlinked store-event scan. -/
  customerCreatedAt : Int
  deriving DecidableEq

def occurs (part whole : Text) : Bool := decide (part <:+: whole)

def erasedPrefix : Text := "erased:".toList

namespace Value

def isNull : Value → Bool
  | .null => true
  | _ => false

def isText (text : Text) : Value → Bool
  | .text other => decide (other = text)
  | _ => false

/-- `<> text`, which is not true of null. -/
def isOtherText (text : Text) : Value → Bool
  | .text other => !decide (other = text)
  | _ => false

def notLikeErased : Value → Bool
  | .text content => !erasedPrefix.isPrefixOf content
  | _ => false

def isEmptyObject : Value → Bool
  | .json (.object []) => true
  | _ => false

def isErasedPayload : Value → Bool
  | .json (.object [(name, .bool true)]) => decide (name = "erased".toList)
  | _ => false

/-- `<>` an empty document, or the marker: not true of null. -/
def isOtherThan (constant : Value → Bool) : Value → Bool
  | .json document => !constant (.json document)
  | _ => false

def isTrue : Value → Bool
  | .bool value => value
  | _ => false

def before (moment : Int) : Value → Bool
  | .time at_ => decide (at_ < moment)
  | _ => false

def isFinite : Value → Bool
  | .time _ => true
  | _ => false

def shows (part : Text) : Value → Bool
  | .json document => occurs part document.text
  | _ => false

/-- The value in a concatenation: null adds nothing. -/
def concatenated : Value → Text
  | .text content => content
  | .json document => document.text
  | _ => []

def names (name : Text) : Value → Bool
  | .json document => document.strings.contains name
  | _ => false

def fieldIs (field text : Text) : Value → Bool
  | .json document => decide (document.textAt field = some text)
  | _ => false

end Value

namespace Row

def assign (assignments : List (Column × Value)) (row : Row) : Row :=
  { row with columns := assignments.foldl (fun columns entry => Function.update columns entry.1 entry.2) row.columns }

def isOf (column : Column) (text : Text) (row : Row) : Bool := (row.columns column).isText text

def keptNull (column : Column) (value : Value) (row : Row) : Value :=
  if (row.columns column).isNull then .null else value

end Row

/-- One bounded unit of work on a table: the rows that still need it, and what becomes of one at a time (none deletes it). -/
structure CustomerErasureBatch where
  table : Table
  needs : CustomerErasureContext → Row → Bool
  change : CustomerErasureContext → Int → Row → Option Row

def deleteBatch (table : Table) (needs : CustomerErasureContext → Row → Bool) : CustomerErasureBatch :=
  ⟨table, needs, fun _ _ _ => none⟩

/-- Updates the rows that still need it. -/
def updateBatch (table : Table) (assignments : CustomerErasureContext → Int → Row → List (Column × Value))
    (needs : CustomerErasureContext → Row → Bool) : CustomerErasureBatch :=
  ⟨table, needs, fun context now row => some (row.assign (assignments context now row))⟩

namespace CustomerErasureContext

def erasedMarker (context : CustomerErasureContext) : Text := erasedPrefix ++ context.erasureId

def accountActor (context : CustomerErasureContext) : Text := "billing-account:".toList ++ context.subjectId

end CustomerErasureContext

def ofCustomer (context : CustomerErasureContext) (row : Row) : Bool := decide (row.customerId = some context.customerId)

def ofAccount (context : CustomerErasureContext) (row : Row) : Bool := row.isOf .billingAccountId context.subjectId

def erasedKey (row : Row) : Value := .text (erasedPrefix ++ row.id)

def emptyObject : Value := .json (.object [])

def erasedPayload : Value := .json (.object [("erased".toList, .bool true)])

/-- The actor after the erasure: another actor than the account itself stays. -/
def erasedActor (context : CustomerErasureContext) (row : Row) : Value :=
  if row.isOf .actor context.accountActor then .text context.erasedMarker else row.columns .actor

def deleteBatches : List CustomerErasureBatch :=
  [deleteBatch .projectionSyncJobs ofCustomer,
    deleteBatch .domainEvents ofCustomer,
    deleteBatch .referralCodes ofCustomer,
    deleteBatch .checkoutRequests ofCustomer,
    deleteBatch .paymentSetupSessions ofCustomer,
    deleteBatch .clientIdempotencyClaims ofCustomer,
    deleteBatch .entitlements ofCustomer,
    deleteBatch .providerCustomers ofCustomer,
    deleteBatch .providerCustomerUnlinks ofCustomer,
    deleteBatch .paddleCheckoutReservations fun context row => ofAccount context row && !(row.columns .closedAt).isNull]

def entityBatch : CustomerErasureBatch :=
  updateBatch .entities
    (fun context _ row => [(.externalId, .text (context.erasedMarker ++ ':' :: row.id)), (.metadata, emptyObject)])
    fun context row => ofCustomer context row &&
      ((row.columns .externalId).notLikeErased || (row.columns .metadata).isOtherThan Value.isEmptyObject)

def providerOperationBatch : CustomerErasureBatch :=
  updateBatch .providerOperations
    (fun context _ row => [(.billingAccountId, .text context.erasedMarker), (.resourceKey, erasedKey row), (.requestHash, .digest row.id),
      (.request, emptyObject), (.result, row.keptNull .result emptyObject)])
    ofAccount

def commercialActionPreviewBatch : CustomerErasureBatch :=
  updateBatch .commercialActionPreviews
    (fun context _ row => [(.billingAccountId, .text context.erasedMarker), (.intent, emptyObject), (.preview, emptyObject),
      (.providerContext, emptyObject), (.intentHash, .digest row.id), (.stateFingerprint, .digest row.id),
      (.executionResult, row.keptNull .executionResult emptyObject)])
    ofAccount

/-- The amount, currency and provider ids stay as the financial fact; the account id, the reason and the keys do not. -/
def refundRequestBatch : CustomerErasureBatch :=
  updateBatch .refundRequests
    (fun context _ row => [(.billingAccountId, .text context.erasedMarker), (.reason, .text "erased".toList),
      (.executionIdempotencyKey, erasedKey row), (.providerIdempotencyKey, erasedKey row)])
    ofAccount

def promotionCodeBatch : CustomerErasureBatch :=
  updateBatch .promotionCodes
    (fun context now row => [(.billingAccountId, .text context.erasedMarker), (.active, .bool false),
      (.deactivatedAt, if (row.columns .deactivatedAt).isNull then .time now else row.columns .deactivatedAt),
      (.deactivatedBy, if (row.columns .deactivatedBy).isNull then .text "system:customer-erasure".toList else row.columns .deactivatedBy)])
    ofAccount

def planGrantBatch : CustomerErasureBatch :=
  updateBatch .planGrants (fun context _ row => [(.actor, erasedActor context row), (.metadata, emptyObject)])
    fun context row => ofCustomer context row &&
      (row.isOf .actor context.accountActor || (row.columns .metadata).isOtherThan Value.isEmptyObject)

/-- The ledger of what was redeemed stays; the stored replies, reasons and keys do not. -/
def promotionRedemptionBatch : CustomerErasureBatch :=
  updateBatch .promotionRedemptions
    (fun context _ row => [(.actor, erasedActor context row), (.reason, .null), (.reversalReason, .null), (.result, .null),
      (.reversalResult, .null), (.idempotencyKey, erasedKey row),
      (.reversalIdempotencyKey, row.keptNull .reversalIdempotencyKey (erasedKey row))])
    fun context row => ofCustomer context row && (row.columns .idempotencyKey).notLikeErased

def promotionAppleSignatureAttemptBatch : CustomerErasureBatch :=
  updateBatch .promotionAppleSignatureAttempts (fun _ _ row => [(.idempotencyKey, erasedKey row), (.result, emptyObject)])
    fun context row => ofCustomer context row && (row.columns .idempotencyKey).notLikeErased

def balanceAllocationBatch : CustomerErasureBatch :=
  updateBatch .balanceAllocations (fun _ _ row => [(.sourceKey, erasedKey row)])
    fun context row => ofCustomer context row && (row.columns .sourceKey).notLikeErased

/-- Grants and debits keep all but their reasons. -/
def reasonBatch (table : Table) : CustomerErasureBatch :=
  updateBatch table (fun _ _ _ => [(.reason, .text "erased".toList)])
    fun context row => ofCustomer context row && (row.columns .reason).isOtherText "erased".toList

def rewriteBatches : List CustomerErasureBatch :=
  [entityBatch, providerOperationBatch, commercialActionPreviewBatch, refundRequestBatch, promotionCodeBatch, planGrantBatch,
    promotionRedemptionBatch, promotionAppleSignatureAttemptBatch, balanceAllocationBatch, reasonBatch .operatorGrants,
    reasonBatch .administrativeDebits]

/-- Whether a replay worker may still take a store event. -/
def isOpenStatus (status : Value) : Bool :=
  status.isText "pending".toList || status.isText "processing".toList || status.isText "failed".toList

/-- A blanked store event: terminal, so that the replay worker never claims it again. -/
def blankedEvent (row : Row) : List (Column × Value) :=
  [(.rawPayload, erasedPayload), (.processingError, .null),
    (.processingStatus, if isOpenStatus (row.columns .processingStatus) then .text "skipped".toList else row.columns .processingStatus),
    (.nextAttemptAt, .infinity), (.lockedAt, .null), (.lockedBy, .null)]

def storeEventBatch : CustomerErasureBatch :=
  updateBatch .storeEvents (fun _ _ row => blankedEvent row) fun context row => ofCustomer context row &&
    ((row.columns .rawPayload).isOtherThan Value.isErasedPayload || !(row.columns .processingError).isNull ||
      isOpenStatus (row.columns .processingStatus) || (row.columns .nextAttemptAt).isFinite)

def payloadBatch (table : Table) : CustomerErasureBatch :=
  updateBatch table (fun _ _ _ => [(.rawPayload, emptyObject)])
    fun context row => ofCustomer context row && (row.columns .rawPayload).isOtherThan Value.isEmptyObject

/-- The start of the last day of the year 9999, in milliseconds. -/
def farFuture : Int := 253402214400000

def subscriptionBatch : CustomerErasureBatch :=
  updateBatch .subscriptions
    (fun _ _ _ => [(.rawState, emptyObject), (.providerReconciliationError, .null),
      (.providerReconciliationNextAttemptAt, .time farFuture)])
    fun context row => ofCustomer context row && ((row.columns .rawState).isOtherThan Value.isEmptyObject ||
      !(row.columns .providerReconciliationError).isNull || (row.columns .providerReconciliationNextAttemptAt).before farFuture)

def subscriptionChangeBatch : CustomerErasureBatch :=
  updateBatch .subscriptionChanges (fun _ _ _ => [(.lastError, .null)])
    fun context row => ofCustomer context row && !(row.columns .lastError).isNull

def usageAlertBatch : CustomerErasureBatch :=
  updateBatch .usageAlerts (fun _ _ _ => [(.active, .bool false), (.metadata, emptyObject)])
    fun context row => ofCustomer context row &&
      ((row.columns .active).isTrue || (row.columns .metadata).isOtherThan Value.isEmptyObject)

def autoTopupPolicyBatch : CustomerErasureBatch :=
  updateBatch .autoTopupPolicies (fun _ _ _ => [(.active, .bool false)])
    fun context row => ofCustomer context row && (row.columns .active).isTrue

def auditNames (context : CustomerErasureContext) (row : Row) : Bool :=
  (row.columns .details).fieldIs "billingAccountId".toList context.subjectId

def catalogAuditLogBatch : CustomerErasureBatch :=
  updateBatch .catalogAuditLog (fun _ _ _ => [(.details, erasedPayload)]) auditNames

def scrubBatches : List CustomerErasureBatch :=
  [storeEventBatch, payloadBatch .purchases, subscriptionBatch, payloadBatch .billingInvoices, subscriptionChangeBatch, usageAlertBatch,
    autoTopupPolicyBatch, catalogAuditLogBatch]

def keptMetadata : List Text :=
  ["usageWindowId".toList, "usageWindowStartAt".toList, "usageWindowEndAt".toList, "actor".toList]

def restrictedMetadata (value : Value) : Value :=
  match value with
  | .json json => .json (json.restrict keptMetadata)
  | other => other

def hasOtherMetadata (value : Value) : Bool :=
  match value with
  | .json json => !json.within keptMetadata
  | _ => false

def usageEventBatch : CustomerErasureBatch :=
  updateBatch .usageEvents (fun _ _ row => [(.receipt, .null), (.metadata, restrictedMetadata (row.columns .metadata))])
    fun context row => ofCustomer context row && (!(row.columns .receipt).isNull || hasOtherMetadata (row.columns .metadata))

/-- Store events that never resolved to the account are found only by their payload. -/
def unlinkedStoreEventBatch : CustomerErasureBatch :=
  updateBatch .storeEvents (fun _ _ row => blankedEvent row) fun context row => row.customerId.isNone &&
    decide (context.customerCreatedAt ≤ row.createdAt) && (row.columns .rawPayload).isOtherThan Value.isErasedPayload &&
    (row.columns .rawPayload).shows context.subjectId

inductive CustomerErasureStep where
  | deleteRows
  | rewriteIds
  | scrubPayloads
  | scrubUsageEvents
  | scanUnlinkedStoreEvents
  | verify
  deriving DecidableEq

def batchesOf : CustomerErasureStep → List CustomerErasureBatch
  | .deleteRows => deleteBatches
  | .rewriteIds => rewriteBatches
  | .scrubPayloads => scrubBatches
  | .scrubUsageEvents => [usageEventBatch]
  | .scanUnlinkedStoreEvents => [unlinkedStoreEventBatch]
  | .verify => []

namespace CustomerErasureBatch

def selects (batch : CustomerErasureBatch) (context : CustomerErasureContext) (row : Row) : Bool :=
  decide (row.table = batch.table) && decide (row.projectId = context.projectId) && batch.needs context row

/-- Runs a batch on the rows it finds first, which the database chooses among those it selects. -/
def run (batch : CustomerErasureBatch) (context : CustomerErasureContext) (now : Int) (chosen : List Nat) (rows : List Row) : List Row :=
  rows.filterMap fun row => if batch.selects context row && chosen.contains row.key then batch.change context now row else some row

end CustomerErasureBatch

def Table.hasAccountId : Table → Bool
  | .paddleCheckoutReservations | .providerOperations | .commercialActionPreviews | .refundRequests | .promotionCodes
  | .paymentSetupSessions | .customers => true
  | _ => false

/-- Whether a row belongs to the account: by its customer, by its account id, as an audit entry or an unlinked store event that names it. -/
def belongs (context : CustomerErasureContext) (row : Row) : Bool :=
  decide (row.projectId = context.projectId) && (ofCustomer context row || (row.table.hasAccountId && ofAccount context row) ||
    (decide (row.table = .catalogAuditLog) && auditNames context row) ||
    (decide (row.table = .storeEvents) && row.customerId.isNone && (row.columns .rawPayload).names context.subjectId))

structure Database where
  rows : List Row
  distinct : (rows.map Row.key).Nodup

structure BatchRun where
  step : CustomerErasureStep
  index : Nat
  now : Int
  chosen : List Nat
  deriving DecidableEq

def BatchRun.perform (context : CustomerErasureContext) (rows : List Row) (batchRun : BatchRun) : List Row :=
  match (batchesOf batchRun.step)[batchRun.index]? with
  | none => rows
  | some batch => batch.run context batchRun.now batchRun.chosen rows

/-- Some batches of an erasure, in any order and any choice of rows. -/
def runBatches (context : CustomerErasureContext) (rows : List Row) (batchRuns : List BatchRun) : List Row :=
  batchRuns.foldl (BatchRun.perform context) rows

end Quotum.ErasureBatches
