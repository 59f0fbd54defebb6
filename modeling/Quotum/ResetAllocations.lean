import Quotum.Decimal
import Quotum.General.Table
import Quotum.MeterLimitWindows
import Quotum.SubscriptionChanges

/-! The allowances of one subscription's resetting plan items: what a provider sync grants for a period, and what syncs
and maintenance runs grant for the reset windows of a period that the reset splits. -/

namespace Quotum.ResetAllocations
open General Cadences SubscriptionChanges

inductive Expiry where
  | never
  | seconds (count : Nat)
  | interval (cadence : Cadence)
  deriving DecidableEq

structure PlanItem where
  id : Nat
  quantity : Nat
  reset : Cadence
  expiry : Expiry
  entityScoped : Bool
  nonConsumable : Bool
  billing : Option Cadence
  deriving DecidableEq

structure StoredSubscription where
  status : SubscriptionStatus
  startsAt : Int
  expiresAt : Option Int
  currentPeriodStart : Option Int
  currentPeriodEnd : Option Int
  entityId : Option Nat
  items : List PlanItem
  deriving DecidableEq

structure SourceKey where
  item : PlanItem
  period : Bounds
  deriving DecidableEq

/-- A balance allocation of a subscription. It also keeps the recorded period under which it got its own; a row that is
older than these grants has none. -/
structure AllowanceRow where
  id : Nat
  item : PlanItem
  sourceKey : SourceKey
  quantity : Nat
  reversedQuantity : Nat
  consumedQuantity : Nat
  heldQuantity : Nat
  period : Bounds
  expiresAt : Option Int
  reversedAt : Option Int
  grantedUnder : Option Bounds
  deriving DecidableEq

structure Allowances where
  stored : StoredSubscription
  rows : List AllowanceRow
  deriving DecidableEq

structure SubscriptionAllocationPeriodResult where
  granted : Nat
  transitioned : Nat
  deriving DecidableEq

def maxExpirySeconds : Nat := 3653 * 24 * 60 * 60

def storedExpiresAt (anchor : Int) : Expiry → Option Int
  | .never => none
  | .seconds count => some (anchor + min count maxExpirySeconds * 1000)
  | .interval cadence => some (nextCadence anchor cadence)

/-- The earlier of two instants, where an absent one does not count. -/
def least (first second : Option Int) : Option Int :=
  match first, second with
  | some one, some other => some (min one other)
  | some one, none => some one
  | none, other => other

def PlanItem.splits (item : PlanItem) (period : Bounds) : Bool :=
  periodSplits item.reset item.billing period

namespace StoredSubscription

def period (stored : StoredSubscription) : Bounds where
  startAt := stored.currentPeriodStart.getD stored.startsAt
  endAt := stored.currentPeriodEnd.or stored.expiresAt

def funds (stored : StoredSubscription) : Bool :=
  stored.status ∈ allocationFundingStatuses

def active (stored : StoredSubscription) (now : Int) : Bool :=
  stored.funds && decide (stored.period.startAt ≤ now) && stored.period.endAt.any (fun ending => decide (now < ending)) &&
    stored.expiresAt.all fun expiry => decide (now < expiry)

def splitItems (stored : StoredSubscription) : List PlanItem :=
  stored.items.filter fun item => item.splits stored.period

end StoredSubscription

namespace AllowanceRow

def spans (item : PlanItem) (window : Bounds) (row : AllowanceRow) : Bool :=
  decide (row.item = item) && row.period.covers window && decide (row.period ≠ window)

def adopt (item : PlanItem) (period window : Bounds) (row : AllowanceRow) : AllowanceRow :=
  if row.spans item window = true then
    { row with period := window, expiresAt := least row.expiresAt window.endAt, grantedUnder := some period }
  else row

def isLive (row : AllowanceRow) (now : Int) : Bool :=
  row.reversedAt.isNone && row.expiresAt.all fun expiry => decide (now < expiry)

end AllowanceRow

/-- When the grant of a reset window expires: with the window, or by the item's expiry before that. -/
def windowExpiresAt (item : PlanItem) (window : Bounds) : Option Int :=
  match storedExpiresAt window.startAt item.expiry with
  | none => window.endAt
  | some expiry => if window.endAt.any (fun ending => decide (ending < expiry)) = true then window.endAt else some expiry

def periodExpiresAt (item : PlanItem) (period : Bounds) : Option Int :=
  match storedExpiresAt period.startAt item.expiry with
  | none => period.endAt
  | some expiry => least period.endAt (some expiry)

def newRow (id : Nat) (item : PlanItem) (recorded granted : Bounds) (expiresAt : Option Int) : AllowanceRow where
  id := id
  item := item
  sourceKey := ⟨item, granted⟩
  quantity := item.quantity
  reversedQuantity := 0
  consumedQuantity := 0
  heldQuantity := 0
  period := granted
  expiresAt := expiresAt
  reversedAt := none
  grantedUnder := some recorded

def isTaken (key : SourceKey) (rows : List AllowanceRow) : Bool :=
  rows.any fun row => row.sourceKey == key

def holdsWindow (item : PlanItem) (window : Bounds) (rows : List AllowanceRow) : Bool :=
  rows.any fun row => row.item == item && row.period == window

def grantWindow (stored : StoredSubscription) (now : Int) (granted : List AllowanceRow × SubscriptionAllocationPeriodResult)
    (item : PlanItem) : Except Failure (List AllowanceRow × SubscriptionAllocationPeriodResult) :=
  let (rows, result) := granted
  let window := planGrantWindowBounds stored.period item.reset now
  if item.entityScoped = true ∧ stored.entityId = none then
    .error (.internal "Entity-scoped plan allocations require an entity-scoped subscription")
  else
    let adopted := rows.map (AllowanceRow.adopt item stored.period window)
    let transitioned := result.transitioned + rows.countP (AllowanceRow.spans item window)
    if holdsWindow item window adopted = true ∨ isTaken ⟨item, window⟩ adopted = true then
      .ok (adopted, ⟨result.granted, transitioned⟩)
    else
      .ok (adopted ++ [newRow rows.length item stored.period window (windowExpiresAt item window)],
        ⟨result.granted + 1, transitioned⟩)

/-- Grants the current reset window of every item that resets more often than its plan bills. -/
def materializeSubscriptionResetAllocations (now : Int) (allowances : Allowances) :
    Except Failure (Allowances × SubscriptionAllocationPeriodResult) :=
  if allowances.stored.active now = true then do
    let granted ← allowances.stored.splitItems.foldlM (grantWindow allowances.stored now) (allowances.rows, ⟨0, 0⟩)
    .ok (⟨allowances.stored, granted.1⟩, granted.2)
  else .ok (allowances, ⟨0, 0⟩)

/-- Whether a row funds an instant, as a maintenance run sees it: a grant of the whole period that a reset splits does not. -/
def AllowanceRow.fundsAt (stored : StoredSubscription) (now : Int) (row : AllowanceRow) : Bool :=
  decide (row.period.startAt ≤ now) && row.period.endAt.any (fun ending => decide (now < ending)) &&
    !(row.period == stored.period &&
      row.period.endAt.any fun ending => decide (nextCadence row.period.startAt row.item.reset < ending))

/-- Whether a maintenance run picks a subscription up: one of its split items has no grant that funds the instant. -/
def Allowances.isDue (now : Int) (allowances : Allowances) : Bool :=
  allowances.stored.active now && allowances.stored.splitItems.any fun item =>
    !(allowances.rows.any fun row => row.item == item && row.fundsAt allowances.stored now)

def materializeDueSubscriptionAllocations (now : Int) (allowances : Allowances) :
    Except Failure (Allowances × SubscriptionAllocationPeriodResult) :=
  if allowances.isDue now = true then materializeSubscriptionResetAllocations now allowances else .ok (allowances, ⟨0, 0⟩)

/-- Grants an item for a whole provider period that its reset does not split. -/
def grantPeriod (period : Bounds) (now : Int) (rows : List AllowanceRow) (item : PlanItem) : Except Failure (List AllowanceRow) :=
  if item.splits period = true then .ok rows
  else if item.nonConsumable = true ∧
      (rows.any fun row => row.item == item && row.isLive now && row.period.startAt == period.startAt) = true then
    .ok rows
  else if isTaken ⟨item, period⟩ rows = true then .ok rows
  else if period.endAt.any (fun ending => decide (ending ≤ period.startAt)) = true then
    .error (.internal "balance_allocations_period_check")
  else .ok (rows ++ [newRow rows.length item period period (periodExpiresAt item period)])

structure PeriodSync where
  stored : StoredSubscription
  period : Bounds
  now : Int
  deriving DecidableEq

def AllowanceRow.reverse (now : Int) (row : AllowanceRow) : AllowanceRow :=
  { row with reversedAt := row.reversedAt.or (some now) }

/-- The part of a sync that grants: the period of the items it does not split, then the reset windows of the others. -/
def syncAllowances (input : PeriodSync) (allowances : Allowances) : Except Failure (Allowances × Nat) :=
  if input.stored.funds = false then
    if input.stored.status = .refunded ∨ input.stored.status = .revoked then
      .ok (⟨input.stored, allowances.rows.map (AllowanceRow.reverse input.now)⟩, 0)
    else .ok (⟨input.stored, allowances.rows⟩, 0)
  else if (input.stored.items.any fun item => item.entityScoped) = true ∧ input.stored.entityId = none then
    .error (.internal "Entity-scoped plan allocations require an entity-scoped subscription")
  else do
    let rows ← input.stored.items.foldlM (grantPeriod input.period input.now) allowances.rows
    let (granted, windows) ← materializeSubscriptionResetAllocations input.now ⟨input.stored, rows⟩
    .ok (granted, rows.length - allowances.rows.length + windows.granted)

structure RowWrite where
  quantity : Nat
  reversedQuantity : Nat
  consumedQuantity : Nat
  heldQuantity : Nat
  expiresAt : Option Int
  reversedAt : Option Int
  deriving DecidableEq

def AllowanceRow.write (values : RowWrite) (row : AllowanceRow) : AllowanceRow :=
  { row with
    quantity := values.quantity
    reversedQuantity := values.reversedQuantity
    consumedQuantity := values.consumedQuantity
    heldQuantity := values.heldQuantity
    expiresAt := values.expiresAt
    reversedAt := values.reversedAt }

inductive AllowanceStep where
  | sync (input : PeriodSync)
  | maintain (now : Int)
  | write (id : Nat) (values : RowWrite)
  deriving DecidableEq

def AllowanceStep.apply (allowances : Allowances) : AllowanceStep → Except Failure Allowances
  | .sync input => (syncAllowances input allowances).map Prod.fst
  | .maintain now => (materializeDueSubscriptionAllocations now allowances).map Prod.fst
  | .write id values =>
    .ok { allowances with rows := updateAt AllowanceRow.id id (AllowanceRow.write values) allowances.rows }

end Quotum.ResetAllocations
