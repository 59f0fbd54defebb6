import Quotum.Allocations
import Quotum.General.Waterfall

/-! Non-consumable levels kept across a plan switch: the allowance that holds a level moves
to the incoming version's item, and shrinks back as the level falls. -/

namespace Quotum.KeptLevels
open General

structure Switch where
  subscription : Nat
  outgoingPlanVersion : Nat
  incomingPlanVersion : Nat
  periodStartAt : Time
  periodEndAt : Option Time

section Keep
variable (catalog : Catalog) (now : Time) (switch : Switch)

/-- The incoming version's item a row's level moves to, when the row is an open allowance of the
outgoing version that holds a level. -/
def incomingItem (row : Allocation) : Option PlanItem :=
  if row.subscription = some switch.subscription ∧ row.sourceKind = .subscription ∧ row.isOpen now ∧
      (catalog.item row).any (fun item => item.planVersion == switch.outgoingPlanVersion) ∧
      catalog.nonConsumable row.feature then
    catalog.items.find? fun item =>
      item.planVersion == switch.incomingPlanVersion && item.allocates && item.feature == row.feature &&
        item.entityScoped == row.entity.isSome &&
        !catalog.splitsPeriod item switch.periodStartAt switch.periodEndAt
  else none

def levelGroup (rows : List Allocation) (row : Allocation) : List Allocation :=
  rows.filter fun other =>
    (incomingItem catalog now switch other).isSome && other.feature == row.feature && other.entity == row.entity

def holdsMost (group : List Allocation) (row : Allocation) : Bool :=
  group.all fun other => !(decide (row.level < other.level) || (row.level == other.level && decide (other.id < row.id)))

def groupLevel (group : List Allocation) : Nat :=
  (group.map Allocation.level).sum

def keptExpiry (item : PlanItem) : Option Time :=
  match item.expiryAfter, switch.periodEndAt with
  | some expiry, some periodEnd => some (min periodEnd (expiry switch.periodStartAt))
  | some expiry, none => some (expiry switch.periodStartAt)
  | none, periodEnd => if item.resets then periodEnd else none

def keepRow (rows : List Allocation) (row : Allocation) : Allocation :=
  match incomingItem catalog now switch row with
  | none => row
  | some item =>
    let group := levelGroup catalog now switch rows row
    let first := holdsMost group row
    if groupLevel group > 0 ∧ (row.level > 0 ∨ first) then
      { row with
        planItem := some item.id
        quantity := row.level + row.reversedQuantity + if first then item.quantity - groupLevel group else 0
        periodStartAt := some switch.periodStartAt
        periodEndAt := if item.lifetime then none else switch.periodEndAt
        expiresAt := keptExpiry switch item }
    else row

def keepNonConsumableLevels (rows : List Allocation) : List Allocation :=
  rows.map (keepRow catalog now switch rows)

end Keep

/-- What a row may not shrink below. -/
def floor (row : Allocation) : Nat :=
  row.level + row.reversedQuantity

def room (row : Allocation) : Int :=
  (row.quantity : Int) - floor row

/-- Rows give room in this order: the most room first, the newest of equal ones. -/
def shrinkOrder (row : Allocation) : Int ×ₗ Nat :=
  toLex (room row, row.id)

def sameLevel (row other : Allocation) : Bool :=
  row.subscription == other.subscription && row.planItem == other.planItem && row.feature == other.feature &&
    row.entity == other.entity

section Shrink
variable (catalog : Catalog) (now : Time)

def isMember (row : Allocation) : Bool :=
  row.sourceKind == .subscription && row.subscription.isSome && (catalog.item row).isSome && row.isOpen now &&
    catalog.nonConsumable row.feature

def members (rows : List Allocation) (row : Allocation) : List Allocation :=
  rows.filter fun other => isMember catalog now other && sameLevel row other

def touched (ids : List AllocationId) (rows : List Allocation) (row : Allocation) : Bool :=
  rows.any fun other => ids.contains other.id && other.sourceKind == .subscription && sameLevel row other

/-- Allowances of a lifetime item that renewals stacked and no switch has moved. -/
def stacked (row : Allocation) : Bool :=
  (catalog.item row).any PlanItem.lifetime && row.periodEndAt.isSome

def excess (item : PlanItem) (group : List Allocation) : Int :=
  ((group.map Allocation.quantity).sum : Int) - max (item.quantity : Int) ((group.map floor).sum : Int)

def shrinkTaken (rows : List Allocation) (row : Allocation) : Int :=
  match catalog.item row with
  | none => 0
  | some item =>
    let group := members catalog now rows row
    if excess item group > 0 ∧ (group.length = 1 ∨ ¬group.any (stacked catalog)) then
      windowTaken room shrinkOrder (excess item group) group row
    else 0

def shrinkRow (ids : List AllocationId) (rows : List Allocation) (row : Allocation) : Except Failure Allocation :=
  let taken := shrinkTaken catalog now rows row
  if isMember catalog now row ∧ touched ids rows row ∧ taken > 0 then
    let shrunk := { row with quantity := (row.quantity - taken).toNat }
    if shrunk.checked then .ok shrunk
    else .error (.internal "new row for relation balance_allocations violates check constraint")
  else .ok row

def shrinkKeptLevels (ids : List AllocationId) (rows : List Allocation) : Except Failure (List Allocation) :=
  if ids = [] then .ok rows else rows.mapM (shrinkRow catalog now ids rows)

end Shrink

end Quotum.KeptLevels
