import Quotum.Decimal

/-! Balance allocations: the rows a wallet's quantity is granted, spent and held on.
Quantities are integer units of the feature's scale. -/

namespace Quotum

abbrev Time := Nat

abbrev AllocationId := Nat

inductive SourceKind where
  | subscription
  | purchase
  | creditGrant
  | topup
  | reward
  | operator
  | rollover
  | carryOver
  deriving DecidableEq

structure Allocation where
  id : AllocationId
  subscription : Option Nat
  planItem : Option Nat
  feature : Nat
  entity : Option Nat
  sourceKind : SourceKind
  quantity : Nat
  reversedQuantity : Nat
  consumedQuantity : Nat
  heldQuantity : Nat
  periodStartAt : Option Time
  periodEndAt : Option Time
  expiresAt : Option Time
  reversedAt : Option Time
  createdAt : Time
  deriving DecidableEq

namespace Allocation

def level (row : Allocation) : Nat :=
  row.consumedQuantity + row.heldQuantity

/-- What a row grants once its reversals are taken off. -/
def net (row : Allocation) : Int :=
  (row.quantity : Int) - row.reversedQuantity

/-- What a row can still give. -/
def available (row : Allocation) : Int :=
  (row.quantity : Int) - row.reversedQuantity - row.consumedQuantity - row.heldQuantity

def isOpen (row : Allocation) (now : Time) : Bool :=
  row.reversedAt.isNone && row.expiresAt.all (fun expiry => decide (now < expiry))

/-- The checks of the table, which refuse any statement that breaks them. -/
def checked (row : Allocation) : Bool :=
  decide (0 < row.quantity) && decide (row.reversedQuantity ≤ row.quantity) &&
    decide (row.consumedQuantity + row.heldQuantity ≤ row.quantity)

end Allocation

structure PlanItem where
  id : Nat
  planVersion : Nat
  feature : Nat
  entityScoped : Bool
  allocates : Bool
  quantity : Nat
  resets : Bool
  /-- When a grant anchored at an instant expires, for items whose grants expire. -/
  expiryAfter : Option (Time → Time)

/-- A lifetime item neither resets nor expires. -/
def PlanItem.lifetime (item : PlanItem) : Bool :=
  !item.resets && item.expiryAfter.isNone

structure Catalog where
  items : List PlanItem
  unique : (items.map PlanItem.id).Nodup
  nonConsumable : Nat → Bool
  /-- Whether an item's reset cadence splits a billing period into several windows. -/
  splitsPeriod : PlanItem → Time → Option Time → Bool

def Catalog.item (catalog : Catalog) (row : Allocation) : Option PlanItem :=
  catalog.items.find? (fun item => some item.id == row.planItem)

end Quotum
