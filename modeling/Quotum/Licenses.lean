import Mathlib.Data.List.Basic
import Quotum.General.Lookup
import Quotum.SubscriptionChanges

/-! The license pools of one account: the capacity that its subscriptions bought, the assignments to its entities, and how much of each
assignment a check honors. Each request is one transaction, and the assignments of one pool wait for its row. -/

namespace Quotum.Licenses
open General SubscriptionChanges

inductive LicenseFailure where
  | invalidRequest (message : String)
  | notFound (message code : String)
  | conflict (message code : String)
  | constraint (name : String)
  deriving DecidableEq

structure Subscription where
  id : Nat
  planVersionId : Nat
  status : SubscriptionStatus
  expiresAt : Option Int
  deriving DecidableEq

inductive ItemKind where
  | access
  | allocation
  | meterLimit
  | licensedQuantity
  | unlimitedUsage
  deriving DecidableEq

inductive AllocationScope where
  | account
  | entity
  | licensePool
  deriving DecidableEq

structure PlanItem where
  id : Nat
  planVersionId : Nat
  featureId : Nat
  itemKind : ItemKind
  allocationScope : AllocationScope
  quantity : Nat
  deriving DecidableEq

inductive ComponentKind where
  | base
  | licensed
  | meteredOverage
  deriving DecidableEq

structure PriceComponent where
  id : Nat
  planItemId : Option Nat
  componentKind : ComponentKind
  deriving DecidableEq

structure SubscriptionItem where
  subscriptionId : Nat
  priceComponentId : Nat
  quantity : Nat
  active : Bool
  deriving DecidableEq

def SubscriptionItem.key (row : SubscriptionItem) : Nat × Nat :=
  (row.subscriptionId, row.priceComponentId)

structure Purchases where
  subscriptions : List Subscription
  planItems : List PlanItem
  priceComponents : List PriceComponent
  subscriptionItems : List SubscriptionItem
  subscriptions_distinct : (subscriptions.map Subscription.id).Nodup
  planItems_distinct : (planItems.map PlanItem.id).Nodup
  priced_once : (priceComponents.filterMap PriceComponent.planItemId).Nodup
  bought_once : (subscriptionItems.map SubscriptionItem.key).Nodup

structure WantedPool where
  subscriptionId : Nat
  planItemId : Nat
  featureId : Nat
  quantity : Nat
  deriving DecidableEq

def WantedPool.key (row : WantedPool) : Nat × Nat :=
  (row.subscriptionId, row.planItemId)

def Subscription.live (now : Int) (row : Subscription) : Bool :=
  decide (row.status ∈ allocationFundingStatuses) && row.expiresAt.all fun ending => decide (now < ending)

def leftJoin {α : Type} : List α → List (Option α)
  | [] => [none]
  | rows => rows.map some

namespace Purchases
variable (purchases : Purchases)

def licensedPrices (item : PlanItem) : List PriceComponent :=
  purchases.priceComponents.filter fun price => decide (price.planItemId = some item.id) && decide (price.componentKind = .licensed)

def boughtItems (subscription : Subscription) (price : PriceComponent) : List SubscriptionItem :=
  purchases.subscriptionItems.filter fun row => decide (row.key = (subscription.id, price.id)) && row.active

def wantedPools (subscription : Subscription) (item : PlanItem) : List WantedPool :=
  (purchases.licensedPrices item).flatMap fun price =>
    (leftJoin (purchases.boughtItems subscription price)).map fun bought =>
      { subscriptionId := subscription.id, planItemId := item.id, featureId := item.featureId,
        quantity := (bought.map SubscriptionItem.quantity).getD item.quantity }

def pooledItems (subscription : Subscription) : List PlanItem :=
  purchases.planItems.filter fun item =>
    decide (item.planVersionId = subscription.planVersionId) && decide (item.itemKind = .licensedQuantity) &&
      decide (item.allocationScope = .licensePool)

def desiredLicensePools (now : Int) : List WantedPool :=
  (purchases.subscriptions.filter (Subscription.live now)).flatMap fun subscription =>
    (purchases.pooledItems subscription).flatMap (purchases.wantedPools subscription)

end Purchases

structure LicensePool where
  id : Nat
  subscriptionId : Nat
  planItemId : Nat
  featureId : Nat
  quantity : Nat
  active : Bool
  deriving DecidableEq

def LicensePool.key (row : LicensePool) : Nat × Nat :=
  (row.subscriptionId, row.planItemId)

structure LicenseAssignment where
  id : Nat
  licensePoolId : Nat
  entityId : Nat
  quantity : Nat
  assignedAt : Int
  revokedAt : Option Int
  deriving DecidableEq

def LicenseAssignment.unrevoked (row : LicenseAssignment) : Bool :=
  row.revokedAt.isNone

structure Entity where
  id : Nat
  externalId : Text
  deriving DecidableEq

structure Account where
  purchases : Purchases
  pools : List LicensePool
  assignments : List LicenseAssignment
  entities : List Entity
  nextPoolId : Nat
  nextAssignmentId : Nat
  nextEntityId : Nat

namespace Account

def createEntity (account : Account) (externalId : Text) : Account :=
  if externalId ∈ account.entities.map Entity.externalId then account
  else { account with
    entities := account.entities ++ [{ id := account.nextEntityId, externalId := externalId }]
    nextEntityId := account.nextEntityId + 1 }

def poolsCurrent (now : Int) (account : Account) : Bool :=
  let desired := (account.purchases.desiredLicensePools now).map fun row => (row.key, row.quantity)
  let stored := (account.pools.filter LicensePool.active).map fun row => (row.key, row.quantity)
  desired.all (fun row => stored.contains row) && stored.all fun row => desired.contains row

def upsertPool (account : Account) (wanted : WantedPool) : Except LicenseFailure Account :=
  if wanted.quantity = 0 then .error (.constraint "license_pools_quantity_check")
  else if wanted.key ∈ account.pools.map LicensePool.key then
    .ok { account with
      pools := updateAt LicensePool.key wanted.key (fun row => { row with quantity := wanted.quantity, active := true }) account.pools }
  else
    .ok { account with
      pools := account.pools ++
        [{ id := account.nextPoolId, subscriptionId := wanted.subscriptionId, planItemId := wanted.planItemId,
           featureId := wanted.featureId, quantity := wanted.quantity, active := true }]
      nextPoolId := account.nextPoolId + 1 }

def refreshLicensePools (now : Int) (account : Account) : Except LicenseFailure Account :=
  (account.purchases.desiredLicensePools now).foldlM upsertPool
    { account with pools := account.pools.map fun row => { row with active := false } }

def syncLicensePools (now : Int) (account : Account) : Except LicenseFailure Account :=
  if account.poolsCurrent now then .ok account else account.refreshLicensePools now

def resolveEntity (account : Account) (externalId : Text) : Except LicenseFailure Entity :=
  match findAt Entity.externalId externalId account.entities with
  | none => .error (.notFound "Entity was not found" "ENTITY_NOT_FOUND")
  | some entity => .ok entity

end Account

def boundedInteger (value : Int) (field : String) (minimum maximum : Int) : Except LicenseFailure Nat :=
  if value < minimum ∨ maximum < value then
    .error (.invalidRequest (field ++ " must be between " ++ toString minimum ++ " and " ++ toString maximum))
  else .ok value.toNat

structure AssignInput where
  poolId : Nat
  entityId : Text
  quantity : Int
  deriving DecidableEq

namespace Account

def held (account : Account) (poolId : Nat) : List LicenseAssignment :=
  account.assignments.filter fun row => decide (row.licensePoolId = poolId) && row.unrevoked

def assignedQuantity (account : Account) (poolId : Nat) : Nat :=
  ((account.held poolId).map LicenseAssignment.quantity).sum

def activePool (account : Account) (poolId : Nat) : Except LicenseFailure LicensePool :=
  match account.pools.find? fun row => decide (row.id = poolId) && row.active with
  | none => .error (.notFound "License pool was not found" "LICENSE_POOL_NOT_FOUND")
  | some pool => .ok pool

def insertAssignment (now : Int) (account : Account) (pool : LicensePool) (entity : Entity) (quantity : Nat) :
    Except LicenseFailure Account :=
  if (account.held pool.id).any (fun row => decide (row.entityId = entity.id)) then
    .error (.conflict "Entity already has an active assignment from this license pool" "LICENSE_ALREADY_ASSIGNED")
  else if account.assignedQuantity pool.id + quantity > pool.quantity then
    .error (.conflict "License pool does not have enough available quantity" "LICENSE_POOL_EXHAUSTED")
  else
    .ok { account with
      assignments := account.assignments ++
        [{ id := account.nextAssignmentId, licensePoolId := pool.id, entityId := entity.id, quantity := quantity, assignedAt := now,
           revokedAt := none }]
      nextAssignmentId := account.nextAssignmentId + 1 }

/-- Assigns from a pool whose capacity is brought up to date first. -/
def assignLicense (now : Int) (account : Account) (input : AssignInput) : Except LicenseFailure Account := do
  let entity ← account.resolveEntity input.entityId
  let quantity ← boundedInteger input.quantity "quantity" 1 1000000
  let synced ← account.syncLicensePools now
  let pool ← synced.activePool input.poolId
  synced.insertAssignment now pool entity quantity

def revokeLicense (now : Int) (account : Account) (assignmentId : Nat) : Except LicenseFailure Account :=
  match findAt LicenseAssignment.id assignmentId account.assignments with
  | none => .error (.notFound "License assignment was not found" "LICENSE_ASSIGNMENT_NOT_FOUND")
  | some row =>
    if row.revokedAt.getD now < row.assignedAt then .error (.constraint "license_assignments_bounds_check")
    else
      .ok { account with
        assignments := updateAt LicenseAssignment.id assignmentId
          (fun row => { row with revokedAt := some (row.revokedAt.getD now) }) account.assignments }

end Account

structure LicensedRow where
  assignment : LicenseAssignment
  capacity : Nat
  deriving DecidableEq

namespace LicensedRow

def position (row : LicensedRow) : Int ×ₗ Nat :=
  toLex (row.assignment.assignedAt, row.assignment.id)

def runningTotal (rows : List LicensedRow) (row : LicensedRow) : Int :=
  ((rows.filter fun other =>
    decide (other.assignment.licensePoolId = row.assignment.licensePoolId) && decide (other.position ≤ row.position)).map
      fun other => (other.assignment.quantity : Int)).sum

def honored (rows : List LicensedRow) (row : LicensedRow) : Int :=
  min row.assignment.quantity (max (row.capacity - (row.runningTotal rows - row.assignment.quantity)) 0)

end LicensedRow

structure EntityLicenseDecision where
  requiredQuantity : Nat
  assignedQuantity : Int
  allowed : Bool
  deriving DecidableEq

namespace Account

def joinedRows (now : Int) (account : Account) (featureId : Nat) (assignment : LicenseAssignment) : List LicensedRow :=
  (account.pools.filter fun pool => decide (pool.id = assignment.licensePoolId) && decide (pool.featureId = featureId)).flatMap fun pool =>
    ((account.purchases.desiredLicensePools now).filter fun wanted => decide (wanted.key = pool.key)).flatMap fun wanted =>
      (account.purchases.subscriptions.filter fun subscription =>
        decide (subscription.id = pool.subscriptionId) && subscription.live now).map fun _ =>
          { assignment := assignment, capacity := wanted.quantity }

def licensedRows (now : Int) (account : Account) (featureId : Nat) : List LicensedRow :=
  (account.assignments.filter LicenseAssignment.unrevoked).flatMap (account.joinedRows now featureId)

def honoredQuantity (now : Int) (account : Account) (featureId entityId : Nat) : Int :=
  let rows := account.licensedRows now featureId
  ((rows.filter fun row => decide (row.assignment.entityId = entityId)).map (LicensedRow.honored rows)).sum

def checkEntityLicense (now : Int) (account : Account) (entityId : Text) (featureId : Nat) (required : Int) :
    Except LicenseFailure EntityLicenseDecision := do
  let requiredQuantity ← boundedInteger required "requiredQuantity" 1 1000000
  let entity ← account.resolveEntity entityId
  let assignedQuantity := account.honoredQuantity now featureId entity.id
  .ok { requiredQuantity, assignedQuantity, allowed := decide (assignedQuantity ≥ requiredQuantity) }

end Account

/-- What may happen to an account: purchases change, pools are brought up to date, and licenses are assigned and revoked, each at the
time its transaction started. -/
inductive Step : Account → Account → Prop where
  | purchased (account : Account) (purchases : Purchases) : Step account { account with purchases := purchases }
  | synced {account next : Account} (now : Int) (done : account.syncLicensePools now = .ok next) : Step account next
  | entity (account : Account) (externalId : Text) : Step account (account.createEntity externalId)
  | assigned {account next : Account} (now : Int) (input : AssignInput) (done : account.assignLicense now input = .ok next) :
      Step account next
  | revoked {account next : Account} (now : Int) (assignmentId : Nat) (done : account.revokeLicense now assignmentId = .ok next) :
      Step account next

def Account.opened (purchases : Purchases) : Account where
  purchases
  pools := []
  assignments := []
  entities := []
  nextPoolId := 1
  nextAssignmentId := 1
  nextEntityId := 1

def Reachable (account : Account) : Prop :=
  ∃ purchases, Relation.ReflTransGen Step (Account.opened purchases) account

end Quotum.Licenses
