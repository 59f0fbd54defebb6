import Quotum.General.Lookup
import Quotum.DefaultPlans
import Quotum.Mutations

/-! The entitlements of an account: what a recompute stores of its running sources, and what a read reports through the default
plan that the next write applies. -/

namespace Quotum.DefaultEntitlements
open General DefaultPlans
open Mutations (PurchaseKind)

/-- The statuses of subscriptions, purchases and plan grants, and of an entitlement that none of them gives. -/
inductive SourceStatus where
  | active
  | gracePeriod
  | billingRetry
  | cancelled
  | expired
  | refunded
  | revoked
  | completed
  | voided
  | ended
  | superseded
  | inactive
  deriving DecidableEq

inductive PlanKind where
  | base
  | addon
  deriving DecidableEq

inductive SourceKind where
  | subscription
  | purchase
  | planGrant
  deriving DecidableEq

inductive PlanGrantOrigin where
  | trial
  | promotion
  | default
  deriving DecidableEq

structure PlanVersion where
  planKey : Text
  kind : PlanKind
  item : Option GrantItem
  deriving DecidableEq

/-- The row an entitlement comes from. Default-plan grants are numbered apart from the other plan grants. -/
inductive SourceRef where
  | subscription (id : Nat)
  | purchase (id : Nat)
  | planGrant (id : Nat)
  | defaultGrant (id : Nat)
  deriving DecidableEq

structure EntitlementMetadata where
  source : SourceKind
  origin : Option PlanGrantOrigin
  status : SourceStatus
  planKey : Option Text
  planGrantId : Option SourceRef
  deriving DecidableEq

/-- A subscription with its product's entitlement. One recorded before plan versions carries none. -/
structure SubscriptionSource where
  id : Nat
  entitlementKey : Text
  status : SourceStatus
  startsAt : Int
  expiresAt : Option Int
  planVersionId : Option Nat
  deriving DecidableEq

structure PurchaseSource where
  id : Nat
  entitlementKey : Text
  kind : PurchaseKind
  status : SourceStatus
  invalidated : Bool
  purchasedAt : Int
  deriving DecidableEq

structure TermGrant where
  id : Nat
  planVersionId : Nat
  planKind : PlanKind
  promotional : Bool
  status : SourceStatus
  endsAt : Int
  entitlementKeys : List Text
  deriving DecidableEq

structure EntitlementRow where
  key : Text
  active : Bool
  expiresAt : Option Int
  source : Option SourceRef
  metadata : EntitlementMetadata
  deriving DecidableEq

structure EntitlementEntry where
  key : Text
  active : Bool
  expiresAt : Option Int
  metadata : EntitlementMetadata
  deriving DecidableEq

structure EntitledAccount where
  clock : Int
  target : Option DefaultPlanTarget
  subscriptions : List SubscriptionSource
  purchases : List PurchaseSource
  planGrants : List TermGrant
  defaultGrants : List DefaultGrant
  allowances : List WindowAllowance
  entitlements : List EntitlementRow
  deriving DecidableEq

/-- A running source of an entitlement, with what ranks it. -/
structure ActiveSource where
  key : Text
  expiresAt : Option Int
  source : SourceRef
  metadata : EntitlementMetadata
  priority : Nat
  sortAt : Option Int
  sortId : Nat
  deriving DecidableEq

namespace SourceStatus

def runningSourceStatuses : List SourceStatus := [active, gracePeriod, billingRetry, cancelled, completed]

def fundingSubscriptionStatuses : List SourceStatus := [active, gracePeriod, billingRetry, cancelled]

/-- A running status reads as inactive on an entitlement that its source no longer gives. -/
def stopped (status : SourceStatus) : SourceStatus :=
  if status ∈ runningSourceStatuses then inactive else status

def ofGrant : PlanGrantStatus → SourceStatus
  | .active => active
  | .superseded => superseded
  | .ended => ended

end SourceStatus

open SourceStatus

def inactiveEntitlementMetadata (metadata : EntitlementMetadata) : EntitlementMetadata :=
  { metadata with status := metadata.status.stopped }

def SubscriptionSource.funding (now : Int) (row : SubscriptionSource) : Bool :=
  decide (row.status ∈ fundingSubscriptionStatuses) && row.expiresAt.all fun expiry => decide (now < expiry)

def SubscriptionSource.running (now : Int) (row : SubscriptionSource) : Bool :=
  decide (row.status ∈ fundingSubscriptionStatuses) && row.expiresAt.any fun expiry => decide (now < expiry)

def PurchaseSource.running (row : PurchaseSource) : Bool :=
  row.status == .completed && row.kind == .nonConsumable && !row.invalidated

def TermGrant.running (now : Int) (row : TermGrant) : Bool :=
  row.status == .active && decide (now < row.endsAt)

/-- The order of instants, as it computes. -/
instance instantOrder : Preorder Int := Int.instLinearOrder.toPartialOrder.toPreorder

namespace ActiveSource

def granted (source : ActiveSource) : Bool :=
  source.priority == 3

/-- The order of a column that puts an absent instant first, and later ones before earlier ones. -/
def latestFirst (instant : Option Int) : Bool ×ₗ Int :=
  toLex (instant.isSome, -instant.getD 0)

/-- A paid source ranks before a plan grant, however long the grant runs. -/
def rank (source : ActiveSource) : Bool ×ₗ (Bool ×ₗ Int) ×ₗ Nat ×ₗ (Bool ×ₗ Int) ×ₗ Nat :=
  toLex (source.granted, toLex (latestFirst source.expiresAt, toLex (source.priority,
    toLex (latestFirst source.sortAt, source.sortId))))

def row (source : ActiveSource) : EntitlementRow where
  key := source.key
  active := true
  expiresAt := source.expiresAt
  source := some source.source
  metadata := source.metadata

end ActiveSource

namespace EntitledAccount
variable (versions : Nat → PlanVersion)

def fundingBaseSubscription (account : EntitledAccount) : Option SubscriptionSource :=
  account.subscriptions.find? fun row => row.funding account.clock && row.planVersionId.all fun version =>
    (versions version).kind == .base

def activeBaseGrant (account : EntitledAccount) : Option TermGrant :=
  account.planGrants.find? fun grant => grant.running account.clock && grant.planKind == .base

def heldBasePlan (account : EntitledAccount) : Bool :=
  (account.fundingBaseSubscription versions).isSome || account.activeBaseGrant.isSome

/-- Whether a base grant is past its end and not recorded as expired yet. -/
def elapsedBaseGrant (account : EntitledAccount) : Bool :=
  account.planGrants.any fun grant => grant.status == .active && grant.planKind == .base && decide (grant.endsAt ≤ account.clock)

def basePlan (account : EntitledAccount) : BasePlan :=
  if account.heldBasePlan versions then .held else if account.elapsedBaseGrant then .elapsed else .none

def defaultAccount (account : EntitledAccount) : DefaultAccount where
  clock := account.clock
  target := account.target
  base := account.basePlan versions
  grants := account.defaultGrants
  allowances := account.allowances

def reconcileDefaultPlanGrant (account : EntitledAccount) : EntitledAccount × Option DefaultPlanChange :=
  let reconciled := (account.defaultAccount versions).reconcileDefaultPlanGrant fun version => (versions version).item
  ({ account with defaultGrants := reconciled.1.grants, allowances := reconciled.1.allowances }, reconciled.2)

def defaultPlanPending (account : EntitledAccount) : Bool :=
  account.target.isSome && !(account.defaultGrants.any fun held => held.status == .active) && !account.heldBasePlan versions

def defaultPlanOutOfDate (account : EntitledAccount) : Bool :=
  account.defaultPlanPending versions || account.defaultGrants.any fun held => held.status == .active &&
    (account.target.all (fun target => held.planVersionId != target.planVersionId || held.entitlementKeys != target.entitlementKeys) ||
      account.heldBasePlan versions)

def defaultPlanReadVersion (account : EntitledAccount) : Option Nat :=
  if account.heldBasePlan versions then none else account.target.map DefaultPlanTarget.planVersionId

def subscriptionSource (row : SubscriptionSource) : ActiveSource where
  key := row.entitlementKey
  expiresAt := row.expiresAt
  source := .subscription row.id
  metadata := ⟨.subscription, none, row.status, row.planVersionId.map fun version => (versions version).planKey, none⟩
  priority := 1
  sortAt := some (row.expiresAt.getD row.startsAt)
  sortId := row.id

def purchaseSource (row : PurchaseSource) : ActiveSource where
  key := row.entitlementKey
  expiresAt := none
  source := .purchase row.id
  metadata := ⟨.purchase, none, row.status, none, none⟩
  priority := 2
  sortAt := some row.purchasedAt
  sortId := row.id

def termGrantSource (grant : TermGrant) (key : Text) : ActiveSource where
  key := key
  expiresAt := some grant.endsAt
  source := .planGrant grant.id
  metadata := ⟨.planGrant, some (if grant.promotional then .promotion else .trial), grant.status,
    some (versions grant.planVersionId).planKey, some (.planGrant grant.id)⟩
  priority := 3
  sortAt := some grant.endsAt
  sortId := grant.id

def defaultGrantSource (grant : DefaultGrant) (key : Text) : ActiveSource where
  key := key
  expiresAt := none
  source := .defaultGrant grant.id
  metadata := ⟨.planGrant, some .default, .ofGrant grant.status, some (versions grant.planVersionId).planKey,
    some (.defaultGrant grant.id)⟩
  priority := 3
  sortAt := none
  sortId := grant.id

def paidSources (account : EntitledAccount) : List ActiveSource :=
  (account.subscriptions.filter (SubscriptionSource.running account.clock)).map (subscriptionSource versions) ++
    (account.purchases.filter PurchaseSource.running).map purchaseSource

def termSources (account : EntitledAccount) : List ActiveSource :=
  (account.planGrants.filter (TermGrant.running account.clock)).flatMap fun grant =>
    grant.entitlementKeys.map (termGrantSource versions grant)

def defaultSources (account : EntitledAccount) : List ActiveSource :=
  (account.defaultGrants.filter fun grant => grant.status == .active).flatMap fun grant =>
    grant.entitlementKeys.map (defaultGrantSource versions grant)

def activeSources (account : EntitledAccount) : List ActiveSource :=
  account.paidSources versions ++ account.termSources versions ++ account.defaultSources versions

def firstSource (account : EntitledAccount) (key : Text) : Option ActiveSource :=
  ((account.activeSources versions).filter fun source => source.key == key).argmin ActiveSource.rank

def sourceStatus (account : EntitledAccount) : SourceRef → Option SourceStatus
  | .subscription id => (findAt SubscriptionSource.id id account.subscriptions).map SubscriptionSource.status
  | .purchase id => (findAt PurchaseSource.id id account.purchases).map PurchaseSource.status
  | .planGrant id => (findAt TermGrant.id id account.planGrants).map TermGrant.status
  | .defaultGrant id => (findAt DefaultGrant.id id account.defaultGrants).map fun grant => .ofGrant grant.status

/-- An entitlement that nothing gives keeps its last source's metadata, with that source's status. -/
def deactivate (account : EntitledAccount) (row : EntitlementRow) : EntitlementRow :=
  { row with
    active := false
    source := none
    metadata := { row.metadata with status := ((row.source.bind account.sourceStatus).getD row.metadata.status).stopped } }

/-- Stores the first source of each key, and deactivates every other entitlement. -/
def storeEntitlements (account : EntitledAccount) : EntitledAccount :=
  let kept := account.entitlements.map fun row => ((account.firstSource versions row.key).map ActiveSource.row).getD (account.deactivate row)
  let keys := ((account.activeSources versions).map ActiveSource.key).dedup.filter fun key =>
    decide (key ∉ account.entitlements.map EntitlementRow.key)
  { account with entitlements := kept ++ keys.filterMap fun key => (account.firstSource versions key).map ActiveSource.row }

def recomputeCustomerEntitlements (account : EntitledAccount) : EntitledAccount :=
  (account.reconcileDefaultPlanGrant versions).1.storeEntitlements versions

/-- Whether a stored entitlement reads as active: its source has not run out since. -/
def reads (now : Int) (row : EntitlementRow) : Bool :=
  row.active && match row.source with
    | some (.purchase _) => true
    | some (.subscription _) => row.expiresAt.any fun expiry => decide (now < expiry)
    | some (.planGrant _) | some (.defaultGrant _) => row.expiresAt.all fun expiry => decide (now < expiry)
    | none => false

def entry (now : Int) (row : EntitlementRow) : EntitlementEntry where
  key := row.key
  active := reads now row
  expiresAt := row.expiresAt
  metadata := if reads now row then row.metadata else inactiveEntitlementMetadata row.metadata

def readEntitlementRows (account : EntitledAccount) : List EntitlementEntry :=
  listing EntitlementEntry.key (account.entitlements.map (entry account.clock))

def pendingHeld (account : EntitledAccount) : List EntitlementEntry :=
  match account.target with
  | none => []
  | some target =>
    if (account.defaultPlanReadVersion versions).isSome then
      target.entitlementKeys.dedup.map fun key =>
        ⟨key, true, none, ⟨.planGrant, some .default, .active, some (versions target.planVersionId).planKey, none⟩⟩
    else []

/-- Whether the stored entitlement is the held default-plan grant's and the marker no longer gives it. -/
def ending (account : EntitledAccount) (row : EntitlementRow) : Bool :=
  row.active &&
  account.defaultGrants.any (fun grant => row.source == some (.defaultGrant grant.id) && grant.status == .active) &&
  !(account.target.any (fun target => decide (row.key ∈ target.entitlementKeys)) && (account.defaultPlanReadVersion versions).isSome)

/-- The stored keys of the default-plan grant that the next write deactivates, with the status it leaves. -/
def pendingEnding (account : EntitledAccount) : List (Text × SourceStatus) :=
  (account.entitlements.filter (account.ending versions)).map fun row =>
    (row.key, if (account.defaultPlanReadVersion versions).isSome then .inactive else .ended)

def markEnding (ending : List (Text × SourceStatus)) (entry : EntitlementEntry) : EntitlementEntry :=
  match findAt Prod.fst entry.key ending with
  | none => entry
  | some (_, status) => { entry with active := false, metadata := { entry.metadata with status := status } }

/-- A held key stands in for a stored one only where that is inactive or missing. -/
def standIn (entries : List EntitlementEntry) (held : EntitlementEntry) : List EntitlementEntry :=
  match findAt EntitlementEntry.key held.key entries with
  | none => entries ++ [held]
  | some stored => if stored.active then entries else updateAt EntitlementEntry.key held.key (fun _ => held) entries

def withPendingEntitlements (stored held : List EntitlementEntry) (ending : List (Text × SourceStatus)) : List EntitlementEntry :=
  if held.isEmpty && ending.isEmpty then stored
  else listing EntitlementEntry.key (held.foldl standIn (stored.map (markEnding ending)))

def getEntitlementSnapshot (account : EntitledAccount) : List EntitlementEntry :=
  withPendingEntitlements account.readEntitlementRows (account.pendingHeld versions) (account.pendingEnding versions)

/-- The account some time after a recompute, with what the catalog published since. -/
def since (now : Int) (target : Option DefaultPlanTarget) (account : EntitledAccount) : EntitledAccount :=
  { account.storeEntitlements versions with clock := now, target := target }

/-- Whether a base plan took over from a default-plan grant that is still recorded as active. -/
def takenOver (account : EntitledAccount) : Bool :=
  account.heldBasePlan versions && account.defaultGrants.any fun grant => grant.status == .active

/-- A key that a running plan grant other than the default gives, and no running paid source does. -/
def grantedOnly (account : EntitledAccount) (key : Text) : Bool :=
  (account.termSources versions).any (fun source => source.key == key) &&
    !(account.paidSources versions).any fun source => source.key == key

end EntitledAccount

structure EntitledAccount.Stored (account : EntitledAccount) : Prop where
  subscriptions : (account.subscriptions.map SubscriptionSource.id).Nodup
  purchases : (account.purchases.map PurchaseSource.id).Nodup
  planGrants : (account.planGrants.map TermGrant.id).Nodup
  defaultGrants : (account.defaultGrants.map DefaultGrant.id).Nodup
  one : ∀ first ∈ account.defaultGrants, ∀ second ∈ account.defaultGrants, first.status = .active → second.status = .active →
    first = second
  keys : (account.entitlements.map EntitlementRow.key).Nodup

/-- If only plan grants give the key, it was stored from one other than the default, and the marker does not give it. -/
def EntitledAccount.UnsharedKey (versions : Nat → PlanVersion) (account : EntitledAccount) (key : Text) : Prop :=
  account.grantedOnly versions key = true →
    (∃ row ∈ account.entitlements, row.key = key ∧ ∃ id, row.source = some (.planGrant id)) ∧
      ∀ target ∈ account.target, key ∉ target.entitlementKeys

def EntitledAccount.Unshared (versions : Nat → PlanVersion) (account : EntitledAccount) : Prop :=
  ∀ key, account.UnsharedKey versions key

/-- What a read says of a key: whether it is active, until when, and in which status, where that is compared. -/
structure EntitlementOutline where
  key : Text
  active : Bool
  expiresAt : Option Int
  status : Option SourceStatus
  deriving DecidableEq

def EntitlementEntry.outline (takenOver : Bool) (entry : EntitlementEntry) : EntitlementOutline where
  key := entry.key
  active := entry.active
  expiresAt := entry.expiresAt
  status := if takenOver then none else some entry.metadata.status

end Quotum.DefaultEntitlements
