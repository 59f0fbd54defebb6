import Quotum.CadenceRules
import Quotum.DefaultEntitlements
import Quotum.MeterLimitScopes
import Quotum.SubscriptionChanges

/-! The meter limits of an account's plans: which catalogs publish, which plans an account may hold together, and the limits a feature's
sources combine to. -/

namespace Quotum.MeterLimitSources
open Cadences
open MeterLimitScopes (MeterLimitScope)
open MeterLimitSpend (OveragePolicy)
open DefaultEntitlements (PlanKind)
open SubscriptionChanges (SubscriptionStatus)

inductive LimitItemKind where
  | meterLimit
  | unlimitedUsage
  deriving DecidableEq

structure LimitItem where
  featureKey : String
  itemKind : LimitItemKind
  quantity : Nat
  overagePolicy : OveragePolicy
  reset : Option Cadence
  allocationScope : MeterLimitScope
  deriving DecidableEq

/-- A version of a plan. It never changes once it is published. -/
structure PlanVersion where
  planKey : String
  version : Nat
  planKind : PlanKind
  items : List LimitItem
  deriving DecidableEq

inductive AuthoredItem where
  | meterLimit (featureKey : String) (quantity : Nat) (reset : Cadence) (overagePolicy : OveragePolicy)
      (allocationScope : Option MeterLimitScope)
  | unlimitedUsage (featureKey : String)
  deriving DecidableEq

structure AuthoredPlan where
  key : String
  version : Nat
  kind : PlanKind
  items : List AuthoredItem
  deriving DecidableEq

structure CatalogIntent where
  plans : List AuthoredPlan
  defaultPlan : Option String
  deriving DecidableEq

def workingItem : AuthoredItem → LimitItem
  | .meterLimit featureKey quantity reset overagePolicy allocationScope =>
    ⟨featureKey, .meterLimit, quantity, overagePolicy, some reset, allocationScope.getD .account⟩
  | .unlimitedUsage featureKey => ⟨featureKey, .unlimitedUsage, 0, .blocked, none, .account⟩

def workingPlan (plan : AuthoredPlan) : PlanVersion :=
  ⟨plan.key, plan.version, plan.kind, plan.items.map workingItem⟩

def itemsOf (itemKind : LimitItemKind) (plans : List PlanVersion) : List (PlanVersion × LimitItem) :=
  plans.flatMap fun plan => (plan.items.filter fun item => item.itemKind == itemKind).map fun item => (plan, item)

def scopeName : MeterLimitScope → String
  | .account => "account"
  | .entity => "entity"

def addonKey (entries : List (PlanVersion × LimitItem)) : String :=
  ((entries.find? fun entry => entry.1.planKind == .addon).map fun entry => entry.1.planKey).getD "undefined"

section Combine

/-- Whether an account could hold two plans, because one of them is an add-on. -/
def heldTogether (plan other : PlanVersion) : Bool :=
  plan.planKind == .addon || other.planKind == .addon

def assertUnlimited (limits : List (PlanVersion × LimitItem)) (entry : PlanVersion × LimitItem) : Except Failure Unit :=
  let plan := entry.1
  let item := entry.2
  match limits.find? fun limit =>
      limit.2.featureKey == item.featureKey && limit.2.overagePolicy == .allowed && heldTogether plan limit.1 with
  | some postpaid => .error (.invalidRequest
      (s!"Plan {postpaid.1.planKey} cannot allow postpaid overage on {item.featureKey}, because plan " ++
        s!"{plan.planKey} grants unlimited usage of it; unlimited usage lifts hard caps only"))
  | none =>
    match limits.find? fun limit => limit.2.featureKey == item.featureKey &&
        limit.2.allocationScope != item.allocationScope && heldTogether plan limit.1 with
    | some otherScope => .error (.invalidRequest
        (s!"Unlimited usage of {item.featureKey} on plan {plan.planKey} declares {scopeName item.allocationScope} scope, but " ++
          s!"plan {otherScope.1.planKey} caps it with {scopeName otherScope.2.allocationScope} scope and can be held together " ++
          "with it; declare the same allocationScope"))
    | none => .ok ()

def sameReset (left right : Option Cadence) : Bool :=
  match left, right with
  | some left, some right => cadenceKey left == cadenceKey right
  | _, _ => false

def assertFeatureCombines (limits : List (PlanVersion × LimitItem)) (featureKey : String) : Except Failure Unit :=
  match limits.filter fun entry => entry.2.featureKey == featureKey with
  | [] => .ok ()
  | [_] => .ok ()
  | first :: second :: rest =>
    let onFeature := first :: second :: rest
    if onFeature.all (fun entry => entry.1.planKind != .addon) then .ok ()
    else if onFeature.any (fun entry => entry.2.allocationScope != first.2.allocationScope) then .error (.invalidRequest
      (s!"Meter limits on {featureKey} must all declare the same allocationScope, because add-on {addonKey onFeature} can be " ++
        "held together with them"))
    else if onFeature.all (fun entry => entry.2.overagePolicy == .blocked && sameReset entry.2.reset first.2.reset) then .ok ()
    else .error (.invalidRequest
      s!"Meter limits on {featureKey} must all be blocked caps with the same reset, because add-on {addonKey onFeature} adds to them")

/-- Refuses meter limits of one catalog that could not add up. -/
def assertMeterLimitsCombine (plans : List PlanVersion) : Except Failure Unit := do
  let limits := itemsOf .meterLimit plans
  (itemsOf .unlimitedUsage plans).forM (assertUnlimited limits)
  (limits.map fun entry => entry.2.featureKey).reverse.dedup.reverse.forM (assertFeatureCombines limits)

end Combine

structure Subscription where
  id : Nat
  customer : Nat
  planVersion : PlanVersion
  status : SubscriptionStatus
  expiresAt : Option Time
  createdAt : Time
  deriving DecidableEq

/-- A project's published catalog, every plan version it has published, and the subscriptions to them. -/
structure Project where
  now : Time
  plans : List PlanVersion
  defaultPlan : Option String
  versions : List PlanVersion
  subscriptions : List Subscription
  deriving DecidableEq

/-- The statuses that still fund a plan. -/
def funding : SubscriptionStatus → Bool
  | .active | .gracePeriod | .billingRetry | .cancelled => true
  | .expired | .refunded | .revoked => false

def Subscription.live (now : Time) (subscription : Subscription) : Bool :=
  funding subscription.status && subscription.expiresAt.all fun expiry => decide (now < expiry)

section Guards

/-- A meter limit meets another source of its feature under another scope. Two unlimited items have no cap to combine, and neither one
plan's versions nor two base plans count as held together. -/
def scopesConflict (held target : PlanVersion) (heldItem targetItem : LimitItem) : Bool :=
  heldItem.featureKey == targetItem.featureKey &&
    !(heldItem.itemKind == .unlimitedUsage && targetItem.itemKind == .unlimitedUsage) &&
    heldItem.allocationScope != targetItem.allocationScope && held.planKey != target.planKey &&
    !(target.planKind == .base && held.planKind == .base)

structure PinnedMeterLimit where
  planVersion : PlanVersion
  item : LimitItem
  subscriptions : Nat
  deriving DecidableEq

def PinnedMeterLimit.place (row : PinnedMeterLimit) : String ×ₗ String ×ₗ Nat :=
  toLex (row.item.featureKey, toLex (row.planVersion.planKey, row.planVersion.version))

/-- The meter limits of every plan version live subscriptions are pinned to, by feature, plan and version. -/
def readPinnedMeterLimits (project : Project) : List PinnedMeterLimit :=
  let pinned := project.versions.flatMap fun version =>
    let subscriptions := project.subscriptions.countP fun subscription =>
      decide (subscription.planVersion = version) && subscription.live project.now
    if 0 < subscriptions then version.items.map fun item => ⟨version, item, subscriptions⟩ else []
  pinned.insertionSort fun first second => first.place ≤ second.place

def assertItemAgrees (pinned : List PinnedMeterLimit) (entry : PlanVersion × LimitItem) : Except Failure Unit :=
  match pinned.find? fun row => scopesConflict row.planVersion entry.1 row.item entry.2 with
  | none => .ok ()
  | some conflict => .error (.invalidRequest
      (s!"Meter limit {entry.2.featureKey} on plan {entry.1.planKey} declares {scopeName entry.2.allocationScope} scope, but " ++
        s!"{conflict.subscriptions} subscriptions still use plan {conflict.planVersion.planKey} version " ++
        s!"{conflict.planVersion.version}, which caps it with {scopeName conflict.item.allocationScope} scope and can be held " ++
        "together with it; migrate them or declare the same allocationScope"))

/-- Refuses meter limits an account could hold together with a pinned plan version of another scope. -/
def assertScopesAgreeWithPinnedVersions (plans : List PlanVersion) (pinned : List PinnedMeterLimit) : Except Failure Unit :=
  (plans.flatMap fun plan => plan.items.map fun item => (plan, item)).forM (assertItemAgrees pinned)

/-- The features on which a plan version would meet a limit of another scope that the customer's live subscriptions hold. -/
def meterLimitScopeConflicts (project : Project) (customer : Nat) (target : PlanVersion) (excludeSubscriptionId : Option Nat) :
    List String :=
  let held := project.subscriptions.filter fun subscription =>
    subscription.customer == customer && subscription.live project.now && decide (some subscription.id ≠ excludeSubscriptionId)
  ((target.items.filter fun item => held.any fun subscription =>
    subscription.planVersion.items.any fun heldItem => scopesConflict subscription.planVersion target heldItem item).map
      LimitItem.featureKey).dedup.insertionSort (· ≤ ·)

def assertMeterLimitScopesAgree (conflicts : List String) : Except Failure Unit :=
  if conflicts = [] then .ok ()
  else
    let listed := ", ".intercalate conflicts
    .error (.conflict
      s!"The plan's meter limits on {listed} declare a different scope than the limits this billing account already holds")

end Guards

section Publish

def assertUnique (keys : List String) (label : String) : Except Failure Unit :=
  if keys.Nodup then .ok () else .error (.invalidRequest s!"Duplicate {label} values are not allowed")

def assertItem (plan : PlanVersion) (item : LimitItem) : Except Failure Unit :=
  if item.overagePolicy = .allowed ∧ item.allocationScope = .entity then .error (.invalidRequest
    (s!"Meter limit {item.featureKey} on plan {plan.planKey} allows postpaid overage, so it must cap the account: entity " ++
      "scope is only available to blocked limits"))
  else .ok ()

def assertPlan (plan : PlanVersion) : Except Failure Unit := do
  assertUnique (plan.items.map LimitItem.featureKey) s!"plan {plan.planKey} item feature"
  plan.items.forM (assertItem plan)

def assertDefaultItem (key : String) (item : LimitItem) : Except Failure Unit :=
  if item.allocationScope = .account then .ok ()
  else .error (.invalidRequest s!"Default plan {key} item {item.featureKey} must be allocated to the account")

def assertDefaultPlan (plans : List PlanVersion) : Option String → Except Failure Unit
  | none => .ok ()
  | some key =>
    match plans.find? fun plan => plan.planKey == key with
    | none => .error (.invalidRequest s!"Default plan {key} must be an active plan of this catalog")
    | some plan =>
      if plan.planKind = .base then plan.items.forM (assertDefaultItem key)
      else .error (.invalidRequest s!"Default plan {key} must be a base plan")

def assertVersionAvailable (project : Project) (plan : PlanVersion) : Except Failure Unit :=
  if project.versions.any fun version => version.planKey == plan.planKey && version.version == plan.version then
    .error (.conflict s!"Plan {plan.planKey} version {plan.version} already exists")
  else .ok ()

def publish (intent : CatalogIntent) (project : Project) : Except Failure Project := do
  let plans := intent.plans.map workingPlan
  assertUnique (plans.map PlanVersion.planKey) "plan key"
  plans.forM assertPlan
  assertMeterLimitsCombine plans
  assertDefaultPlan plans intent.defaultPlan
  assertScopesAgreeWithPinnedVersions plans (readPinnedMeterLimits project)
  let changed := plans.filter fun plan => !project.plans.contains plan
  changed.forM (assertVersionAvailable project)
  .ok { project with plans, defaultPlan := intent.defaultPlan, versions := project.versions ++ changed }

end Publish

section Hold

def publishedVersion (planKey : String) (version : Nat) (project : Project) : Except Failure PlanVersion :=
  match project.versions.find? fun plan => plan.planKey == planKey && plan.version == version with
  | none => .error (.invalidRequest s!"Active plan {planKey} was not found")
  | some plan => .ok plan

def purchase (customer : Nat) (planKey : String) (version : Nat) (expiresAt : Option Time) (project : Project) :
    Except Failure Project := do
  let target ← publishedVersion planKey version project
  assertMeterLimitScopesAgree (meterLimitScopeConflicts project customer target none)
  .ok { project with
    subscriptions := project.subscriptions ++
      [⟨project.subscriptions.length, customer, target, .active, expiresAt, project.now⟩] }

def withPlanVersion (target : PlanVersion) (subscription : Subscription) : Subscription :=
  { subscription with planVersion := target }

def changePlan (id : Nat) (planKey : String) (version : Nat) (project : Project) : Except Failure Project := do
  let target ← publishedVersion planKey version project
  match General.findAt Subscription.id id project.subscriptions with
  | none => .error (.invalidRequest "Subscription was not found")
  | some subscription =>
    if target = subscription.planVersion then .ok project
    else do
      assertMeterLimitScopesAgree (meterLimitScopeConflicts project subscription.customer target (some id))
      .ok { project with subscriptions := General.updateAt Subscription.id id (withPlanVersion target) project.subscriptions }

def withStatus (status : SubscriptionStatus) (expiresAt : Option Time) (subscription : Subscription) : Subscription :=
  { subscription with status, expiresAt }

def reportStatus (id : Nat) (status : SubscriptionStatus) (expiresAt : Option Time) (project : Project) : Project :=
  { project with subscriptions := General.updateAt Subscription.id id (withStatus status expiresAt) project.subscriptions }

end Hold

inductive Operation where
  | wait (later : Time)
  | publish (intent : CatalogIntent)
  | purchase (customer : Nat) (planKey : String) (version : Nat) (expiresAt : Option Time)
  | changePlan (subscription : Nat) (planKey : String) (version : Nat)
  | reportStatus (subscription : Nat) (status : SubscriptionStatus) (expiresAt : Option Time)
  deriving DecidableEq

def Operation.apply (project : Project) : Operation → Except Failure Project
  | .wait later => .ok { project with now := max project.now later }
  | .publish intent => MeterLimitSources.publish intent project
  | .purchase customer planKey version expiresAt => MeterLimitSources.purchase customer planKey version expiresAt project
  | .changePlan subscription planKey version => MeterLimitSources.changePlan subscription planKey version project
  | .reportStatus subscription status expiresAt => .ok (MeterLimitSources.reportStatus subscription status expiresAt project)

section Sources

/-- A source of a feature's meter limit. The default plan's has no subscription. -/
structure MeterLimitRow where
  itemKind : LimitItemKind
  subscriptionId : Option Nat
  quantity : Nat
  overagePolicy : OveragePolicy
  reset : Option Cadence
  planKind : PlanKind
  allocationScope : MeterLimitScope
  planKey : String
  planVersion : Nat
  sortAt : Time
  deriving DecidableEq

def meterLimitRow (subscriptionId : Option Nat) (overagePolicy : OveragePolicy) (plan : PlanVersion) (item : LimitItem)
    (sortAt : Time) : MeterLimitRow :=
  ⟨item.itemKind, subscriptionId, item.quantity, overagePolicy, item.reset, plan.planKind, item.allocationScope, plan.planKey,
    plan.version, sortAt⟩

def onFeature (featureKey : String) (plan : PlanVersion) : List LimitItem :=
  plan.items.filter fun item => item.featureKey == featureKey

def subscriptionRows (project : Project) (customer : Nat) (featureKey : String) : List MeterLimitRow :=
  ((project.subscriptions.filter fun subscription =>
    subscription.customer == customer && subscription.live project.now).insertionSort fun first second =>
      first.createdAt < second.createdAt ∨ first.createdAt = second.createdAt ∧ first.id ≤ second.id).flatMap fun subscription =>
    (onFeature featureKey subscription.planVersion).map fun item =>
      meterLimitRow (some subscription.id) item.overagePolicy subscription.planVersion item subscription.createdAt

def heldBasePlan (project : Project) (customer : Nat) : Bool :=
  project.subscriptions.any fun subscription =>
    subscription.customer == customer && subscription.live project.now && subscription.planVersion.planKind == .base

/-- The default plan's rows, for an account that holds no base plan. -/
def defaultPlanRows (project : Project) (customer : Nat) (featureKey : String) : List MeterLimitRow :=
  match project.plans.find? fun plan => some plan.planKey == project.defaultPlan with
  | none => []
  | some plan =>
    if heldBasePlan project customer = true then []
    else (onFeature featureKey plan).map fun item => meterLimitRow none .blocked plan item project.now

def queryMeterLimitRows (project : Project) (customer : Nat) (featureKey : String) : List MeterLimitRow :=
  subscriptionRows project customer featureKey ++ defaultPlanRows project customer featureKey

def meterLimitsJoin (left right : MeterLimitRow) : Bool :=
  left.overagePolicy == .blocked && right.overagePolicy == .blocked && sameReset left.reset right.reset &&
    left.allocationScope == right.allocationScope

/-- The source whose limit applies, and the quantity that it and the add-ons joining it allow. -/
def combineMeterLimits (sources : List MeterLimitRow) : Option (MeterLimitRow × Nat) :=
  let candidates := sources.filter fun row => row.itemKind == .meterLimit
  let paid := candidates.filter fun row => row.subscriptionId.isSome
  match paid with
  | [] => candidates.head?.map fun first => (first, first.quantity)
  | _ =>
    let newestFirst := paid.insertionSort fun left right => right.sortAt ≤ left.sortAt
    ((newestFirst.find? fun row => row.planKind == .base).or newestFirst.head?).map fun anchor =>
      (anchor, ((paid.filter fun row => decide (row = anchor) || (row.planKind == .addon && meterLimitsJoin anchor row)).map
        MeterLimitRow.quantity).sum)

def mixedScopeSources (candidates : List MeterLimitRow) (anchor : MeterLimitRow) : List MeterLimitRow :=
  let paid := candidates.filter fun row => row.subscriptionId.isSome
  if paid.all (fun row => row.allocationScope == anchor.allocationScope) then [] else paid

end Sources

/-- A project before its first catalog. -/
def created (now : Time) : Project :=
  ⟨now, [], none, [], []⟩

end Quotum.MeterLimitSources
