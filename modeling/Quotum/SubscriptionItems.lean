import Quotum.General.Lookup
import Quotum.Decimal

/-! The sync of a subscription's items with the provider's: each row is one price component of one subscription, and the table keeps an item id
unique over all rows. -/

namespace Quotum.SubscriptionItems
open General

structure PriceComponent where
  id : Nat
  planVersionId : Nat
  unitAmountMinor : Nat
  currency : Text
  deriving DecidableEq

inductive BindingStatus where
  | validating
  | syncing
  | ready
  | published
  | failed
  deriving DecidableEq

structure ProviderPriceBinding where
  priceComponentId : Nat
  storeProductId : Nat
  provider : Text
  channel : Text
  status : BindingStatus
  deriving DecidableEq

structure StoreProduct where
  id : Nat
  externalProductId : Text
  externalPriceId : Text
  deriving DecidableEq

structure Catalog where
  components : List PriceComponent
  bindings : List ProviderPriceBinding
  storeProducts : List StoreProduct
  deriving DecidableEq

structure SubscriptionItem where
  subscriptionId : Nat
  priceComponentId : Nat
  providerSubscriptionItemId : Option Text
  quantity : Int
  unitAmountMinor : Nat
  currency : Text
  active : Bool
  startsAt : Int
  endsAt : Option Int
  deriving DecidableEq

structure PriceItem where
  providerSubscriptionItemId : Text
  externalProductId : Text
  externalPriceId : Text
  quantity : Int
  deriving DecidableEq

structure ItemSync where
  catalog : Catalog
  subscriptionId : Nat
  planVersionId : Option Nat
  now : Int
  periodStartAt : Int
  items : List PriceItem
  deriving DecidableEq

inductive ItemError where
  | quantityCheck
  | providerItemUnique
  | boundsCheck
  deriving DecidableEq

def SubscriptionItem.key (row : SubscriptionItem) : Nat × Nat :=
  (row.subscriptionId, row.priceComponentId)

def SubscriptionItem.withinBounds (row : SubscriptionItem) : Bool :=
  row.endsAt.all fun ends => decide (row.startsAt < ends)

def SubscriptionItem.ended (now : Int) (row : SubscriptionItem) : SubscriptionItem :=
  { row with active := false, endsAt := some (row.endsAt.getD now) }

def SubscriptionItem.released (now : Int) (row : SubscriptionItem) : SubscriptionItem :=
  { row.ended now with providerSubscriptionItemId := none }

def updateRows (selects : SubscriptionItem → Bool) (edit : SubscriptionItem → SubscriptionItem) (rows : List SubscriptionItem) :
    Except ItemError (List SubscriptionItem) :=
  if rows.all fun row => !selects row || (edit row).withinBounds then
    .ok (rows.map fun row => if selects row then edit row else row)
  else .error .boundsCheck

structure SyncState where
  rows : List SubscriptionItem
  activeComponentIds : List Nat
  unboundPrices : List Text
  deriving DecidableEq

namespace ItemSync

def configured (sync : ItemSync) : Bool :=
  sync.catalog.components.any fun component => some component.planVersionId == sync.planVersionId

def price (sync : ItemSync) (item : PriceItem) : Option PriceComponent :=
  sync.catalog.components.find? fun component => some component.planVersionId == sync.planVersionId &&
    sync.catalog.bindings.any fun binding => binding.priceComponentId == component.id && binding.provider == "stripe".toList &&
      binding.channel == "web".toList && binding.status == .published &&
      sync.catalog.storeProducts.any fun product => product.id == binding.storeProductId &&
        product.externalProductId == item.externalProductId && product.externalPriceId == item.externalPriceId

def tracked (sync : ItemSync) (item : PriceItem) (rows : List SubscriptionItem) : Option SubscriptionItem :=
  rows.find? fun row => row.subscriptionId == sync.subscriptionId &&
    row.providerSubscriptionItemId == some item.providerSubscriptionItemId && row.active

def release (sync : ItemSync) (item : PriceItem) (price : PriceComponent) : List SubscriptionItem → Except ItemError (List SubscriptionItem) :=
  updateRows (fun row => row.subscriptionId == sync.subscriptionId &&
    row.providerSubscriptionItemId == some item.providerSubscriptionItemId && row.priceComponentId != price.id)
    (SubscriptionItem.released sync.now)

def attached (sync : ItemSync) (item : PriceItem) (price : PriceComponent) (startsAt : Int) : SubscriptionItem where
  subscriptionId := sync.subscriptionId
  priceComponentId := price.id
  providerSubscriptionItemId := some item.providerSubscriptionItemId
  quantity := item.quantity
  unitAmountMinor := price.unitAmountMinor
  currency := price.currency
  active := true
  startsAt := startsAt
  endsAt := none

/-- `quantity INTEGER NOT NULL CHECK (quantity > 0)` -/
def quantityFits (item : PriceItem) : Bool :=
  decide (0 < item.quantity ∧ item.quantity < 2 ^ 31)

def startOf (sync : ItemSync) (rows : List SubscriptionItem) (componentId : Nat) : Int :=
  (findAt SubscriptionItem.key (sync.subscriptionId, componentId) rows).elim sync.periodStartAt SubscriptionItem.startsAt

def attach (sync : ItemSync) (item : PriceItem) (price : PriceComponent) (rows : List SubscriptionItem) :
    Except ItemError (List SubscriptionItem) :=
  let others := rows.filter fun row => row.key != (sync.subscriptionId, price.id)
  if !quantityFits item then .error .quantityCheck
  else if others.any fun row => row.providerSubscriptionItemId == some item.providerSubscriptionItemId then .error .providerItemUnique
  else .ok (others ++ [sync.attached item price (sync.startOf rows price.id)])

def syncItem (sync : ItemSync) (item : PriceItem) (state : SyncState) : Except ItemError SyncState :=
  match sync.price item with
  | none => .ok { state with
      activeComponentIds := state.activeComponentIds ++ ((sync.tracked item state.rows).map SubscriptionItem.priceComponentId).toList
      unboundPrices := state.unboundPrices ++ [item.externalPriceId] }
  | some price => do
    let released ← sync.release item price state.rows
    let attached ← sync.attach item price released
    .ok { state with rows := attached, activeComponentIds := state.activeComponentIds ++ [price.id] }

def syncItems (sync : ItemSync) : List PriceItem → SyncState → Except ItemError SyncState
  | [], state => .ok state
  | item :: rest, state => do
    let next ← sync.syncItem item state
    sync.syncItems rest next

/-- Ends the active rows of the subscription that no item keeps. -/
def endOthers (sync : ItemSync) (state : SyncState) : Except ItemError (List SubscriptionItem) :=
  updateRows (fun row => row.subscriptionId == sync.subscriptionId && row.active && !state.activeComponentIds.contains row.priceComponentId)
    (SubscriptionItem.ended sync.now) state.rows

/-- Syncs the subscription's rows with the provider's items, and gives the prices that no binding has. -/
def syncSubscriptionPriceItems (sync : ItemSync) (rows : List SubscriptionItem) : Except ItemError (List SubscriptionItem × List Text) :=
  if sync.items = [] then .ok (rows, [])
  else if !sync.configured then .ok (rows, [])
  else do
    let state ← sync.syncItems sync.items ⟨rows, [], []⟩
    let ended ← sync.endOthers state
    .ok (ended, state.unboundPrices)

def perform (rows : List SubscriptionItem) (sync : ItemSync) : List SubscriptionItem :=
  match sync.syncSubscriptionPriceItems rows with
  | .ok (after, _) => after
  | .error _ => rows

end ItemSync

def run (syncs : List ItemSync) : List SubscriptionItem :=
  syncs.foldl ItemSync.perform []

end Quotum.SubscriptionItems
