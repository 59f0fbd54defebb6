import Quotum.Cadence
import Quotum.Decimal
import Quotum.General.Table

/-! The usage and spend limits of one account: which limits act on a write, what their calendar
windows count and hold, and how a hold's confirmation and a correction settle in them. -/

namespace Quotum.Controls
open General Cadences Decimal

def controlScale : Nat := 9

inductive ControlKind where
  | usageLimit (feature : Nat)
  | spendLimit (currency : String)
  deriving DecidableEq

/-- An entity's control counts that entity's usage; every other one counts the account's. -/
inductive ControlSource where
  | planDefault
  | contract
  | account
  | entity (id : Nat)
  deriving DecidableEq

structure ControlPolicy where
  id : Nat
  source : ControlSource
  kind : ControlKind
  limitValue : Nat
  interval : Option Cadence
  deriving DecidableEq

namespace ControlPolicy

def entity (policy : ControlPolicy) : Option Nat :=
  match policy.source with
  | .entity id => some id
  | _ => none

/-- Controls of one kind, feature, currency and entity scope count the same usage. -/
def identity (policy : ControlPolicy) : ControlKind × Option Nat :=
  (policy.kind, policy.entity)

def cadenceKey (policy : ControlPolicy) : Option CanonicalCadence :=
  policy.interval.map canonicalCadence

/-- The calendar window that contains an instant; a lifetime window starts at the epoch and never ends. -/
def windowBounds (policy : ControlPolicy) (now : Int) : Bounds :=
  match policy.interval with
  | none => ⟨0, none⟩
  | some cadence => calendarWindow cadence now

def rank (policy : ControlPolicy) : Nat :=
  match policy.source with
  | .planDefault => 1
  | .contract => 2
  | .account => 3
  | .entity _ => 4

/-- The tighter limit comes first, and of equal ones the more specific source. -/
def comesBefore (policy other : ControlPolicy) : Bool :=
  decide (policy.limitValue < other.limitValue) ||
    (policy.limitValue == other.limitValue && decide (other.rank < policy.rank))

end ControlPolicy

/-- The active policies of an account's plans, contract and entities at an instant, the entities its plan
defaults are in force for, and whether its contract replaces the defaults it names. -/
structure Commercial where
  policies : List ControlPolicy
  reach : ControlPolicy → Option Nat → Bool
  replacesDefaults : Bool

def Commercial.covers (commercial : Commercial) (policy : ControlPolicy) (entity : Option Nat) : Bool :=
  match policy.source with
  | .planDefault => commercial.reach policy entity
  | _ => true

def Commercial.inForce (commercial : Commercial) (entity : Option Nat) : List ControlPolicy :=
  commercial.policies.filter fun policy =>
    commercial.covers policy entity && (policy.entity.isNone || policy.entity == entity)

/-- Controls with the same window compete, whichever way the cadence is spelled. -/
def controlIdentity (policy : ControlPolicy) : ControlKind × Option CanonicalCadence × Bool :=
  (policy.kind, policy.cadenceKey, policy.entity.isSome)

def compete (winners : List ControlPolicy) (policy : ControlPolicy) : List ControlPolicy :=
  if winners.any fun winner => controlIdentity winner == controlIdentity policy then
    winners.map fun winner =>
      if controlIdentity winner = controlIdentity policy ∧ policy.comesBefore winner = true then policy else winner
  else winners ++ [policy]

def resolveWinningControls (commercial : Commercial) (entity : Option Nat) : List ControlPolicy :=
  let rows := commercial.inForce entity
  let replaced := if commercial.replacesDefaults then
    (rows.filter fun row => row.source == .contract).map controlIdentity else []
  (rows.filter fun row => row.source != .planDefault || !replaced.contains (controlIdentity row)).foldl compete []

structure WindowKey where
  policy : ControlPolicy
  bounds : Bounds
  deriving DecidableEq

/-- Windows of one identity and one span count the same usage. -/
def WindowKey.identity (key : WindowKey) : (ControlKind × Option Nat) × Bounds :=
  (key.policy.identity, key.bounds)

structure ControlWindow where
  key : WindowKey
  consumedValue : Nat
  heldValue : Nat
  deriving DecidableEq

namespace ControlWindow

def catchUp (opening : Nat) (window : ControlWindow) : ControlWindow :=
  { window with consumedValue := max window.consumedValue opening }

/-- Moves a count, which never drops below zero. -/
def count (delta : Int) (window : ControlWindow) : ControlWindow :=
  { window with consumedValue := (window.consumedValue + delta).toNat }

def hold (value : Nat) (window : ControlWindow) : ControlWindow :=
  { window with heldValue := window.heldValue + value }

/-- Lowers a count, no further than to zero. -/
def lower (reduction : Int) (window : ControlWindow) : ControlWindow :=
  { window with consumedValue := ((window.consumedValue : Int) - reduction).toNat }

def free (value : Nat) (window : ControlWindow) : ControlWindow :=
  { window with heldValue := window.heldValue - value }

end ControlWindow

structure ControlHold where
  window : WindowKey
  heldValue : Nat
  deriving DecidableEq

structure ControlEntry where
  window : WindowKey
  value : Int
  deriving DecidableEq

inductive UsageOperation where
  | consume
  | confirm
  deriving DecidableEq

structure UsageCorrection where
  quantity : Nat
  entries : List ControlEntry
  deriving DecidableEq

structure ControlledEvent where
  id : Nat
  operation : UsageOperation
  feature : Nat
  entity : Option Nat
  recordedAt : Int
  quantity : Nat
  entries : List ControlEntry
  corrections : List UsageCorrection
  deriving DecidableEq

def ControlledEvent.corrected (event : ControlledEvent) : Nat :=
  (event.corrections.map UsageCorrection.quantity).sum

def ControlledEvent.addCorrection (correction : UsageCorrection) (event : ControlledEvent) : ControlledEvent :=
  { event with corrections := event.corrections ++ [correction] }

def ControlledEvent.net (event : ControlledEvent) : Int :=
  (event.quantity : Int) - event.corrected

def consumedIn (key : WindowKey) (windows : List ControlWindow) : Nat :=
  totalAt ControlWindow.key ControlWindow.consumedValue key windows

def siblings (key : WindowKey) (windows : List ControlWindow) : List ControlWindow :=
  windows.filter fun window => window.key.identity == key.identity

def carriedControlConsumption (key : WindowKey) (windows : List ControlWindow) : Nat :=
  (((siblings key windows).filter fun window => window.key.policy != key.policy).map ControlWindow.consumedValue).foldr max 0

def controlIdentityHeld (key : WindowKey) (windows : List ControlWindow) : Nat :=
  ((siblings key windows).map ControlWindow.heldValue).sum

/-- Whether an event was charged to a window of the policy's cadence that does not contain the time it was recorded. -/
def chargedToEarlierWindow (policy : ControlPolicy) (event : ControlledEvent) : Bool :=
  policy.interval.isSome && event.entries.any fun entry =>
    entry.window.policy.kind == policy.kind && entry.window.policy.entity == policy.entity &&
      entry.window.policy.cadenceKey == policy.cadenceKey && !entry.window.bounds.contains event.recordedAt

def countsEvent (commercial : Commercial) (key : WindowKey) (event : ControlledEvent) : Bool :=
  key.policy.kind == .usageLimit event.feature && (key.policy.entity.isNone || key.policy.entity == event.entity) &&
    commercial.covers key.policy event.entity && key.bounds.contains event.recordedAt &&
      (event.operation == .consume || !chargedToEarlierWindow key.policy event)

/-- The usage already recorded in a usage limit's window. A lifetime window reads it again whenever it is
used, any other one only before it has its row. -/
def recordedControlConsumption (commercial : Commercial) (key : WindowKey) (windows : List ControlWindow)
    (events : List ControlledEvent) : Nat :=
  match key.bounds.endAt with
  | none =>
    ((events.filter fun event => key.policy.kind == .usageLimit event.feature &&
      (key.policy.entity.isNone || key.policy.entity == event.entity) &&
        commercial.covers key.policy event.entity).map ControlledEvent.net).sum.toNat
  | some _ =>
    if windows.any fun window => window.key == key then 0
    else ((events.filter (countsEvent commercial key)).map ControlledEvent.net).sum.toNat

def openingControlConsumption (commercial : Commercial) (key : WindowKey) (windows : List ControlWindow)
    (events : List ControlledEvent) : Nat :=
  max (carriedControlConsumption key windows) (recordedControlConsumption commercial key windows events)

def changeWindow (key : WindowKey) (change : ControlWindow → ControlWindow) (windows : List ControlWindow) :
    List ControlWindow :=
  updateAt ControlWindow.key key change windows

/-- A new window starts from its opening count; one that fell behind a control which counted in its place catches up. -/
def openWindow (commercial : Commercial) (events : List ControlledEvent) (key : WindowKey) (windows : List ControlWindow) :
    List ControlWindow :=
  let opening := openingControlConsumption commercial key windows events
  if windows.any fun window => window.key == key then
    changeWindow key (ControlWindow.catchUp opening) windows
  else windows ++ [⟨key, opening, 0⟩]

def openWindows (commercial : Commercial) (events : List ControlledEvent) (now : Int) (policies : List ControlPolicy)
    (windows : List ControlWindow) : List ControlWindow :=
  policies.foldl (fun rows policy => openWindow commercial events ⟨policy, policy.windowBounds now⟩ rows) windows

structure ControlDelta where
  feature : Nat
  entity : Option Nat
  usageDelta : Nat
  spendMinorDelta : Int
  currency : Option String
  deriving DecidableEq

def ControlDelta.concerns (input : ControlDelta) (policy : ControlPolicy) : Bool :=
  match policy.kind with
  | .usageLimit feature => feature == input.feature
  | .spendLimit currency => input.currency == some currency

def actingControls (commercial : Commercial) (input : ControlDelta) : List ControlPolicy :=
  ((resolveWinningControls commercial input.entity).filter input.concerns).insertionSort fun policy other =>
    policy.id ≤ other.id

def deltaFor (input : ControlDelta) (field : String) (policy : ControlPolicy) : Except Failure Int :=
  match policy.kind with
  | .usageLimit _ => .ok input.usageDelta
  | .spendLimit _ => do
    signedDecimalToUnits (← canonicalSignedDecimal (unitsToDecimal input.spendMinorDelta 0) field controlScale) controlScale

inductive ControlMode where
  | consume
  | hold
  deriving DecidableEq

structure Charge where
  key : WindowKey
  consumed : Nat
  delta : Int
  deriving DecidableEq

section Evaluate
variable (commercial : Commercial) (events : List ControlledEvent) (input : ControlDelta) (mode : ControlMode) (now : Int)

/-- Locks and checks the windows of the limits that act on a write. No charges mean that a limit denies it. -/
def admitControls : List ControlPolicy → List ControlWindow → Except Failure (List ControlWindow × Option (List Charge))
  | [], windows => .ok (windows, some [])
  | policy :: rest, windows => do
    let delta ← deltaFor input "spend control delta" policy
    if delta ≤ 0 ∧ mode = .hold then admitControls rest windows
    else
      let key : WindowKey := ⟨policy, policy.windowBounds now⟩
      let opened := openWindow commercial events key windows
      let consumed := consumedIn key opened
      if 0 < delta ∧ (consumed + controlIdentityHeld key opened : Nat) + delta > policy.limitValue then return (opened, none)
      else
        let (windows, charges) ← admitControls rest opened
        return (windows, charges.map (⟨key, consumed, delta⟩ :: ·))

def countCharge (charge : Charge) (windows : List ControlWindow) : List ControlWindow :=
  changeWindow charge.key (ControlWindow.count charge.delta) windows

/-- What a charge moved; a spend limit records even a charge that moved nothing. -/
def appliedEntry (charge : Charge) : Option ControlEntry :=
  let applied : Int := ((charge.consumed + charge.delta).toNat : Int) - charge.consumed
  match charge.key.policy.kind with
  | .usageLimit _ => if applied = 0 then none else some ⟨charge.key, applied⟩
  | .spendLimit _ => some ⟨charge.key, applied⟩

/-- Counts a write in its limits; `none` when one of them denies it. -/
def consumeControls (windows : List ControlWindow) : Except Failure (List ControlWindow × Option (List ControlEntry)) := do
  let (opened, charges) ← admitControls commercial events input .consume now (actingControls commercial input) windows
  match charges with
  | none => return (opened, none)
  | some charges => return (charges.foldl (fun rows charge => countCharge charge rows) opened, some (charges.filterMap appliedEntry))

def holdCharge (charge : Charge) (windows : List ControlWindow) : List ControlWindow :=
  changeWindow charge.key (ControlWindow.hold charge.delta.toNat) windows

/-- Holds a write in its limits; `none` when one of them denies it. -/
def holdControls (windows : List ControlWindow) : Except Failure (List ControlWindow × Option (List ControlHold)) := do
  let (opened, charges) ← admitControls commercial events input .hold now (actingControls commercial input) windows
  match charges with
  | none => return (opened, none)
  | some charges =>
    return (charges.foldl (fun rows charge => holdCharge charge rows) opened,
      some (charges.map fun charge => ⟨charge.key, charge.delta.toNat⟩))

end Evaluate

section Settle

/-- One settlement of a confirmation: the window its value is counted in, and the holds it settles. -/
structure ConfirmationGroup where
  window : WindowKey
  holds : List ControlHold
  deriving DecidableEq

def adoptedHolds (now : Int) (holds : List ControlHold) (policy : ControlPolicy) : List ControlHold :=
  holds.filter fun hold => hold.window.policy.identity == policy.identity && hold.window.bounds == policy.windowBounds now

def heldElsewhere (now : Int) (holds : List ControlHold) (policy : ControlPolicy) : Bool :=
  (adoptedHolds now holds policy).isEmpty && holds.any fun hold => hold.window.policy.identity == policy.identity

def confirmationGroups (now : Int) (holds : List ControlHold) (active : List ControlPolicy) : List ConfirmationGroup :=
  let settling := active.filter fun policy => !heldElsewhere now holds policy
  let unadopted := holds.filter fun hold => settling.all fun policy => !(adoptedHolds now holds policy).contains hold
  let current := settling.map fun policy =>
    ({ window := ⟨policy, policy.windowBounds now⟩, holds := adoptedHolds now holds policy } : ConfirmationGroup)
  let elsewhere := unadopted.map fun hold => ({ window := hold.window, holds := [hold] } : ConfirmationGroup)
  (current ++ elsewhere).insertionSort fun group other => group.window.policy.id ≤ other.window.policy.id

def heldBy (holds : List ControlHold) : Nat :=
  (holds.map ControlHold.heldValue).sum

/-- Checks a confirmed value in the window of each group. No charges mean that a limit denies it. -/
def admitConfirmation (input : ControlDelta) (windows : List ControlWindow) :
    List ConfirmationGroup → Except Failure (Option (List (ConfirmationGroup × Charge)))
  | [] => .ok (some [])
  | group :: rest => do
    let target ← deltaFor input "confirmed control value" group.window.policy
    let consumed := consumedIn group.window windows
    let otherHeld := controlIdentityHeld group.window windows - heldBy group.holds
    if 0 < target ∧ (consumed + otherHeld : Nat) + target > group.window.policy.limitValue then return none
    else
      let others ← admitConfirmation input windows rest
      return others.map ((group, ⟨group.window, consumed, target⟩) :: ·)

def dropHold (windows : List ControlWindow) (hold : ControlHold) : List ControlWindow :=
  changeWindow hold.window (ControlWindow.free hold.heldValue) windows

def settleGroup (windows : List ControlWindow) (settled : ConfirmationGroup × Charge) : List ControlWindow :=
  countCharge settled.2 (settled.1.holds.foldl dropHold windows)

/-- Settles a reservation's holds and counts the confirmed value in every limit that acts on it; `none` when a
limit denies it. -/
def confirmControlHolds (commercial : Commercial) (events : List ControlledEvent) (input : ControlDelta) (now : Int)
    (holds : List ControlHold) (windows : List ControlWindow) :
    Except Failure (List ControlWindow × Option (List ControlEntry)) := do
  let active := actingControls commercial input
  let opened := openWindows commercial events now (active.filter fun policy => !heldElsewhere now holds policy) windows
  match ← admitConfirmation input opened (confirmationGroups now holds active) with
  | none => return (opened, none)
  | some settled => return (settled.foldl settleGroup opened, some (settled.filterMap fun entry => appliedEntry entry.2))

def releaseControlHolds (holds : List ControlHold) (windows : List ControlWindow) : List ControlWindow :=
  holds.foldl dropHold windows

end Settle

section Correct

/-- The entry by which an event is counted in a window or in one of its identity: the window's own, or the
first of the others. -/
def countingEntry (event : ControlledEvent) (windows : List ControlWindow) (key : WindowKey) : Option ControlEntry :=
  let entriesOf := fun window : WindowKey => event.entries.find? fun entry => entry.window == window
  (entriesOf key).or (((siblings key windows).map ControlWindow.key).findSome? entriesOf)

def priorCorrections (event : ControlledEvent) (key : WindowKey) : Int :=
  (event.corrections.map fun correction =>
    totalAt ControlEntry.window ControlEntry.value key correction.entries).sum

/-- How much a correction takes off the window of a spend limit. The account's window follows the charge as it
is re-rated; an entity's keeps at most the uncorrected share of what its event added. -/
def spendReduction (event : ControlledEvent) (usageReduction : Nat) (spendMinorReduction : Int) (key : WindowKey)
    (entry : ControlEntry) : Int :=
  let reduction := spendMinorReduction * 10 ^ controlScale
  if key.policy.entity.isSome then
    let uncorrected : Int := (event.quantity : Int) - event.corrected - usageReduction
    let held := entry.value + priorCorrections event key
    let most := if 0 < entry.value ∧ 0 < uncorrected then entry.value * uncorrected / event.quantity else 0
    if held - reduction > most then held - most else reduction
  else reduction

def reductionIn (commercial : Commercial) (event : ControlledEvent) (usageReduction : Nat) (spendMinorReduction : Int)
    (currency : Option String) (windows : List ControlWindow) (key : WindowKey) : Int :=
  match countingEntry event windows key with
  | some entry =>
    match key.policy.kind with
    | .usageLimit _ => usageReduction
    | .spendLimit counted =>
      if currency = some counted then spendReduction event usageReduction spendMinorReduction key entry else 0
  | none => if countsEvent commercial key event then usageReduction else 0

def correctControlConsumption (commercial : Commercial) (event : ControlledEvent) (usageReduction : Nat)
    (spendMinorReduction : Int) (currency : Option String) (windows : List ControlWindow) :
    List ControlWindow × List ControlEntry :=
  let reduction := fun window : ControlWindow =>
    reductionIn commercial event usageReduction spendMinorReduction currency windows window.key
  (windows.map fun window => window.lower (reduction window),
    windows.filterMap fun window =>
      let applied : Int := ((window.lower (reduction window)).consumedValue : Int) - window.consumedValue
      if applied = 0 then none else some ⟨window.key, applied⟩)

end Correct

end Quotum.Controls
