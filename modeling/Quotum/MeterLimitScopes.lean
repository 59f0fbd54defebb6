import Quotum.MeterLimitSpend
import Quotum.Metering

/-! The usage window of one customer and feature under declared meter-limit scopes: the rows a limit counts, the row a write goes to,
and the consumptions, reservations and corrections that are decided on them. -/

namespace Quotum.MeterLimitScopes
open General Metering MeterLimitSpend

inductive MeterLimitScope where
  | account
  | entity
  deriving DecidableEq

/-- A row of the window. Rows from before declared scopes have no scope. -/
structure UsageWindowRow where
  id : Nat
  entityId : Option Nat
  filterKey : Option String
  scope : Option MeterLimitScope
  usage : Nat
  deriving DecidableEq

structure WindowReservation where
  id : Nat
  entityId : Option Nat
  usageWindowId : Nat
  requestedQuantity : Nat
  heldQuantity : Nat
  confirmedQuantity : Option Nat
  expiresAt : Int
  status : ReservationStatus
  deriving DecidableEq

structure WindowEvent where
  id : Nat
  entityId : Option Nat
  usageWindowId : Nat
  quantity : Nat
  corrections : List Nat
  deriving DecidableEq

structure MeterLimitWindow where
  windowEndAt : Int
  rows : List UsageWindowRow
  reservations : List WindowReservation
  events : List WindowEvent
  nextId : Nat
  deriving DecidableEq

structure ScopedLimit where
  limit : Nat
  overagePolicy : OveragePolicy
  unlimited : Bool
  scope : MeterLimitScope
  mixedScope : Bool
  deriving DecidableEq

structure MeterLimitScopeSelector where
  scope : MeterLimitScope
  entityId : Option Nat
  deriving DecidableEq

structure Exposure where
  usage : Nat
  held : Nat
  deriving DecidableEq

inductive WindowFailure where
  | mixedScope
  | lostScopeLock
  | windowNotFound
  | reservationNotFound
  | eventNotFound
  | notPositive
  | alreadyConfirmed
  | released
  | quantityExceeded
  | correctionExceedsUsage
  deriving DecidableEq

def meterLimitScopeSelector (scope : MeterLimitScope) (entityId : Option Nat) : MeterLimitScopeSelector :=
  ⟨scope, if scope = .entity then entityId else none⟩

/-- Whether a row is in a scope set. The bucket without an entity leaves out the account row. -/
def scopeSetSql (selector : MeterLimitScopeSelector) (row : UsageWindowRow) : Bool :=
  match selector.scope, selector.entityId with
  | .account, _ => true
  | .entity, some entity => row.entityId == some entity
  | .entity, none => row.entityId.isNone && row.scope != some .account

namespace WindowReservation

def holdsAt (now : Int) (reservation : WindowReservation) : Bool :=
  reservation.status == .active && decide (now < reservation.expiresAt)

def counts (now : Int) (excluded : Option Nat) (reservation : WindowReservation) : Bool :=
  reservation.holdsAt now && excluded != some reservation.id

end WindowReservation

namespace WindowEvent

/-- What an event still records. -/
def remaining (event : WindowEvent) : Nat := event.quantity - event.corrections.sum

def corrected (quantity : Nat) (event : WindowEvent) : WindowEvent :=
  { event with corrections := event.corrections ++ [quantity] }

end WindowEvent

/-- The usage, the holds and the scope that a write finds under the spend lock, with the row it goes to. -/
structure LockedMeterLimitWindow where
  window : UsageWindowRow
  exposure : Exposure
  scope : MeterLimitScope
  allowed : Bool
  deriving DecidableEq

structure MeterLimitWindowInput where
  entityId : Option Nat
  meterLimit : ScopedLimit
  quantity : Nat
  deriving DecidableEq

def meterLimitAllows (meterLimit : ScopedLimit) (exposure : Exposure) (quantity : Nat) : Bool :=
  meterLimit.overagePolicy == .allowed || meterLimit.unlimited ||
    decide (quantity ≤ meterLimit.limit - (exposure.usage + exposure.held))

namespace MeterLimitWindow
variable (w : MeterLimitWindow) (now : Int)

def accountHeld (row : UsageWindowRow) : Bool :=
  row.scope == some .account &&
    (decide (0 < row.usage) || w.reservations.any fun reservation => reservation.usageWindowId == row.id && reservation.holdsAt now)

/-- The scope a write or read counts in. The account aggregate keeps governing while the account row carries anything. -/
def governingMeterLimitScope (declared : MeterLimitScope) : MeterLimitScope :=
  match declared with
  | .account => .account
  | .entity => if w.rows.any (w.accountHeld now) then .account else .entity

def meterLimitScope (declared : MeterLimitScope) (entityId : Option Nat) : MeterLimitScopeSelector :=
  meterLimitScopeSelector (w.governingMeterLimitScope now declared) entityId

def readScopeSetExposure (selector : MeterLimitScopeSelector) (excluded : Option Nat) : Exposure where
  usage := ((w.rows.filter (scopeSetSql selector)).map UsageWindowRow.usage).sum
  held := ((w.rows.filter (scopeSetSql selector)).map fun row =>
    totalAt WindowReservation.usageWindowId WindowReservation.heldQuantity row.id (w.reservations.filter (·.counts now excluded))).sum

/-- The write row of a scope set, which is inserted empty when it is not there. -/
def upsertUsageWindow (selector : MeterLimitScopeSelector) : UsageWindowRow × MeterLimitWindow :=
  match w.rows.find? fun row => row.entityId == selector.entityId && row.filterKey.isNone && row.scope == some selector.scope with
  | some row => (row, w)
  | none =>
    let row : UsageWindowRow := ⟨w.nextId, selector.entityId, none, some selector.scope, 0⟩
    (row, { w with rows := w.rows ++ [row], nextId := w.nextId + 1 })

def lockMeterLimitWindow (input : MeterLimitWindowInput) : Except WindowFailure (LockedMeterLimitWindow × MeterLimitWindow) :=
  if input.meterLimit.mixedScope then .error .mixedScope
  else
    let selector := w.meterLimitScope now input.meterLimit.scope input.entityId
    let (window, after) := w.upsertUsageWindow selector
    let exposure := after.readScopeSetExposure now selector none
    .ok (⟨window, exposure, selector.scope, meterLimitAllows input.meterLimit exposure input.quantity⟩, after)

def record (usageWindowId : Nat) (entityId : Option Nat) (quantity : Nat) : MeterLimitWindow :=
  { w with
    rows := updateAt UsageWindowRow.id usageWindowId (fun row => { row with usage := row.usage + quantity }) w.rows
    events := w.events ++ [⟨w.nextId, entityId, usageWindowId, quantity, []⟩]
    nextId := w.nextId + 1 }

def guards (input : MeterLimitWindowInput) (window : UsageWindowRow) : Bool :=
  input.meterLimit.overagePolicy == .allowed || input.meterLimit.unlimited ||
    decide (window.usage + input.quantity ≤ input.meterLimit.limit)

/-- A consumption. A refused one, by the limit or by the controls, leaves the row it would have written to. -/
def consume (input : MeterLimitWindowInput) (cleared : Bool) : Except WindowFailure MeterLimitWindow :=
  if input.quantity = 0 then .error .notPositive
  else do
    let (locked, after) ← w.lockMeterLimitWindow now input
    if !(locked.allowed && cleared) then return after
    if !guards input locked.window then throw .lostScopeLock
    return after.record locked.window.id input.entityId input.quantity

/-- A reservation, whose lifetime starts after every lock is taken. -/
def reserveMeterLimit (startsAt : Int) (expiresInSeconds : Nat) (input : MeterLimitWindowInput) (cleared : Bool) :
    Except WindowFailure MeterLimitWindow :=
  if input.quantity = 0 then .error .notPositive
  else do
    let (locked, after) ← w.lockMeterLimitWindow now input
    if !(locked.allowed && cleared) then return after
    let reservation : WindowReservation :=
      ⟨after.nextId, input.entityId, locked.window.id, input.quantity, input.quantity, none, startsAt + expiresInSeconds * 1000, .active⟩
    return { after with reservations := after.reservations ++ [reservation], nextId := after.nextId + 1 }

/-- Ends a reservation that is still active. -/
def finalize (id : Nat) (status : ReservationStatus) (confirmedQuantity : Option Nat) : MeterLimitWindow :=
  { w with reservations := updateAt WindowReservation.id id (fun reservation =>
      if reservation.status = .active then { reservation with status := status, confirmedQuantity := confirmedQuantity }
      else reservation) w.reservations }

def exceeds (meterLimit : ScopedLimit) (reservation : WindowReservation) (quantity : Nat) : Bool :=
  let other := w.readScopeSetExposure now (w.meterLimitScope now meterLimit.scope reservation.entityId) (some reservation.id)
  decide (reservation.heldQuantity < quantity) && meterLimit.overagePolicy == .blocked && !meterLimit.unlimited &&
    decide (meterLimit.limit < other.usage + other.held + quantity)

def confirmMeterLimitReservation (reservation : WindowReservation) (quantity : Nat) (meterLimit : ScopedLimit) (cleared : Bool) :
    Except WindowFailure MeterLimitWindow :=
  match findAt UsageWindowRow.id reservation.usageWindowId w.rows with
  | none => .error .windowNotFound
  | some window =>
    if meterLimit.mixedScope then .error .mixedScope
    else if w.exceeds now meterLimit reservation quantity || !cleared then .ok w
    else .ok ((w.record window.id reservation.entityId quantity).finalize reservation.id .confirmed (some quantity))

def confirm (lockedAt : Int) (id quantity : Nat) (meterLimit : ScopedLimit) (cleared : Bool) : Except WindowFailure MeterLimitWindow :=
  match findAt WindowReservation.id id w.reservations with
  | none => .error .reservationNotFound
  | some reservation =>
    if quantity = 0 then .error .notPositive
    else match reservation.status with
      | .confirmed => if reservation.confirmedQuantity = some quantity then .ok w else .error .alreadyConfirmed
      | .expired => .ok w
      | .released => .error .released
      | .active =>
        if reservation.expiresAt ≤ lockedAt then .ok (w.finalize id .expired none)
        else if reservation.requestedQuantity < quantity then .error .quantityExceeded
        else w.confirmMeterLimitReservation now reservation quantity meterLimit cleared

def release (lockedAt : Int) (id : Nat) : Except WindowFailure MeterLimitWindow :=
  match findAt WindowReservation.id id w.reservations with
  | none => .error .reservationNotFound
  | some reservation => .ok (w.finalize id (if reservation.expiresAt ≤ lockedAt then .expired else .released) none)

/-- Releases every active reservation that has run out. -/
def expireSubjectReservations (clock : Int) : MeterLimitWindow :=
  { w with reservations := w.reservations.map fun reservation =>
      if reservation.status = .active ∧ reservation.expiresAt ≤ clock then { reservation with status := .expired } else reservation }

/-- Takes a correction off the row of its event, while the window is open and the row has as much. -/
def reverseMeterLimitUsageIfEligible (event : WindowEvent) (quantity : Nat) : MeterLimitWindow :=
  if now < w.windowEndAt then
    { w with rows := updateAt UsageWindowRow.id event.usageWindowId (fun row =>
        if quantity ≤ row.usage then { row with usage := row.usage - quantity } else row) w.rows }
  else w

def correct (id quantity : Nat) : Except WindowFailure MeterLimitWindow :=
  if quantity = 0 then .error .notPositive
  else match findAt WindowEvent.id id w.events with
    | none => .error .eventNotFound
    | some event =>
      if event.remaining < quantity then .error .correctionExceedsUsage
      else
        let reversed := w.reverseMeterLimitUsageIfEligible now event quantity
        .ok { reversed with events := updateAt WindowEvent.id id (WindowEvent.corrected quantity) reversed.events }

end MeterLimitWindow

/-- An operation on the window. Each resolves the limit of its own moment, whose declared scope may be another one every time. -/
inductive WindowOperation where
  | consume (input : MeterLimitWindowInput) (cleared : Bool)
  | reserve (startsAt : Int) (expiresInSeconds : Nat) (input : MeterLimitWindowInput) (cleared : Bool)
  | confirm (lockedAt : Int) (id quantity : Nat) (meterLimit : ScopedLimit) (cleared : Bool)
  | release (lockedAt : Int) (id : Nat)
  | expire (clock : Int)
  | correct (id quantity : Nat)
  deriving DecidableEq

namespace MeterLimitWindow

def apply (w : MeterLimitWindow) (now : Int) : WindowOperation → Except WindowFailure MeterLimitWindow
  | .consume input cleared => w.consume now input cleared
  | .reserve startsAt expiresInSeconds input cleared => w.reserveMeterLimit now startsAt expiresInSeconds input cleared
  | .confirm lockedAt id quantity meterLimit cleared => w.confirm now lockedAt id quantity meterLimit cleared
  | .release lockedAt id => w.release lockedAt id
  | .expire clock => .ok (w.expireSubjectReservations clock)
  | .correct id quantity => w.correct now id quantity

def after (w : MeterLimitWindow) (now : Int) (operation : WindowOperation) : MeterLimitWindow :=
  match w.apply now operation with
  | .ok next => next
  | .error _ => w

/-- Transactions one after another, each with the time it starts at. -/
def run (w : MeterLimitWindow) (steps : List (Int × WindowOperation)) : MeterLimitWindow :=
  steps.foldl (fun reached step => reached.after step.1 step.2) w

end MeterLimitWindow

end Quotum.MeterLimitScopes
