import Quotum.Controls
import Quotum.Metering

/-! The usage of one account as its controls see it: every consume, hold, confirmation, release,
expiry and correction, each in a transaction of its own under the account's control lock. -/

namespace Quotum.Controls
open General Metering

structure ControlledReservation where
  id : Nat
  feature : Nat
  entity : Option Nat
  requestedQuantity : Nat
  confirmedQuantity : Option Nat
  expiresAt : Int
  status : ReservationStatus
  holds : List ControlHold
  deriving DecidableEq

structure ControlledAccount where
  windows : List ControlWindow
  reservations : List ControlledReservation
  events : List ControlledEvent
  deriving DecidableEq

structure Amount where
  quantity : Nat
  spendMinorDelta : Int
  currency : Option String
  deriving DecidableEq

def Amount.delta (amount : Amount) (feature : Nat) (entity : Option Nat) : ControlDelta :=
  ⟨feature, entity, amount.quantity, amount.spendMinorDelta, amount.currency⟩

/-- The clocks of a transaction: the one its controls are read at, and the one its usage is recorded at. -/
structure Clock where
  controlNow : Int
  recordedAt : Int
  deriving DecidableEq

def requirePositive (quantity : Nat) : Except Failure Unit :=
  if quantity ≤ 0 then .error (.invalidRequest "quantity must be greater than zero") else .ok ()

def ControlledAccount.record (account : ControlledAccount) (operation : UsageOperation) (feature : Nat)
    (entity : Option Nat) (clock : Clock) (quantity : Nat) (entries : List ControlEntry) : List ControlledEvent :=
  account.events ++ [{
    id := account.events.length
    operation := operation
    feature := feature
    entity := entity
    recordedAt := clock.recordedAt
    quantity := quantity
    entries := entries
    corrections := [] }]

section Operations
variable (commercial : Commercial) (clock : Clock)

/-- Spends a quantity at once, when the balance admits it and no limit denies it. -/
def consumeUsage (feature : Nat) (entity : Option Nat) (amount : Amount) (admitted : Bool) (account : ControlledAccount) :
    Except Failure ControlledAccount := do
  requirePositive amount.quantity
  if !admitted then return account
  else
    let (windows, entries) ←
      consumeControls commercial account.events (amount.delta feature entity) clock.controlNow account.windows
    match entries with
    | none => return { account with windows := windows }
    | some entries => return { account with
        windows := windows
        events := account.record .consume feature entity clock amount.quantity entries }

def reserveUsage (feature : Nat) (entity : Option Nat) (amount : Amount) (expiresIn : Nat) (admitted : Bool)
    (account : ControlledAccount) : Except Failure ControlledAccount := do
  requirePositive amount.quantity
  if !admitted then return account
  else
    let (windows, holds) ←
      holdControls commercial account.events (amount.delta feature entity) clock.controlNow account.windows
    match holds with
    | none => return { account with windows := windows }
    | some holds => return { account with
        windows := windows
        reservations := account.reservations ++ [{
          id := account.reservations.length
          feature := feature
          entity := entity
          requestedQuantity := amount.quantity
          confirmedQuantity := none
          expiresAt := clock.recordedAt + expiresIn
          status := .active
          holds := holds }] }

def closeReservation (reservation : ControlledReservation) (status : ReservationStatus) (account : ControlledAccount) :
    ControlledAccount :=
  { account with
    windows := releaseControlHolds reservation.holds account.windows
    reservations := updateAt ControlledReservation.id reservation.id (fun row => { row with status := status })
      account.reservations }

def confirmUsage (id : Nat) (amount : Amount) (admitted : Bool) (account : ControlledAccount) :
    Except Failure ControlledAccount :=
  match findAt ControlledReservation.id id account.reservations with
  | none => .error (.invalidRequest s!"Reservation {id} was not found")
  | some reservation => do
    requirePositive amount.quantity
    match reservation.status with
    | .confirmed =>
      if reservation.confirmedQuantity = some amount.quantity then return account
      else .error (.conflict "Reservation was confirmed with different usage facts")
    | .expired => return account
    | .released => .error (.conflict "Reservation has been released")
    | .active =>
      if reservation.expiresAt ≤ clock.controlNow then return closeReservation reservation .expired account
      else if amount.quantity > reservation.requestedQuantity then
        .error (.conflict "Confirmed quantity exceeds the reserved authorization")
      else if !admitted then return account
      else
        let (windows, entries) ← confirmControlHolds commercial account.events
          (amount.delta reservation.feature reservation.entity) clock.controlNow reservation.holds account.windows
        match entries with
        | none => return { account with windows := windows }
        | some entries => return {
            windows := windows
            reservations := updateAt ControlledReservation.id reservation.id
              (fun row => { row with status := .confirmed, confirmedQuantity := some amount.quantity }) account.reservations
            events := account.record .confirm reservation.feature reservation.entity clock amount.quantity entries }

def releaseUsage (id : Nat) (account : ControlledAccount) : Except Failure ControlledAccount :=
  match findAt ControlledReservation.id id account.reservations with
  | none => .error (.invalidRequest s!"Reservation {id} was not found")
  | some reservation =>
    if reservation.status = .active then
      .ok (closeReservation reservation (if reservation.expiresAt ≤ clock.controlNow then .expired else .released) account)
    else .ok account

/-- Closes every reservation that has run out. -/
def expireUsage (account : ControlledAccount) : ControlledAccount :=
  (account.reservations.filter fun row => row.status = .active ∧ row.expiresAt ≤ clock.controlNow).foldl
    (fun current reservation => closeReservation reservation .expired current) account

def correctUsage (id : Nat) (quantity : Nat) (spendMinorReduction : Int) (currency : Option String)
    (account : ControlledAccount) : Except Failure ControlledAccount :=
  match findAt ControlledEvent.id id account.events with
  | none => .error (.invalidRequest s!"Usage event {id} was not found")
  | some original => do
    requirePositive quantity
    if (quantity : Int) > original.net then
      .error (.conflict "Usage correction exceeds the original unreversed quantity")
    else
      let (windows, entries) :=
        correctControlConsumption commercial original quantity spendMinorReduction currency account.windows
      return { account with
        windows := windows
        events := updateAt ControlledEvent.id original.id
          (ControlledEvent.addCorrection ⟨quantity, entries⟩) account.events }

end Operations

inductive UsageWrite where
  | consume (feature : Nat) (entity : Option Nat) (amount : Amount) (admitted : Bool)
  | reserve (feature : Nat) (entity : Option Nat) (amount : Amount) (expiresIn : Nat) (admitted : Bool)
  | confirm (reservation : Nat) (amount : Amount) (admitted : Bool)
  | release (reservation : Nat)
  | expire
  | correct (event : Nat) (quantity : Nat) (spendMinorReduction : Int) (currency : Option String)
  deriving DecidableEq

def UsageWrite.apply (commercial : Commercial) (clock : Clock) (account : ControlledAccount) :
    UsageWrite → Except Failure ControlledAccount
  | .consume feature entity amount admitted => consumeUsage commercial clock feature entity amount admitted account
  | .reserve feature entity amount expiresIn admitted =>
    reserveUsage commercial clock feature entity amount expiresIn admitted account
  | .confirm reservation amount admitted => confirmUsage commercial clock reservation amount admitted account
  | .release reservation => releaseUsage clock reservation account
  | .expire => .ok (expireUsage clock account)
  | .correct event quantity spendMinorReduction currency =>
    correctUsage commercial event quantity spendMinorReduction currency account

end Quotum.Controls
