import Quotum.ControlledUsage

/-! Usage alerts: what a write passes to the alerts of its feature, how an alert counts its window and
crosses or rearms its threshold, and how a new alert starts. -/

namespace Quotum.Controls
open General Cadences Decimal Metering

inductive ThresholdType where
  | absolute
  | percentage
  deriving DecidableEq

/-- An entity's alert counts that entity's usage; every other one counts the account's. -/
structure UsageAlert where
  id : Nat
  feature : Nat
  entity : Option Nat
  thresholdType : ThresholdType
  thresholdValue : Nat
  interval : Option Cadence
  deriving DecidableEq

inductive AlertEventType where
  | thresholdCrossed
  | thresholdRearmed
  deriving DecidableEq

structure AlertState where
  window : Bounds
  currentValue : Nat
  thresholdValue : Nat
  crossed : Bool
  crossingSequence : Nat
  deriving DecidableEq

structure AlertEvent where
  windowStartAt : Int
  crossingSequence : Nat
  currentValue : Nat
  thresholdValue : Nat
  eventType : AlertEventType
  deriving DecidableEq

structure AlertRecord where
  alert : UsageAlert
  state : AlertState
  events : List AlertEvent
  deriving DecidableEq

/-- What a write passes to the alerts. A correction adds when the usage it corrects was recorded. -/
structure AlertDelta where
  feature : Nat
  entity : Option Nat
  delta : Int
  correctsRecordedAt : Option Int
  deriving DecidableEq

def controlWindowBounds (interval : Option Cadence) (now : Int) : Bounds :=
  match interval with
  | none => ⟨0, none⟩
  | some cadence => calendarWindow cadence now

def sameControlWindow (control : ControlPolicy) (interval : Option Cadence) : Bool :=
  control.cadenceKey == interval.map canonicalCadence

def tightestControl (matching : ControlPolicy → Bool) (controls : List ControlPolicy) : Option ControlPolicy :=
  controls.foldl (fun tightest control =>
    if !matching control then tightest
    else match tightest with
      | none => some control
      | some found => if control.limitValue < found.limitValue then some control else tightest) none

/-- The threshold an alert is evaluated against. A percentage follows the tightest usage limit of its window, and has
none where no limit is in force. -/
def evaluatedThreshold (commercial : Commercial) (alert : UsageAlert) : Option Nat :=
  match alert.thresholdType with
  | .absolute => some alert.thresholdValue
  | .percentage =>
    (tightestControl (fun control => control.kind == .usageLimit alert.feature && sameControlWindow control alert.interval)
      (resolveWinningControls commercial alert.entity)).map fun limit =>
        limit.limitValue * alert.thresholdValue / (100 * 10 ^ controlScale)

def readAlertWindowUsage (alert : UsageAlert) (bounds : Bounds) (events : List ControlledEvent) : Nat :=
  ((events.filter fun event =>
    event.feature == alert.feature && (alert.entity.isNone || alert.entity == event.entity) &&
      (bounds.endAt.isNone || bounds.contains event.recordedAt)).map ControlledEvent.net).sum.toNat

def UsageAlert.concerns (alert : UsageAlert) (feature : Nat) (entity : Option Nat) : Bool :=
  alert.feature == feature && (alert.entity.isNone || alert.entity == entity)

/-- An alert has at most one event of a type for each crossing of a window. -/
def insertAlertEvent (events : List AlertEvent) (event : AlertEvent) : List AlertEvent :=
  if events.any fun other => other.windowStartAt == event.windowStartAt && other.crossingSequence == event.crossingSequence &&
    other.eventType == event.eventType then events
  else events ++ [event]

/-- Moves an alert's state to a count and threshold, and records the event of a crossing or a rearming. -/
def AlertRecord.advance (record : AlertRecord) (bounds : Bounds) (threshold next : Nat) : AlertRecord :=
  let sameWindow := record.state.window.startAt == bounds.startAt
  let nextCrossed := decide (threshold ≤ next)
  let priorCrossed := sameWindow && record.state.crossed
  let before := if sameWindow then record.state.crossingSequence else 0
  let sequence := if !priorCrossed && nextCrossed then before + 1 else before
  let eventType := if !priorCrossed && nextCrossed then some AlertEventType.thresholdCrossed
    else if priorCrossed && !nextCrossed then some .thresholdRearmed else none
  { record with
    state := ⟨bounds, next, threshold, nextCrossed, sequence⟩
    events := match eventType with
      | none => record.events
      | some eventType => insertAlertEvent record.events ⟨bounds.startAt, sequence, next, threshold, eventType⟩ }

section Evaluate
variable (commercial : Commercial) (events : List ControlledEvent) (now : Int) (input : AlertDelta)

/-- Evaluates one alert. A lifetime alert reads its usage again; every other one adds the delta to its count. A
correction of usage recorded in a window the alert has left changes nothing. -/
def evaluateAlert (record : AlertRecord) : AlertRecord :=
  let bounds := controlWindowBounds record.alert.interval (input.correctsRecordedAt.getD now)
  match evaluatedThreshold commercial record.alert with
  | none => record
  | some threshold =>
    let sameWindow := record.state.window.startAt == bounds.startAt
    if input.correctsRecordedAt.isSome && !sameWindow then record
    else
      let current := if sameWindow then record.state.currentValue else 0
      let aggregate : Int := match record.alert.interval with
        | none => readAlertWindowUsage record.alert bounds events
        | some _ => current + input.delta
      record.advance bounds threshold aggregate.toNat

def recordUsageAlertDelta (records : List AlertRecord) : List AlertRecord :=
  if input.delta = 0 then records
  else records.map fun record =>
    if record.alert.concerns input.feature input.entity then evaluateAlert commercial events now input record else record

end Evaluate

structure AlertedAccount where
  usage : ControlledAccount
  alerts : List AlertRecord
  deriving DecidableEq

structure AlertClock where
  usage : Clock
  alertNow : Int
  deriving DecidableEq

def alertDelta (write : UsageWrite) (before after : ControlledAccount) : Option AlertDelta :=
  match write with
  | .consume feature entity amount _ =>
    if before.events.length < after.events.length then some ⟨feature, entity, amount.quantity, none⟩ else none
  | .confirm id amount _ =>
    match findAt ControlledReservation.id id before.reservations with
    | some reservation =>
      if before.events.length < after.events.length then
        some ⟨reservation.feature, reservation.entity, amount.quantity, none⟩
      else none
    | none => none
  | .correct id quantity _ _ =>
    (findAt ControlledEvent.id id before.events).map fun original =>
      ⟨original.feature, original.entity, -(quantity : Int), some original.recordedAt⟩
  | _ => none

structure UsageAlertInput where
  feature : Nat
  entity : Option Nat
  thresholdType : ThresholdType
  thresholdValue : Nat
  interval : Option Cadence
  deriving DecidableEq

def UsageAlertInput.alert (input : UsageAlertInput) (id : Nat) : UsageAlert :=
  ⟨id, input.feature, input.entity, input.thresholdType, input.thresholdValue, input.interval⟩

section Writes
variable (commercial : Commercial)

/-- A new alert starts from the usage its window has recorded, and crosses at once a threshold which that has reached. -/
def createUsageAlert (now : Int) (input : UsageAlertInput) (account : AlertedAccount) : Except Failure AlertedAccount :=
  if input.thresholdValue ≤ 0 then .error (.invalidRequest "thresholdValue must be positive")
  else if input.thresholdType = .percentage ∧ input.thresholdValue > 100 * 10 ^ controlScale then
    .error (.invalidRequest "Percentage threshold cannot exceed 100")
  else
    let alert := input.alert account.alerts.length
    match evaluatedThreshold commercial alert with
    | none => .error (.invalidRequest "Percentage alerts require an effective usage limit with the same interval")
    | some threshold =>
      let bounds := controlWindowBounds input.interval now
      let used := readAlertWindowUsage alert bounds account.usage.events
      let crossed := decide (threshold ≤ used)
      .ok { account with alerts := account.alerts ++ [{
        alert := alert
        state := ⟨bounds, used, threshold, crossed, if crossed then 1 else 0⟩
        events := if crossed then [⟨bounds.startAt, 1, used, threshold, .thresholdCrossed⟩] else [] }] }

/-- A usage write, with the alerts it evaluates in the same transaction. -/
def writeUsage (clock : AlertClock) (write : UsageWrite) (account : AlertedAccount) : Except Failure AlertedAccount := do
  let usage ← write.apply commercial clock.usage account.usage
  match alertDelta write account.usage usage with
  | none => return { account with usage := usage }
  | some input =>
    return ⟨usage, recordUsageAlertDelta commercial usage.events clock.alertNow input account.alerts⟩

end Writes

inductive AlertWrite where
  | create (input : UsageAlertInput)
  | usage (write : UsageWrite)
  deriving DecidableEq

def AlertWrite.apply (commercial : Commercial) (clock : AlertClock) (account : AlertedAccount) :
    AlertWrite → Except Failure AlertedAccount
  | .create input => createUsageAlert commercial clock.alertNow input account
  | .usage write => writeUsage commercial clock write account

end Quotum.Controls
