import Quotum.MeterLimitWindows
import Quotum.Decimal

/-! The usage window that a meter limit counts against: reset windows of a recorded period, and windows that roll on from its end. -/

namespace Quotum.Cadences
open General

def invalidPeriodBounds : Failure := .conflict "Meter-limit subscription has invalid period bounds"

def assertPeriodBounds (start ending : Int) : Except Failure Unit :=
  if ending ≤ start then .error invalidPeriodBounds else .ok ()

/-- The day of the month that rolled windows start on: a period exactly one interval long keeps its start's day. -/
def rollAnchorDay (start ending : Int) (reset : Cadence) : Int :=
  if ending = nextCadence start reset then dateOf start else dateOf ending

/-- The window of a period or, once it has ended, of the reset-sized windows that roll on from its end. -/
def rollWindow (start ending : Int) (reset : Cadence) (now : Int) : Bounds :=
  if now < ending then ⟨start, some ending⟩
  else
    match canonicalCadence reset with
    | .hours hours =>
      let milliseconds := hours * hourMs
      let windowStart := ending + (now - ending) / milliseconds * milliseconds
      ⟨windowStart, some (windowStart + milliseconds)⟩
    | .months months =>
      let anchorDay := rollAnchorDay start ending reset
      let steps := utcMonthIndexDifference ending now / months
      let boundary := addCadence ending reset steps anchorDay
      if boundary > now then ⟨addCadence ending reset (steps - 1) anchorDay, some boundary⟩
      else ⟨boundary, some (addCadence ending reset (steps + 1) anchorDay)⟩

def rollWindowBounds (start ending : Int) (reset : Cadence) (now : Int) : Except Failure Bounds := do
  assertPeriodBounds start ending
  return rollWindow start ending reset now

/-- The window that a meter limit counts against. A recorded period that the reset splits is cut into reset windows. -/
def meterLimitWindowBounds (periodStartAt : Int) (periodEndAt : Option Int) (reset : Cadence) (now : Int) (billing : Option Cadence) :
    Except Failure Bounds := do
  let ending := periodEndAt.getD (nextCadence periodStartAt reset)
  if periodEndAt.isSome && periodSplits reset billing ⟨periodStartAt, some ending⟩ then
    assertPeriodBounds periodStartAt ending
    if now < ending then return resetSubWindowBounds periodStartAt ending reset now
    else rollWindowBounds ending (nextCadence ending reset) reset now
  else rollWindowBounds periodStartAt ending reset now

end Quotum.Cadences
