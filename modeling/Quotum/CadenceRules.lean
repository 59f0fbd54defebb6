import Quotum.MeterLimitWindows
import Quotum.Decimal

/-! How cadences are compared: the key of the windows they produce, and whether a reset fits within a billing interval. -/

namespace Quotum.Cadences
open General

def cadenceKey (cadence : Cadence) : Text :=
  match canonicalCadence cadence with
  | .months months => "months:".toList ++ Nat.toDigits 10 months
  | .hours hours => "hours:".toList ++ Nat.toDigits 10 hours

def commonYearMonthDays : List Nat := [31, 28, 31, 30, 31, 30, 31, 31, 30, 31, 30, 31]

def commonSpanDays (first : Nat) : Nat → Nat
  | 0 => 0
  | months + 1 => commonSpanDays first months + commonYearMonthDays.getD ((first + months) % 12) 0

/-- The shortest span, in hours, that consecutive calendar months can cover, taken over a calendar without leap days. -/
def minCalendarSpanHours (months : Nat) : Nat :=
  (((List.range 12).map fun first => commonSpanDays first months).min?.getD 0) * 24

/-- Whether every window of the inner cadence is no longer than a window of the outer one. A calendar cadence never fits inside a fixed one. -/
def cadenceFitsWithin (inner outer : Cadence) : Bool :=
  match canonicalCadence inner, canonicalCadence outer with
  | .months innerMonths, .months outerMonths => decide (innerMonths ≤ outerMonths)
  | .months _, .hours _ => false
  | .hours innerHours, .hours outerHours => decide (innerHours ≤ outerHours)
  | .hours innerHours, .months outerMonths => decide (innerHours ≤ minCalendarSpanHours outerMonths)

end Quotum.Cadences
