import Quotum.General.Calendar

/-! Cadences and the calendar windows they cut time into. Ints are milliseconds since the epoch, in UTC. -/

namespace Quotum

namespace Cadences
open General

inductive CadenceUnit where
  | hour
  | day
  | week
  | month
  | quarter
  | semiAnnual
  | year
  deriving DecidableEq

structure Cadence where
  unit : CadenceUnit
  count : Nat
  positive : 0 < count
  deriving DecidableEq

inductive CanonicalCadence where
  | months (count : Nat)
  | hours (count : Nat)
  deriving DecidableEq

def unitSpan : CadenceUnit → CanonicalCadence
  | .hour => .hours 1
  | .day => .hours 24
  | .week => .hours 168
  | .month => .months 1
  | .quarter => .months 3
  | .semiAnnual => .months 6
  | .year => .months 12

def canonicalCadence (cadence : Cadence) : CanonicalCadence :=
  match unitSpan cadence.unit with
  | .months span => .months (span * cadence.count)
  | .hours span => .hours (span * cadence.count)

def hourMs : Int := 3600000

def dayMs : Int := 24 * hourMs

def hoursPerWeek : Nat := 168

/-- The first Monday after the epoch. -/
def firstMondayMs : Int := 4 * dayMs

def startOfMonth (index : Int) : Int :=
  Calendar.monthStart index * dayMs

def monthOf (now : Int) : Int :=
  Calendar.monthIndex (now / dayMs)

structure Bounds where
  startAt : Int
  endAt : Option Int
  deriving DecidableEq

def Bounds.contains (bounds : Bounds) (time : Int) : Bool :=
  decide (bounds.startAt ≤ time) && bounds.endAt.all fun ending => decide (time < ending)

def monthsWindow (months : Nat) (now : Int) : Bounds :=
  let first := monthOf now / months * months
  ⟨startOfMonth first, some (startOfMonth (first + months))⟩

def hoursWindow (hours : Nat) (now : Int) : Bounds :=
  let span := hours * hourMs
  let origin := if hours % hoursPerWeek = 0 then firstMondayMs else 0
  let start := origin + (now - origin) / span * span
  ⟨start, some (start + span)⟩

/-- The window that contains an instant. A count above one groups consecutive windows counted from the
epoch, so windows never depend on when a policy was created. -/
def calendarWindow (cadence : Cadence) (now : Int) : Bounds :=
  match canonicalCadence cadence with
  | .months months => monthsWindow months now
  | .hours hours => hoursWindow hours now

section Windows
variable (cadence : Cadence)

theorem canonicalCadence_pos : match canonicalCadence cadence with
    | .months months => 0 < months
    | .hours hours => 0 < hours := by
  rcases cadence with ⟨unit, count, positive⟩
  cases unit <;> simp [canonicalCadence, unitSpan, positive]

theorem startOfMonth_mono {index other : Int} (earlier : index ≤ other) : startOfMonth index ≤ startOfMonth other :=
  Int.mul_le_mul_of_nonneg_right (Calendar.monthStart_mono.monotone earlier) (by decide)

theorem startOfMonth_lt {index other : Int} (earlier : index < other) : startOfMonth index < startOfMonth other :=
  Int.mul_lt_mul_of_pos_right (Calendar.monthStart_mono earlier) (by decide)

theorem monthOf_spec (now : Int) : startOfMonth (monthOf now) ≤ now ∧ now < startOfMonth (monthOf now + 1) := by
  obtain ⟨first, last⟩ := Calendar.monthIndex_spec (now / dayMs)
  unfold monthOf startOfMonth
  constructor
  · exact (Int.le_ediv_iff_mul_le (by decide)).mp first
  · exact (Int.ediv_lt_iff_lt_mul (by decide)).mp last

theorem monthOf_lt {now : Int} {index : Int} (before : now < startOfMonth index) : monthOf now < index := by
  by_contra later
  have := startOfMonth_mono (Int.not_lt.mp later)
  have := (monthOf_spec now).1
  omega

theorem le_monthOf {now : Int} {index : Int} (after : startOfMonth index ≤ now) : index ≤ monthOf now := by
  by_contra earlier
  have := startOfMonth_mono (Int.add_one_le_of_lt (Int.not_le.mp earlier))
  have := (monthOf_spec now).2
  omega

theorem group_spec (span : Int) (positive : 0 < span) (value : Int) :
    value / span * span ≤ value ∧ value < value / span * span + span := by
  constructor
  · exact Int.ediv_mul_le _ (by omega)
  · have above := Int.lt_ediv_add_one_mul_self value positive
    rwa [add_mul, one_mul] at above

theorem group_unique (span : Int) (positive : 0 < span) (value other : Int)
    (low : value / span * span ≤ other) (high : other < value / span * span + span) : other / span = value / span := by
  apply le_antisymm
  · apply Int.lt_add_one_iff.mp
    rw [Int.ediv_lt_iff_lt_mul positive, add_mul, one_mul]
    exact high
  · exact (Int.le_ediv_iff_mul_le positive).mpr low

theorem contains_iff {bounds : Bounds} {time : Int} :
    bounds.contains time = true ↔ bounds.startAt ≤ time ∧ ∀ ending, bounds.endAt = some ending → time < ending := by
  rcases bounds with ⟨startAt, endAt⟩
  cases endAt <;> simp [Bounds.contains]

private theorem months_contains {months : Nat} (positive : 0 < months) (now : Int) : (monthsWindow months now).contains now = true := by
  obtain ⟨low, high⟩ := group_spec months (by omega) (monthOf now)
  obtain ⟨first, last⟩ := monthOf_spec now
  refine contains_iff.mpr ⟨(startOfMonth_mono low).trans first, ?_⟩
  rintro ending ⟨⟩
  exact last.trans_le (startOfMonth_mono (by omega))

private theorem hours_contains {hours : Nat} (positive : 0 < hours) (now : Int) : (hoursWindow hours now).contains now = true := by
  have span : 0 < (hours : Int) * hourMs := Int.mul_pos (by omega) (by decide)
  obtain ⟨low, high⟩ := group_spec _ span (now - if hours % hoursPerWeek = 0 then firstMondayMs else 0)
  refine contains_iff.mpr ⟨?_, ?_⟩
  · simp only [hoursWindow]
    omega
  · rintro ending ⟨⟩
    omega

theorem calendarWindow_contains (now : Int) : (calendarWindow cadence now).contains now = true := by
  have positive := canonicalCadence_pos cadence
  unfold calendarWindow
  split
  · next months same =>
    rw [same] at positive
    exact months_contains positive now
  · next hours same =>
    rw [same] at positive
    exact hours_contains positive now

theorem calendarWindow_ends (now : Int) : (calendarWindow cadence now).endAt ≠ none := by
  unfold calendarWindow
  split
  · exact fun endless => by cases endless
  · exact fun endless => by cases endless

private theorem months_unique {months : Nat} (positive : 0 < months) {now time : Int}
    (inside : (monthsWindow months now).contains time = true) : monthsWindow months time = monthsWindow months now := by
  obtain ⟨low, high⟩ := contains_iff.mp inside
  have group := group_unique months (by omega) _ _ (le_monthOf low) (monthOf_lt (high _ rfl))
  simp only [monthsWindow, group]

private theorem hours_unique {hours : Nat} (positive : 0 < hours) {now time : Int}
    (inside : (hoursWindow hours now).contains time = true) : hoursWindow hours time = hoursWindow hours now := by
  obtain ⟨low, high⟩ := contains_iff.mp inside
  have high := high _ rfl
  simp only [hoursWindow] at low high ⊢
  generalize (if hours % hoursPerWeek = 0 then firstMondayMs else 0) = origin at low high ⊢
  have span : 0 < (hours : Int) * hourMs := Int.mul_pos (by omega) (by decide)
  have group := group_unique _ span (now - origin) (time - origin) (by omega) (by omega)
  rw [group]

theorem calendarWindow_unique {now time : Int} (inside : (calendarWindow cadence now).contains time = true) :
    calendarWindow cadence time = calendarWindow cadence now := by
  have positive := canonicalCadence_pos cadence
  unfold calendarWindow at *
  split at inside
  · next months same =>
    rw [same] at positive
    exact months_unique positive inside
  · next hours same =>
    rw [same] at positive
    exact hours_unique positive inside

end Windows
end Cadences
end Quotum
