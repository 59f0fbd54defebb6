import Quotum.Cadence

/-! Steps of a cadence from an anchor, and the reset windows they cut a period into. -/

namespace Quotum.Cadences
open General

def monthLength (index : Int) : Int :=
  Calendar.monthStart (index + 1) - Calendar.monthStart index

def dateOf (time : Int) : Int :=
  time / dayMs - Calendar.monthStart (monthOf time) + 1

/-- Adds whole months and keeps the time of day. The day of the month is the anchor's, clamped to the month. -/
def addUtcMonths (value months anchorDay : Int) : Int :=
  let index := monthOf value + months
  (Calendar.monthStart index + min anchorDay (monthLength index) - 1) * dayMs + value % dayMs

def addCadence (value : Int) (cadence : Cadence) (steps anchorDay : Int) : Int :=
  match canonicalCadence cadence with
  | .months months => addUtcMonths value (months * steps) anchorDay
  | .hours hours => value + hours * steps * hourMs

def nextCadence (value : Int) (cadence : Cadence) : Int :=
  addCadence value cadence 1 (dateOf value)

def utcMonthIndexDifference (start time : Int) : Int :=
  monthOf time - monthOf start

def cadenceSplits (reset billing : Cadence) : Bool :=
  match canonicalCadence reset, canonicalCadence billing with
  | .months inner, .months outer => decide (inner < outer)
  | .months _, .hours _ => false
  | .hours _, .months _ => true
  | .hours inner, .hours outer => decide (inner < outer)

/-- Whether a reset splits a recorded period. A plan without a billing cadence bills by that period. -/
def periodSplits (reset : Cadence) (billing : Option Cadence) (period : Bounds) : Bool :=
  match billing with
  | none => period.endAt.any fun ending => decide (nextCadence period.startAt reset < ending)
  | some billing => cadenceSplits reset billing

/-- The steps after which the window of an instant starts, before the day of the month is looked at. -/
def resetSteps (start : Int) (reset : Cadence) (instant : Int) : Int :=
  match canonicalCadence reset with
  | .months months => utcMonthIndexDifference start instant / months
  | .hours hours => (instant - start) / (hours * hourMs)

/-- The reset window of a period that contains an instant, or the first or last one when it is outside. -/
def resetSubWindowBounds (start ending : Int) (reset : Cadence) (now : Int) : Bounds :=
  let instant := if now < start then start else if ending ≤ now then ending - 1 else now
  let anchorDay := dateOf start
  let guess := resetSteps start reset instant
  let steps := if instant < addCadence start reset guess anchorDay then guess - 1 else guess
  let next := addCadence start reset (steps + 1) anchorDay
  ⟨addCadence start reset steps anchorDay, some (if next < ending then next else ending)⟩

/-- The latest instant a date holds. A period without an end is windowed as if it ended there. -/
def openEnd : Int := 8640000000000000

def planGrantWindowBounds (period : Bounds) (reset : Cadence) (now : Int) : Bounds :=
  resetSubWindowBounds period.startAt (period.endAt.getD openEnd) reset now

namespace Bounds

def before (window other : Bounds) : Bool :=
  window.endAt.any fun ending => decide (ending ≤ other.startAt)

def apart (window other : Bounds) : Bool :=
  window.before other || other.before window

def covers (window inner : Bounds) : Bool :=
  decide (window.startAt ≤ inner.startAt) && window.endAt.any fun ending => inner.endAt.any fun other => decide (other ≤ ending)

theorem apart_comm (window other : Bounds) : window.apart other = other.apart window :=
  Bool.or_comm _ _

/-- Windows that are apart share no instant. -/
theorem not_apart {window other : Bounds} {time : Int} (inside : window.contains time = true) (also : other.contains time = true) :
    window.apart other = false := by
  obtain ⟨begun, open_⟩ := contains_iff.mp inside
  obtain ⟨also_, also'⟩ := contains_iff.mp also
  rw [apart, Bool.or_eq_false_iff]
  constructor
  · cases ending : window.endAt with
    | none => simp [before, ending]
    | some at_ =>
      have := open_ at_ ending
      simp only [before, ending, Option.any_some, decide_eq_false_iff_not]
      omega
  · cases ending : other.endAt with
    | none => simp [before, ending]
    | some at_ =>
      have := also' at_ ending
      simp only [before, ending, Option.any_some, decide_eq_false_iff_not]
      omega

theorem apart_covered {window other inner : Bounds} (apart_ : other.apart window = true) (covers : window.covers inner = true) :
    other.apart inner = true := by
  unfold Bounds.covers at covers
  simp only [Bool.and_eq_true, decide_eq_true_eq, Option.any_eq_true_iff_get] at covers
  obtain ⟨first, ends, innerEnds, last⟩ := covers
  unfold apart at apart_ ⊢
  rw [Bool.or_eq_true] at apart_ ⊢
  rcases apart_ with earlier | later
  · left
    cases ending : other.endAt with
    | none => simp [before, ending] at earlier
    | some at_ =>
      simp only [before, ending, Option.any_some, decide_eq_true_eq] at earlier ⊢
      omega
  · right
    rw [before, ← Option.some_get ends, Option.any_some, decide_eq_true_eq] at later
    rw [before, ← Option.some_get innerEnds, Option.any_some, decide_eq_true_eq]
    omega

end Bounds

section Steps
variable {start : Int} {reset : Cadence}

theorem monthLength_pos (index : Int) : 0 < monthLength index := by
  unfold monthLength
  have := Calendar.monthStart_lt index
  omega

theorem dateOf_pos (time : Int) : 0 < dateOf time := by
  have := (Calendar.monthIndex_spec (time / dayMs)).1
  unfold dateOf monthOf
  omega

theorem dateOf_le (time : Int) : dateOf time ≤ monthLength (monthOf time) := by
  have := (Calendar.monthIndex_spec (time / dayMs)).2
  unfold dateOf monthLength monthOf
  omega

theorem addUtcMonths_month (value months : Int) {anchorDay : Int} (anchored : 0 < anchorDay) :
    startOfMonth (monthOf value + months) ≤ addUtcMonths value months anchorDay ∧
      addUtcMonths value months anchorDay < startOfMonth (monthOf value + months + 1) := by
  have long := monthLength_pos (monthOf value + months)
  have positive : 0 < dayMs := by decide
  have rest := Int.emod_nonneg value positive.ne'
  have below := Int.emod_lt_of_pos value positive
  unfold addUtcMonths startOfMonth
  simp only
  have first : Calendar.monthStart (monthOf value + months) ≤
      Calendar.monthStart (monthOf value + months) + min anchorDay (monthLength (monthOf value + months)) - 1 := by omega
  have last : Calendar.monthStart (monthOf value + months) + min anchorDay (monthLength (monthOf value + months)) - 1 + 1 ≤
      Calendar.monthStart (monthOf value + months + 1) := by
    unfold monthLength at *
    omega
  constructor
  · have := Int.mul_le_mul_of_nonneg_right first positive.le
    omega
  · have := Int.mul_le_mul_of_nonneg_right last positive.le
    rw [add_mul, one_mul] at this
    omega

theorem addUtcMonths_zero (value : Int) : addUtcMonths value 0 (dateOf value) = value := by
  have same : monthOf value + 0 = monthOf value := add_zero _
  have split := Int.mul_ediv_add_emod value dayMs
  unfold addUtcMonths
  simp only [same, min_eq_left (dateOf_le value)]
  unfold dateOf
  rw [show Calendar.monthStart (monthOf value) + (value / dayMs - Calendar.monthStart (monthOf value) + 1) - 1 =
    value / dayMs by omega, mul_comm]
  exact split

def boundary (start : Int) (reset : Cadence) (steps : Int) : Int :=
  addCadence start reset steps (dateOf start)

theorem boundary_zero (start : Int) (reset : Cadence) : boundary start reset 0 = start := by
  unfold boundary addCadence
  split
  · simpa using addUtcMonths_zero start
  · simp

theorem addCadence_mono (start : Int) (reset : Cadence) {anchorDay : Int} (anchored : 0 < anchorDay) :
    StrictMono fun steps => addCadence start reset steps anchorDay := by
  have positive := canonicalCadence_pos reset
  apply strictMono_int_of_lt_succ
  intro steps
  simp only [addCadence]
  split
  · next months same =>
    rw [same] at positive
    have before := (addUtcMonths_month start (months * steps) anchored).2
    have after := (addUtcMonths_month start (months * (steps + 1)) anchored).1
    refine before.trans_le (le_trans (startOfMonth_mono ?_) after)
    rw [mul_add, mul_one]
    omega
  · next hours same =>
    rw [same] at positive
    have longer : (hours : Int) * steps * hourMs < hours * (steps + 1) * hourMs :=
      Int.mul_lt_mul_of_pos_right (Int.mul_lt_mul_of_pos_left (by omega) (by omega)) (by decide)
    omega

/-- Windows start one after the other. -/
theorem boundary_mono (start : Int) (reset : Cadence) : StrictMono (boundary start reset) :=
  addCadence_mono start reset (dateOf_pos start)

/-- An instant lies in the window of its steps or in the one before, on whatever day of the month windows start. -/
theorem resetSteps_within (start : Int) (reset : Cadence) (instant : Int) {anchorDay : Int} (anchored : 0 < anchorDay) :
    addCadence start reset (resetSteps start reset instant - 1) anchorDay ≤ instant ∧
      instant < addCadence start reset (resetSteps start reset instant + 1) anchorDay := by
  have positive := canonicalCadence_pos reset
  unfold addCadence resetSteps
  split
  · next months same =>
    rw [same] at positive
    simp only
    obtain ⟨low, high⟩ := group_spec months (by omega) (utcMonthIndexDifference start instant)
    obtain ⟨first, last⟩ := monthOf_spec instant
    have before := (addUtcMonths_month start (months * (utcMonthIndexDifference start instant / months - 1)) anchored).2
    have after := (addUtcMonths_month start (months * (utcMonthIndexDifference start instant / months + 1)) anchored).1
    generalize utcMonthIndexDifference start instant / months = steps at low high before after ⊢
    rw [mul_comm] at low high
    unfold utcMonthIndexDifference at low high
    constructor
    · refine le_trans (before.trans_le (startOfMonth_mono ?_)).le first
      rw [mul_sub, mul_one]
      omega
    · refine last.trans_le (le_trans (startOfMonth_mono ?_) after)
      rw [mul_add, mul_one]
      omega
  · next hours same =>
    rw [same] at positive
    simp only
    have span : 0 < (hours : Int) * hourMs := Int.mul_pos (by omega) (by decide)
    obtain ⟨low, high⟩ := group_spec _ span (instant - start)
    generalize (instant - start) / (hours * hourMs) = steps at low high ⊢
    have reorder : ∀ count : Int, (hours : Int) * count * hourMs = count * (hours * hourMs) := fun count => by ring
    rw [reorder, reorder, sub_mul, add_mul, one_mul]
    omega

theorem resetSteps_spec (start : Int) (reset : Cadence) (instant : Int) :
    boundary start reset (resetSteps start reset instant - 1) ≤ instant ∧
      instant < boundary start reset (resetSteps start reset instant + 1) :=
  resetSteps_within start reset instant (dateOf_pos start)

/-- The window of an instant inside a period runs from one boundary to the next, or to the end of the period. -/
theorem resetSubWindow_spec {ending now : Int} (begun : start ≤ now) (unfinished : now < ending) :
    ∃ steps, resetSubWindowBounds start ending reset now =
      ⟨boundary start reset steps, some (min (boundary start reset (steps + 1)) ending)⟩ ∧
        boundary start reset steps ≤ now ∧ now < boundary start reset (steps + 1) := by
  obtain ⟨low, high⟩ := resetSteps_spec start reset now
  have clamp : ∀ next : Int, (if next < ending then next else ending) = min next ending := by
    intro next
    split <;> omega
  unfold resetSubWindowBounds
  simp only [if_neg (Int.not_lt.mpr begun), if_neg (Int.not_le.mpr unfinished), clamp]
  split
  · next ahead =>
    refine ⟨resetSteps start reset now - 1, rfl, low, ?_⟩
    rw [sub_add_cancel]
    exact ahead
  · next reached => exact ⟨resetSteps start reset now, rfl, Int.not_lt.mp reached, high⟩

end Steps

section PlanGrant
variable {period : Bounds} {reset : Cadence} {now time : Int}

theorem period_inside (inside : period.contains now = true) (held : period.endAt = none → now < openEnd) :
    period.startAt ≤ now ∧ now < period.endAt.getD openEnd := by
  obtain ⟨begun, unfinished⟩ := contains_iff.mp inside
  refine ⟨begun, ?_⟩
  cases ending : period.endAt with
  | none => exact held ending
  | some at_ => exact unfinished at_ ending

theorem planGrantWindow_contains (inside : period.contains now = true) (held : period.endAt = none → now < openEnd) :
    (planGrantWindowBounds period reset now).contains now = true := by
  obtain ⟨begun, unfinished⟩ := period_inside inside held
  obtain ⟨steps, same, low, high⟩ := @resetSubWindow_spec _ reset _ _ begun unfinished
  unfold planGrantWindowBounds
  rw [same]
  refine contains_iff.mpr ⟨low, ?_⟩
  rintro ending ⟨⟩
  omega

theorem planGrantWindow_unique (inside : period.contains now = true) (held : period.endAt = none → now < openEnd) (also : period.contains time = true)
    (heldAlso : period.endAt = none → time < openEnd) : planGrantWindowBounds period reset now = planGrantWindowBounds period reset time ∨
      (planGrantWindowBounds period reset now).apart (planGrantWindowBounds period reset time) = true := by
  obtain ⟨begun, unfinished⟩ := period_inside inside held
  obtain ⟨begunAlso, unfinishedAlso⟩ := period_inside also heldAlso
  obtain ⟨steps, same, -, -⟩ := @resetSubWindow_spec _ reset _ _ begun unfinished
  obtain ⟨others, sameAlso, -, -⟩ := @resetSubWindow_spec _ reset _ _ begunAlso unfinishedAlso
  unfold planGrantWindowBounds
  rw [same, sameAlso]
  rcases lt_trichotomy steps others with earlier | rfl | later
  · right
    have := (boundary_mono period.startAt reset).monotone (Int.add_one_le_of_lt earlier)
    rw [Bounds.apart, Bool.or_eq_true]
    left
    simp only [Bounds.before, Option.any_some, decide_eq_true_eq]
    omega
  · exact .inl rfl
  · right
    have := (boundary_mono period.startAt reset).monotone (Int.add_one_le_of_lt later)
    rw [Bounds.apart, Bool.or_eq_true]
    right
    simp only [Bounds.before, Option.any_some, decide_eq_true_eq]
    omega

end PlanGrant

end Quotum.Cadences
