import Quotum.Proofs.CalendarWindows

/-! A reset that fits within a billing interval is never longer than the billing period that it starts in. -/

namespace Quotum.Cadences
open General

def windowLength (anchor : Int) (cadence : Cadence) (steps : Int) : Int :=
  boundary anchor cadence (steps + 1) - boundary anchor cadence steps

section Months

private theorem monthLength_common (index : Int) : monthLength index =
    (commonYearMonthDays.getD (index % 12).toNat 0 : Nat) +
      if index % 12 = 1 ∧ Calendar.isLeap (Calendar.epochYear + index / 12) = true then 1 else 0 := by
  have next := Calendar.monthStart_next index
  have low : 0 ≤ index % 12 := by omega
  have high : index % 12 < 12 := by omega
  generalize index % 12 = month at next low high ⊢
  generalize Calendar.isLeap (Calendar.epochYear + index / 12) = leap at next ⊢
  have length : monthLength index = Calendar.daysBeforeMonth leap (month + 1) - Calendar.daysBeforeMonth leap month := by
    unfold monthLength
    omega
  rw [length]
  interval_cases month <;> cases leap <;> rfl

private theorem monthLength_bounds (index : Int) : 28 ≤ monthLength index ∧ monthLength index ≤ 31 := by
  rw [monthLength_common]
  have low : 0 ≤ index % 12 := by omega
  have high : index % 12 < 12 := by omega
  generalize index % 12 = month at low high ⊢
  interval_cases month <;> simp [commonYearMonthDays]
  split <;> omega

/-- How far a month's start is from its share of the calendar's cycle, in 4800ths of a day. -/
private theorem monthStart_drift (index : Int) :
    146097 * index - 19200 ≤ 4800 * Calendar.monthStart index ∧ 4800 * Calendar.monthStart index ≤ 146097 * index + 19200 := by
  have low : 0 ≤ index % 12 := by omega
  have high : index % 12 < 12 := by omega
  have position : index = 12 * (index / 12) + index % 12 := by omega
  have share : ∀ leap, 146097 * (index % 12) - 9600 ≤ 4800 * Calendar.daysBeforeMonth leap (index % 12) ∧
      4800 * Calendar.daysBeforeMonth leap (index % 12) ≤ 146097 * (index % 12) + 9600 := by
    intro leap
    generalize index % 12 = month at low high ⊢
    interval_cases month <;> cases leap <;> decide
  obtain ⟨below, above⟩ := share (Calendar.isLeap (Calendar.epochYear + index / 12))
  simp only [Calendar.monthStart, Calendar.daysBeforeYear]
  generalize Calendar.daysBeforeMonth (Calendar.isLeap (Calendar.epochYear + index / 12)) (index % 12) = days at below above ⊢
  generalize index % 12 = month at position below above
  generalize index / 12 = year at position ⊢
  simp only [Calendar.epochYear, Calendar.epochDay]
  omega

def clampedStart (anchorDay index : Int) : Int := Calendar.monthStart index + min anchorDay (monthLength index)

private theorem clamped_span (anchorDay index : Int) (months : Nat) : ∃ first, Calendar.monthStart (first + months) - Calendar.monthStart first ≤
    clampedStart anchorDay (index + months) - clampedStart anchorDay index := by
  have end_ : monthLength (index + months) = Calendar.monthStart (index + 1 + months) - Calendar.monthStart (index + months) := by
    unfold monthLength
    rw [add_right_comm]
  have start : monthLength index = Calendar.monthStart (index + 1) - Calendar.monthStart index := rfl
  simp only [clampedStart]
  by_cases fits : anchorDay ≤ monthLength index ↔ anchorDay ≤ monthLength (index + months)
  · by_cases here : anchorDay ≤ monthLength index
    · exact ⟨index, by have there := fits.mp here; omega⟩
    · exact ⟨index + 1, by have there := mt fits.mpr here; omega⟩
  · by_cases here : anchorDay ≤ monthLength index
    · exact ⟨index + 1, by omega⟩
    · exact ⟨index, by omega⟩

/-- Spans of months differ by less than a month, whatever their day is clamped to. -/
private theorem clamped_drift (anchorDay index : Int) (months : Nat) :
    146097 * (months : Int) - 52800 ≤ 4800 * (clampedStart anchorDay (index + months) - clampedStart anchorDay index) ∧
      4800 * (clampedStart anchorDay (index + months) - clampedStart anchorDay index) ≤ 146097 * months + 52800 := by
  have drift := monthStart_drift index
  have later := monthStart_drift (index + months)
  have length := monthLength_bounds index
  have lengthLater := monthLength_bounds (index + months)
  simp only [clampedStart]
  omega

end Months

section Lengths
variable {cadence : Cadence} {months hours : Nat}

private theorem windowLength_months (form : canonicalCadence cadence = .months months) (anchor steps : Int) :
    windowLength anchor cadence steps = (clampedStart (dateOf anchor) (monthOf anchor + months * steps + months) -
      clampedStart (dateOf anchor) (monthOf anchor + months * steps)) * dayMs := by
  have next : monthOf anchor + months * (steps + 1) = monthOf anchor + months * steps + months := by ring
  simp only [windowLength, boundary, addCadence, form, addUtcMonths, next, clampedStart]
  ring

private theorem windowLength_hours (form : canonicalCadence cadence = .hours hours) (anchor steps : Int) :
    windowLength anchor cadence steps = hours * hourMs := by
  simp only [windowLength, boundary, addCadence, form]
  ring

/-- The days of consecutive months are at least those of common years. -/
private theorem month_succ (first : Int) (count : Nat) : ((first % 12).toNat + count) % 12 = ((first + count) % 12).toNat ∧
    Calendar.monthStart (first + (count + 1 : Nat)) = Calendar.monthStart (first + count) + monthLength (first + count) := by
  refine ⟨by omega, ?_⟩
  unfold monthLength
  rw [Nat.cast_add, Nat.cast_one, ← add_assoc]
  omega

private theorem commonSpan_le (first : Int) (count : Nat) :
    (commonSpanDays (first % 12).toNat count : Int) ≤ Calendar.monthStart (first + count) - Calendar.monthStart first := by
  induction count with
  | zero => simp [commonSpanDays]
  | succ count ih =>
    have length := monthLength_common (first + count)
    obtain ⟨place, step⟩ := month_succ first count
    have extra : (0 : Int) ≤ if (first + count) % 12 = 1 ∧ Calendar.isLeap (Calendar.epochYear + (first + count) / 12) = true then 1 else 0 := by
      split <;> omega
    rw [step, length, commonSpanDays, place]
    push_cast
    omega

private theorem shortest_spec (months : Nat) : ∃ first < 12, minCalendarSpanHours months = commonSpanDays first months * 24 ∧
    ∀ other < 12, commonSpanDays first months ≤ commonSpanDays other months := by
  have nonempty : ((List.range 12).map fun first => commonSpanDays first months) ≠ [] := by simp
  obtain ⟨shortest, least⟩ := Option.ne_none_iff_exists'.mp (mt List.min?_eq_none_iff.mp nonempty)
  obtain ⟨member, lower⟩ := List.min?_eq_some_iff.mp least
  obtain ⟨first, inside, rfl⟩ := List.mem_map.mp member
  refine ⟨first, List.mem_range.mp inside, ?_, ?_⟩
  · simp only [minCalendarSpanHours, least, Option.getD_some]
  · exact fun other below => lower _ (List.mem_map_of_mem (List.mem_range.mpr below))

private theorem shortest_le (months : Nat) {first : Nat} (inside : first < 12) :
    minCalendarSpanHours months ≤ commonSpanDays first months * 24 := by
  obtain ⟨least, -, same, lower⟩ := shortest_spec months
  rw [same]
  exact Nat.mul_le_mul_right 24 (lower first inside)

private theorem minCalendarSpan_le (form : canonicalCadence cadence = .months months) (anchor steps : Int) :
    minCalendarSpanHours months * hourMs ≤ windowLength anchor cadence steps := by
  obtain ⟨first, shorter⟩ := clamped_span (dateOf anchor) (monthOf anchor + months * steps) months
  have common := commonSpan_le first months
  have least : minCalendarSpanHours months ≤ commonSpanDays (first % 12).toNat months * 24 := shortest_le months (by omega)
  rw [windowLength_months form]
  have hours : (minCalendarSpanHours months : Int) ≤ (clampedStart (dateOf anchor) (monthOf anchor + months * steps + months) -
      clampedStart (dateOf anchor) (monthOf anchor + months * steps)) * 24 := by omega
  simp only [dayMs, hourMs]
  omega

/-- The months without a leap day between the leap years 2096 and 2104. -/
private theorem commonSpan_attained {first : Int} {count : Nat} (after : 1514 ≤ first) (before : first + count ≤ 1609) :
    (commonSpanDays (first % 12).toNat count : Int) = Calendar.monthStart (first + count) - Calendar.monthStart first := by
  induction count with
  | zero => simp [commonSpanDays]
  | succ count ih =>
    have earlier := ih (by push_cast at before; omega)
    have length := monthLength_common (first + count)
    obtain ⟨place, step⟩ := month_succ first count
    have common : ¬ ((first + count) % 12 = 1 ∧ Calendar.isLeap (Calendar.epochYear + (first + count) / 12) = true) := by
      rw [Calendar.isLeap_iff, Calendar.epochYear]
      push_cast at before
      omega
    rw [if_neg common] at length
    rw [step, length, commonSpanDays, place]
    push_cast
    omega

private theorem dateOf_startOfMonth (index : Int) : dateOf (startOfMonth index) = 1 := by
  have day : startOfMonth index / dayMs = Calendar.monthStart index := Int.mul_ediv_cancel _ (by decide)
  rw [dateOf, monthOf_start, day]
  omega

private theorem clampedStart_first (index : Int) : clampedStart 1 index = Calendar.monthStart index + 1 := by
  have long := monthLength_pos index
  rw [clampedStart, min_eq_left (by omega)]

private theorem minCalendarSpan_attained (form : canonicalCadence cadence = .months months) (short : months ≤ 84) :
    ∃ anchor, windowLength anchor cadence 0 = minCalendarSpanHours months * hourMs := by
  obtain ⟨first, inside, same, -⟩ := shortest_spec months
  -- The months from March 2096 to January 2104 have no leap day.
  have place : ∃ index : Int, (index % 12).toNat = first ∧ 1514 ≤ index ∧ index + months ≤ 1609 := by
    by_cases early : first ≤ 1
    · exact ⟨1524 + first, by omega⟩
    · exact ⟨1512 + first, by omega⟩
  obtain ⟨index, rfl, after, before⟩ := place
  refine ⟨startOfMonth index, ?_⟩
  have attained := commonSpan_attained after before
  rw [windowLength_months form, dateOf_startOfMonth, monthOf_start, mul_zero, add_zero, clampedStart_first, clampedStart_first, same]
  simp only [dayMs, hourMs]
  push_cast
  rw [attained]
  ring

end Lengths

section Fits
variable {reset billing : Cadence}

private theorem fewer_months {months others : Nat} (form : canonicalCadence reset = .months months)
    (formOther : canonicalCadence billing = .months others)
    (fewer : months < others) (anchor other steps periods : Int) : windowLength anchor reset steps ≤ windowLength other billing periods := by
  obtain ⟨-, above⟩ := clamped_drift (dateOf anchor) (monthOf anchor + months * steps) months
  obtain ⟨below, -⟩ := clamped_drift (dateOf other) (monthOf other + others * periods) others
  rw [windowLength_months form, windowLength_months formOther]
  exact Int.mul_le_mul_of_nonneg_right (by omega) (by decide)

private theorem fits_anywhere (fits : cadenceFitsWithin reset billing = true) (apart : canonicalCadence reset ≠ canonicalCadence billing)
    (anchor other steps periods : Int) : windowLength anchor reset steps ≤ windowLength other billing periods := by
  simp only [cadenceFitsWithin] at fits
  cases form : canonicalCadence reset with
  | months months =>
    cases formOther : canonicalCadence billing with
    | months others =>
      simp only [form, formOther, decide_eq_true_eq] at fits
      have different : months ≠ others := fun same => apart (by rw [form, formOther, same])
      exact fewer_months form formOther (by omega) anchor other steps periods
    | hours hours =>
      simp only [form, formOther] at fits
      cases fits
  | hours hours =>
    rw [windowLength_hours form]
    cases formOther : canonicalCadence billing with
    | months others =>
      simp only [form, formOther, decide_eq_true_eq] at fits
      refine le_trans ?_ (minCalendarSpan_le formOther other periods)
      exact Int.mul_le_mul_of_nonneg_right (by omega) (by decide)
    | hours others =>
      simp only [form, formOther, decide_eq_true_eq] at fits
      rw [windowLength_hours formOther]
      exact Int.mul_le_mul_of_nonneg_right (by omega) (by decide)

private theorem boundary_same (same : canonicalCadence reset = canonicalCadence billing) (anchor : Int) :
    boundary anchor reset = boundary anchor billing := by
  funext steps
  simp only [boundary, addCadence, same]

/-- A reset window that fits is no longer than the billing period of its anchor that it starts in; the shortest span of some months
bounds every window of as many, and up to seven years one is that short. -/
theorem cadenceFits_sound :
    (∀ reset billing, cadenceFitsWithin reset billing = true → ∀ anchor steps periods,
      boundary anchor billing periods ≤ boundary anchor reset steps → boundary anchor reset steps < boundary anchor billing (periods + 1) →
        windowLength anchor reset steps ≤ windowLength anchor billing periods) ∧
    (∀ reset billing, cadenceFitsWithin reset billing = true → canonicalCadence reset ≠ canonicalCadence billing →
      ∀ anchor other steps periods, windowLength anchor reset steps ≤ windowLength other billing periods) ∧
    ∀ cadence months, canonicalCadence cadence = .months months →
      (∀ anchor steps, minCalendarSpanHours months * hourMs ≤ windowLength anchor cadence steps) ∧
        (months ≤ 84 → ∃ anchor, windowLength anchor cadence 0 = minCalendarSpanHours months * hourMs) := by
  refine ⟨?_, fun _ _ => fits_anywhere, fun _ _ form => ⟨minCalendarSpan_le form, minCalendarSpan_attained form⟩⟩
  intro reset billing fits anchor steps periods begun unfinished
  by_cases same : canonicalCadence reset = canonicalCadence billing
  · rw [boundary_same same] at begun unfinished
    have low := (boundary_mono anchor billing).le_iff_le.mp begun
    have high := (boundary_mono anchor billing).lt_iff_lt.mp unfinished
    obtain rfl : steps = periods := by omega
    simp only [windowLength, boundary_same same, le_refl]
  · exact fits_anywhere fits same anchor anchor steps periods

end Fits

/-- From the end of a January, a month that starts with a clamped February is no longer than the year it is in. -/
theorem cadenceFits_sound_january : windowLength 2592000000 ⟨.month, 1, by decide⟩ 1 ≤ windowLength 2592000000 ⟨.year, 1, by decide⟩ 0 :=
  cadenceFits_sound.1 _ _ (by decide) 2592000000 1 0 (by decide) (by decide)

end Quotum.Cadences
