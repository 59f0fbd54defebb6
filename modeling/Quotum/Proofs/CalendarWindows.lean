import Quotum.CadenceRules

/-! Calendar windows partition time, and a cadence's key tells its windows apart from those of any other. -/

namespace Quotum.Cadences
open General

section Key

private theorem toDigits_inj {first second : Nat} (same : Nat.toDigits 10 first = Nat.toDigits 10 second) : first = second := by
  rw [← @Nat.ofDigitChars_ten_toDigits first, same, Nat.ofDigitChars_ten_toDigits]

private theorem cadenceKey_iff (cadence other : Cadence) :
    cadenceKey cadence = cadenceKey other ↔ canonicalCadence cadence = canonicalCadence other := by
  simp only [cadenceKey]
  cases canonicalCadence cadence with
  | months months =>
    cases canonicalCadence other with
    | months others =>
      simp only [List.append_cancel_left_eq, CanonicalCadence.months.injEq]
      exact ⟨toDigits_inj, congrArg _⟩
    | hours hours => simp
  | hours hours =>
    cases canonicalCadence other with
    | months months => simp
    | hours others =>
      simp only [List.append_cancel_left_eq, CanonicalCadence.hours.injEq]
      exact ⟨toDigits_inj, congrArg _⟩

end Key

section Partition
variable (cadence : Cadence)

private theorem calendarWindow_bounds (now : Int) : ∃ first last, calendarWindow cadence now = ⟨first, some last⟩ ∧ first ≤ now ∧ now < last := by
  obtain ⟨begun, open_⟩ := contains_iff.mp (calendarWindow_contains cadence now)
  cases bounds : calendarWindow cadence now with
  | mk first ending =>
    rw [bounds] at begun open_
    cases ending with
    | none =>
      have ends := calendarWindow_ends cadence now
      rw [bounds] at ends
      exact absurd rfl ends
    | some last => exact ⟨first, last, rfl, begun, open_ last rfl⟩

private theorem calendarWindow_same {now time first last : Int} (bounds : calendarWindow cadence now = ⟨first, some last⟩)
    (begun : first ≤ time) (unfinished : time < last) : calendarWindow cadence time = ⟨first, some last⟩ := by
  rw [← bounds]
  apply calendarWindow_unique
  rw [bounds]
  refine contains_iff.mpr ⟨begun, ?_⟩
  rintro ending ⟨⟩
  exact unfinished

end Partition

section Cycle

/-- The calendar repeats every four hundred years. -/
private theorem monthStart_cycle (index : Int) : Calendar.monthStart (index + 4800) = Calendar.monthStart index + 146097 := by
  have year : (index + 4800) / 12 = index / 12 + 400 := by omega
  have month : (index + 4800) % 12 = index % 12 := by omega
  have leap : Calendar.isLeap (Calendar.epochYear + (index / 12 + 400)) = Calendar.isLeap (Calendar.epochYear + index / 12) := by
    rw [Bool.eq_iff_iff, Calendar.isLeap_iff, Calendar.isLeap_iff]
    omega
  simp only [Calendar.monthStart, year, month, leap, Calendar.daysBeforeYear]
  omega

private theorem monthStart_cycles (count : Nat) : Calendar.monthStart (4800 * count) = 146097 * count := by
  induction count with
  | zero => decide
  | succ count ih =>
    have next : (4800 : Int) * ((count + 1 : Nat) : Int) = 4800 * count + 4800 := by push_cast; ring
    rw [next, monthStart_cycle, ih]
    push_cast
    ring

private theorem monthStart_zero : Calendar.monthStart 0 = 0 := by decide

end Cycle

section Agreement
variable {months hours : Nat}

theorem monthOf_start (index : Int) : monthOf (startOfMonth index) = index := by
  have low := le_monthOf (le_refl (startOfMonth index))
  have high := monthOf_lt (startOfMonth_lt (Int.lt_add_one_iff.mpr (le_refl index)))
  omega

private theorem monthsWindow_at (positive : 0 < months) (count : Int) :
    monthsWindow months (startOfMonth (count * months)) = ⟨startOfMonth (count * months), some (startOfMonth ((count + 1) * months))⟩ := by
  have next : count * (months : Int) + months = (count + 1) * months := by ring
  simp only [monthsWindow, monthOf_start, Int.mul_ediv_cancel count (Int.natCast_ne_zero.mpr positive.ne'), next]

private theorem agreeing_starts (positive : 0 < months) (agree : ∀ now, monthsWindow months now = hoursWindow hours now) (count : Nat) :
    startOfMonth (count * months) = count * (hours * hourMs) := by
  induction count with
  | zero => simp [startOfMonth, monthStart_zero]
  | succ count ih =>
    have here := agree (startOfMonth (count * months))
    rw [monthsWindow_at positive] at here
    simp only [hoursWindow, Bounds.mk.injEq, Option.some.injEq] at here
    obtain ⟨first, last⟩ := here
    push_cast
    rw [last, ← first, ih]
    ring

private theorem weeks_of {days : Int} (whole : days * (24 * 3600000) = hours * 3600000)
    (ratio : 146097 * (months : Int) * (24 * 3600000) = 4800 * (hours * 3600000)) : hours % 168 = 0 := by
  have inDays : (hours : Int) = 24 * days := by linarith only [whole]
  have sevens : 4800 * days = 7 * (20871 * (months : Int)) := by
    rw [inDays] at ratio
    linarith only [ratio]
  generalize 20871 * (months : Int) = weeks at sevens
  clear whole ratio
  omega

private theorem monthStart_first : startOfMonth 0 = 0 := by
  rw [startOfMonth, monthStart_zero, zero_mul]

/-- No windows of months are windows of hours: they would be weeks long, and weeks do not start with the epoch. -/
private theorem months_apart (positive : 0 < months) (some_ : 0 < hours) : ¬ ∀ now, monthsWindow months now = hoursWindow hours now := by
  intro agree
  have whole := agreeing_starts positive agree 1
  have ratio := agreeing_starts positive agree 4800
  have start := agree (startOfMonth (0 * months))
  rw [startOfMonth, Nat.cast_ofNat, monthStart_cycles] at ratio
  rw [startOfMonth, Nat.cast_one, one_mul, one_mul] at whole
  have week := weeks_of whole ratio
  rw [monthsWindow_at positive, zero_mul, monthStart_first] at start
  simp only [hoursWindow, hoursPerWeek, week, if_true, Bounds.mk.injEq] at start
  obtain ⟨first, -⟩ := start
  clear agree whole ratio
  simp only [firstMondayMs, dayMs, hourMs] at first
  have long : (168 : Int) ≤ hours := by omega
  generalize (0 - 4 * (24 * 3600000)) / ((hours : Int) * 3600000) = steps at first
  rcases Int.lt_or_le steps 0 with before | after
  · nlinarith
  · nlinarith

private theorem cadenceKey_windows (cadence other : Cadence) :
    cadenceKey cadence = cadenceKey other ↔ ∀ now, calendarWindow cadence now = calendarWindow other now := by
  rw [cadenceKey_iff]
  constructor
  · intro same now
    simp only [calendarWindow, same]
  · intro agree
    have positive := canonicalCadence_pos cadence
    have positiveOther := canonicalCadence_pos other
    simp only [calendarWindow] at agree
    cases form : canonicalCadence cadence with
    | months months =>
      cases formOther : canonicalCadence other with
      | months others =>
        simp only [form, formOther] at agree positive positiveOther
        have first := agree (startOfMonth 0)
        have here := monthsWindow_at positive 0
        have there := monthsWindow_at positiveOther 0
        simp only [zero_mul, zero_add, one_mul] at here there
        rw [here, there] at first
        simp only [Bounds.mk.injEq, Option.some.injEq] at first
        have index := congrArg monthOf first.2
        rw [monthOf_start, monthOf_start] at index
        rw [Int.ofNat.inj index]
      | hours hours =>
        simp only [form, formOther] at agree positive positiveOther
        exact absurd agree (months_apart positive positiveOther)
    | hours hours =>
      cases formOther : canonicalCadence other with
      | months months =>
        simp only [form, formOther] at agree positive positiveOther
        exact absurd (fun now => (agree now).symm) (months_apart positiveOther positive)
      | hours others =>
        simp only [form, formOther] at agree
        have here := agree 0
        simp only [hoursWindow, Bounds.mk.injEq, Option.some.injEq] at here
        obtain ⟨first, last⟩ := here
        rw [first] at last
        have span : (hours : Int) * hourMs = others * hourMs := Int.add_left_cancel last
        have same := Int.eq_of_mul_eq_mul_right (by decide) span
        rw [Int.ofNat.inj same]

end Agreement

/-- The calendar windows of a cadence partition time, and other cadences cut the same windows exactly when their keys are the same. -/
theorem calendarWindow_partitions (cadence : Cadence) :
    (∀ now, ∃ first last, calendarWindow cadence now = ⟨first, some last⟩ ∧ first ≤ now ∧ now < last ∧
      (calendarWindow cadence last).startAt = last ∧ (calendarWindow cadence (first - 1)).endAt = some first) ∧
    (∀ now other, calendarWindow cadence now = calendarWindow cadence other ∨
      (calendarWindow cadence now).apart (calendarWindow cadence other) = true) ∧
    ∀ other, cadenceKey cadence = cadenceKey other ↔ ∀ now, calendarWindow cadence now = calendarWindow other now := by
  refine ⟨?_, ?_, cadenceKey_windows cadence⟩
  · intro now
    obtain ⟨first, last, bounds, begun, unfinished⟩ := calendarWindow_bounds cadence now
    refine ⟨first, last, bounds, begun, unfinished, ?_, ?_⟩
    · obtain ⟨nextFirst, nextLast, next, before, after⟩ := calendarWindow_bounds cadence last
      rw [next]
      by_contra earlier
      have inside : nextFirst ≤ last - 1 ∧ last - 1 < nextLast := by
        simp only at earlier
        omega
      have one := (calendarWindow_same cadence next inside.1 inside.2).symm.trans (calendarWindow_same cadence bounds (by omega) (by omega))
      simp only [Bounds.mk.injEq, Option.some.injEq] at one
      omega
    · obtain ⟨lastFirst, lastLast, previous, before, after⟩ := calendarWindow_bounds cadence (first - 1)
      rw [previous]
      by_contra later
      have inside : lastFirst ≤ first ∧ first < lastLast := by
        simp only [Option.some.injEq] at later
        omega
      have one := (calendarWindow_same cadence previous inside.1 inside.2).symm.trans (calendarWindow_same cadence bounds (by omega) (by omega))
      simp only [Bounds.mk.injEq, Option.some.injEq] at one
      omega
  · intro now other
    obtain ⟨first, last, bounds, begun, unfinished⟩ := calendarWindow_bounds cadence now
    obtain ⟨otherFirst, otherLast, otherBounds, otherBegun, otherUnfinished⟩ := calendarWindow_bounds cadence other
    rw [bounds, otherBounds]
    by_cases shared : max first otherFirst < min last otherLast
    · left
      rw [← calendarWindow_same cadence bounds (le_max_left first otherFirst) (by omega),
        ← calendarWindow_same cadence otherBounds (le_max_right first otherFirst) (by omega)]
    · right
      simp only [Bounds.apart, Bounds.before, Option.any_some, Bool.or_eq_true, decide_eq_true_eq]
      omega

end Quotum.Cadences
