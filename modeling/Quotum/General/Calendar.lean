import Mathlib

/-! The proleptic Gregorian calendar: months are numbered from January 1970 and days from the
first of that month. -/

namespace Quotum.General.Calendar

def isLeap (year : Int) : Bool :=
  year % 4 == 0 && (year % 100 != 0 || year % 400 == 0)

def daysBeforeYear (year : Int) : Int :=
  365 * (year - 1) + (year - 1) / 4 - (year - 1) / 100 + (year - 1) / 400

def yearLength (year : Int) : Int :=
  if isLeap year then 366 else 365

/-- Days of a year before its month of that number, counted from zero. -/
def daysBeforeMonth (leap : Bool) (month : Int) : Int :=
  let extra : Int := if leap then 1 else 0
  if month ≤ 0 then 0
  else if month = 1 then 31
  else if month = 2 then 59 + extra
  else if month = 3 then 90 + extra
  else if month = 4 then 120 + extra
  else if month = 5 then 151 + extra
  else if month = 6 then 181 + extra
  else if month = 7 then 212 + extra
  else if month = 8 then 243 + extra
  else if month = 9 then 273 + extra
  else if month = 10 then 304 + extra
  else if month = 11 then 334 + extra
  else 365 + extra

def epochYear : Int := 1970

def epochDay : Int := 719162

def monthStart (index : Int) : Int :=
  let year := epochYear + index / 12
  daysBeforeYear year - epochDay + daysBeforeMonth (isLeap year) (index % 12)

def yearOf (day : Int) : Int :=
  let guess := (day + epochDay) * 400 / 146097 + 1
  if day + epochDay < daysBeforeYear guess then guess - 1
  else if daysBeforeYear (guess + 1) ≤ day + epochDay then guess + 1
  else guess

/-- The last month up to a given one that starts no later than a day of the year. -/
def monthFrom (leap : Bool) (dayOfYear : Int) : Nat → Int
  | 0 => 0
  | month + 1 =>
    if daysBeforeMonth leap (month + 1) ≤ dayOfYear then month + 1 else monthFrom leap dayOfYear month

def monthOfYear (leap : Bool) (dayOfYear : Int) : Int :=
  monthFrom leap dayOfYear 11

def monthIndex (day : Int) : Int :=
  let year := yearOf day
  (year - epochYear) * 12 + monthOfYear (isLeap year) (day + epochDay - daysBeforeYear year)

theorem isLeap_iff (year : Int) : isLeap year = true ↔ year % 4 = 0 ∧ (year % 100 ≠ 0 ∨ year % 400 = 0) := by
  simp [isLeap]

theorem daysBeforeYear_succ (year : Int) : daysBeforeYear (year + 1) = daysBeforeYear year + yearLength year := by
  unfold daysBeforeYear yearLength
  split
  · next leap =>
    rw [isLeap_iff] at leap
    omega
  · next common =>
    rw [isLeap_iff] at common
    omega

theorem daysBeforeMonth_last (year : Int) : daysBeforeMonth (isLeap year) 12 = yearLength year := by
  unfold yearLength daysBeforeMonth
  cases isLeap year <;> rfl

theorem daysBeforeMonth_lt (leap : Bool) (month : Int) (first : 0 ≤ month) (last : month < 12) :
    daysBeforeMonth leap month < daysBeforeMonth leap (month + 1) := by
  cases leap <;> interval_cases month <;> decide

theorem monthStart_next (index : Int) :
    monthStart (index + 1) = monthStart index +
      (daysBeforeMonth (isLeap (epochYear + index / 12)) (index % 12 + 1) -
        daysBeforeMonth (isLeap (epochYear + index / 12)) (index % 12)) := by
  simp only [monthStart]
  by_cases last : index % 12 = 11
  · have year : (index + 1) / 12 = index / 12 + 1 := by omega
    have month : (index + 1) % 12 = 0 := by omega
    have length := daysBeforeYear_succ (epochYear + index / 12)
    rw [year, month, last, ← add_assoc, length, ← daysBeforeMonth_last]
    simp only [daysBeforeMonth, le_refl, if_true]
    norm_num
    omega
  · have year : (index + 1) / 12 = index / 12 := by omega
    have month : (index + 1) % 12 = index % 12 + 1 := by omega
    rw [year, month]
    omega

theorem monthStart_lt (index : Int) : monthStart index < monthStart (index + 1) := by
  rw [monthStart_next]
  have := daysBeforeMonth_lt (isLeap (epochYear + index / 12)) (index % 12) (by omega) (by omega)
  omega

theorem monthStart_mono : StrictMono monthStart :=
  strictMono_int_of_lt_succ monthStart_lt

theorem yearOf_spec (day : Int) :
    daysBeforeYear (yearOf day) ≤ day + epochDay ∧ day + epochDay < daysBeforeYear (yearOf day + 1) := by
  unfold yearOf
  simp only
  split
  · next before =>
    refine ⟨?_, by rwa [Int.sub_add_cancel]⟩
    unfold daysBeforeYear at *
    omega
  · next reached =>
    split
    · next after =>
      refine ⟨after, ?_⟩
      unfold daysBeforeYear at *
      omega
    · omega

private theorem monthFrom_spec {leap : Bool} {dayOfYear : Int} (first : 0 ≤ dayOfYear) (month : Nat)
    (last : dayOfYear < daysBeforeMonth leap (month + 1)) :
    0 ≤ monthFrom leap dayOfYear month ∧ monthFrom leap dayOfYear month ≤ month ∧
      daysBeforeMonth leap (monthFrom leap dayOfYear month) ≤ dayOfYear ∧
        dayOfYear < daysBeforeMonth leap (monthFrom leap dayOfYear month + 1) := by
  induction month with
  | zero => exact ⟨le_refl _, le_refl _, by simpa [monthFrom, daysBeforeMonth] using first, by simpa [monthFrom] using last⟩
  | succ month ih =>
    simp only [monthFrom]
    split
    · next begun =>
      refine ⟨by omega, by push_cast; omega, begun, ?_⟩
      push_cast at last
      exact last
    · next later =>
      obtain ⟨low, high, before, after⟩ := ih (by omega)
      exact ⟨low, by push_cast; omega, before, after⟩

theorem monthOfYear_spec (year dayOfYear : Int) (first : 0 ≤ dayOfYear) (last : dayOfYear < yearLength year) :
    0 ≤ monthOfYear (isLeap year) dayOfYear ∧ monthOfYear (isLeap year) dayOfYear < 12 ∧
      daysBeforeMonth (isLeap year) (monthOfYear (isLeap year) dayOfYear) ≤ dayOfYear ∧
        dayOfYear < daysBeforeMonth (isLeap year) (monthOfYear (isLeap year) dayOfYear + 1) := by
  rw [← daysBeforeMonth_last] at last
  obtain ⟨low, high, before, after⟩ := monthFrom_spec first 11 last
  exact ⟨low, by unfold monthOfYear; omega, before, after⟩

theorem monthIndex_spec (day : Int) : monthStart (monthIndex day) ≤ day ∧ day < monthStart (monthIndex day + 1) := by
  obtain ⟨begun, open_⟩ := yearOf_spec day
  rw [daysBeforeYear_succ] at open_
  obtain ⟨low, high, before, after⟩ := monthOfYear_spec (yearOf day)
    (day + epochDay - daysBeforeYear (yearOf day)) (by omega) (by omega)
  rw [monthStart_next]
  unfold monthIndex monthStart
  simp only
  generalize monthOfYear (isLeap (yearOf day)) (day + epochDay - daysBeforeYear (yearOf day)) = month at *
  have year : epochYear + ((yearOf day - epochYear) * 12 + month) / 12 = yearOf day := by
    unfold epochYear
    omega
  have rest : ((yearOf day - epochYear) * 12 + month) % 12 = month := by omega
  rw [year, rest]
  omega

end Quotum.General.Calendar
