import Quotum.MeterLimitPeriods

/-! The usage windows of a meter limit tile its period, and time after it. -/

namespace Quotum.Cadences
open General

section Tiling
variable {windowOf : Int → Bounds} {start : Int} {ending : Option Int}

/-- An instant from a start on and before an end, if there is one. -/
def Within (start : Int) (ending : Option Int) (now : Int) : Prop := start ≤ now ∧ ∀ last, ending = some last → now < last

/-- Windows that cut a range without a gap: each contains its instant, no two overlap, and each starts where the one before it ends. -/
structure Tiles (windowOf : Int → Bounds) (start : Int) (ending : Option Int) : Prop where
  contains : ∀ now, Within start ending now → ∃ first last, windowOf now = ⟨first, some last⟩ ∧ start ≤ first ∧ first ≤ now ∧ now < last ∧
    ∀ limit, ending = some limit → last ≤ limit
  apart : ∀ now other, Within start ending now → Within start ending other →
    windowOf now = windowOf other ∨ (windowOf now).apart (windowOf other) = true
  starts : Within start ending start → (windowOf start).startAt = start
  adjacent : ∀ now last, Within start ending now → (windowOf now).endAt = some last → Within start ending last →
    (windowOf last).startAt = last
  clamped : ∀ limit, ending = some limit → start < limit → (windowOf (limit - 1)).endAt = some limit

structure Cuts (windowOf : Int → Bounds) (start : Int) (ending : Option Int) : Prop where
  window : ∀ now, Within start ending now → ∃ first last, windowOf now = ⟨first, some last⟩ ∧ start ≤ first ∧ first ≤ now ∧ now < last ∧
    ∀ limit, ending = some limit → last ≤ limit
  same : ∀ now time first last, Within start ending now → windowOf now = ⟨first, some last⟩ → first ≤ time → time < last →
    windowOf time = ⟨first, some last⟩

theorem Cuts.tiles (cuts : Cuts windowOf start ending) : Tiles windowOf start ending where
  contains := cuts.window
  apart := by
    intro now other within withinOther
    obtain ⟨first, last, bounds, -, begun, unfinished, -⟩ := cuts.window now within
    obtain ⟨otherFirst, otherLast, otherBounds, -, otherBegun, otherUnfinished, -⟩ := cuts.window other withinOther
    rw [bounds, otherBounds]
    by_cases shared : max first otherFirst < min last otherLast
    · left
      rw [← cuts.same now _ first last within bounds (le_max_left first otherFirst) (by omega),
        ← cuts.same other _ otherFirst otherLast withinOther otherBounds (le_max_right first otherFirst) (by omega)]
    · right
      simp only [Bounds.apart, Bounds.before, Option.any_some, Bool.or_eq_true, decide_eq_true_eq]
      omega
  starts := by
    intro within
    obtain ⟨first, last, bounds, low, begun, -, -⟩ := cuts.window start within
    rw [bounds]
    exact le_antisymm begun low
  adjacent := by
    intro now last within ends withinLast
    obtain ⟨first, other, bounds, low, begun, unfinished, -⟩ := cuts.window now within
    rw [bounds] at ends
    obtain rfl := Option.some.inj ends
    obtain ⟨nextFirst, nextLast, next, -, nextBegun, nextUnfinished, -⟩ := cuts.window other withinLast
    rw [next]
    by_contra earlier
    have before : nextFirst ≤ other - 1 := by
      simp only at earlier
      omega
    have one := (cuts.same other (other - 1) nextFirst nextLast withinLast next before (by omega)).symm.trans
      (cuts.same now (other - 1) first other within bounds (by omega) (by omega))
    simp only [Bounds.mk.injEq, Option.some.injEq] at one
    omega
  clamped := by
    intro limit isLimit begun
    have within : Within start ending (limit - 1) := by
      refine ⟨by omega, ?_⟩
      intro last isLast
      obtain rfl := Option.some.inj (isLimit.symm.trans isLast)
      omega
    obtain ⟨first, last, bounds, -, -, unfinished, below⟩ := cuts.window (limit - 1) within
    have inside := below limit isLimit
    rw [bounds]
    exact congrArg some (by omega)

theorem Cuts.congr {other : Int → Bounds} (cuts : Cuts windowOf start ending) (agree : ∀ now, Within start ending now → other now = windowOf now) :
    Cuts other start ending where
  window := by
    intro now within
    rw [agree now within]
    exact cuts.window now within
  same := by
    intro now time first last within bounds low high
    rw [agree now within] at bounds
    obtain ⟨_, _, same, after, -, -, before⟩ := cuts.window now within
    have equal := same.symm.trans bounds
    simp only [Bounds.mk.injEq, Option.some.injEq] at equal
    obtain ⟨rfl, rfl⟩ := equal
    rw [agree time ⟨after.trans low, fun limit isLimit => high.trans_le (before limit isLimit)⟩]
    exact cuts.same now time _ _ within bounds low high

/-- One range after another. -/
theorem Cuts.glue {middle : Int} (front : Cuts windowOf start (some middle)) (back : Cuts windowOf middle none) (ordered : start ≤ middle) :
    Cuts windowOf start none where
  window := by
    intro now within
    by_cases early : now < middle
    · obtain ⟨first, last, bounds, low, begun, unfinished, -⟩ := front.window now ⟨within.1, fun limit isLimit => by
        obtain rfl := Option.some.inj isLimit
        exact early⟩
      exact ⟨first, last, bounds, low, begun, unfinished, nofun⟩
    · obtain ⟨first, last, bounds, low, begun, unfinished, -⟩ := back.window now ⟨by omega, nofun⟩
      exact ⟨first, last, bounds, by omega, begun, unfinished, nofun⟩
  same := by
    intro now time first last within bounds low high
    by_cases early : now < middle
    · exact front.same now time first last ⟨within.1, fun limit isLimit => by
        obtain rfl := Option.some.inj isLimit
        exact early⟩ bounds low high
    · exact back.same now time first last ⟨by omega, nofun⟩ bounds low high

def clampTo (ending : Option Int) (last : Int) : Int := (ending.map (min last)).getD last

private theorem clampTo_le (ending : Option Int) (last : Int) :
    clampTo ending last ≤ last ∧ ∀ limit, ending = some limit → clampTo ending last ≤ limit := by
  cases ending with
  | none => exact ⟨le_refl last, nofun⟩
  | some limit =>
    refine ⟨min_le_left last limit, ?_⟩
    rintro _ ⟨⟩
    exact min_le_right last limit

private theorem lt_clampTo {now last : Int} (before : now < last) (within : ∀ limit, ending = some limit → now < limit) :
    now < clampTo ending last := by
  cases ending with
  | none => exact before
  | some limit => exact lt_min before (within limit rfl)

private theorem cuts_of {cut : Int → Int} (growing : StrictMono cut) (first : cut 0 = start)
    (between : ∀ now, Within start ending now → ∃ steps, windowOf now = ⟨cut steps, some (clampTo ending (cut (steps + 1)))⟩ ∧
      cut steps ≤ now ∧ now < cut (steps + 1)) : Cuts windowOf start ending where
  window := by
    intro now within
    obtain ⟨steps, bounds, low, high⟩ := between now within
    have reached : 0 < steps + 1 := growing.lt_iff_lt.mp (lt_of_le_of_lt (first.trans_le within.1) high)
    refine ⟨cut steps, _, bounds, ?_, low, lt_clampTo high within.2, (clampTo_le ending _).2⟩
    rw [← first]
    exact growing.monotone (by omega)
  same := by
    intro now time begin_ last within bounds low high
    obtain ⟨steps, same, begun, unfinished⟩ := between now within
    have equal := same.symm.trans bounds
    simp only [Bounds.mk.injEq, Option.some.injEq] at equal
    obtain ⟨rfl, rfl⟩ := equal
    have reached : 0 < steps + 1 := growing.lt_iff_lt.mp (lt_of_le_of_lt (first.trans_le within.1) unfinished)
    have after : start ≤ cut steps := by
      rw [← first]
      exact growing.monotone (by omega)
    have inside : Within start ending time :=
      ⟨after.trans low, fun limit isLimit => high.trans_le ((clampTo_le ending _).2 limit isLimit)⟩
    obtain ⟨others, timeBounds, timeLow, timeHigh⟩ := between time inside
    have above : steps < others + 1 := growing.lt_iff_lt.mp (low.trans_lt timeHigh)
    have below : others < steps + 1 := growing.lt_iff_lt.mp (timeLow.trans_lt (high.trans_le (clampTo_le ending _).1))
    obtain rfl : others = steps := by omega
    exact timeBounds

private theorem cuts_whole {last : Int} (whole : ∀ now, start ≤ now → now < last → windowOf now = ⟨start, some last⟩) :
    Cuts windowOf start (some last) where
  window := by
    intro now within
    have before := within.2 last rfl
    refine ⟨start, last, whole now within.1 before, le_refl start, within.1, before, ?_⟩
    rintro limit ⟨⟩
    exact le_refl last
  same := by
    intro now time first other within bounds low high
    have equal := (whole now within.1 (within.2 last rfl)).symm.trans bounds
    simp only [Bounds.mk.injEq, Option.some.injEq] at equal
    obtain ⟨rfl, rfl⟩ := equal
    exact whole time low high

end Tiling

section Roll
variable {start ending now : Int} {reset : Cadence}

private theorem addUtcMonths_again (value months more : Int) {anchorDay : Int} (anchored : 0 < anchorDay) :
    addUtcMonths (addUtcMonths value months anchorDay) more anchorDay = addUtcMonths value (months + more) anchorDay := by
  obtain ⟨low, high⟩ := addUtcMonths_month value months anchored
  have month : monthOf (addUtcMonths value months anchorDay) = monthOf value + months := by
    have below := monthOf_lt high
    have above := le_monthOf low
    omega
  have time : addUtcMonths value months anchorDay % dayMs = value % dayMs := by
    simp only [addUtcMonths]
    rw [Int.add_emod, Int.mul_emod_left, zero_add, Int.emod_emod_of_dvd _ (dvd_refl dayMs), Int.emod_emod_of_dvd _ (dvd_refl dayMs)]
  rw [addUtcMonths, month, time, addUtcMonths, add_assoc]

private theorem rollAnchorDay_pos (start ending : Int) (reset : Cadence) : 0 < rollAnchorDay start ending reset := by
  unfold rollAnchorDay
  split
  · exact dateOf_pos start
  · exact dateOf_pos ending

private theorem roll_zero (start ending : Int) (reset : Cadence) : addCadence ending reset 0 (rollAnchorDay start ending reset) = ending := by
  simp only [addCadence]
  cases form : canonicalCadence reset with
  | hours hours => simp
  | months months =>
    simp only [rollAnchorDay, mul_zero]
    split
    · next exact_ =>
      have steps : ending = addUtcMonths start (months * 1) (dateOf start) := by
        rw [exact_]
        simp only [nextCadence, addCadence, form]
      rw [steps, addUtcMonths_again start _ 0 (dateOf_pos start), add_zero]
    · exact addUtcMonths_zero ending

private theorem roll_between (after : ending ≤ now) : ∃ steps, rollWindow start ending reset now =
    ⟨addCadence ending reset steps (rollAnchorDay start ending reset),
      some (addCadence ending reset (steps + 1) (rollAnchorDay start ending reset))⟩ ∧
    addCadence ending reset steps (rollAnchorDay start ending reset) ≤ now ∧
      now < addCadence ending reset (steps + 1) (rollAnchorDay start ending reset) := by
  obtain ⟨low, high⟩ := resetSteps_within ending reset now (rollAnchorDay_pos start ending reset)
  have positive := canonicalCadence_pos reset
  simp only [rollWindow, if_neg (Int.not_lt.mpr after)]
  cases form : canonicalCadence reset with
  | hours hours =>
    rw [form] at positive
    have span : 0 < (hours : Int) * hourMs := Int.mul_pos (by omega) (by decide)
    obtain ⟨begun, unfinished⟩ := group_spec _ span (now - ending)
    refine ⟨(now - ending) / (hours * hourMs), ?_⟩
    simp only [addCadence, form]
    generalize (now - ending) / (hours * hourMs) = steps at begun unfinished ⊢
    have here : (hours : Int) * steps * hourMs = steps * (hours * hourMs) := by ring
    have next : (hours : Int) * (steps + 1) * hourMs = steps * (hours * hourMs) + hours * hourMs := by ring
    rw [here, next, add_assoc]
    refine ⟨rfl, ?_⟩
    omega
  | months months =>
    have guess : resetSteps ending reset now = utcMonthIndexDifference ending now / months := by
      simp only [resetSteps, form]
    rw [guess] at low high
    simp only
    split
    · next ahead => exact ⟨_, by rw [sub_add_cancel], low, by rwa [sub_add_cancel]⟩
    · next reached => exact ⟨_, rfl, Int.not_lt.mp reached, high⟩

private theorem roll_cuts (period : start < ending) : Cuts (rollWindow start ending reset) start none := by
  have front : Cuts (rollWindow start ending reset) start (some ending) := by
    apply cuts_whole
    intro now _ before
    rw [rollWindow, if_pos before]
  have back : Cuts (rollWindow start ending reset) ending none :=
    cuts_of (addCadence_mono ending reset (rollAnchorDay_pos start ending reset)) (roll_zero start ending reset)
      fun now within => roll_between within.1
  exact front.glue back period.le

end Roll

section Period
variable {start ending : Int} {reset : Cadence}

private theorem subWindow_cuts (start ending : Int) (reset : Cadence) : Cuts (resetSubWindowBounds start ending reset) start (some ending) :=
  cuts_of (boundary_mono start reset) (boundary_zero start reset) fun _ within =>
    @resetSubWindow_spec _ reset _ _ within.1 (within.2 ending rfl)

private theorem subWindow_after (period : start < ending) {now : Int} (after : ending ≤ now) :
    resetSubWindowBounds start ending reset now = resetSubWindowBounds start ending reset (ending - 1) := by
  have instant : (if ending - 1 < start then start else if ending ≤ ending - 1 then ending - 1 else ending - 1) = ending - 1 := by
    split
    · omega
    · split <;> rfl
  simp only [resetSubWindowBounds, instant, if_neg (show ¬ now < start by omega), if_pos after]

private theorem period_asserted (period : start < ending) : assertPeriodBounds start ending = .ok () :=
  if_neg (Int.not_le.mpr period)

private theorem nextCadence_after (start : Int) (reset : Cadence) : start < nextCadence start reset := by
  have later := boundary_mono start reset (show (0 : Int) < 1 by decide)
  rw [boundary_zero] at later
  exact later

def meterLimitWindow (start ending : Int) (split : Bool) (reset : Cadence) (now : Int) : Bounds :=
  if split then
    if now < ending then resetSubWindowBounds start ending reset now else rollWindow ending (nextCadence ending reset) reset now
  else rollWindow start ending reset now

private theorem meterLimitWindow_computed (period : start < ending) (recorded : Option Int)
    (same : recorded.getD (nextCadence start reset) = ending)
    (billing : Option Cadence) (now : Int) : meterLimitWindowBounds start recorded reset now billing =
      .ok (meterLimitWindow start ending (recorded.isSome && periodSplits reset billing ⟨start, some ending⟩) reset now) := by
  simp only [meterLimitWindowBounds, same, meterLimitWindow, rollWindowBounds, period_asserted period,
    period_asserted (nextCadence_after ending reset)]
  split
  · split <;> rfl
  · rfl

private theorem meterLimit_cuts (period : start < ending) (split : Bool) : Cuts (meterLimitWindow start ending split reset) start none := by
  cases split with
  | false =>
    have same : meterLimitWindow start ending false reset = rollWindow start ending reset := rfl
    rw [same]
    exact roll_cuts period
  | true =>
    have front : Cuts (meterLimitWindow start ending true reset) start (some ending) := by
      apply (subWindow_cuts start ending reset).congr
      intro now within
      simp only [meterLimitWindow, if_true, if_pos (within.2 ending rfl)]
    have back : Cuts (meterLimitWindow start ending true reset) ending none := by
      have rolled : Cuts (rollWindow ending (nextCadence ending reset) reset) ending none := roll_cuts (nextCadence_after ending reset)
      apply rolled.congr
      intro now within
      simp only [meterLimitWindow, if_true, if_neg (Int.not_lt.mpr within.1)]
    exact front.glue back period.le

private theorem meterLimit_clamped (period : start < ending) (split : Bool) :
    (meterLimitWindow start ending split reset (ending - 1)).endAt = some ending := by
  have before : ending - 1 < ending := by omega
  cases split with
  | false => simp only [meterLimitWindow, Bool.false_eq_true, if_false, rollWindow, if_pos before]
  | true =>
    simp only [meterLimitWindow, if_true, if_pos before]
    exact (subWindow_cuts start ending reset).tiles.clamped ending rfl period

end Period

/-- The windows of a valid period tile it, and those of a meter limit go on to tile the time after it; the reset windows of a period or of
a plan grant end with it, and an instant after that gets the last one. -/
theorem windows_tile {start ending : Int} (period : start < ending) (reset : Cadence) :
    (Tiles (resetSubWindowBounds start ending reset) start (some ending) ∧
      ∀ now, ending ≤ now → resetSubWindowBounds start ending reset now = resetSubWindowBounds start ending reset (ending - 1)) ∧
    (Tiles (planGrantWindowBounds ⟨start, some ending⟩ reset) start (some ending) ∧
      ∀ now, ending ≤ now → planGrantWindowBounds ⟨start, some ending⟩ reset now = planGrantWindowBounds ⟨start, some ending⟩ reset (ending - 1)) ∧
    (start < openEnd → Tiles (planGrantWindowBounds ⟨start, none⟩ reset) start (some openEnd)) ∧
    (∃ windowOf, (∀ now, rollWindowBounds start ending reset now = .ok (windowOf now)) ∧ Tiles windowOf start none ∧
      (windowOf (ending - 1)).endAt = some ending) ∧
    ∀ billing, (∃ windowOf, (∀ now, meterLimitWindowBounds start (some ending) reset now billing = .ok (windowOf now)) ∧
        Tiles windowOf start none ∧ (windowOf (ending - 1)).endAt = some ending) ∧
      ∃ windowOf, (∀ now, meterLimitWindowBounds start none reset now billing = .ok (windowOf now)) ∧ Tiles windowOf start none := by
  have sub := (subWindow_cuts start ending reset).tiles
  refine ⟨⟨sub, fun _ => subWindow_after period⟩, ⟨sub, fun _ => subWindow_after period⟩, ?_, ?_, ?_⟩
  · exact fun _ => (subWindow_cuts start openEnd reset).tiles
  · refine ⟨rollWindow start ending reset, ?_, (roll_cuts period).tiles, meterLimit_clamped period false⟩
    intro now
    rw [rollWindowBounds, period_asserted period]
    rfl
  · intro billing
    exact ⟨⟨_, meterLimitWindow_computed period (some ending) rfl billing, (meterLimit_cuts period _).tiles, meterLimit_clamped period _⟩,
      ⟨_, meterLimitWindow_computed (nextCadence_after start reset) none rfl billing,
        (meterLimit_cuts (nextCadence_after start reset) _).tiles⟩⟩

/-- The windows of a month-end period. -/
theorem windows_tile_january : Tiles (resetSubWindowBounds 2592000000 34128000000 ⟨.month, 1, by decide⟩) 2592000000 (some 34128000000) :=
  (windows_tile (show (2592000000 : Int) < 34128000000 by decide) ⟨.month, 1, by decide⟩).1.1

/-- A grant that has ended still has its last window, which does not contain the instant. -/
theorem ended_grant_window : ¬ ∀ now, 0 ≤ now →
    (planGrantWindowBounds ⟨0, some 86400000⟩ ⟨.month, 1, by decide⟩ now).contains now = true := by
  intro contains
  exact absurd (contains 86400000 (by decide)) (by decide)

end Quotum.Cadences
