import Quotum.Proofs.ControlledUsage
import Quotum.Proofs.Confirmations

/-! Corrections in an entity's spend window: what an event and its corrections leave there, over every run of writes. -/

namespace Quotum.Controls
open General Metering

def leftIn (event : ControlledEvent) (entry : ControlEntry) (key : WindowKey) : Int :=
  entry.value + priorCorrections event key

def uncorrectedShare (event : ControlledEvent) (entry : ControlEntry) : Int :=
  max entry.value 0 * event.net / event.quantity

section Correction
variable {commercial : Commercial} {event : ControlledEvent} {quantity : Nat} {spendMinorReduction : Int} {currency : Option String}
  {windows : List ControlWindow}

private theorem lowered_entries (reduction : ControlWindow → Int) (key : WindowKey) (windows : List ControlWindow) :
    totalAt ControlEntry.window ControlEntry.value key
        (windows.filterMap fun window =>
          let applied : Int := ((window.lower (reduction window)).consumedValue : Int) - window.consumedValue
          if applied = 0 then none else some ⟨window.key, applied⟩) =
      (consumedIn key (windows.map fun window => window.lower (reduction window)) : Int) - consumedIn key windows := by
  induction windows with
  | nil => rfl
  | cons window rest ih =>
    have same : (window.lower (reduction window)).key = window.key := rfl
    rw [consumedIn, consumedIn] at *
    rw [List.map_cons, totalAt_cons, totalAt_cons, List.filterMap_cons, same]
    dsimp only at ih ⊢
    by_cases still : ((window.lower (reduction window)).consumedValue : Int) - window.consumedValue = 0
    · simp only [still, if_true]
      split <;> push_cast <;> omega
    · simp only [still, if_false, totalAt_cons]
      split <;> push_cast <;> omega

private theorem correct_entries (key : WindowKey) :
    totalAt ControlEntry.window ControlEntry.value key
        (correctControlConsumption commercial event quantity spendMinorReduction currency windows).2 =
      (consumedIn key (correctControlConsumption commercial event quantity spendMinorReduction currency windows).1 : Int) -
        consumedIn key windows :=
  lowered_entries _ key windows

private theorem prior_addCorrection (correction : UsageCorrection) (key : WindowKey) :
    priorCorrections (event.addCorrection correction) key =
      priorCorrections event key + totalAt ControlEntry.window ControlEntry.value key correction.entries := by
  simp only [priorCorrections, ControlledEvent.addCorrection, List.map_append, List.map_cons, List.map_nil, List.sum_append,
    List.sum_cons, List.sum_nil, add_zero]

private theorem corrected_addCorrection (correction : UsageCorrection) :
    (event.addCorrection correction).net = event.net - correction.quantity := by
  simp only [ControlledEvent.net, ControlledEvent.corrected, ControlledEvent.addCorrection, List.map_append, List.map_cons,
    List.map_nil, List.sum_append, List.sum_cons, List.sum_nil, add_zero]
  push_cast
  omega

/-- What is left over is no more than the share, once a correction is taken off in full. -/
private theorem spendReduction_covers {key : WindowKey} {entry : ControlEntry} (owned : key.policy.entity.isSome = true)
    (fits : (quantity : Int) ≤ event.net) :
    leftIn event entry key - spendReduction event quantity spendMinorReduction key entry ≤
      max entry.value 0 * (event.net - quantity) / event.quantity := by
  have uncorrected : (event.quantity : Int) - event.corrected - quantity = event.net - quantity := rfl
  have most : (if 0 < entry.value ∧ 0 < event.net - quantity then entry.value * (event.net - quantity) / event.quantity else 0) =
      max entry.value 0 * (event.net - quantity) / event.quantity := by
    split
    · next both => rw [max_eq_left both.1.le]
    · next one =>
      rcases not_and_or.mp one with unraised | whole
      · rw [max_eq_right (not_lt.mp unraised), zero_mul, Int.zero_ediv]
      · have none : event.net - quantity = 0 := by omega
        rw [none, mul_zero, Int.zero_ediv]
  simp only [spendReduction, owned, if_true, uncorrected, most, leftIn]
  split <;> omega

private theorem counting_own (apart : (event.entries.map ControlEntry.window).Nodup) {entry : ControlEntry} (member : entry ∈ event.entries) :
    countingEntry event windows entry.window = some entry := by
  have found : (event.entries.find? fun other => other.window == entry.window) = some entry := by
    generalize event.entries = entries at apart member
    induction entries with
    | nil => cases member
    | cons first rest ih =>
      rw [List.map_cons, List.nodup_cons] at apart
      rw [List.find?_cons]
      rcases List.mem_cons.mp member with rfl | later
      · rw [beq_self_eq_true]
      · have other : (first.window == entry.window) = false :=
          beq_eq_false_iff_ne.mpr fun same => apart.1 (same ▸ List.mem_map_of_mem later)
        rw [other]
        exact ih apart.2 later
  simp only [countingEntry, found, Option.some_or]

private theorem correction_share (distinct : Distinct windows) {key : WindowKey} (has : Has key windows) {entry : ControlEntry}
    (counting : countingEntry event windows key = some entry) {counted : String} (spend : key.policy.kind = .spendLimit counted)
    (owned : key.policy.entity.isSome = true) (rated : currency = some counted) (fits : (quantity : Int) ≤ event.net) :
    let corrected := event.addCorrection
      ⟨quantity, (correctControlConsumption commercial event quantity spendMinorReduction currency windows).2⟩
    leftIn corrected entry key ≤ uncorrectedShare corrected entry ∨
      consumedIn key (correctControlConsumption commercial event quantity spendMinorReduction currency windows).1 = 0 := by
  have covers := @spendReduction_covers event quantity spendMinorReduction key entry owned fits
  have reduction : reductionIn commercial event quantity spendMinorReduction currency windows key =
      spendReduction event quantity spendMinorReduction key entry := by
    simp only [reductionIn, counting, spend, rated, if_true]
  have lowered := @correct_consumed commercial event quantity spendMinorReduction currency windows distinct key has
  have left : ∀ correction, leftIn (event.addCorrection correction) entry key =
      leftIn event entry key + totalAt ControlEntry.window ControlEntry.value key correction.entries := by
    intro correction
    rw [leftIn, prior_addCorrection, ← add_assoc, leftIn]
  have same : ∀ correction, (event.addCorrection correction).quantity = event.quantity := fun _ => rfl
  dsimp only
  rw [left, correct_entries, uncorrectedShare, corrected_addCorrection, same, lowered, reduction]
  dsimp only
  omega

end Correction

structure Tracked (event : ControlledEvent) (windows : List ControlWindow) : Prop where
  positive : 0 < event.quantity
  apart : (event.entries.map ControlEntry.window).Nodup
  present : ∀ entry ∈ event.entries, Has entry.window windows

theorem Tracked.grown {event : ControlledEvent} {windows others : List ControlWindow} (recorded : Tracked event windows)
    (grown : ∀ key, Has key windows → Has key others) : Tracked event others :=
  ⟨recorded.positive, recorded.apart, fun entry member => grown _ (recorded.present entry member)⟩

section Step
variable {commercial : Commercial} {clock : Clock} {account next : ControlledAccount}

private theorem applied_windows (charges : List Charge) : ((charges.filterMap appliedEntry).map ControlEntry.window).Sublist (charges.map Charge.key) := by
  induction charges with
  | nil => exact .slnil
  | cons charge rest ih =>
    rw [List.filterMap_cons, List.map_cons]
    cases entry : appliedEntry charge with
    | none => exact ih.cons _
    | some value =>
      have window : value.window = charge.key := by
        simp only [appliedEntry] at entry
        split at entry
        · split at entry
          · cases entry
          · cases entry
            rfl
        · cases entry
          rfl
      rw [List.map_cons, window]
      exact ih.cons_cons _

/-- What a write does to the events of an account: it records at most one, and corrects only the event it names. -/
inductive EventsAfter (account next : ControlledAccount) : UsageWrite → Prop where
  | kept {write : UsageWrite} (same : next.events = account.events) : EventsAfter account next write
  | recorded {write : UsageWrite} (event : ControlledEvent) (recorded : Tracked event next.windows) (fresh : event.corrections = [])
      (appended : next.events = account.events ++ [event]) : EventsAfter account next write
  | corrected {id quantity : Nat} {spendMinorReduction : Int} {currency : Option String} (original : ControlledEvent)
      (known : original ∈ account.events) (named : original.id = id) (correction : UsageCorrection)
      (changed : next.events = updateAt ControlledEvent.id original.id (ControlledEvent.addCorrection correction) account.events) :
      EventsAfter account next (.correct id quantity spendMinorReduction currency)

private theorem recorded_charges {charges : List Charge} (positive : 0 < quantity) (apart : (charges.map Charge.key).Nodup)
    {windows : List ControlWindow} (present : ∀ charge ∈ charges, Has charge.key windows) {event : ControlledEvent}
    (counted : event.quantity = quantity) (entries : event.entries = charges.filterMap appliedEntry) : Tracked event windows := by
  have within := applied_windows charges
  rw [← entries] at within
  refine ⟨counted ▸ positive, apart.sublist within, fun entry member => ?_⟩
  obtain ⟨charge, made, same⟩ := List.mem_map.mp (within.subset (List.mem_map_of_mem member))
  rw [← same]
  exact present charge made

private theorem opened_has (policies : List ControlPolicy) {key : WindowKey} (has : Has key account.windows) :
    Has key (openWindows commercial account.events clock.controlNow policies account.windows) :=
  openWindows_has.mpr (.inr has)

private theorem step_events (tidy : Tidy account) {write : UsageWrite} (done : write.apply commercial clock account = .ok next) :
    (∀ key, Has key account.windows → Has key next.windows) ∧ EventsAfter account next write := by
  cases write with
  | consume feature entity amount admitted =>
    rcases consume_inv tidy.distinct done with rfl | ⟨policies, -, rfl⟩ | ⟨policies, charges, positive, charged, rfl⟩
    · exact ⟨fun _ has => has, .kept rfl⟩
    · exact ⟨fun _ has => opened_has policies has, .kept rfl⟩
    · have counted := counted_charges (openWindows_distinct tidy.distinct policies) charged.apart fun charge member =>
        (charged.admitted charge member).has
      refine ⟨fun key has => (counted.has key).mpr (opened_has policies has), .recorded _ ?_ rfl rfl⟩
      exact recorded_charges positive charged.apart (fun charge member => (counted.has _).mpr (charged.admitted charge member).has) rfl rfl
  | reserve feature entity amount expiresIn admitted =>
    rcases reserve_inv tidy.distinct done with rfl | ⟨policies, -, rfl⟩ | ⟨policies, charges, -, -, rfl⟩
    · exact ⟨fun _ has => has, .kept rfl⟩
    · exact ⟨fun _ has => opened_has policies has, .kept rfl⟩
    · obtain ⟨has, -⟩ := holdCharges_keep charges
        (openWindows commercial account.events clock.controlNow policies account.windows)
      exact ⟨fun key old => (has key).mpr (opened_has policies old), .kept rfl⟩
  | confirm id amount admitted =>
    rcases confirm_inv done with rfl | ⟨reservation, -, -, rfl | ⟨-, rfl⟩⟩ | ⟨reservation, settled, -, settlement, rfl⟩
    · exact ⟨fun _ has => has, .kept rfl⟩
    · exact ⟨fun key has => ((dropped_holds tidy.distinct reservation.holds).has key).mpr has, .kept rfl⟩
    · exact ⟨fun _ has => opened_has _ has, .kept rfl⟩
    · have settles := settled_groups (openWindows_distinct tidy.distinct _) (settlement.apart tidy) (settlement.present tidy)
      refine ⟨fun key has => (settles.has key).mpr (opened_has _ has), .recorded _ ?_ rfl rfl⟩
      have keys : (settled.map Prod.snd).map Charge.key = settled.map fun entry => entry.2.key := List.map_map
      have entries : (settled.filterMap fun entry => appliedEntry entry.2) = (settled.map Prod.snd).filterMap appliedEntry := by
        rw [List.filterMap_map]
        rfl
      refine recorded_charges settlement.positive (keys ▸ settlement.apart tidy) (fun charge member => ?_) rfl entries
      obtain ⟨entry, inside, rfl⟩ := List.mem_map.mp member
      exact (settles.has _).mpr (settlement.present tidy entry inside)
  | release id =>
    rcases release_inv done with rfl | ⟨reservation, -, -, status, -, rfl⟩
    · exact ⟨fun _ has => has, .kept rfl⟩
    · exact ⟨fun key has => ((dropped_holds tidy.distinct reservation.holds).has key).mpr has, .kept rfl⟩
  | expire =>
    cases done
    rw [expireUsage]
    generalize account.reservations.filter _ = overdue
    have closed : (∀ key, Has key account.windows →
        Has key (overdue.foldl (fun current reservation => closeReservation reservation .expired current) account).windows) ∧
        (overdue.foldl (fun current reservation => closeReservation reservation .expired current) account).events =
          account.events := by
      induction overdue generalizing account with
      | nil => exact ⟨fun _ has => has, rfl⟩
      | cons reservation rest ih =>
        obtain ⟨windows, events⟩ := ih (tidy_closed tidy reservation .expired)
        exact ⟨fun key has => windows key (((dropped_holds tidy.distinct reservation.holds).has key).mpr has), events⟩
    exact ⟨closed.1, .kept closed.2⟩
  | correct id quantity spendMinorReduction currency =>
    obtain ⟨original, member, named, -, -, rfl⟩ := correct_inv done
    refine ⟨fun key has => ?_, .corrected original member named _ rfl⟩
    rw [Has, correct_keys]
    exact has

private theorem tracked_step (tidy : Tidy account) (recorded : ∀ event ∈ account.events, Tracked event account.windows)
    {write : UsageWrite} (done : write.apply commercial clock account = .ok next) :
    ∀ event ∈ next.events, Tracked event next.windows := by
  obtain ⟨grown, after⟩ := step_events tidy done
  intro event member
  cases after with
  | kept same => exact (recorded event (same ▸ member)).grown grown
  | recorded added here _ appended =>
    rw [appended] at member
    rcases List.mem_append.mp member with old | new
    · exact (recorded event old).grown grown
    · rw [List.mem_singleton.mp new]
      exact here
  | corrected original _ _ correction changed =>
    rw [changed] at member
    rcases mem_updateAt.mp member with ⟨old, known, ⟨-, rfl⟩ | ⟨-, rfl⟩⟩
    · have before := (recorded old known).grown grown
      exact ⟨before.positive, before.apart, before.present⟩
    · exact (recorded event known).grown grown

private theorem reaches_tracked {may : Commercial → Clock → UsageWrite → ControlledAccount → Prop} (reached : Reaches may account) :
    ∀ event ∈ account.events, Tracked event account.windows := by
  induction reached with
  | opened => exact fun event member => nomatch member
  | step reached _ done ih => exact tracked_step (reaches_tidy reached) ih done

end Step

def UsageWrite.corrects : UsageWrite → Option Nat
  | .correct event _ _ _ => some event
  | _ => none

/-- A write of anything but a correction of this event. -/
def WritesElsewhere (id : Nat) (account next : ControlledAccount) : Prop :=
  ∃ commercial clock write, UsageWrite.corrects write ≠ some id ∧ write.apply commercial clock account = .ok next

abbrev Reachable : ControlledAccount → Prop :=
  Reaches fun _ _ _ _ => True

section Runs
variable {account next : ControlledAccount} {event : ControlledEvent}

/-- An event stays as it is until it is corrected. -/
private theorem elsewhere_keeps (reached : Reachable account) (known : event ∈ account.events)
    (written : Relation.ReflTransGen (WritesElsewhere event.id) account next) : Reachable next ∧ event ∈ next.events := by
  induction written with
  | refl => exact ⟨reached, known⟩
  | tail _ step ih =>
    obtain ⟨commercial, clock, write, other, done⟩ := step
    obtain ⟨reached, known⟩ := ih
    refine ⟨.step reached trivial done, ?_⟩
    obtain ⟨-, after⟩ := step_events (reaches_tidy reached) done
    cases after with
    | kept same => exact same ▸ known
    | recorded added _ _ appended =>
      rw [appended]
      exact List.mem_append_left _ known
    | corrected original _ named correction changed =>
      rw [changed]
      refine mem_updateAt.mpr ⟨event, known, .inr ⟨fun same => other ?_, rfl⟩⟩
      rw [UsageWrite.corrects, same, named]

theorem event_unique (tidy : Tidy account) {other : ControlledEvent} (known : event ∈ account.events)
    (also : other ∈ account.events) (same : event.id = other.id) : event = other :=
  List.inj_on_of_nodup_map tidy.eventIds known also same

private theorem share_uncorrected (positive : 0 < event.quantity) (fresh : event.corrections = []) (entry : ControlEntry)
    (key : WindowKey) : leftIn event entry key = entry.value ∧ uncorrectedShare event entry = max entry.value 0 := by
  have net : event.net = event.quantity := by simp only [ControlledEvent.net, ControlledEvent.corrected, fresh, List.map_nil,
    List.sum_nil, Nat.cast_zero, sub_zero]
  have nonzero : (event.quantity : Int) ≠ 0 := by omega
  refine ⟨by simp only [leftIn, priorCorrections, fresh, List.map_nil, List.sum_nil, add_zero], ?_⟩
  rw [uncorrectedShare, net, Int.mul_ediv_cancel _ nonzero]

private theorem share_whole (whole : event.net = 0) (entry : ControlEntry) : uncorrectedShare event entry = 0 := by
  rw [uncorrectedShare, whole, mul_zero, Int.zero_ediv]

/-- In every run an event in an entity's spend window holds there what it added until it is corrected. From each correction that is
rated in the window's currency until the next one, the event and its corrections hold no more than the uncorrected share of what it
added, or the correction emptied the window. -/
theorem entity_spend_share :
    (∀ account, Reachable account → ∀ event ∈ account.events, event.corrections = [] → ∀ entry ∈ event.entries,
      leftIn event entry entry.window = entry.value ∧ uncorrectedShare event entry = max entry.value 0) ∧
    ∀ before commercial clock id quantity spendMinorReduction currency after, Reachable before →
      (UsageWrite.correct id quantity spendMinorReduction currency).apply commercial clock before = .ok after →
      (∃ original ∈ before.events, original.id = id ∧ ∀ key, Has key before.windows →
        (consumedIn key after.windows : Int) = max (consumedIn key before.windows -
          reductionIn commercial original quantity spendMinorReduction currency before.windows key) 0) ∧
      ∀ later, Relation.ReflTransGen (WritesElsewhere id) after later → ∀ event ∈ later.events, event.id = id →
        (∀ entry ∈ event.entries, Has entry.window before.windows ∧
          countingEntry event before.windows entry.window = some entry) ∧
        ∀ key entry counted, Has key before.windows → countingEntry event before.windows key = some entry →
          key.policy.kind = .spendLimit counted → key.policy.entity.isSome = true → currency = some counted →
          (leftIn event entry key ≤ uncorrectedShare event entry ∨ consumedIn key after.windows = 0) ∧
          (event.net = 0 → leftIn event entry key ≤ 0 ∨ consumedIn key after.windows = 0) := by
  refine ⟨?_, ?_⟩
  · intro account reached event known fresh entry _
    exact share_uncorrected (reaches_tracked reached event known).positive fresh entry entry.window
  · intro before commercial clock id quantity spendMinorReduction currency after reached done
    have tidy := reaches_tidy reached
    obtain ⟨original, known, named, -, fits, shape⟩ := correct_inv done
    have next : Reachable after := .step reached trivial done
    have recorded := reaches_tracked reached original known
    refine ⟨⟨original, known, named, fun key has => ?_⟩, ?_⟩
    · rw [shape]
      dsimp only
      rw [correct_consumed tidy.distinct has]
      exact Int.toNat_eq_max _
    · intro later written event member same
      generalize corrected_eq : original.addCorrection ⟨quantity, (correctControlConsumption commercial original quantity
        spendMinorReduction currency before.windows).2⟩ = corrected
      have inside : corrected ∈ after.events := by
        rw [shape, ← corrected_eq]
        exact mem_updateAt.mpr ⟨original, known, .inl ⟨rfl, rfl⟩⟩
      have id_eq : corrected.id = id := by
        rw [← corrected_eq]
        exact named
      obtain ⟨reachedLater, kept⟩ := elsewhere_keeps next inside (id_eq ▸ written)
      obtain rfl := event_unique (reaches_tidy reachedLater) member kept (same.trans id_eq.symm)
      have entries : event.entries = original.entries := by
        rw [← corrected_eq]
        rfl
      have counts : ∀ key, countingEntry event before.windows key = countingEntry original before.windows key := by
        intro key
        rw [← corrected_eq]
        rfl
      refine ⟨fun entry listed => ?_, ?_⟩
      · rw [entries] at listed
        exact ⟨recorded.present entry listed, (counts _).trans (counting_own recorded.apart listed)⟩
      · intro key entry counted has counting spend owned rated
        have share := @correction_share commercial _ _ spendMinorReduction _ _ tidy.distinct _ has _
          ((counts key).symm.trans counting) _ spend owned rated fits
        rw [corrected_eq] at share
        rw [shape]
        dsimp only at share
        refine ⟨share, fun whole => ?_⟩
        rwa [share_whole whole] at share

end Runs

section Sample

def memberSpend : ControlPolicy := ⟨1, .entity 7, .spendLimit "USD", 100000000000, none⟩

def memberWindow : WindowKey := ⟨memberSpend, ⟨0, none⟩⟩

def spentTen : ControlledEvent := ⟨0, .consume, 1, some 7, 43200000, 10, [⟨memberWindow, 10000000000⟩], []⟩

def tierReached : ControlledEvent := ⟨1, .consume, 1, some 7, 43200000, 2, [⟨memberWindow, -8000000000⟩], []⟩

def spentFive : ControlledEvent := ⟨2, .consume, 1, some 7, 43200000, 1, [⟨memberWindow, 5000000000⟩], []⟩

def afterTen : ControlledAccount := ⟨[⟨memberWindow, 10000000000, 0⟩], [], [spentTen]⟩

def afterTier : ControlledAccount := ⟨[⟨memberWindow, 2000000000, 0⟩], [], [spentTen, tierReached]⟩

def tenCorrected (moved : List ControlEntry) : ControlledEvent := { spentTen with corrections := [⟨10, moved⟩] }

/-- One of the two units corrected, which raised the charge again. -/
def tierCorrected : ControlledEvent := { tierReached with corrections := [⟨1, [⟨memberWindow, 8000000000⟩]⟩] }

def emptied : ControlledAccount :=
  ⟨[⟨memberWindow, 0, 0⟩], [], [tenCorrected [⟨memberWindow, -2000000000⟩], tierReached]⟩

def refilled : ControlledAccount :=
  ⟨[⟨memberWindow, 5000000000, 0⟩], [], [tenCorrected [⟨memberWindow, -2000000000⟩], tierReached, spentFive]⟩

private theorem afterTen_reached : Reachable afterTen :=
  .step .opened trivial (show (UsageWrite.consume 1 (some 7) ⟨10, 10, some "USD"⟩ true).apply (limits [memberSpend]) atNoon
    ⟨[], [], []⟩ = .ok afterTen by decide)

private theorem afterTier_reached : Reachable afterTier :=
  .step afterTen_reached trivial (show (UsageWrite.consume 1 (some 7) ⟨2, -8, some "USD"⟩ true).apply (limits [memberSpend]) atNoon
    afterTen = .ok afterTier by decide +kernel)

private theorem emptied_done :
    (UsageWrite.correct 0 10 10 (some "USD")).apply (limits [memberSpend]) atNoon afterTier = .ok emptied := by
  decide

end Sample

/-- The share is not kept by a correction that is rated in no currency, nor, where it is negative, by one of a charge that fell; and
what a correction could not take off an emptied window, later events show. -/
theorem share_exceeded :
    (∃ account, Reachable account ∧ ∃ event ∈ account.events, ∃ entry ∈ event.entries,
      entry.window.policy.kind = .spendLimit "USD" ∧ entry.window.policy.entity.isSome = true ∧ event.net = 0 ∧
      ¬ leftIn event entry entry.window ≤ entry.value * event.net / event.quantity ∧ consumedIn entry.window account.windows ≠ 0) ∧
    (∃ account, Reachable account ∧ ∃ event ∈ account.events, ∃ entry ∈ event.entries,
      entry.window.policy.kind = .spendLimit "USD" ∧ entry.window.policy.entity.isSome = true ∧ entry.value < 0 ∧
      ¬ leftIn event entry entry.window ≤ entry.value * event.net / event.quantity ∧ consumedIn entry.window account.windows ≠ 0) ∧
    ∃ before after later, Reachable before ∧
      (UsageWrite.correct 0 10 10 (some "USD")).apply (limits [memberSpend]) atNoon before = .ok after ∧
      Relation.ReflTransGen (WritesElsewhere 0) after later ∧ ∃ event ∈ later.events, ∃ entry ∈ event.entries, event.id = 0 ∧
      entry.window.policy.kind = .spendLimit "USD" ∧ entry.window.policy.entity.isSome = true ∧ event.net = 0 ∧
      ¬ leftIn event entry entry.window ≤ 0 ∧ consumedIn entry.window later.windows ≠ 0 := by
  refine ⟨?_, ?_, ?_⟩
  · have unrated : Reachable ⟨[⟨memberWindow, 10000000000, 0⟩], [], [tenCorrected []]⟩ :=
      .step afterTen_reached trivial (show (UsageWrite.correct 0 10 10 none).apply (limits [memberSpend]) atNoon afterTen =
        .ok ⟨[⟨memberWindow, 10000000000, 0⟩], [], [tenCorrected []]⟩ by decide)
    exact ⟨_, unrated, _, List.mem_cons_self, _, List.mem_cons_self, rfl, rfl, by decide, by decide, by decide⟩
  · have raised : Reachable ⟨[⟨memberWindow, 10000000000, 0⟩], [], [spentTen, tierCorrected]⟩ :=
      .step afterTier_reached trivial (show (UsageWrite.correct 1 1 (-8) (some "USD")).apply (limits [memberSpend]) atNoon afterTier =
        .ok ⟨[⟨memberWindow, 10000000000, 0⟩], [], [spentTen, tierCorrected]⟩ by decide)
    exact ⟨_, raised, tierCorrected, by decide, _, List.mem_cons_self, rfl, rfl, by decide, by decide, by decide⟩
  · have later : WritesElsewhere 0 emptied refilled :=
      ⟨limits [memberSpend], atNoon, .consume 1 (some 7) ⟨1, 5, some "USD"⟩ true, (by rintro ⟨⟩), by decide⟩
    exact ⟨afterTier, emptied, refilled, afterTier_reached, emptied_done, .single later, _, List.mem_cons_self, _, List.mem_cons_self, rfl,
      rfl, rfl, by decide, by decide, by decide⟩

/-- Half of ten units corrected, at a charge that falls by four. -/
theorem entity_spend_share_half : ∃ after, (UsageWrite.correct 0 5 4 (some "USD")).apply (limits [memberSpend]) atNoon afterTen = .ok after ∧
    ∀ event ∈ after.events, event.id = 0 → ∀ entry, countingEntry event afterTen.windows memberWindow = some entry →
      leftIn event entry memberWindow ≤ uncorrectedShare event entry ∨ consumedIn memberWindow after.windows = 0 := by
  have done : (UsageWrite.correct 0 5 4 (some "USD")).apply (limits [memberSpend]) atNoon afterTen =
      .ok ⟨[⟨memberWindow, 5000000000, 0⟩], [], [{ spentTen with corrections := [⟨5, [⟨memberWindow, -5000000000⟩]⟩] }]⟩ := by
    decide
  refine ⟨_, done, fun event member same entry counting => ?_⟩
  have shares := (entity_spend_share.2 _ _ _ _ _ _ _ _ afterTen_reached done).2 _ .refl event member same
  exact (shares.2 memberWindow entry "USD" List.mem_cons_self counting rfl rfl rfl).1

end Quotum.Controls
