import Quotum.Proofs.ControlledUsage

/-! Which of the limits that act on a confirmation count the confirmed quantity. -/

namespace Quotum.Controls
open General Cadences Metering

/-- What the next write finds counted in a window, once it opened it. -/
def countedAt (commercial : Commercial) (key : WindowKey) (account : ControlledAccount) : Nat :=
  consumedIn key (openWindow commercial account.events key account.windows)

/-- A confirmed event is counted in a limit's current window, or in a window of the limit's cadence that held it. -/
def CountedIn (commercial : Commercial) (clock : Clock) (reservation : ControlledReservation) (event : ControlledEvent)
    (before after : ControlledAccount) (policy : ControlPolicy) : Prop :=
  countedAt commercial (currentWindow clock.controlNow policy) before + event.quantity ≤
      countedAt commercial (currentWindow clock.controlNow policy) after ∨
    ∃ hold ∈ reservation.holds, hold.window.policy.identity = policy.identity ∧
      hold.window.policy.cadenceKey = policy.cadenceKey ∧
        consumedIn hold.window before.windows + event.quantity ≤ consumedIn hold.window after.windows

/-- A limit under whose kind, feature and scope a reservation holds something has a hold in its current window or in a
window of its cadence. -/
def Paired (now : Int) (holds : List ControlHold) (policy : ControlPolicy) : Prop :=
  (∃ hold ∈ holds, hold.window.policy.identity = policy.identity) →
    ∃ hold ∈ holds, hold.window.policy.identity = policy.identity ∧
      (hold.window.bounds = policy.windowBounds now ∨ hold.window.policy.cadenceKey = policy.cadenceKey)

/-- The next write opens the limit's current window from recorded usage that has the confirmation in it, and of which
no row counts more. -/
def Recounted (commercial : Commercial) (clock : Clock) (account : ControlledAccount) (policy : ControlPolicy) : Prop :=
  let key := currentWindow clock.controlNow policy
  (key.bounds.endAt = none ∨ ¬ Has key account.windows ∧ key.bounds.contains clock.recordedAt = true) ∧
    max (consumedIn key account.windows) (carriedControlConsumption key account.windows) ≤
      recordedControlConsumption commercial key account.windows account.events

def netOf (chosen : ControlledEvent → Bool) (events : List ControlledEvent) : Int :=
  ((events.filter chosen).map ControlledEvent.net).sum

section Sums
variable {events : List ControlledEvent} {event : ControlledEvent} {chosen other : ControlledEvent → Bool}

theorem netOf_append (chosen : ControlledEvent → Bool) (events : List ControlledEvent) (event : ControlledEvent) :
    netOf chosen (events ++ [event]) = netOf chosen events + if chosen event = true then event.net else 0 := by
  unfold netOf
  rw [List.filter_append, List.map_append, List.sum_append, List.filter_cons]
  split <;> simp

theorem netOf_nonneg (nets : ∀ event ∈ events, 0 ≤ event.net) (chosen : ControlledEvent → Bool) : 0 ≤ netOf chosen events := by
  apply List.sum_nonneg
  intro value member
  obtain ⟨event, inside, rfl⟩ := List.mem_map.mp member
  exact nets event (List.mem_filter.mp inside).1

/-- Fewer events have no more net usage. -/
theorem netOf_mono (nets : ∀ event ∈ events, 0 ≤ event.net)
    (fewer : ∀ event ∈ events, chosen event = true → other event = true) : netOf chosen events ≤ netOf other events := by
  have narrowed : events.filter chosen = (events.filter other).filter chosen := by
    rw [List.filter_filter]
    apply List.filter_congr
    intro event member
    cases shape : chosen event with
    | false => rfl
    | true => rw [fewer event member shape, Bool.true_and]
  unfold netOf
  rw [narrowed]
  apply List.Sublist.sum_le_sum (List.filter_sublist.map _)
  intro value member
  obtain ⟨event, inside, rfl⟩ := List.mem_map.mp member
  exact nets event (List.mem_filter.mp inside).1

private theorem netOf_sum (chosen : ControlledEvent → Bool) (events : List ControlledEvent) :
    netOf chosen events = (events.map fun event => if chosen event = true then event.net else 0).sum := by
  unfold netOf
  induction events with
  | nil => rfl
  | cons event rest ih =>
    rw [List.filter_cons, List.map_cons, List.sum_cons, ← ih]
    split <;> simp

theorem addCorrection_net (correction : UsageCorrection) (event : ControlledEvent) :
    (event.addCorrection correction).net = event.net - correction.quantity := by
  unfold ControlledEvent.net ControlledEvent.corrected ControlledEvent.addCorrection
  simp only [List.map_append, List.map_cons, List.map_nil, List.sum_append, List.sum_cons, List.sum_nil]
  push_cast
  omega

theorem netOf_corrected (distinct : (events.map ControlledEvent.id).Nodup) {original : ControlledEvent}
    (member : original ∈ events) (correction : UsageCorrection)
    (blind : chosen (original.addCorrection correction) = chosen original) :
    netOf chosen (updateAt ControlledEvent.id original.id (ControlledEvent.addCorrection correction) events) =
      netOf chosen events - if chosen original = true then (correction.quantity : Int) else 0 := by
  have moved := updateAt_sum distinct member (ControlledEvent.addCorrection correction)
    fun event => if chosen event = true then event.net else 0
  rw [blind, addCorrection_net] at moved
  rw [netOf_sum, netOf_sum]
  by_cases counts : chosen original = true
  · rw [if_pos counts, if_pos counts] at moved
    rw [if_pos counts]
    omega
  · rw [if_neg counts, if_neg counts] at moved
    rw [if_neg counts]
    omega

theorem netOf_congr (same : ∀ event ∈ events, chosen event = other event) : netOf chosen events = netOf other events := by
  unfold netOf
  rw [List.filter_congr same]

theorem le_netOf (nets : ∀ event ∈ events, 0 ≤ event.net) (member : event ∈ events)
    (inside : chosen event = true) : event.net ≤ netOf chosen events := by
  apply List.single_le_sum _ _ (List.mem_map_of_mem (List.mem_filter.mpr ⟨member, inside⟩))
  intro value listed
  obtain ⟨other, known, rfl⟩ := List.mem_map.mp listed
  exact nets other (List.mem_filter.mp known).1

end Sums

section Recorded
variable {commercial : Commercial} {events : List ControlledEvent} {other : WindowKey} {windows : List ControlWindow}

def countsAlways (commercial : Commercial) (key : WindowKey) (event : ControlledEvent) : Bool :=
  key.policy.kind == .usageLimit event.feature && (key.policy.entity.isNone || key.policy.entity == event.entity) &&
    commercial.covers key.policy event.entity

theorem recorded_endless (endless : other.bounds.endAt = none) :
    recordedControlConsumption commercial other windows events = (netOf (countsAlways commercial other) events).toNat := by
  unfold recordedControlConsumption
  rw [endless]
  rfl

theorem recorded_absent {ending : Int} (bounded : other.bounds.endAt = some ending) (absent : ¬ Has other windows) :
    recordedControlConsumption commercial other windows events = (netOf (countsEvent commercial other) events).toNat := by
  unfold recordedControlConsumption
  rw [bounded]
  simp only
  rw [if_neg fun present => absent (has_iff.mp present)]
  rfl

theorem recorded_present {ending : Int} (bounded : other.bounds.endAt = some ending) (present : Has other windows) :
    recordedControlConsumption commercial other windows events = 0 := by
  unfold recordedControlConsumption
  rw [bounded]
  simp only
  rw [if_pos (has_iff.mpr present)]

end Recorded

theorem identity_kind {policy other : ControlPolicy} (same : policy.identity = other.identity) : policy.kind = other.kind :=
  congrArg Prod.fst same

variable {feature : Nat}

section Entries
variable {input : ControlDelta} {windows : List ControlWindow}

theorem usage_delta {policy : ControlPolicy} (usage : policy.kind = .usageLimit feature) (field : String) :
    deltaFor input field policy = .ok input.usageDelta := by
  unfold deltaFor
  rw [usage]

theorem usage_applied {charge : Charge} {quantity : Nat} (usage : charge.key.policy.kind = .usageLimit feature)
    (delta : charge.delta = quantity) (positive : 0 < quantity) : appliedEntry charge = some ⟨charge.key, quantity⟩ := by
  unfold appliedEntry
  rw [usage, delta]
  have applied : (((charge.consumed : Int) + quantity).toNat : Int) - charge.consumed = quantity := by omega
  simp only [applied]
  rw [if_neg (by omega)]

theorem usage_confirmed {entry : ConfirmationGroup × Charge} (confirmed : Confirmed input windows entry)
    (usage : entry.1.window.policy.kind = .usageLimit feature) : entry.2.delta = input.usageDelta := by
  have moved := confirmed.delta
  rw [usage_delta usage] at moved
  exact (Except.ok.inj moved).symm

end Entries

section Confirmation
variable {commercial : Commercial} {clock : Clock} {account : ControlledAccount} {reservation : ControlledReservation}
  {amount : Amount} {settled : List (ConfirmationGroup × Charge)}

variable {policy : ControlPolicy}

theorem settles_settling (acting : policy ∈ confirmingControls commercial reservation amount)
    (settles : Settles clock.controlNow reservation.holds policy) : policy ∈ settlingControls commercial clock reservation amount := by
  refine List.mem_filter.mpr ⟨acting, ?_⟩
  rw [settles_iff.mpr settles]
  rfl

/-- A hold in a window of the limit's cadence that is not the current one is adopted by no limit. -/
private theorem elsewhere_unadopted (tidy : Tidy account) (found : reservation ∈ account.reservations) {hold : ControlHold}
    (inside : hold ∈ reservation.holds) (same : hold.window.policy.identity = policy.identity)
    (cadence : hold.window.policy.cadenceKey = policy.cadenceKey)
    (apart : ∀ hold ∈ reservation.holds, hold.window.policy.identity = policy.identity →
      hold.window.bounds ≠ policy.windowBounds clock.controlNow) (other : ControlPolicy) :
    hold ∉ adoptedHolds clock.controlNow reservation.holds other := by
  intro adopted
  obtain ⟨-, -, bounds⟩ := mem_adopted.mp adopted
  obtain ⟨placed, window⟩ := tidy.windows hold.window ((tidy.holds reservation found).2 hold inside)
  rw [windowBounds_cadence cadence] at window
  apply apart hold inside same
  cases shape : other.interval with
  | none =>
    have endless : (policy.windowBounds placed).endAt = none := by
      rw [← window, bounds, ControlPolicy.windowBounds, shape]
    rw [window]
    unfold ControlPolicy.windowBounds at endless ⊢
    cases shape : policy.interval with
    | none => rfl
    | some span =>
      rw [shape] at endless
      exact absurd endless (calendarWindow_ends span placed)
  | some span =>
    have contains := windowBounds_contains other (by simp [shape]) clock.controlNow
    rw [← bounds, window] at contains
    rw [window]
    exact (windowBounds_unique contains).symm

private theorem countedAt_max (tidy : Tidy account) (key : WindowKey) :
    countedAt commercial key account = max (consumedIn key account.windows)
      (max (carriedControlConsumption key account.windows)
        (recordedControlConsumption commercial key account.windows account.events)) := by
  unfold countedAt
  rw [open_consumed tidy.distinct, if_pos rfl]
  rfl

private theorem countedAt_row (tidy : Tidy account) (key : WindowKey) :
    consumedIn key account.windows ≤ countedAt commercial key account := by
  rw [countedAt_max tidy]
  exact le_max_left _ _

section Settled
variable (settlement : Settlement commercial clock account reservation amount settled) {entry : ConfirmationGroup × Charge}
include settlement

private theorem settled_group {group : ConfirmationGroup} (member : group ∈ confirmationGroups clock.controlNow reservation.holds
      (confirmingControls commercial reservation amount)) :
    ∃ entry ∈ settled, entry.1 = group := by
  rw [← settlement.groups] at member
  exact List.mem_map.mp member

theorem current_settled (acting : policy ∈ confirmingControls commercial reservation amount)
    (settles : Settles clock.controlNow reservation.holds policy) :
    ∃ entry ∈ settled, entry.2.key = currentWindow clock.controlNow policy := by
  obtain ⟨entry, member, group⟩ := settled_group settlement (mem_groups.mpr (.inl ⟨policy, acting, settles, rfl⟩))
  refine ⟨entry, member, ?_⟩
  rw [(settlement.confirmed entry member).key, group]

/-- A confirmation leaves the rows of windows it settles nothing in as they are. -/
theorem unsettled_row (tidy : Tidy account) {key : WindowKey} (unsettled : key ∉ settled.map fun entry => entry.2.key) :
    (Has key (account.confirmed commercial clock reservation amount settled).windows ↔ Has key account.windows) ∧
      consumedIn key (account.confirmed commercial clock reservation amount settled).windows =
        consumedIn key account.windows := by
  have settles := settled_groups (openWindows_distinct tidy.distinct _) (settlement.apart tidy) (settlement.present tidy)
  have others : ∀ policy ∈ settlingControls commercial clock reservation amount, key ≠ ⟨policy, policy.windowBounds clock.controlNow⟩ := by
    rintro policy listed rfl
    obtain ⟨acting, settling⟩ := List.mem_filter.mp listed
    obtain ⟨entry, member, same⟩ := current_settled settlement acting (settles_iff.mp (by simpa using settling))
    exact unsettled (List.mem_map.mpr ⟨entry, member, same⟩)
  constructor
  · refine (settles.has key).trans (openWindows_has.trans (or_iff_right ?_))
    rintro ⟨policy, listed, same⟩
    exact others policy listed same
  · exact (settles.others key unsettled).trans (openWindows_others tidy.distinct others)

theorem group_counts (tidy : Tidy account) (member : entry ∈ settled) (usage : entry.1.window.policy.kind = .usageLimit feature) :
    (⟨entry.1.window, amount.quantity⟩ : ControlEntry) ∈ settled.filterMap (fun entry => appliedEntry entry.2) ∧
      consumedIn entry.1.window account.windows + amount.quantity ≤
        consumedIn entry.1.window (settled.foldl settleGroup (openedFor commercial clock account reservation amount)) := by
  have confirmed := settlement.confirmed entry member
  have delta : entry.2.delta = amount.quantity := usage_confirmed confirmed usage
  have key := confirmed.key
  constructor
  · apply List.mem_filterMap.mpr
    refine ⟨entry, member, ?_⟩
    rw [← key] at usage ⊢
    exact usage_applied usage delta settlement.positive
  · have settles := settled_groups (openWindows_distinct tidy.distinct _) (settlement.apart tidy) (settlement.present tidy)
    have moved := settles.charged entry member
    have grown : consumedIn entry.2.key account.windows ≤
        consumedIn entry.2.key (openedFor commercial clock account reservation amount) :=
      openWindows_grows tidy.distinct _ _
    rw [delta] at moved
    unfold openedFor at grown ⊢
    rw [← key, moved]
    omega

theorem entry_group {recorded : ControlEntry} (member : recorded ∈ settled.filterMap (fun entry => appliedEntry entry.2)) :
    ∃ entry ∈ settled, entry.1.window = recorded.window := by
  obtain ⟨entry, inside, applied⟩ := List.mem_filterMap.mp member
  refine ⟨entry, inside, ?_⟩
  rw [← (settlement.confirmed entry inside).key]
  unfold appliedEntry at applied
  simp only at applied
  split at applied
  · split at applied
    · cases applied
    · cases applied
      rfl
  · cases applied
    rfl

/-- A paired limit that leaves a confirmation to the windows that hold it finds one of its cadence among them. -/
theorem elsewhere_held (tidy : Tidy account) (paired : Paired clock.controlNow reservation.holds policy)
    (elsewhere : ¬ Settles clock.controlNow reservation.holds policy) :
    ∃ hold ∈ reservation.holds, hold.window.policy.identity = policy.identity ∧
      hold.window.policy.cadenceKey = policy.cadenceKey ∧ hold.window.bounds ≠ policy.windowBounds clock.controlNow ∧
        ∃ entry ∈ settled, entry.1.window = hold.window := by
  unfold Settles at elsewhere
  simp only [not_or, not_exists, not_and, not_forall] at elsewhere
  obtain ⟨apart, known, inside, same⟩ := elsewhere
  obtain ⟨hold, placed, identity, here | cadence⟩ := paired ⟨known, inside, not_not.mp same⟩
  · exact absurd here (apart hold placed identity)
  · obtain ⟨entry, member, group⟩ := settled_group settlement (mem_groups.mpr (.inr ⟨hold, placed,
      fun other _ _ => elsewhere_unadopted tidy settlement.found placed identity cadence apart other, rfl⟩))
    exact ⟨hold, placed, identity, cadence, apart hold placed identity, entry, member, congrArg ConfirmationGroup.window group⟩

/-- A settlement in the span of the limit's current window pairs the limit. -/
private theorem spanned_paired (member : entry ∈ settled)
    (span : entry.1.window.identity = (currentWindow clock.controlNow policy).identity) :
    Paired clock.controlNow reservation.holds policy := by
  have group := settlement.groups ▸ List.mem_map_of_mem (f := Prod.fst) member
  have identity : entry.1.window.policy.identity = policy.identity := congrArg Prod.fst span
  have bounds : entry.1.window.bounds = policy.windowBounds clock.controlNow := congrArg Prod.snd span
  rintro ⟨known, inside, same⟩
  rcases mem_groups.mp group with ⟨other, -, settles, shape⟩ | ⟨hold, placed, -, shape⟩
  · rw [shape] at identity bounds
    rcases settles with ⟨hold, placed, ofOther, at_⟩ | none
    · exact ⟨hold, placed, ofOther.trans identity, .inl (at_.trans bounds)⟩
    · exact absurd (same.trans identity.symm) (none known inside)
  · rw [shape] at identity bounds
    exact ⟨hold, placed, identity, .inl bounds⟩

private theorem cadence_paired (member : entry ∈ settled) (identity : entry.1.window.policy.identity = policy.identity)
    (cadence : entry.1.window.policy.cadenceKey = policy.cadenceKey) : Paired clock.controlNow reservation.holds policy := by
  have group := settlement.groups ▸ List.mem_map_of_mem (f := Prod.fst) member
  rcases mem_groups.mp group with ⟨other, -, -, shape⟩ | ⟨hold, placed, -, shape⟩
  · apply spanned_paired settlement member
    rw [shape] at identity cadence ⊢
    exact Prod.ext identity (windowBounds_cadence cadence clock.controlNow)
  · rw [shape] at identity cadence
    exact fun _ => ⟨hold, placed, identity, .inr cadence⟩

/-- A confirmation that is not paired with a limit leaves every row of the limit's current span as it is. -/
private theorem unpaired_row (tidy : Tidy account) (unpaired : ¬ Paired clock.controlNow reservation.holds policy) {key : WindowKey}
    (span : key.identity = (currentWindow clock.controlNow policy).identity) :
    (Has key (account.confirmed commercial clock reservation amount settled).windows ↔ Has key account.windows) ∧
      consumedIn key (account.confirmed commercial clock reservation amount settled).windows =
        consumedIn key account.windows := by
  apply unsettled_row settlement tidy
  intro listed
  obtain ⟨entry, member, rfl⟩ := List.mem_map.mp listed
  rw [(settlement.confirmed entry member).key] at span
  exact unpaired (spanned_paired settlement member span)

section Unpaired
variable (tidy : Tidy account) (nets : ∀ event ∈ account.events, 0 ≤ event.net) {key : WindowKey}
  (current : key = currentWindow clock.controlNow policy)
  (acting : policy ∈ confirmingControls commercial reservation amount) (usage : policy.kind = .usageLimit reservation.feature)
  (unpaired : ¬ Paired clock.controlNow reservation.holds policy)
include tidy nets current acting usage unpaired

/-- What a window of an unpaired limit reads from recorded usage grows by a confirmation it reads again. -/
private theorem unpaired_recorded :
    recordedControlConsumption commercial key
        (account.confirmed commercial clock reservation amount settled).windows
        (account.confirmed commercial clock reservation amount settled).events =
      recordedControlConsumption commercial key account.windows account.events +
        if key.bounds.endAt = none ∨ ¬ Has key account.windows ∧ key.bounds.contains clock.recordedAt = true
          then amount.quantity else 0 := by
  obtain ⟨has, -⟩ := unpaired_row settlement tidy unpaired (congrArg WindowKey.identity current)
  have ofPolicy : key.policy = policy := by rw [current]; rfl
  obtain ⟨-, covers, scope⟩ := inForce_iff.mp (acting_inForce acting)
  dsimp only [Amount.delta] at covers scope
  rw [recorded_same has]
  dsimp only [ControlledAccount.confirmed, ControlledAccount.record]
  generalize entries : settled.filterMap (fun entry => appliedEntry entry.2) = charged
  cases ending : key.bounds.endAt with
  | none =>
    rw [recorded_endless ending, recorded_endless ending, netOf_append, if_pos, if_pos (Or.inl rfl)]
    · have nonneg := netOf_nonneg nets (countsAlways commercial key)
      simp only [ControlledEvent.net, ControlledEvent.corrected, List.map_nil, List.sum_nil]
      omega
    · unfold countsAlways
      simp [ofPolicy, usage, scope, covers]
  | some last =>
    by_cases present : Has key account.windows
    · rw [recorded_present ending present, recorded_present ending present, if_neg]
      simp [present]
    · have unmoved : chargedToEarlierWindow policy ⟨account.events.length, .confirm, reservation.feature, reservation.entity,
          clock.recordedAt, amount.quantity, charged, []⟩ = false := by
        unfold chargedToEarlierWindow
        rw [Bool.and_eq_false_iff, List.any_eq_false]
        right
        intro entry member
        simp only [Bool.and_eq_true, beq_iff_eq]
        rintro ⟨⟨⟨sameKind, sameEntity⟩, cadence⟩, -⟩
        rw [← entries] at member
        obtain ⟨group, inside, window⟩ := entry_group settlement member
        rw [← window] at sameKind sameEntity cadence
        exact unpaired (cadence_paired settlement inside (Prod.ext sameKind sameEntity) cadence)
      have counts : countsEvent commercial key ⟨account.events.length, .confirm,
          reservation.feature, reservation.entity, clock.recordedAt, amount.quantity, charged, []⟩ =
            key.bounds.contains clock.recordedAt := by
        unfold countsEvent
        simp [ofPolicy, usage, scope, covers, unmoved]
      have nonneg := netOf_nonneg nets (countsEvent commercial key)
      rw [recorded_absent ending present, recorded_absent ending present, netOf_append, counts]
      simp only [reduceCtorEq, present, not_false_eq_true, true_and, false_or, ControlledEvent.net, ControlledEvent.corrected,
        List.map_nil, List.sum_nil]
      split <;> omega

private theorem unpaired_counts (tidied : Tidy (account.confirmed commercial clock reservation amount settled)) :
    countedAt commercial key account + amount.quantity ≤
        countedAt commercial key
          (account.confirmed commercial clock reservation amount settled) ↔
      Recounted commercial clock account policy := by
  have rows := fun (other : WindowKey) (span : other.identity = key.identity) =>
    unpaired_row settlement tidy unpaired (span.trans (congrArg WindowKey.identity current))
  have carried : carriedControlConsumption key
      (account.confirmed commercial clock reservation amount settled).windows =
        carriedControlConsumption key account.windows := by
    apply le_antisymm
    · apply carried_mono tidied.distinct tidy.distinct
      exact fun key has span => ⟨(rows key span).1.mp has, le_of_eq (rows key span).2⟩
    · apply carried_mono tidy.distinct tidied.distinct
      exact fun key has span => ⟨(rows key span).1.mpr has, ge_of_eq (rows key span).2⟩
  have positive := settlement.positive
  rw [countedAt_max tidy, countedAt_max tidied, carried, (rows key rfl).2,
    unpaired_recorded settlement tidy nets current acting usage unpaired]
  unfold Recounted
  rw [← current]
  simp only
  split
  · next again =>
    rw [and_iff_right again]
    omega
  · next never =>
    constructor
    · intro _
      omega
    · exact fun both => absurd both.1 never

end Unpaired

/-- A settlement in the limit's current window counts on from what the window is opened at. -/
private theorem settled_counts (tidy : Tidy account) (tidied : Tidy (account.confirmed commercial clock reservation amount settled))
    (acting : policy ∈ confirmingControls commercial reservation amount)
    (usage : policy.kind = .usageLimit feature) (settles : Settles clock.controlNow reservation.holds policy) :
    countedAt commercial (currentWindow clock.controlNow policy) account + amount.quantity ≤
      countedAt commercial (currentWindow clock.controlNow policy)
        (account.confirmed commercial clock reservation amount settled) := by
  have starts := @openWindows_sublist commercial account.events clock.controlNow _ _ _
    (List.singleton_sublist.mpr (settles_settling acting settles)) (acting_nodup.filter _) tidy.distinct
    (currentWindow clock.controlNow policy)
  obtain ⟨entry, member, same⟩ := current_settled settlement acting settles
  have moved := (settled_groups (openWindows_distinct tidy.distinct _) (settlement.apart tidy)
    (settlement.present tidy)).charged entry member
  have confirmed := settlement.confirmed entry member
  have delta : entry.2.delta = amount.quantity :=
    usage_confirmed confirmed (by rw [← confirmed.key, same]; exact usage)
  rw [delta, same] at moved
  have row := @countedAt_row commercial _ tidied (currentWindow clock.controlNow policy)
  unfold countedAt at *
  unfold openWindows currentWindow at *
  dsimp only [List.foldl_cons, List.foldl_nil, ControlledAccount.confirmed, openedFor] at starts row moved ⊢
  unfold openWindows at *
  omega

end Settled

end Confirmation

section Nets
variable {commercial : Commercial} {clock : Clock} {account next : ControlledAccount}

private theorem nets_recorded (nets : ∀ event ∈ account.events, 0 ≤ event.net) (clock : Clock) (operation : UsageOperation)
    (feature : Nat) (entity : Option Nat) (quantity : Nat) (entries : List ControlEntry) :
    ∀ event ∈ account.record operation feature entity clock quantity entries, 0 ≤ event.net := by
  intro event member
  rcases List.mem_append.mp member with old | new
  · exact nets event old
  · rw [List.mem_singleton.mp new]
    simp [ControlledEvent.net, ControlledEvent.corrected]

theorem nets_step (tidy : Tidy account) (nets : ∀ event ∈ account.events, 0 ≤ event.net) {write : UsageWrite}
    (done : write.apply commercial clock account = .ok next) : ∀ event ∈ next.events, 0 ≤ event.net := by
  cases write with
  | consume feature entity amount admitted =>
    rcases consume_inv tidy.distinct done with rfl | ⟨policies, -, rfl⟩ | ⟨policies, charges, -, -, rfl⟩
    · exact nets
    · exact nets
    · exact nets_recorded nets clock _ _ _ _ _
  | reserve feature entity amount expiresIn admitted =>
    rcases reserve_inv tidy.distinct done with rfl | ⟨policies, -, rfl⟩ | ⟨policies, charges, -, -, rfl⟩
    all_goals exact nets
  | confirm id amount admitted =>
    rcases confirm_inv done with rfl | ⟨_, _, _, rfl | ⟨-, rfl⟩⟩ | ⟨reservation, settled, -, -, rfl⟩
    · exact nets
    · exact nets
    · exact nets
    · exact nets_recorded nets clock _ _ _ _ _
  | release id =>
    rcases release_inv done with rfl | ⟨_, _, _, _, _, rfl⟩
    all_goals exact nets
  | expire =>
    cases done
    unfold expireUsage
    generalize account.reservations.filter _ = overdue
    induction overdue generalizing account with
    | nil => exact nets
    | cons reservation rest ih => exact ih (tidy_closed tidy reservation .expired) nets
  | correct id quantity spendMinorReduction currency =>
    obtain ⟨original, member, -, -, fits, rfl⟩ := correct_inv done
    intro event inside
    rcases mem_updateAt.mp inside with ⟨old, known, ⟨same, rfl⟩ | ⟨-, rfl⟩⟩
    · have one : old = original := List.inj_on_of_nodup_map tidy.eventIds known member same
      subst one
      rw [addCorrection_net]
      simp only
      omega
    · exact nets _ known

theorem reaches_nets {may : Commercial → Clock → UsageWrite → ControlledAccount → Prop} (reached : Reaches may account) :
    ∀ event ∈ account.events, 0 ≤ event.net := by
  induction reached with
  | opened => simp
  | step reached _ done ih => exact nets_step (reaches_tidy reached) ih done

end Nets

section Stacked

def dailyLimit : ControlPolicy := ⟨1, .account, .usageLimit 1, 100, some ⟨.day, 1, by decide⟩⟩

def limits (policies : List ControlPolicy) : Commercial := ⟨policies, fun _ _ => true, false⟩

def atNoon : Clock := ⟨43200000, 43200000⟩

def units (quantity : Nat) : Amount := ⟨quantity, 0, none⟩

def today : WindowKey := ⟨dailyLimit, ⟨0, some 86400000⟩⟩

def fiveHeld : ControlledReservation := ⟨0, 1, none, 5, none, 46800000, .active, [⟨today, 5⟩]⟩

def heldDaily : ControlledAccount := ⟨[⟨today, 0, 5⟩], [fiveHeld], []⟩

private theorem heldDaily_reached : Reaches (fun _ _ _ _ => True) heldDaily :=
  .step .opened trivial (show (UsageWrite.reserve 1 none (units 5) 3600000 true).apply (limits [dailyLimit]) atNoon
    ⟨[], [], []⟩ = .ok heldDaily by decide)

/-- The daily limit of a plan, and the monthly one of an add-on plan. -/
def planDaily : ControlPolicy := ⟨1, .planDefault, .usageLimit 1, 100, some ⟨.day, 1, Nat.one_pos⟩⟩

def addonMonthly : ControlPolicy := ⟨2, .planDefault, .usageLimit 1, 1000, some ⟨.month, 1, Nat.one_pos⟩⟩

def todayPlan : WindowKey := ⟨planDaily, ⟨0, some 86400000⟩⟩

def thisMonth : WindowKey := ⟨addonMonthly, ⟨0, some 2678400000⟩⟩

def heldUnderPlan : ControlledReservation := { fiveHeld with holds := [⟨todayPlan, 5⟩] }

def oneConsumed : ControlledEvent := ⟨0, .consume, 1, none, 43200000, 1, [⟨todayPlan, 1⟩, ⟨thisMonth, 1⟩], []⟩

def stackedMonthly : ControlledAccount := ⟨[⟨todayPlan, 1, 5⟩, ⟨thisMonth, 1, 0⟩], [heldUnderPlan], [oneConsumed]⟩

def fiveConfirmed : ControlledEvent := ⟨1, .confirm, 1, none, 43200000, 5, [⟨todayPlan, 5⟩], []⟩

def settledDaily : ControlledAccount :=
  ⟨[⟨todayPlan, 6, 0⟩, ⟨thisMonth, 1, 0⟩], [{ heldUnderPlan with status := .confirmed, confirmedQuantity := some 5 }],
    [oneConsumed, fiveConfirmed]⟩

private theorem stackedMonthly_reached : Reaches (fun _ _ _ _ => True) stackedMonthly := by
  have held : Reaches (fun _ _ _ _ => True) ⟨[⟨todayPlan, 0, 5⟩], [heldUnderPlan], []⟩ :=
    .step .opened trivial (show (UsageWrite.reserve 1 none (units 5) 3600000 true).apply (limits [planDaily]) atNoon
      ⟨[], [], []⟩ = .ok ⟨[⟨todayPlan, 0, 5⟩], [heldUnderPlan], []⟩ by decide)
  exact .step held trivial (show (UsageWrite.consume 1 none (units 1) true).apply (limits [planDaily, addonMonthly]) atNoon
    ⟨[⟨todayPlan, 0, 5⟩], [heldUnderPlan], []⟩ = .ok stackedMonthly by decide)

end Stacked

end Quotum.Controls
