import Quotum.Proofs.Confirmations

/-! With fixed usage limits, what a window counts and holds never passes its limit. -/

namespace Quotum.Controls
open General Cadences Metering

variable {feature : Nat} {amount : Amount} {input : ControlDelta} {event : ControlledEvent} {policies : List ControlPolicy}
   {charges : List Charge} {reservation : ControlledReservation}

def Fixed (commercial : Commercial) : Commercial → Clock → UsageWrite → ControlledAccount → Prop :=
  fun used _ _ _ => used = commercial

def Counts (key : WindowKey) (event : ControlledEvent) : Bool :=
  event.entries.any fun entry => entry.window == key

def chargeOf (key : WindowKey) (event : ControlledEvent) : Int :=
  if Counts key event then event.net else 0

def chargedOn (key : WindowKey) (events : List ControlledEvent) : Int :=
  (events.map (chargeOf key)).sum

def activeHoldOf (key : WindowKey) (reservation : ControlledReservation) : Nat :=
  if reservation.status = .active then holdsOn key reservation.holds else 0

def activeHoldsOn (key : WindowKey) (reservations : List ControlledReservation) : Nat :=
  (reservations.map (activeHoldOf key)).sum

/-- Whatever the windows of some limits open at, their own count, the one of another limit of the same span or the usage
recorded in it, leaves room within the limits for what they hold. -/
def OpensWithin (commercial : Commercial) (clock : Clock) (account : ControlledAccount) (policies : List ControlPolicy) : Prop :=
  ∀ policy ∈ policies, ∀ feature, policy.kind = .usageLimit feature →
    consumedIn (currentWindow clock.controlNow policy)
        (openWindows commercial account.events clock.controlNow policies account.windows) +
      heldIn (currentWindow clock.controlNow policy) account.windows ≤ policy.limitValue

/-- No hold of a usage limit's window is settled by two limits whose windows coincide. -/
def AdoptedOnce (now : Int) (holds : List ControlHold) (active : List ControlPolicy) : Prop :=
  ∀ hold ∈ holds, ∀ feature, hold.window.policy.kind = .usageLimit feature → ∀ policy ∈ active, ∀ other ∈ active,
    hold ∈ adoptedHolds now holds policy → hold ∈ adoptedHolds now holds other → policy = other

/-- A correction that lowers a window its event was not charged to finds the corrected quantity counted there, beside
all that was charged to the window. -/
def LowersCounted (commercial : Commercial) (account : ControlledAccount) (event : ControlledEvent) (quantity : Nat)
    (spendMinorReduction : Int) (currency : Option String) : Prop :=
  ∀ window ∈ account.windows, ∀ feature, window.key.policy.kind = .usageLimit feature → Counts window.key event = false →
    0 < reductionIn commercial event quantity spendMinorReduction currency account.windows window.key →
      chargedOn window.key account.events + quantity ≤ window.consumedValue

/-- No limit takes over a count it has no room for, frees a hold twice, or is lowered for usage it never counted. -/
structure Spares (commercial : Commercial) (clock : Clock) (write : UsageWrite) (account : ControlledAccount) : Prop where
  consumes : ∀ feature entity amount, write = .consume feature entity amount true →
    OpensWithin commercial clock account (actingControls commercial (amount.delta feature entity))
  reserves : ∀ feature entity amount expiresIn, write = .reserve feature entity amount expiresIn true →
    OpensWithin commercial clock account (actingControls commercial (amount.delta feature entity))
  confirms : ∀ reservation ∈ account.reservations, ∀ amount, write = .confirm reservation.id amount true →
    reservation.status = .active → clock.controlNow < reservation.expiresAt →
      OpensWithin commercial clock account (settlingControls commercial clock reservation amount) ∧
        AdoptedOnce clock.controlNow reservation.holds
          (confirmingControls commercial reservation amount)
  corrects : ∀ event ∈ account.events, ∀ quantity spendMinorReduction currency,
    write = .correct event.id quantity spendMinorReduction currency → (quantity : Int) ≤ event.net →
      LowersCounted commercial account event quantity spendMinorReduction currency

/-- The windows of the usage limits count at least what is charged to them and hold what active reservations hold,
within their limits. -/
structure Accounted (account : ControlledAccount) : Prop where
  counted : ∀ key feature, key.policy.kind = .usageLimit feature →
    chargedOn key account.events ≤ (consumedIn key account.windows : Int)
  held : ∀ key feature, key.policy.kind = .usageLimit feature →
    heldIn key account.windows = activeHoldsOn key account.reservations
  within : ∀ key feature, key.policy.kind = .usageLimit feature →
    consumedIn key account.windows + heldIn key account.windows ≤ key.policy.limitValue

section Recorded
variable {events : List ControlledEvent} {key : WindowKey}

private theorem chargeOf_nonneg (net : 0 ≤ event.net) (key : WindowKey) : 0 ≤ chargeOf key event := by
  unfold chargeOf
  split
  · exact net
  · exact le_refl _

private theorem le_charged (nets : ∀ event ∈ events, 0 ≤ event.net) (member : event ∈ events)
    (counts : Counts key event = true) : event.net ≤ chargedOn key events := by
  have listed : chargeOf key event = event.net := by
    unfold chargeOf
    rw [if_pos counts]
  rw [← listed]
  unfold chargedOn
  apply List.single_le_sum _ _ (List.mem_map_of_mem member)
  intro value inside
  obtain ⟨other, known, rfl⟩ := List.mem_map.mp inside
  exact chargeOf_nonneg (nets other known) key

end Recorded

section Steps
variable {commercial : Commercial} {clock : Clock} {account : ControlledAccount} {spendMinorReduction : Int}
  {currency : Option String} {key : WindowKey}

private theorem opened_accounted (tidy : Tidy account) (accounted : Accounted account) {all : List ControlPolicy}
    (different : all.Nodup) (within : policies.Sublist all) (spares : OpensWithin commercial clock account all) :
    Accounted (account.opened commercial clock policies) := by
  refine ⟨?_, ?_, ?_⟩
  · intro key feature usage
    have before := accounted.counted key feature usage
    have grown : consumedIn key account.windows ≤
        consumedIn key (openWindows commercial account.events clock.controlNow policies account.windows) :=
      openWindows_grows tidy.distinct policies key
    simp only
    omega
  · intro key feature usage
    simp only
    rw [openWindows_held]
    exact accounted.held key feature usage
  · intro key feature usage
    simp only
    rw [openWindows_held]
    by_cases opened : ∃ policy ∈ policies, key = currentWindow clock.controlNow policy
    · obtain ⟨policy, member, rfl⟩ := opened
      have room := spares policy (within.subset member) feature usage
      have fewer : consumedIn (currentWindow clock.controlNow policy)
          (openWindows commercial account.events clock.controlNow policies account.windows) ≤
            consumedIn (currentWindow clock.controlNow policy)
              (openWindows commercial account.events clock.controlNow all account.windows) :=
        openWindows_sublist within different tidy.distinct _
      unfold currentWindow at *
      dsimp only
      omega
    · rw [openWindows_others tidy.distinct fun policy member same => opened ⟨policy, member, same⟩]
      exact accounted.within key feature usage

theorem applied_counts {charges : List Charge} {quantity : Nat} (positive : 0 < quantity)
    (whole : ∀ charge ∈ charges, ∀ feature, charge.key.policy.kind = .usageLimit feature → charge.delta = quantity)
    {feature : Nat} (usage : key.policy.kind = .usageLimit feature) :
    (∃ entry ∈ charges.filterMap appliedEntry, entry.window = key) ↔ key ∈ charges.map Charge.key := by
  constructor
  · rintro ⟨entry, member, rfl⟩
    obtain ⟨charge, made, applied⟩ := List.mem_filterMap.mp member
    apply List.mem_map.mpr
    refine ⟨charge, made, ?_⟩
    unfold appliedEntry at applied
    simp only at applied
    split at applied
    · split at applied
      · cases applied
      · cases applied
        rfl
    · cases applied
      rfl
  · intro listed
    obtain ⟨charge, made, rfl⟩ := List.mem_map.mp listed
    exact ⟨_, List.mem_filterMap.mpr ⟨charge, made, usage_applied usage (whole charge made feature usage) positive⟩, rfl⟩

private theorem charged_record (account : ControlledAccount) (operation : UsageOperation) (feature : Nat) (entity : Option Nat)
    (quantity : Nat) (entries : List ControlEntry) (key : WindowKey) :
    chargedOn key (account.record operation feature entity clock quantity entries) = chargedOn key account.events +
      if (∃ entry ∈ entries, entry.window = key) then (quantity : Int) else 0 := by
  unfold chargedOn ControlledAccount.record
  rw [List.map_append, List.sum_append, List.map_cons, List.map_nil, List.sum_cons, List.sum_nil, add_zero]
  congr 1
  unfold chargeOf Counts
  simp only [List.any_eq_true, beq_iff_eq, ControlledEvent.net, ControlledEvent.corrected, List.map_nil, List.sum_nil,
    Nat.cast_zero, sub_zero]

theorem usage_admitted {windows : List ControlWindow} {charge : Charge}
    (admitted : Admitted input windows charge) (usage : charge.key.policy.kind = .usageLimit feature) :
    charge.delta = input.usageDelta := by
  have moved := admitted.delta
  rw [usage_delta usage] at moved
  exact (Except.ok.inj moved).symm

private theorem charged_windows (charged : Charged commercial clock account input policies charges) :
    key ∈ charges.map Charge.key ↔ ∃ policy ∈ policies, key = currentWindow clock.controlNow policy := by
  rw [charged.keys, List.mem_map]
  simp only [eq_comm]

/-- A charge that its window admitted leaves the window within its limit. -/
private theorem charge_within (tidy : Tidy account) (charged : Charged commercial clock account input policies charges)
    {charge : Charge} (made : charge ∈ charges) (usage : charge.key.policy.kind = .usageLimit feature)
    (positive : 0 < input.usageDelta) :
    consumedIn charge.key (openWindows commercial account.events clock.controlNow policies account.windows) +
      input.usageDelta + heldIn charge.key account.windows ≤ charge.key.policy.limitValue := by
  have admitted := charged.admitted charge made
  have delta := usage_admitted admitted usage
  have fits := admitted.fits (by omega)
  have held := held_le_identity (@openWindows_distinct commercial account.events clock.controlNow _ tidy.distinct policies)
    charge.key
  rw [openWindows_held] at held
  rw [delta, admitted.consumed] at fits
  omega

private theorem consume_accounted (tidy : Tidy account) (accounted : Accounted account) {entity : Option Nat}
    (positive : 0 < amount.quantity)
    (charged : Charged commercial clock account (amount.delta feature entity) policies charges) :
    Accounted (account.consumed commercial clock feature entity amount policies charges) := by
  have counted := counted_charges (openWindows_distinct tidy.distinct policies) charged.apart
    fun charge member => (charged.admitted charge member).has
  have whole : ∀ charge ∈ charges, ∀ feature, charge.key.policy.kind = .usageLimit feature → charge.delta = amount.quantity :=
    fun charge member _ usage => usage_admitted (charged.admitted charge member) usage
  have moved : ∀ key feature, key.policy.kind = .usageLimit feature → key ∈ charges.map Charge.key →
      consumedIn key (account.consumed commercial clock feature entity amount policies charges).windows =
        consumedIn key (openWindows commercial account.events clock.controlNow policies account.windows) + amount.quantity := by
    intro key feature usage listed
    obtain ⟨charge, made, rfl⟩ := List.mem_map.mp listed
    have here := counted.charged charge made
    rw [whole charge made feature usage] at here
    dsimp only [ControlledAccount.consumed]
    omega
  have others : ∀ key, key ∉ charges.map Charge.key →
      consumedIn key (account.consumed commercial clock feature entity amount policies charges).windows =
        consumedIn key account.windows := by
    intro key unlisted
    refine (counted.others key unlisted).trans (openWindows_others tidy.distinct ?_)
    exact fun policy member same => unlisted ((charged_windows charged).mpr ⟨policy, member, same⟩)
  refine ⟨?_, ?_, ?_⟩
  · intro key used usage
    have before := accounted.counted key used usage
    have grown : consumedIn key account.windows ≤
        consumedIn key (openWindows commercial account.events clock.controlNow policies account.windows) :=
      openWindows_grows tidy.distinct policies key
    by_cases listed : key ∈ charges.map Charge.key
    · rw [moved key used usage listed]
      dsimp only [ControlledAccount.consumed]
      rw [charged_record, if_pos ((applied_counts positive whole usage).mpr listed)]
      push_cast
      omega
    · rw [others key listed]
      dsimp only [ControlledAccount.consumed]
      rw [charged_record, if_neg fun recorded => listed ((applied_counts positive whole usage).mp recorded), add_zero]
      exact before
  · intro key used usage
    dsimp only [ControlledAccount.consumed]
    rw [counted.held, openWindows_held]
    exact accounted.held key used usage
  · intro key used usage
    have held : heldIn key (account.consumed commercial clock feature entity amount policies charges).windows =
        heldIn key account.windows := (counted.held key).trans (openWindows_held policies key)
    rw [held]
    by_cases listed : key ∈ charges.map Charge.key
    · rw [moved key used usage listed]
      obtain ⟨charge, made, rfl⟩ := List.mem_map.mp listed
      exact charge_within tidy charged made usage positive
    · rw [others key listed]
      exact accounted.within key used usage

private theorem active_append (key : WindowKey) (reservations : List ControlledReservation) (reservation : ControlledReservation) :
    activeHoldsOn key (reservations ++ [reservation]) = activeHoldsOn key reservations + activeHoldOf key reservation := by
  unfold activeHoldsOn
  simp

private theorem reserve_accounted (tidy : Tidy account) (accounted : Accounted account) {entity : Option Nat}
    (positive : 0 < amount.quantity)
    (charged : Charged commercial clock account (amount.delta feature entity) policies charges) (id : Nat) (expiresAt : Int) :
    Accounted (account.reserved commercial clock (heldReservation id feature entity amount expiresAt charges) policies
      charges) := by
  obtain ⟨-, consumed, -⟩ := holdCharges_keep charges
    (openWindows commercial account.events clock.controlNow policies account.windows)
  have held := holdCharges_held (openWindows_distinct tidy.distinct policies)
    fun charge member => (charged.admitted charge member).has
  have placed : ∀ key, activeHoldOf key (heldReservation id feature entity amount expiresAt charges) =
      holdingOn key charges := by
    intro key
    unfold activeHoldOf holdsOn holdingOn totalAt
    rw [if_pos rfl, List.filter_map, List.map_map]
    rfl
  refine ⟨?_, ?_, ?_⟩
  · intro key used usage
    have before := accounted.counted key used usage
    have grown : consumedIn key account.windows ≤
        consumedIn key (openWindows commercial account.events clock.controlNow policies account.windows) :=
      openWindows_grows tidy.distinct policies key
    simp only
    rw [consumed]
    omega
  · intro key used usage
    simp only
    rw [held, openWindows_held, active_append, placed, accounted.held key used usage]
  · intro key used usage
    simp only
    rw [consumed, held, openWindows_held]
    by_cases listed : key ∈ charges.map Charge.key
    · obtain ⟨charge, made, rfl⟩ := List.mem_map.mp listed
      have room := charge_within tidy charged made usage positive
      have delta := usage_admitted (charged.admitted charge made) usage
      have single : holdingOn charge.key charges = charge.delta.toNat := totalAt_unique charged.apart made
      rw [single, delta]
      simp only [Amount.delta, Int.toNat_natCast] at room ⊢
      omega
    · have none : holdingOn key charges = 0 := totalAt_absent listed
      rw [none, openWindows_others tidy.distinct fun policy member same =>
        listed ((charged_windows charged).mpr ⟨policy, member, same⟩)]
      exact accounted.within key used usage

private theorem holds_le_active (member : reservation ∈ account.reservations)
    (active : reservation.status = .active) (key : WindowKey) :
    holdsOn key reservation.holds ≤ activeHoldsOn key account.reservations := by
  have listed : activeHoldOf key reservation = holdsOn key reservation.holds := if_pos active
  rw [← listed]
  unfold activeHoldsOn
  exact List.single_le_sum (fun _ _ => Nat.zero_le _) _ (List.mem_map_of_mem member)

/-- Once a reservation is no longer active, the active ones hold what they held less its holds. -/
private theorem settled_active (tidy : Tidy account) (member : reservation ∈ account.reservations)
    (active : reservation.status = .active) (change : ControlledReservation → ControlledReservation)
    (finished : (change reservation).status ≠ .active) (key : WindowKey) :
    activeHoldsOn key (updateAt ControlledReservation.id reservation.id change account.reservations) =
      activeHoldsOn key account.reservations - holdsOn key reservation.holds := by
  have moved := updateAt_sum tidy.reservationIds member change (activeHoldOf key)
  have before : activeHoldOf key reservation = holdsOn key reservation.holds := if_pos active
  have after : activeHoldOf key (change reservation) = 0 := if_neg finished
  rw [before, after, Nat.add_zero] at moved
  unfold activeHoldsOn
  omega

private theorem closed_accounted (tidy : Tidy account) (accounted : Accounted account) (member : reservation ∈ account.reservations)
    (active : reservation.status = .active) {status : ReservationStatus} (finished : status ≠ .active) :
    Accounted (closeReservation reservation status account) := by
  have dropped := dropped_holds tidy.distinct reservation.holds
  refine ⟨?_, ?_, ?_⟩
  · intro key used usage
    have before := accounted.counted key used usage
    rw [← dropped.consumed key] at before
    exact before
  · intro key used usage
    have after := dropped.held key
    rw [accounted.held key used usage, ← settled_active tidy member active
      (fun row => { row with status := status }) finished key] at after
    exact after
  · intro key used usage
    have before := accounted.within key used usage
    have consumed := dropped.consumed key
    have held := dropped.held key
    unfold closeReservation releaseControlHolds
    simp only
    omega

/-- A confirmation settles each hold of a usage limit's window once. -/
private theorem groups_hold {now : Int} {holds : List ControlHold} {active : List ControlPolicy} (different : active.Nodup)
    (once : AdoptedOnce now holds active) (usage : key.policy.kind = .usageLimit feature) :
    holdsOn key ((confirmationGroups now holds active).flatMap ConfirmationGroup.holds) = holdsOn key holds := by
  have split := @totalAt_split ControlHold WindowKey Nat _ _ ControlHold.window ControlHold.heldValue ControlPolicy
    (active.filter fun policy => !heldElsewhere now holds policy) (different.filter _)
    (fun policy hold => (adoptedHolds now holds policy).contains hold) holds key (by
      intro hold placed here policy listed other also adopted adoptedToo
      exact once hold placed feature (by rw [here]; exact usage) policy (List.mem_filter.mp listed).1 other
        (List.mem_filter.mp also).1 (by simpa using adopted) (by simpa using adoptedToo))
  have adopts : ∀ policy, holds.filter (fun hold => (adoptedHolds now holds policy).contains hold) =
      adoptedHolds now holds policy := by
    intro policy
    conv_rhs => rw [adoptedHolds]
    apply List.filter_congr
    intro hold placed
    rw [Bool.eq_iff_iff, List.contains_iff_mem, mem_adopted, Bool.and_eq_true, beq_iff_eq, beq_iff_eq]
    exact and_iff_right placed
  simp only [adopts] at split
  unfold holdsOn confirmationGroups
  simp only
  rw [totalAt_perm ((List.perm_insertionSort _ _).flatMap_right _), List.flatMap_append, totalAt_append, totalAt_flatMap,
    totalAt_flatMap, List.map_map, List.map_map, ← split]
  congr 1
  generalize holds.filter _ = unadopted
  induction unadopted with
  | nil => rfl
  | cons hold rest ih =>
    rw [List.map_cons, List.sum_cons, ih, totalAt_cons, Function.comp, totalAt_cons, totalAt_nil, add_zero]

section Settles
variable (tidy : Tidy account) {settled : List (ConfirmationGroup × Charge)}
  (settlement : Settlement commercial clock account reservation amount settled)
  (once : AdoptedOnce clock.controlNow reservation.holds
    (confirmingControls commercial reservation amount)) {entry : ConfirmationGroup × Charge}
include settlement

include once in
private theorem settled_holds (usage : key.policy.kind = .usageLimit feature) :
    holdsOn key (settledHolds settled) = holdsOn key reservation.holds := by
  rw [← groups_hold acting_nodup once usage, ← settlement.groups, List.flatMap_map]
  rfl

include tidy

/-- What a group settles, its reservation holds in windows of the group's span. -/
private theorem group_held (member : entry ∈ settled) :
    heldBy entry.1.holds ≤ ((siblings entry.1.window account.windows).map fun window =>
      holdsOn window.key reservation.holds).sum := by
  have group := settlement.groups ▸ List.mem_map_of_mem (f := Prod.fst) member
  have part : entry.1.holds.Sublist reservation.holds ∧
      ∀ hold ∈ entry.1.holds, hold.window.identity = entry.1.window.identity := by
    rcases mem_groups.mp group with ⟨policy, -, -, shape⟩ | ⟨hold, placed, -, shape⟩
    · rw [shape]
      exact ⟨List.filter_sublist, fun hold adopted => Prod.ext (mem_adopted.mp adopted).2.1 (mem_adopted.mp adopted).2.2⟩
    · rw [shape]
      exact ⟨List.singleton_sublist.mpr placed, by simp⟩
  have distinct : ((siblings entry.1.window account.windows).map ControlWindow.key).Nodup :=
    tidy.distinct.sublist (List.filter_sublist.map _)
  have covered : ∀ hold ∈ entry.1.holds, hold.window ∈ (siblings entry.1.window account.windows).map ControlWindow.key := by
    intro hold inside
    obtain ⟨row, listed, same⟩ := List.mem_map.mp
      ((tidy.holds reservation settlement.found).2 hold (part.1.subset inside))
    refine List.mem_map.mpr ⟨row, List.mem_filter.mpr ⟨listed, ?_⟩, same⟩
    rw [same, beq_iff_eq]
    exact part.2 hold inside
  unfold heldBy
  rw [← totalAt_sum distinct covered]
  apply List.sum_le_sum
  intro row _
  unfold holdsOn totalAt
  exact ((part.1.filter _).map _).sum_le_sum (fun _ _ => Nat.zero_le _)

/-- What a reservation holds beside a window in its span is held there beside the window's own. -/
private theorem other_held (accounted : Accounted account) (member : entry ∈ settled)
    (usage : entry.1.window.policy.kind = .usageLimit feature) :
    heldIn entry.1.window account.windows - holdsOn entry.1.window reservation.holds ≤
      controlIdentityHeld entry.1.window account.windows - heldBy entry.1.holds := by
  have own := group_held tidy settlement member
  have each : ∀ row ∈ siblings entry.1.window account.windows, holdsOn row.key reservation.holds ≤ row.heldValue := by
    intro row sibling
    obtain ⟨listed, same⟩ := List.mem_filter.mp sibling
    have kind := (identity_kind (congrArg Prod.fst (beq_iff_eq.mp same))).trans usage
    rw [← row_held tidy.distinct listed, accounted.held row.key feature kind]
    exact holds_le_active settlement.found settlement.active row.key
  by_cases has : Has entry.1.window account.windows
  · obtain ⟨row, listed, same⟩ := List.mem_map.mp has
    have inside : row ∈ siblings entry.1.window account.windows :=
      List.mem_filter.mpr ⟨listed, by rw [same, beq_iff_eq]⟩
    have beside : row.heldValue - holdsOn row.key reservation.holds ≤ ((siblings entry.1.window account.windows).map
        fun window => window.heldValue - holdsOn window.key reservation.holds).sum :=
      List.single_le_sum (fun _ _ => Nat.zero_le _) _ (List.mem_map.mpr ⟨row, inside, rfl⟩)
    have total : ((siblings entry.1.window account.windows).map fun window =>
        window.heldValue - holdsOn window.key reservation.holds).sum +
          ((siblings entry.1.window account.windows).map fun window => holdsOn window.key reservation.holds).sum =
            controlIdentityHeld entry.1.window account.windows := by
      unfold controlIdentityHeld
      rw [← List.sum_map_add]
      congr 1
      apply List.map_congr_left
      intro window sibling
      have := each window sibling
      omega
    rw [← same, row_held tidy.distinct listed]
    rw [same] at beside ⊢
    omega
  · rw [absent_held has, Nat.zero_sub]
    exact Nat.zero_le _

end Settles

private theorem settledCharges (settled : List (ConfirmationGroup × Charge)) :
    settled.filterMap (fun entry => appliedEntry entry.2) = (settled.map Prod.snd).filterMap appliedEntry := by
  rw [List.filterMap_map]
  rfl

private theorem confirm_accounted (tidy : Tidy account) (accounted : Accounted account)
    {settled : List (ConfirmationGroup × Charge)}
    (settlement : Settlement commercial clock account reservation amount settled)
    (once : AdoptedOnce clock.controlNow reservation.holds
      (confirmingControls commercial reservation amount)) :
    Accounted (account.confirmed commercial clock reservation amount settled) := by
  have settles := settled_groups (openWindows_distinct tidy.distinct _) (settlement.apart tidy) (settlement.present tidy)
  have whole : ∀ entry ∈ settled, ∀ feature, entry.2.key.policy.kind = .usageLimit feature → entry.2.delta = amount.quantity := by
    intro entry member feature usage
    have confirmed := settlement.confirmed entry member
    rw [confirmed.key] at usage
    exact usage_confirmed confirmed usage
  have moved : ∀ key feature, key.policy.kind = .usageLimit feature → key ∈ settled.map (fun entry => entry.2.key) →
      consumedIn key (account.confirmed commercial clock reservation amount settled).windows =
        consumedIn key (openedFor commercial clock account reservation amount) + amount.quantity := by
    intro key feature usage listed
    obtain ⟨entry, member, rfl⟩ := List.mem_map.mp listed
    have charged := settles.charged entry member
    rw [whole entry member feature usage] at charged
    dsimp only [ControlledAccount.confirmed]
    unfold openedFor
    omega
  have held : ∀ key feature, key.policy.kind = .usageLimit feature →
      heldIn key (account.confirmed commercial clock reservation amount settled).windows =
        heldIn key account.windows - holdsOn key reservation.holds := by
    intro key feature usage
    have after := settles.held key
    rwa [settled_holds settlement once usage, openWindows_held] at after
  refine ⟨?_, ?_, ?_⟩
  · intro key used usage
    have before := accounted.counted key used usage
    have recorded := @applied_counts key (settled.map Prod.snd) amount.quantity settlement.positive (by
      intro charge made feature usage
      obtain ⟨entry, member, rfl⟩ := List.mem_map.mp made
      exact whole entry member feature usage) used usage
    rw [← settledCharges, List.map_map] at recorded
    have grown : consumedIn key account.windows ≤ consumedIn key (openedFor commercial clock account reservation amount) :=
      openWindows_grows tidy.distinct _ key
    by_cases listed : key ∈ settled.map (fun entry => entry.2.key)
    · rw [moved key used usage listed]
      dsimp only [ControlledAccount.confirmed]
      rw [charged_record, if_pos (recorded.mpr listed)]
      push_cast
      omega
    · rw [(unsettled_row settlement tidy listed).2]
      dsimp only [ControlledAccount.confirmed]
      rw [charged_record, if_neg fun also => listed (recorded.mp also), add_zero]
      exact before
  · intro key used usage
    rw [held key used usage, accounted.held key used usage]
    exact (settled_active tidy settlement.found settlement.active _ (by simp) key).symm
  · intro key used usage
    rw [held key used usage]
    by_cases listed : key ∈ settled.map (fun entry => entry.2.key)
    · rw [moved key used usage listed]
      obtain ⟨entry, member, rfl⟩ := List.mem_map.mp listed
      have confirmed := settlement.confirmed entry member
      have delta := whole entry member used usage
      have positive := settlement.positive
      have fits := confirmed.fits (by omega)
      rw [confirmed.key] at usage ⊢
      have beside := other_held tidy settlement accounted member usage
      rw [confirmed.consumed, delta] at fits
      unfold openedFor at fits ⊢
      rw [openWindows_identityHeld] at fits
      omega
    · rw [(unsettled_row settlement tidy listed).2]
      have before := accounted.within key used usage
      omega

/-- A correction takes off a usage limit's window what it counted: all of it where its event was charged. -/
private theorem reduction_fits (tidy : Tidy account) (accounted : Accounted account) (nets : ∀ event ∈ account.events, 0 ≤ event.net)
    (member : event ∈ account.events) {quantity : Nat} (fits : (quantity : Int) ≤ event.net)
    (spares : LowersCounted commercial account event quantity spendMinorReduction currency)
    (has : Has key account.windows) (usage : key.policy.kind = .usageLimit feature) :
    chargedOn key account.events - (if Counts key event then (quantity : Int) else 0) ≤ (consumedIn key account.windows : Int) -
        reductionIn commercial event quantity spendMinorReduction currency account.windows key ∧
      0 ≤ reductionIn commercial event quantity spendMinorReduction currency account.windows key ∧
        reductionIn commercial event quantity spendMinorReduction currency account.windows key ≤
          consumedIn key account.windows := by
  have counted := accounted.counted key feature usage
  by_cases counts : Counts key event = true
  · have charged := le_charged nets member counts
    have found : (event.entries.find? fun entry => entry.window == key).isSome := by
      rw [List.find?_isSome]
      obtain ⟨entry, listed, same⟩ := List.any_eq_true.mp counts
      exact ⟨entry, listed, same⟩
    obtain ⟨entry, found⟩ := Option.isSome_iff_exists.mp found
    have counting : countingEntry event account.windows key = some entry := by
      unfold countingEntry
      simp only [found, Option.some_or]
    have reduction : reductionIn commercial event quantity spendMinorReduction currency account.windows key = quantity := by
      unfold reductionIn
      simp only [counting, usage]
    rw [reduction, if_pos counts]
    omega
  · rw [Bool.not_eq_true] at counts
    obtain ⟨row, listed, rfl⟩ := List.mem_map.mp has
    have charged : 0 ≤ chargedOn row.key account.events := by
      apply List.sum_nonneg
      intro value inside
      obtain ⟨other, known, rfl⟩ := List.mem_map.mp inside
      exact chargeOf_nonneg (nets other known) row.key
    have nothing : 0 ≤ reductionIn commercial event quantity spendMinorReduction currency account.windows row.key ∧
        reductionIn commercial event quantity spendMinorReduction currency account.windows row.key ≤ quantity := by
      unfold reductionIn
      cases countingEntry event account.windows row.key with
      | none => dsimp only; split <;> omega
      | some entry => simp [usage]
    rw [counts, if_neg (by simp)]
    by_cases lowers : 0 < reductionIn commercial event quantity spendMinorReduction currency account.windows row.key
    · have room := spares row listed feature usage counts lowers
      rw [row_consumed tidy.distinct listed]
      omega
    · omega

private theorem correct_accounted (tidy : Tidy account) (accounted : Accounted account) (nets : ∀ event ∈ account.events, 0 ≤ event.net)
    {original : ControlledEvent} (member : original ∈ account.events) {quantity : Nat} (fits : (quantity : Int) ≤ original.net)
    (spares : LowersCounted commercial account original quantity spendMinorReduction currency) :
    Accounted (account.corrected commercial original quantity spendMinorReduction currency) := by
  dsimp only [ControlledAccount.corrected]
  generalize entries : (correctControlConsumption commercial original quantity spendMinorReduction currency account.windows).2 =
    corrected
  have absent : ∀ key, ¬ Has key account.windows → consumedIn key (correctControlConsumption commercial original quantity
      spendMinorReduction currency account.windows).1 = 0 := by
    intro key absent
    apply absent_consumed
    unfold Has at absent ⊢
    rwa [correct_keys]
  refine ⟨?_, ?_, ?_⟩
  · intro key used usage
    have moved := updateAt_sum tidy.eventIds member (ControlledEvent.addCorrection ⟨quantity, corrected⟩) (chargeOf key)
    have charge : chargeOf key (original.addCorrection ⟨quantity, corrected⟩) =
        chargeOf key original - if Counts key original then (quantity : Int) else 0 := by
      have counts : Counts key (original.addCorrection ⟨quantity, corrected⟩) = Counts key original := rfl
      unfold chargeOf
      rw [counts, addCorrection_net]
      split <;> simp
    have before := accounted.counted key used usage
    by_cases has : Has key account.windows
    · have fit := reduction_fits tidy accounted nets member fits spares has usage
      simp only
      rw [correct_consumed tidy.distinct has]
      unfold chargedOn at fit ⊢
      omega
    · have less : 0 ≤ (if Counts key original then (quantity : Int) else 0) := by split <;> omega
      rw [absent_consumed has] at before
      simp only
      rw [absent key has]
      unfold chargedOn at before ⊢
      omega
  · intro key used usage
    simp only
    rw [correct_held]
    exact accounted.held key used usage
  · intro key used usage
    have before := accounted.within key used usage
    simp only
    rw [correct_held]
    by_cases has : Has key account.windows
    · have fit := reduction_fits tidy accounted nets member fits spares has usage
      rw [correct_consumed tidy.distinct has]
      omega
    · rw [absent key has]
      omega

private theorem expire_accounted (tidy : Tidy account) (accounted : Accounted account) : Accounted (expireUsage clock account) := by
  have overdue : ∀ row ∈ account.reservations.filter (fun row => row.status = .active ∧ row.expiresAt ≤ clock.controlNow),
      row ∈ account.reservations ∧ row.status = .active := by
    intro row member
    obtain ⟨inside, due⟩ := List.mem_filter.mp member
    exact ⟨inside, (of_decide_eq_true due).1⟩
  have distinct := tidy.reservationIds.sublist ((List.filter_sublist (p := fun row : ControlledReservation =>
    row.status = .active ∧ row.expiresAt ≤ clock.controlNow)).map ControlledReservation.id)
  unfold expireUsage
  generalize account.reservations.filter _ = rows at overdue distinct
  induction rows generalizing account with
  | nil => exact accounted
  | cons row rest ih =>
    rw [List.map_cons, List.nodup_cons] at distinct
    obtain ⟨member, active⟩ := overdue row (by simp)
    refine ih (tidy_closed tidy row .expired) (closed_accounted tidy accounted member active (by simp)) ?_ distinct.2
    intro other inside
    obtain ⟨known, open_⟩ := overdue other (by simp [inside])
    refine ⟨mem_updateAt.mpr ⟨other, known, .inr ⟨?_, rfl⟩⟩, open_⟩
    intro same
    exact distinct.1 (same ▸ List.mem_map_of_mem inside)

end Steps

private theorem accounted_step {commercial : Commercial} {clock : Clock} {account next : ControlledAccount} (tidy : Tidy account)
    (nets : ∀ event ∈ account.events, 0 ≤ event.net) (accounted : Accounted account) {write : UsageWrite}
    (spares : Spares commercial clock write account) (done : write.apply commercial clock account = .ok next) :
    Accounted next := by
  cases write with
  | consume feature entity amount admitted =>
    cases admitted with
    | false =>
      obtain ⟨_, -, same⟩ := bind_ok done
      cases same
      exact accounted
    | true =>
      rcases consume_inv tidy.distinct done with rfl | ⟨policies, within, rfl⟩ | ⟨policies, charges, positive, charged, rfl⟩
      · exact accounted
      · exact opened_accounted tidy accounted acting_nodup within (spares.consumes _ _ _ rfl)
      · exact consume_accounted tidy accounted positive charged
  | reserve feature entity amount expiresIn admitted =>
    cases admitted with
    | false =>
      obtain ⟨_, -, same⟩ := bind_ok done
      cases same
      exact accounted
    | true =>
      rcases reserve_inv tidy.distinct done with rfl | ⟨policies, within, rfl⟩ | ⟨policies, charges, positive, charged, rfl⟩
      · exact accounted
      · exact opened_accounted tidy accounted acting_nodup within (spares.reserves _ _ _ _ rfl)
      · exact reserve_accounted tidy accounted positive charged _ _
  | confirm id amount admitted =>
    rcases confirm_inv done with rfl | ⟨reservation, member, active, rfl | ⟨⟨rfl, rfl, running⟩, rfl⟩⟩ |
      ⟨reservation, settled, ⟨rfl, rfl, running⟩, settlement, rfl⟩
    · exact accounted
    · exact closed_accounted tidy accounted member active (by simp)
    · exact opened_accounted tidy accounted (acting_nodup.filter _) (List.Sublist.refl _)
        (spares.confirms reservation member amount rfl active running).1
    · exact confirm_accounted tidy accounted settlement
        (spares.confirms reservation settlement.found amount rfl settlement.active running).2
  | release id =>
    rcases release_inv done with rfl | ⟨reservation, member, active, status, finished, rfl⟩
    · exact accounted
    · exact closed_accounted tidy accounted member active finished
  | expire =>
    cases done
    exact expire_accounted tidy accounted
  | correct id quantity spendMinorReduction currency =>
    obtain ⟨original, member, rfl, -, fits, rfl⟩ := correct_inv done
    exact correct_accounted tidy accounted nets member fits (spares.corrects original member _ _ _ rfl fits)

def FixedSparing (commercial : Commercial) : Commercial → Clock → UsageWrite → ControlledAccount → Prop :=
  fun used clock write account => used = commercial ∧ Spares commercial clock write account

private theorem reaches_accounted {commercial : Commercial} {account : ControlledAccount}
    (reached : Reaches (FixedSparing commercial) account) : Accounted account := by
  induction reached with
  | opened => exact ⟨fun _ _ _ => le_refl _, fun _ _ _ => rfl, fun _ _ _ => Nat.zero_le _⟩
  | step reached allowed done ih =>
    obtain ⟨rfl, spares⟩ := allowed
    exact accounted_step (reaches_tidy reached) (reaches_nets reached) ih spares done

/-- What stands in the windows of usage limits: within the limits, held by the active reservations, and not cut off at
zero by the next release, confirmation or correction. -/
structure LimitsKept (commercial : Commercial) (account : ControlledAccount) : Prop where
  within : ∀ window ∈ account.windows, ∀ feature, window.key.policy.kind = .usageLimit feature →
    window.consumedValue + window.heldValue ≤ window.key.policy.limitValue
  held : ∀ window ∈ account.windows, ∀ feature, window.key.policy.kind = .usageLimit feature →
    window.heldValue = activeHoldsOn window.key account.reservations
  released : ∀ window ∈ account.windows, ∀ feature, window.key.policy.kind = .usageLimit feature →
    ∀ reservation ∈ account.reservations, reservation.status = .active →
      holdsOn window.key reservation.holds ≤ window.heldValue
  settled : ∀ window ∈ account.windows, ∀ feature, window.key.policy.kind = .usageLimit feature →
    ∀ reservation ∈ account.reservations, reservation.status = .active → ∀ now input,
      AdoptedOnce now reservation.holds (actingControls commercial input) →
        holdsOn window.key ((confirmationGroups now reservation.holds (actingControls commercial input)).flatMap
          ConfirmationGroup.holds) ≤ window.heldValue
  corrected : ∀ window ∈ account.windows, ∀ feature, window.key.policy.kind = .usageLimit feature →
    ∀ event ∈ account.events, ∀ quantity : Nat, (quantity : Int) ≤ event.net → ∀ spendMinorReduction currency,
      LowersCounted commercial account event quantity spendMinorReduction currency →
        reductionIn commercial event quantity spendMinorReduction currency account.windows window.key ≤ window.consumedValue

section Competing

/-- A plan default that only one entity has, and a wider limit of the account. -/
def planLimit : ControlPolicy := ⟨1, .planDefault, .usageLimit 1, 10, some ⟨.day, 1, Nat.one_pos⟩⟩

def accountLimit : ControlPolicy := ⟨2, .account, .usageLimit 1, 100, some ⟨.day, 1, Nat.one_pos⟩⟩

def competing : Commercial := ⟨[planLimit, accountLimit], fun _ entity => entity == some 1, false⟩

def wideCount : ControlWindow := ⟨⟨accountLimit, ⟨0, some 86400000⟩⟩, 50, 0⟩

def carriedCount : ControlWindow := ⟨⟨planLimit, ⟨0, some 86400000⟩⟩, 50, 0⟩

def fiftyConsumed : ControlledEvent := ⟨0, .consume, 1, some 2, 43200000, 50, [⟨wideCount.key, 50⟩], []⟩

end Competing

end Quotum.Controls
