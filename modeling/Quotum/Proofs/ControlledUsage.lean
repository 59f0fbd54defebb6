import Quotum.ControlledUsage
import Quotum.Proofs.ActingControls

/-! What each write does to an account's control windows, and what every run of writes keeps. -/

namespace Quotum.Controls
open General Metering

variable {charges : List Charge} {input : ControlDelta}

section Inversions
variable {commercial : Commercial} {clock : Clock} {account next : ControlledAccount} {amount : Amount} {admitted : Bool}

private theorem positive_inv {quantity : Nat} {checked : Unit} (positive : requirePositive quantity = .ok checked) : 0 < quantity := by
  unfold requirePositive at positive
  split at positive
  · cases positive
  · omega

/-- A write that admits its charges, or is denied once it opened some windows. -/
structure Charged (commercial : Commercial) (clock : Clock) (account : ControlledAccount) (input : ControlDelta)
    (policies : List ControlPolicy) (charges : List Charge) : Prop where
  within : policies.Sublist (actingControls commercial input)
  keys : charges.map Charge.key = policies.map (currentWindow clock.controlNow)
  usage : ∀ policy ∈ actingControls commercial input, policy.kind = .usageLimit input.feature → policy ∈ policies
  admitted : ∀ charge ∈ charges, Admitted input
    (openWindows commercial account.events clock.controlNow policies account.windows) charge

private theorem charged_of {mode : ControlMode} {opened : List ControlWindow}
    (distinct : Distinct account.windows) (positive : 0 < input.usageDelta)
    (done : admitControls commercial account.events input mode clock.controlNow (actingControls commercial input)
      account.windows = .ok (opened, some charges)) :
    ∃ policies, opened = openWindows commercial account.events clock.controlNow policies account.windows ∧
      Charged commercial clock account input policies charges := by
  obtain ⟨policies, within, rfl, spec⟩ := admit_inv acting_nodup distinct done
  obtain ⟨keys, all, each⟩ := spec charges rfl
  refine ⟨policies, rfl, within, keys, ?_, each⟩
  intro policy acting usage
  rcases all policy acting with inside | ⟨-, delta, low, moved⟩
  · exact inside
  · unfold deltaFor at moved
    rw [usage] at moved
    cases moved
    omega

theorem Charged.known {policies : List ControlPolicy}
    (charged : Charged commercial clock account input policies charges) : ∀ policy ∈ policies, policy ∈ commercial.policies :=
  fun _ member => acting_known (charged.within.subset member)

/-- The account once some of its controls opened their windows. -/
abbrev ControlledAccount.opened (account : ControlledAccount) (commercial : Commercial) (clock : Clock)
    (policies : List ControlPolicy) : ControlledAccount :=
  { account with windows := openWindows commercial account.events clock.controlNow policies account.windows }

/-- The account after usage that its controls charged. -/
abbrev ControlledAccount.consumed (account : ControlledAccount) (commercial : Commercial) (clock : Clock) (feature : Nat) (entity : Option Nat)
    (amount : Amount) (policies : List ControlPolicy) (charges : List Charge) : ControlledAccount :=
  { account with
    windows := charges.foldl (fun rows charge => countCharge charge rows)
      (openWindows commercial account.events clock.controlNow policies account.windows)
    events := account.record .consume feature entity clock amount.quantity (charges.filterMap appliedEntry) }

theorem consume_inv {feature : Nat} {entity : Option Nat} (distinct : Distinct account.windows)
    (done : consumeUsage commercial clock feature entity amount admitted account = .ok next) :
    next = account ∨
      (∃ policies, policies.Sublist (actingControls commercial (amount.delta feature entity)) ∧
        next = account.opened commercial clock policies) ∨
      ∃ policies charges, 0 < amount.quantity ∧
        Charged commercial clock account (amount.delta feature entity) policies charges ∧
        next = account.consumed commercial clock feature entity amount policies charges := by
  unfold consumeUsage at done
  obtain ⟨checked, positive, done⟩ := bind_ok done
  split at done
  · cases done
    exact .inl rfl
  · obtain ⟨⟨windows, entries⟩, spent, done⟩ := bind_ok done
    unfold consumeControls at spent
    obtain ⟨⟨opened, charges⟩, tried, spent⟩ := bind_ok spent
    cases charges with
    | none =>
      cases spent
      cases done
      obtain ⟨policies, within, rfl, -⟩ := admit_inv acting_nodup distinct tried
      exact .inr (.inl ⟨policies, within, rfl⟩)
    | some charges =>
      cases spent
      cases done
      obtain ⟨policies, rfl, charged⟩ := charged_of distinct (positive_inv positive) tried
      exact .inr (.inr ⟨policies, charges, positive_inv positive, charged, rfl⟩)

abbrev heldReservation (id : Nat) (feature : Nat) (entity : Option Nat) (amount : Amount) (expiresAt : Int) (charges : List Charge) :
    ControlledReservation :=
  ⟨id, feature, entity, amount.quantity, none, expiresAt, .active, charges.map fun charge => ⟨charge.key, charge.delta.toNat⟩⟩

/-- The account after a reservation that its controls hold. -/
abbrev ControlledAccount.reserved (account : ControlledAccount) (commercial : Commercial) (clock : Clock)
    (reservation : ControlledReservation) (policies : List ControlPolicy) (charges : List Charge) : ControlledAccount :=
  { account with
    windows := charges.foldl (fun rows charge => holdCharge charge rows)
      (openWindows commercial account.events clock.controlNow policies account.windows)
    reservations := account.reservations ++ [reservation] }

theorem reserve_inv {feature : Nat} {entity : Option Nat} {expiresIn : Nat} (distinct : Distinct account.windows)
    (done : reserveUsage commercial clock feature entity amount expiresIn admitted account = .ok next) :
    next = account ∨
      (∃ policies, policies.Sublist (actingControls commercial (amount.delta feature entity)) ∧
        next = account.opened commercial clock policies) ∨
      ∃ policies charges, 0 < amount.quantity ∧
        Charged commercial clock account (amount.delta feature entity) policies charges ∧
        next = account.reserved commercial clock (heldReservation account.reservations.length feature entity amount
          (clock.recordedAt + expiresIn) charges) policies charges := by
  unfold reserveUsage at done
  obtain ⟨checked, positive, done⟩ := bind_ok done
  split at done
  · cases done
    exact .inl rfl
  · obtain ⟨⟨windows, holds⟩, spent, done⟩ := bind_ok done
    unfold holdControls at spent
    obtain ⟨⟨opened, charges⟩, tried, spent⟩ := bind_ok spent
    cases charges with
    | none =>
      cases spent
      cases done
      obtain ⟨policies, within, rfl, -⟩ := admit_inv acting_nodup distinct tried
      exact .inr (.inl ⟨policies, within, rfl⟩)
    | some charges =>
      cases spent
      cases done
      obtain ⟨policies, rfl, charged⟩ := charged_of distinct (positive_inv positive) tried
      exact .inr (.inr ⟨policies, charges, positive_inv positive, charged, rfl⟩)

/-- The limits that act on the confirmation of a reservation. -/
abbrev confirmingControls (commercial : Commercial) (reservation : ControlledReservation) (amount : Amount) :
    List ControlPolicy :=
  actingControls commercial (amount.delta reservation.feature reservation.entity)

def settlingControls (commercial : Commercial) (clock : Clock) (reservation : ControlledReservation) (amount : Amount) :
    List ControlPolicy :=
  (confirmingControls commercial reservation amount).filter fun policy => !heldElsewhere clock.controlNow reservation.holds policy

/-- The windows a confirmation finds once its limits have opened theirs. -/
def openedFor (commercial : Commercial) (clock : Clock) (account : ControlledAccount) (reservation : ControlledReservation)
    (amount : Amount) : List ControlWindow :=
  openWindows commercial account.events clock.controlNow
    (settlingControls commercial clock reservation amount)
    account.windows

structure Settlement (commercial : Commercial) (clock : Clock) (account : ControlledAccount)
    (reservation : ControlledReservation) (amount : Amount) (settled : List (ConfirmationGroup × Charge)) : Prop where
  found : reservation ∈ account.reservations
  active : reservation.status = .active
  positive : 0 < amount.quantity
  fits : amount.quantity ≤ reservation.requestedQuantity
  groups : settled.map Prod.fst = confirmationGroups clock.controlNow reservation.holds
    (confirmingControls commercial reservation amount)
  confirmed : ∀ entry ∈ settled, Confirmed (amount.delta reservation.feature reservation.entity)
    (openedFor commercial clock account reservation amount) entry

abbrev ControlledAccount.confirmed (account : ControlledAccount) (commercial : Commercial) (clock : Clock) (reservation : ControlledReservation)
    (amount : Amount) (settled : List (ConfirmationGroup × Charge)) : ControlledAccount where
  windows := settled.foldl settleGroup (openedFor commercial clock account reservation amount)
  reservations := updateAt ControlledReservation.id reservation.id
    (fun row => { row with status := .confirmed, confirmedQuantity := some amount.quantity }) account.reservations
  events := account.record .confirm reservation.feature reservation.entity clock amount.quantity
    (settled.filterMap fun entry => appliedEntry entry.2)

theorem confirm_inv {id : Nat} (done : confirmUsage commercial clock id amount admitted account = .ok next) :
    next = account ∨
      (∃ reservation ∈ account.reservations, reservation.status = .active ∧
        (next = closeReservation reservation .expired account ∨
          (reservation.id = id ∧ admitted = true ∧ clock.controlNow < reservation.expiresAt) ∧
            next = account.opened commercial clock (settlingControls commercial clock reservation amount))) ∨
      ∃ reservation settled, (reservation.id = id ∧ admitted = true ∧ clock.controlNow < reservation.expiresAt) ∧
        Settlement commercial clock account reservation amount settled ∧ next = account.confirmed commercial clock reservation amount settled := by
  unfold confirmUsage at done
  split at done
  · cases done
  · next reservation found =>
    obtain ⟨member, same⟩ := findAt_inv found
    obtain ⟨checked, positive, done⟩ := bind_ok done
    split at done
    · split at done
      · cases done
        exact .inl rfl
      · cases done
    · cases done
      exact .inl rfl
    · cases done
    · next active =>
      split at done
      · cases done
        exact .inr (.inl ⟨reservation, member, active, .inl rfl⟩)
      · next running =>
        split at done
        · cases done
        · next fits =>
          split at done
          · cases done
            exact .inl rfl
          · next admitted =>
            obtain ⟨⟨windows, entries⟩, settledOk, done⟩ := bind_ok done
            unfold confirmControlHolds at settledOk
            obtain ⟨charges, tried, settledOk⟩ := bind_ok settledOk
            cases charges with
            | none =>
              cases settledOk
              cases done
              exact .inr (.inl ⟨reservation, member, active, .inr ⟨⟨same, by simpa using admitted, by omega⟩, rfl⟩⟩)
            | some settled =>
              cases settledOk
              cases done
              obtain ⟨groups, confirmed⟩ := confirmation_inv tried
              exact .inr (.inr ⟨reservation, settled, ⟨same, by simpa using admitted, by omega⟩,
                ⟨member, active, positive_inv positive, by omega, groups, confirmed⟩, rfl⟩)

theorem release_inv {id : Nat} (done : releaseUsage clock id account = .ok next) :
    next = account ∨ ∃ reservation ∈ account.reservations, reservation.status = .active ∧
      ∃ status, status ≠ .active ∧ next = closeReservation reservation status account := by
  unfold releaseUsage at done
  split at done
  · cases done
  · next reservation found =>
    split at done
    · next active =>
      cases done
      refine .inr ⟨reservation, (findAt_inv found).1, active, _, ?_, rfl⟩
      split <;> decide
    · cases done
      exact .inl rfl

abbrev ControlledAccount.corrected (account : ControlledAccount) (commercial : Commercial) (original : ControlledEvent) (quantity : Nat)
    (spendMinorReduction : Int) (currency : Option String) : ControlledAccount :=
  let correction := correctControlConsumption commercial original quantity spendMinorReduction currency account.windows
  { account with
    windows := correction.1
    events := updateAt ControlledEvent.id original.id (ControlledEvent.addCorrection ⟨quantity, correction.2⟩) account.events }

theorem correct_inv {id quantity : Nat} {spendMinorReduction : Int} {currency : Option String}
    (done : correctUsage commercial id quantity spendMinorReduction currency account = .ok next) :
    ∃ original ∈ account.events, original.id = id ∧ 0 < quantity ∧ (quantity : Int) ≤ original.net ∧
      next = account.corrected commercial original quantity spendMinorReduction currency := by
  unfold correctUsage at done
  split at done
  · cases done
  · next original found =>
    obtain ⟨checked, positive, done⟩ := bind_ok done
    split at done
    · cases done
    · next fits =>
      cases done
      exact ⟨original, (findAt_inv found).1, (findAt_inv found).2, positive_inv positive, by omega, rfl⟩

end Inversions

inductive Reaches (may : Commercial → Clock → UsageWrite → ControlledAccount → Prop) : ControlledAccount → Prop where
  | opened : Reaches may ⟨[], [], []⟩
  | step {commercial : Commercial} {clock : Clock} {write : UsageWrite} {account next : ControlledAccount}
      (reached : Reaches may account) (allowed : may commercial clock write account)
      (done : write.apply commercial clock account = .ok next) : Reaches may next

section Corrections
variable {commercial : Commercial} {event : ControlledEvent} {quantity : Nat} {spendMinorReduction : Int}
  {currency : Option String} {windows : List ControlWindow}

theorem correct_keys : (correctControlConsumption commercial event quantity spendMinorReduction currency windows).1.map
    ControlWindow.key = windows.map ControlWindow.key := by
  unfold correctControlConsumption
  rw [List.map_map]
  rfl

private theorem lowered_held (reduction : ControlWindow → Int) (key : WindowKey) (windows : List ControlWindow) :
    heldIn key (windows.map fun window => window.lower (reduction window)) = heldIn key windows := by
  induction windows with
  | nil => rfl
  | cons window rest ih =>
    unfold heldIn at *
    rw [List.map_cons, totalAt_cons, totalAt_cons, ih]
    rfl

theorem correct_held (key : WindowKey) :
    heldIn key (correctControlConsumption commercial event quantity spendMinorReduction currency windows).1 =
      heldIn key windows :=
  lowered_held _ key windows

theorem correct_consumed (distinct : Distinct windows) {key : WindowKey} (present : Has key windows) :
    consumedIn key (correctControlConsumption commercial event quantity spendMinorReduction currency windows).1 =
      ((consumedIn key windows : Int) -
        reductionIn commercial event quantity spendMinorReduction currency windows key).toNat := by
  obtain ⟨window, member, rfl⟩ := List.mem_map.mp present
  have kept : Distinct (correctControlConsumption commercial event quantity spendMinorReduction currency windows).1 := by
    unfold Distinct
    rwa [correct_keys]
  have inside : window.lower (reductionIn commercial event quantity spendMinorReduction currency windows window.key) ∈
        (correctControlConsumption commercial event quantity spendMinorReduction currency windows).1 :=
    List.mem_map.mpr ⟨window, member, rfl⟩
  have after := row_consumed kept inside
  rw [row_consumed distinct member]
  exact after

end Corrections

/-- What every run of writes keeps: rows of distinct keys, windows of their policies, holds on rows that exist. -/
structure Tidy (account : ControlledAccount) : Prop where
  distinct : Distinct account.windows
  windows : ∀ key, Has key account.windows → key.IsWindow
  reservationIds : (account.reservations.map ControlledReservation.id).Nodup
  freshReservation : ∀ reservation ∈ account.reservations, reservation.id < account.reservations.length
  eventIds : (account.events.map ControlledEvent.id).Nodup
  freshEvent : ∀ event ∈ account.events, event.id < account.events.length
  holds : ∀ reservation ∈ account.reservations, (reservation.holds.map ControlHold.window).Nodup ∧
    ∀ hold ∈ reservation.holds, Has hold.window account.windows

section Tidy
variable {commercial : Commercial} {clock : Clock} {account next : ControlledAccount} {settled : List (ConfirmationGroup × Charge)}
  {reservation : ControlledReservation}

/-- A change of windows that keeps their rows and only adds windows of policies. -/
private theorem tidy_windows (tidy : Tidy account) {windows : List ControlWindow} (distinct : Distinct windows)
    (grown : ∀ key, Has key account.windows → Has key windows)
    (added : ∀ key, Has key windows → key.IsWindow) : Tidy { account with windows := windows } :=
  { tidy with
    distinct := distinct
    windows := added
    holds := fun reservation member => ⟨(tidy.holds reservation member).1,
      fun hold inside => grown _ ((tidy.holds reservation member).2 hold inside)⟩ }

private theorem tidy_opened (commercial : Commercial) (clock : Clock) (tidy : Tidy account) (policies : List ControlPolicy) :
    Tidy (account.opened commercial clock policies) := by
  apply tidy_windows tidy (openWindows_distinct tidy.distinct policies)
  · exact fun key has => openWindows_has.mpr (.inr has)
  · intro key has
    rcases openWindows_has.mp has with ⟨policy, -, rfl⟩ | old
    · exact ⟨_, rfl⟩
    · exact tidy.windows key old

private theorem tidy_recorded {clock : Clock} (account : ControlledAccount) (tidy : Tidy account) (operation : UsageOperation) (feature : Nat) (entity : Option Nat)
    (quantity : Nat) (entries : List ControlEntry) :
    Tidy { account with events := account.record operation feature entity clock quantity entries } := by
  refine { tidy with eventIds := ?_, freshEvent := ?_ }
  · unfold ControlledAccount.record
    simp only [List.map_append, List.map_cons, List.map_nil]
    refine List.nodup_append.mpr ⟨tidy.eventIds, by simp, ?_⟩
    rintro first inside last single rfl
    obtain ⟨event, member, rfl⟩ := List.mem_map.mp inside
    have := tidy.freshEvent event member
    rw [List.mem_singleton] at single
    omega
  · intro event member
    unfold ControlledAccount.record at *
    rw [List.length_append]
    rcases List.mem_append.mp member with old | new
    · have := tidy.freshEvent event old
      omega
    · rw [List.mem_singleton] at new
      subst new
      simp

private theorem tidy_updated (account : ControlledAccount) (tidy : Tidy account) (id : Nat) {change : ControlledReservation → ControlledReservation}
    (kept : ∀ row, (change row).id = row.id ∧ (change row).holds = row.holds) :
    Tidy { account with reservations := updateAt ControlledReservation.id id change account.reservations } := by
  refine { tidy with reservationIds := ?_, freshReservation := ?_, holds := ?_ }
  · simp only [updateAt_keys fun row => (kept row).1]
    exact tidy.reservationIds
  · intro reservation member
    simp only [updateAt, List.length_map]
    rcases mem_updateAt.mp member with ⟨old, inside, ⟨-, rfl⟩ | ⟨-, rfl⟩⟩
    · rw [(kept old).1]
      exact tidy.freshReservation old inside
    · exact tidy.freshReservation _ inside
  · intro reservation member
    rcases mem_updateAt.mp member with ⟨old, inside, ⟨-, rfl⟩ | ⟨-, rfl⟩⟩
    · rw [(kept old).2]
      exact tidy.holds old inside
    · exact tidy.holds _ inside

theorem tidy_closed (tidy : Tidy account) (reservation : ControlledReservation) (status : ReservationStatus) :
    Tidy (closeReservation reservation status account) := by
  have dropped := dropped_holds tidy.distinct reservation.holds
  apply tidy_updated { account with windows := releaseControlHolds reservation.holds account.windows }
  · exact tidy_windows tidy dropped.distinct (fun key has => (dropped.has key).mpr has)
      fun key has => tidy.windows key ((dropped.has key).mp has)
  · exact fun row => ⟨rfl, rfl⟩

private theorem addCorrection_id (correction : UsageCorrection) (event : ControlledEvent) :
    (event.addCorrection correction).id = event.id :=
  rfl

theorem Charged.apart {policies : List ControlPolicy}
    (charged : Charged commercial clock account input policies charges) : (charges.map Charge.key).Nodup := by
  rw [charged.keys]
  exact (acting_nodup.sublist charged.within).map (currentWindow_inj _)

theorem Settlement.apart (tidy : Tidy account) {amount : Amount}
    (settlement : Settlement commercial clock account reservation amount settled) :
    (settled.map fun entry => entry.2.key).Nodup := by
  have windows : (settled.map fun entry => entry.2.key) = (settled.map Prod.fst).map ConfirmationGroup.window := by
    rw [List.map_map]
    apply List.map_congr_left
    exact fun entry member => (settlement.confirmed entry member).key
  rw [windows, settlement.groups]
  exact groups_nodup acting_nodup (tidy.holds reservation settlement.found).1

theorem Settlement.present (tidy : Tidy account) {amount : Amount}
    (settlement : Settlement commercial clock account reservation amount settled) :
    ∀ entry ∈ settled, Has entry.2.key (openedFor commercial clock account reservation amount) := by
  intro entry member
  have group : entry.1 ∈ confirmationGroups clock.controlNow reservation.holds
      (confirmingControls commercial reservation amount) :=
    settlement.groups ▸ List.mem_map_of_mem member
  rw [(settlement.confirmed entry member).key]
  apply openWindows_has.mpr
  rcases mem_groups.mp group with ⟨policy, acting, settles, same⟩ | ⟨hold, inside, -, same⟩
  · left
    refine ⟨policy, List.mem_filter.mpr ⟨acting, ?_⟩, by rw [same]; rfl⟩
    rw [settles_iff.mpr settles]
    rfl
  · right
    rw [same]
    exact (tidy.holds reservation settlement.found).2 hold inside

theorem tidy_step (tidy : Tidy account) {write : UsageWrite} (done : write.apply commercial clock account = .ok next) :
    Tidy next := by
  cases write with
  | consume feature entity amount admitted =>
    rcases consume_inv tidy.distinct done with rfl | ⟨policies, -, rfl⟩ | ⟨policies, charges, -, charged, rfl⟩
    · exact tidy
    · exact tidy_opened commercial clock tidy policies
    · have opened := tidy_opened commercial clock tidy policies
      have counted := counted_charges opened.distinct charged.apart fun charge member => (charged.admitted charge member).has
      apply tidy_recorded { account with windows := _ }
      exact tidy_windows opened counted.distinct (fun key has => (counted.has key).mpr has)
        fun key has => opened.windows key ((counted.has key).mp has)
  | reserve feature entity amount expiresIn admitted =>
    rcases reserve_inv tidy.distinct done with rfl | ⟨policies, -, rfl⟩ | ⟨policies, charges, -, charged, rfl⟩
    · exact tidy
    · exact tidy_opened commercial clock tidy policies
    · have opened := tidy_opened commercial clock tidy policies
      obtain ⟨has, -, kept⟩ := holdCharges_keep charges
        (openWindows commercial account.events clock.controlNow policies account.windows)
      have held := tidy_windows opened (kept opened.distinct) (fun key old => (has key).mpr old)
        fun key new => opened.windows key ((has key).mp new)
      refine { held with reservationIds := ?_, freshReservation := ?_, holds := ?_ }
      · simp only [List.map_append, List.map_cons, List.map_nil]
        refine List.nodup_append.mpr ⟨tidy.reservationIds, by simp, ?_⟩
        rintro first inside last single rfl
        obtain ⟨reservation, member, rfl⟩ := List.mem_map.mp inside
        have := tidy.freshReservation reservation member
        rw [List.mem_singleton] at single
        omega
      · intro reservation member
        rw [List.length_append]
        rcases List.mem_append.mp member with old | new
        · have := tidy.freshReservation reservation old
          omega
        · rw [List.mem_singleton] at new
          subst new
          simp
      · intro reservation member
        rcases List.mem_append.mp member with old | new
        · exact held.holds reservation old
        · rw [List.mem_singleton] at new
          subst new
          simp only [List.map_map]
          refine ⟨charged.apart, ?_⟩
          intro hold inside
          obtain ⟨charge, made, rfl⟩ := List.mem_map.mp inside
          exact (has _).mpr (charged.admitted charge made).has
  | confirm id amount admitted =>
    rcases confirm_inv done with rfl | ⟨reservation, member, active, rfl | ⟨-, rfl⟩⟩ | ⟨reservation, settled, -, settlement, rfl⟩
    · exact tidy
    · exact tidy_closed tidy reservation .expired
    · exact tidy_opened commercial clock tidy _
    · have opened := tidy_opened commercial clock tidy
        (settlingControls commercial clock reservation amount)
      have settles := settled_groups opened.distinct (settlement.apart tidy) (settlement.present tidy)
      apply tidy_recorded { account with windows := _, reservations := _ }
      apply tidy_updated { account with windows := _ }
      · exact tidy_windows opened settles.distinct (fun key has => (settles.has key).mpr has)
          fun key has => opened.windows key ((settles.has key).mp has)
      · exact fun row => ⟨rfl, rfl⟩
  | release id =>
    rcases release_inv done with rfl | ⟨reservation, -, -, status, -, rfl⟩
    · exact tidy
    · exact tidy_closed tidy reservation status
  | expire =>
    cases done
    unfold expireUsage
    generalize account.reservations.filter _ = overdue
    induction overdue generalizing account with
    | nil => exact tidy
    | cons reservation rest ih => exact ih (tidy_closed tidy reservation .expired)
  | correct id quantity spendMinorReduction currency =>
    obtain ⟨original, member, -, -, -, rfl⟩ := correct_inv done
    have corrected : Tidy { account with windows :=
        (correctControlConsumption commercial original quantity spendMinorReduction currency account.windows).1 } := by
      refine tidy_windows tidy ?_ ?_ ?_
      · unfold Distinct
        rw [correct_keys]
        exact tidy.distinct
      · exact fun key has => by unfold Has; rwa [correct_keys]
      · exact fun key has => tidy.windows key (by unfold Has at *; rwa [correct_keys] at has)
    refine { corrected with eventIds := ?_, freshEvent := ?_ }
    · simp only [updateAt_keys (addCorrection_id _)]
      exact tidy.eventIds
    · intro event inside
      simp only [updateAt, List.length_map]
      rcases mem_updateAt.mp inside with ⟨old, known, ⟨-, rfl⟩ | ⟨-, rfl⟩⟩
      · exact tidy.freshEvent old known
      · exact tidy.freshEvent _ known

theorem reaches_tidy {may : Commercial → Clock → UsageWrite → ControlledAccount → Prop} (reached : Reaches may account) : Tidy account := by
  induction reached with
  | opened => exact ⟨List.nodup_nil, by simp [Has], by simp, by simp, by simp, by simp, by simp⟩
  | step _ _ done ih => exact tidy_step ih done

end Tidy

end Quotum.Controls
