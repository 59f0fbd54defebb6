import Quotum.General.Outcomes
import Quotum.MeterLimitScopes

/-! A change of the declared scope inside a window hides no usage. The account row empties only when everything written to it is taken
back, so the rows a scope set leaves out carry nothing of what it is asked for. -/

namespace Quotum.MeterLimitScopes
open General Metering MeterLimitSpend

variable {input : MeterLimitWindowInput} {rows : List UsageWindowRow} {quantity : Nat}

variable {row : UsageWindowRow} {entityId : Option Nat} {event : WindowEvent}

def belongs (scope : MeterLimitScope) (entityId : Option Nat) (other : Option Nat) : Bool :=
  scope == .account || other == entityId

/-- The net usage recorded in the window and its active unexpired holds: all of them, or those of one entity. -/
def MeterLimitWindow.recorded (w : MeterLimitWindow) (now : Int) (scope : MeterLimitScope) (entityId excluded : Option Nat) : Exposure where
  usage := ((w.events.filter fun event => belongs scope entityId event.entityId).map WindowEvent.remaining).sum
  held := (((w.reservations.filter (·.counts now excluded)).filter fun reservation => belongs scope entityId reservation.entityId).map
    WindowReservation.heldQuantity).sum

def Placed (rows : List UsageWindowRow) (entityId : Option Nat) (usageWindowId : Nat) : Prop :=
  ∃ row ∈ rows, row.id = usageWindowId ∧ (row.scope = some .account ∨ row.entityId = entityId)

/-- A window from before declared scopes: its rows have no scope, and each has the net usage of its events, which are of its entity. -/
structure Legacy (w : MeterLimitWindow) : Prop where
  rowIds : (w.rows.map UsageWindowRow.id).Nodup
  reservationIds : (w.reservations.map WindowReservation.id).Nodup
  eventIds : (w.events.map WindowEvent.id).Nodup
  rowsKnown : ∀ row ∈ w.rows, row.id < w.nextId
  reservationsKnown : ∀ reservation ∈ w.reservations, reservation.id < w.nextId
  eventsKnown : ∀ event ∈ w.events, event.id < w.nextId
  unscoped : ∀ row ∈ w.rows, row.scope = none
  reserved : ∀ reservation ∈ w.reservations, ∃ row ∈ w.rows, row.id = reservation.usageWindowId ∧ row.entityId = reservation.entityId
  written : ∀ event ∈ w.events, ∃ row ∈ w.rows, row.id = event.usageWindowId ∧ row.entityId = event.entityId
  corrected : ∀ event ∈ w.events, event.corrections.sum ≤ event.quantity
  usage : ∀ row ∈ w.rows, row.usage = totalAt WindowEvent.usageWindowId WindowEvent.remaining row.id w.events

/-- What every state of a window keeps. -/
structure Sound (w : MeterLimitWindow) : Prop where
  rowIds : (w.rows.map UsageWindowRow.id).Nodup
  reservationIds : (w.reservations.map WindowReservation.id).Nodup
  eventIds : (w.events.map WindowEvent.id).Nodup
  rowsKnown : ∀ row ∈ w.rows, row.id < w.nextId
  reservationsKnown : ∀ reservation ∈ w.reservations, reservation.id < w.nextId
  eventsKnown : ∀ event ∈ w.events, event.id < w.nextId
  reserved : ∀ reservation ∈ w.reservations, Placed w.rows reservation.entityId reservation.usageWindowId
  written : ∀ event ∈ w.events, Placed w.rows event.entityId event.usageWindowId
  corrected : ∀ event ∈ w.events, event.corrections.sum ≤ event.quantity
  usage : ∀ row ∈ w.rows, row.usage = totalAt WindowEvent.usageWindowId WindowEvent.remaining row.id w.events

theorem Legacy.sound {w : MeterLimitWindow} (legacy : Legacy w) : Sound w where
  rowIds := legacy.rowIds
  reservationIds := legacy.reservationIds
  eventIds := legacy.eventIds
  rowsKnown := legacy.rowsKnown
  reservationsKnown := legacy.reservationsKnown
  eventsKnown := legacy.eventsKnown
  reserved := by
    intro reservation member
    obtain ⟨row, inside, here, same⟩ := legacy.reserved reservation member
    exact ⟨row, inside, here, .inr same⟩
  written := by
    intro event member
    obtain ⟨row, inside, here, same⟩ := legacy.written event member
    exact ⟨row, inside, here, .inr same⟩
  corrected := legacy.corrected
  usage := legacy.usage

section Reading
variable {w : MeterLimitWindow} {now : Int} {scope : MeterLimitScope}

theorem scopeSet_account (entityId : Option Nat) (row : UsageWindowRow) :
    scopeSetSql (meterLimitScopeSelector .account entityId) row = true := by
  simp [scopeSetSql, meterLimitScopeSelector]

theorem scopeSet_entity (entityId : Option Nat) (own : row.scope ≠ some .account) :
    scopeSetSql (meterLimitScopeSelector .entity entityId) row = (row.entityId == entityId) := by
  cases entityId with
  | some entity => simp [scopeSetSql, meterLimitScopeSelector]
  | none =>
    have bucket : (row.scope != some .account) = true := by simpa using own
    simp only [scopeSetSql, meterLimitScopeSelector, if_true, bucket, Bool.and_true]
    cases row.entityId <;> rfl

theorem governing_entity {declared : MeterLimitScope} (governs : w.governingMeterLimitScope now declared = .entity) :
    ∀ row ∈ w.rows, w.accountHeld now row = false := by
  unfold MeterLimitWindow.governingMeterLimitScope at governs
  cases declared with
  | account => cases governs
  | entity =>
    dsimp only at governs
    split at governs
    · cases governs
    · next empty => exact fun row member => Bool.eq_false_iff.mpr fun held => empty (List.any_eq_true.mpr ⟨row, member, held⟩)

theorem Placed.entity (distinct : (rows.map UsageWindowRow.id).Nodup)
    (placed : Placed rows entityId row.id) (member : row ∈ rows) (own : row.scope ≠ some .account) : row.entityId = entityId := by
  obtain ⟨other, inside, same, account | entity⟩ := placed
  · obtain rfl := List.inj_on_of_nodup_map distinct inside member same
    exact absurd account own
  · obtain rfl := List.inj_on_of_nodup_map distinct inside member same
    exact entity

theorem Placed.covered {usageWindowId : Nat} (placed : Placed rows entityId usageWindowId) :
    usageWindowId ∈ rows.map UsageWindowRow.id := by
  obtain ⟨row, inside, rfl, -⟩ := placed
  exact List.mem_map_of_mem inside

/-- What an event still records is part of its row's usage. -/
theorem remaining_le {events : List WindowEvent} (member : event ∈ events) :
    event.remaining ≤ totalAt WindowEvent.usageWindowId WindowEvent.remaining event.usageWindowId events := by
  apply List.single_le_sum (fun _ _ => Nat.zero_le _)
  exact List.mem_map_of_mem (List.mem_filter.mpr ⟨member, by simp⟩)

theorem Sound.event_entity (sound : Sound w) (member : row ∈ w.rows) (empty : w.accountHeld now row = false)
    (inside : event ∈ w.events) (here : event.usageWindowId = row.id) (some_ : event.remaining ≠ 0) :
    row.scope ≠ some .account := by
  intro account
  have used : 0 < row.usage := by
    rw [sound.usage row member, ← here]
    exact (Nat.pos_of_ne_zero some_).trans_le (remaining_le inside)
  simp [MeterLimitWindow.accountHeld, account, used] at empty

theorem hold_entity (empty : w.accountHeld now row = false) {reservation : WindowReservation}
    (inside : reservation ∈ w.reservations) (here : reservation.usageWindowId = row.id) (holds : reservation.holdsAt now = true) :
    row.scope ≠ some .account := by
  intro account
  unfold MeterLimitWindow.accountHeld at empty
  have found : (w.reservations.any fun other => other.usageWindowId == row.id && other.holdsAt now) = true :=
    List.any_eq_true.mpr ⟨reservation, inside, by simp [here, holds]⟩
  simp [account, found] at empty

/-- The rows of the governing set carry what belongs to it, and only that. -/
theorem part_of (entityId : Option Nat) {other : Option Nat}
    (own : scope = .entity → row.scope ≠ some .account ∧ row.entityId = other) :
    scopeSetSql (meterLimitScopeSelector scope entityId) row = belongs scope entityId other := by
  cases scope with
  | account => rw [scopeSet_account, belongs, beq_self_eq_true, Bool.true_or]
  | entity =>
    obtain ⟨apart, same⟩ := own rfl
    rw [scopeSet_entity entityId apart, same, belongs]
    simp

theorem Sound.exposure (sound : Sound w) (entityId excluded : Option Nat)
    (governs : scope = .entity → ∀ row ∈ w.rows, w.accountHeld now row = false) :
    w.readScopeSetExposure now (meterLimitScopeSelector scope entityId) excluded = w.recorded now scope entityId excluded := by
  unfold MeterLimitWindow.readScopeSetExposure MeterLimitWindow.recorded
  rw [Exposure.mk.injEq]
  constructor
  · rw [List.map_congr_left fun row member => sound.usage row (List.mem_of_mem_filter member)]
    apply totalAt_part sound.rowIds fun event member => (sound.written event member).covered
    intro row member event inside here some_
    apply part_of
    intro entity
    have own := sound.event_entity member (governs entity row member) inside here some_
    exact ⟨own, Placed.entity sound.rowIds (here ▸ sound.written event inside) member own⟩
  · apply totalAt_part sound.rowIds fun reservation member => (sound.reserved reservation (List.mem_of_mem_filter member)).covered
    intro row member reservation inside here _
    obtain ⟨present, counts⟩ := List.mem_filter.mp inside
    apply part_of
    intro entity
    have own := hold_entity (governs entity row member) present here (Bool.and_eq_true_iff.mp counts).1
    exact ⟨own, Placed.entity sound.rowIds (here ▸ sound.reserved reservation present) member own⟩

end Reading

section Steps
variable {w next : MeterLimitWindow} {now : Int} {id : Nat} {cleared : Bool}

theorem Placed.mono {later : List UsageWindowRow} {usageWindowId : Nat}
    (placed : Placed rows entityId usageWindowId)
    (kept : Continues (fun row next => next.id = row.id ∧ next.scope = row.scope ∧ next.entityId = row.entityId) rows later) :
    Placed later entityId usageWindowId := by
  obtain ⟨row, inside, here, either⟩ := placed
  obtain ⟨next, still, same, scope, entity⟩ := kept row inside
  exact ⟨next, still, same.trans here, by rw [scope, entity]; exact either⟩

theorem kept_updateAt (id : Nat) {change : UsageWindowRow → UsageWindowRow}
    (same : ∀ row, (change row).id = row.id ∧ (change row).scope = row.scope ∧ (change row).entityId = row.entityId)
    (rows : List UsageWindowRow) :
    Continues (fun row next => next.id = row.id ∧ next.scope = row.scope ∧ next.entityId = row.entityId) rows
      (updateAt UsageWindowRow.id id change rows) := by
  apply Continues.map
  intro row _
  split
  · exact same row
  · exact ⟨rfl, rfl, rfl⟩

/-- Nothing is recorded on a row that is not there yet. -/
theorem Sound.unwritten (sound : Sound w) : totalAt WindowEvent.usageWindowId WindowEvent.remaining w.nextId w.events = 0 := by
  apply totalAt_absent
  intro member
  obtain ⟨event, inside, here⟩ := List.mem_map.mp member
  obtain ⟨row, present, same, -⟩ := sound.written event inside
  exact (sound.rowsKnown row present).ne (same.trans here)

structure Upserted (w : MeterLimitWindow) (selector : MeterLimitScopeSelector) (row : UsageWindowRow) (next : MeterLimitWindow) : Prop where
  member : row ∈ next.rows
  scope : row.scope = some selector.scope
  entity : row.entityId = selector.entityId
  events : next.events = w.events
  reservations : next.reservations = w.reservations
  ends : next.windowEndAt = w.windowEndAt
  held : ∀ now, next.rows.any (next.accountHeld now) = w.rows.any (w.accountHeld now)
  sound : Sound next

theorem Sound.upsert (sound : Sound w) (selector : MeterLimitScopeSelector) :
    Upserted w selector (w.upsertUsageWindow selector).1 (w.upsertUsageWindow selector).2 := by
  unfold MeterLimitWindow.upsertUsageWindow
  split
  · next row found =>
    have test := List.find?_some found
    simp only [Bool.and_eq_true, beq_iff_eq] at test
    exact ⟨List.mem_of_find?_eq_some found, test.2, test.1.1, rfl, rfl, rfl, fun _ => rfl, sound⟩
  · have kept : Continues (fun row next => next.id = row.id ∧ next.scope = row.scope ∧ next.entityId = row.entityId) w.rows
        (w.rows ++ [⟨w.nextId, selector.entityId, none, some selector.scope, 0⟩]) :=
      Continues.append (fun _ => ⟨rfl, rfl, rfl⟩) _ _
    refine ⟨List.mem_append_right _ (List.mem_singleton_self _), rfl, rfl, rfl, rfl, rfl, ?_, ?_⟩
    · intro now
      have empty : w.accountHeld now ⟨w.nextId, selector.entityId, none, some selector.scope, 0⟩ = false := by
        have nothing : (w.reservations.any fun reservation => reservation.usageWindowId == w.nextId && reservation.holdsAt now) = false := by
          rw [List.any_eq_false]
          intro reservation inside
          obtain ⟨row, present, same, -⟩ := sound.reserved reservation inside
          have known := sound.rowsKnown row present
          simp only [Bool.and_eq_true, beq_iff_eq, not_and]
          omega
        simp [MeterLimitWindow.accountHeld, nothing]
      rw [List.any_append]
      simp only [List.any_cons, List.any_nil, Bool.or_false]
      exact (congrArg _ empty).trans (Bool.or_false _)
    · exact {
        rowIds := nodup_fresh sound.rowIds sound.rowsKnown rfl
        reservationIds := sound.reservationIds
        eventIds := sound.eventIds
        rowsKnown := known_fresh sound.rowsKnown rfl
        reservationsKnown := fun reservation member => Nat.lt_succ_of_lt (sound.reservationsKnown reservation member)
        eventsKnown := fun event member => Nat.lt_succ_of_lt (sound.eventsKnown event member)
        reserved := fun reservation member => (sound.reserved reservation member).mono kept
        written := fun event member => (sound.written event member).mono kept
        corrected := sound.corrected
        usage := by
          intro row member
          rcases List.mem_append.mp member with old | created
          · exact sound.usage row old
          · obtain rfl := List.mem_singleton.mp created
            exact sound.unwritten.symm }

structure LockedFor (w : MeterLimitWindow) (now : Int) (input : MeterLimitWindowInput) (locked : LockedMeterLimitWindow)
    (next : MeterLimitWindow) : Prop where
  member : locked.window ∈ next.rows
  placed : locked.window.scope = some .account ∨ locked.window.entityId = input.entityId
  events : next.events = w.events
  reservations : next.reservations = w.reservations
  ends : next.windowEndAt = w.windowEndAt
  sound : Sound next
  scope : locked.scope = w.governingMeterLimitScope now input.meterLimit.scope
  exposure : locked.exposure = w.recorded now locked.scope input.entityId none

theorem Sound.locked (sound : Sound w) {locked : LockedMeterLimitWindow}
    (succeeded : w.lockMeterLimitWindow now input = .ok (locked, next)) : LockedFor w now input locked next := by
  unfold MeterLimitWindow.lockMeterLimitWindow at succeeded
  split at succeeded
  · cases succeeded
  · have upserted := sound.upsert (w.meterLimitScope now input.meterLimit.scope input.entityId)
    unfold MeterLimitWindow.meterLimitScope at upserted succeeded
    dsimp only at succeeded
    generalize governs : w.governingMeterLimitScope now input.meterLimit.scope = scope at upserted succeeded
    generalize w.upsertUsageWindow (meterLimitScopeSelector scope input.entityId) = result at upserted succeeded
    obtain ⟨window, after⟩ := result
    dsimp only at upserted
    cases succeeded
    refine ⟨upserted.member, ?_, upserted.events, upserted.reservations, upserted.ends, upserted.sound, governs.symm, ?_⟩
    · rw [upserted.scope, upserted.entity]
      cases scope with
      | account => exact .inl rfl
      | entity => exact .inr rfl
    · have same : after.governingMeterLimitScope now input.meterLimit.scope = scope := by
        rw [← governs]
        unfold MeterLimitWindow.governingMeterLimitScope
        simp only [upserted.held]
      have empty : scope = .entity → ∀ row ∈ after.rows, after.accountHeld now row = false :=
        fun entity => governing_entity (same.trans entity)
      have read := upserted.sound.exposure input.entityId none empty
      refine read.trans ?_
      unfold MeterLimitWindow.recorded
      rw [upserted.events, upserted.reservations]
      rfl

theorem Sound.record (sound : Sound w) (member : row ∈ w.rows)
    (placed : row.scope = some .account ∨ row.entityId = entityId) (quantity : Nat) : Sound (w.record row.id entityId quantity) := by
  let add : UsageWindowRow → UsageWindowRow := fun row => { row with usage := row.usage + quantity }
  have kept := @kept_updateAt row.id add (fun _ => ⟨rfl, rfl, rfl⟩) w.rows
  have keys := @updateAt_keys _ _ _ UsageWindowRow.id row.id add (fun _ => rfl) w.rows
  exact {
    rowIds := keys ▸ sound.rowIds
    reservationIds := sound.reservationIds
    eventIds := nodup_fresh sound.eventIds sound.eventsKnown rfl
    rowsKnown := by
      intro other inside
      obtain ⟨old, present, same⟩ := List.mem_map.mp (keys ▸ List.mem_map_of_mem (f := UsageWindowRow.id) inside)
      exact same ▸ Nat.lt_succ_of_lt (sound.rowsKnown old present)
    reservationsKnown := fun reservation inside => Nat.lt_succ_of_lt (sound.reservationsKnown reservation inside)
    eventsKnown := known_fresh sound.eventsKnown rfl
    reserved := fun reservation inside => (sound.reserved reservation inside).mono kept
    written := by
      intro event inside
      rcases List.mem_append.mp inside with old | created
      · exact (sound.written event old).mono kept
      · obtain rfl := List.mem_singleton.mp created
        have here : Placed w.rows entityId row.id := ⟨row, member, rfl, placed⟩
        exact here.mono kept
    corrected := by
      intro event inside
      rcases List.mem_append.mp inside with old | created
      · exact sound.corrected event old
      · obtain rfl := List.mem_singleton.mp created
        exact Nat.zero_le _
    usage := by
      intro other inside
      unfold MeterLimitWindow.record
      rw [totalAt_append, totalAt_cons, totalAt_nil, add_zero]
      obtain ⟨old, present, ⟨here, rfl⟩ | ⟨apart, rfl⟩⟩ := mem_updateAt.mp inside
      · rw [if_pos here.symm, ← sound.usage old present]
        rfl
      · rw [if_neg (Ne.symm apart), add_zero]
        exact sound.usage other present }

theorem Sound.reservations_map (sound : Sound w) {change : WindowReservation → WindowReservation}
    (kept : ∀ reservation, (change reservation).id = reservation.id ∧ (change reservation).entityId = reservation.entityId ∧
      (change reservation).usageWindowId = reservation.usageWindowId) : Sound { w with reservations := w.reservations.map change } where
  __ := sound
  reservationIds := by
    rw [map_kept fun reservation => (kept reservation).1]
    exact sound.reservationIds
  reservationsKnown := by
    intro reservation member
    obtain ⟨old, inside, rfl⟩ := List.mem_map.mp member
    rw [(kept old).1]
    exact sound.reservationsKnown old inside
  reserved := by
    intro reservation member
    obtain ⟨old, inside, rfl⟩ := List.mem_map.mp member
    rw [(kept old).2.1, (kept old).2.2]
    exact sound.reserved old inside

theorem Sound.finalize (sound : Sound w) (id : Nat) (status : ReservationStatus) (confirmedQuantity : Option Nat) :
    Sound (w.finalize id status confirmedQuantity) := by
  apply sound.reservations_map
  intro reservation
  split
  · dsimp only
    split <;> exact ⟨rfl, rfl, rfl⟩
  · exact ⟨rfl, rfl, rfl⟩

theorem Sound.expired (sound : Sound w) (clock : Int) : Sound (w.expireSubjectReservations clock) := by
  apply sound.reservations_map
  intro reservation
  split <;> exact ⟨rfl, rfl, rfl⟩

theorem Sound.reserve (sound : Sound w) {reservation : WindowReservation} (fresh : reservation.id = w.nextId)
    (placed : Placed w.rows reservation.entityId reservation.usageWindowId) :
    Sound { w with reservations := w.reservations ++ [reservation], nextId := w.nextId + 1 } where
  rowIds := sound.rowIds
  reservationIds := nodup_fresh sound.reservationIds sound.reservationsKnown fresh
  eventIds := sound.eventIds
  rowsKnown := fun row member => Nat.lt_succ_of_lt (sound.rowsKnown row member)
  reservationsKnown := known_fresh sound.reservationsKnown fresh
  eventsKnown := fun event member => Nat.lt_succ_of_lt (sound.eventsKnown event member)
  reserved := by
    intro other member
    rcases List.mem_append.mp member with old | created
    · exact sound.reserved other old
    · obtain rfl := List.mem_singleton.mp created
      exact placed
  written := sound.written
  corrected := sound.corrected
  usage := sound.usage

/-- A correction that is accepted while the window is open takes its quantity off its event and off the event's row. -/
structure Reversed (w : MeterLimitWindow) (id quantity : Nat) (event : WindowEvent) (row : UsageWindowRow) (next : MeterLimitWindow) :
    Prop where
  recorded : event ∈ w.events
  named : event.id = id
  within : quantity ≤ event.remaining
  positive : 0 < quantity
  counted : row ∈ w.rows
  here : row.id = event.usageWindowId
  place : row.scope = some .account ∨ row.entityId = event.entityId
  rows : next.rows = updateAt UsageWindowRow.id row.id (fun row => if quantity ≤ row.usage then { row with usage := row.usage - quantity } else row)
    w.rows
  events : next.events = updateAt WindowEvent.id event.id (WindowEvent.corrected quantity) w.events
  reservations : next.reservations = w.reservations
  ends : next.windowEndAt = w.windowEndAt
  nextId : next.nextId = w.nextId

theorem Sound.reversed (sound : Sound w) (inside : now < w.windowEndAt)
    (accepted : w.correct now id quantity = .ok next) : ∃ event row, Reversed w id quantity event row next := by
  unfold MeterLimitWindow.correct at accepted
  split at accepted
  · cases accepted
  · next positive =>
    split at accepted
    · cases accepted
    · next event found =>
      split at accepted
      · cases accepted
      · next enough =>
        obtain ⟨member, rfl⟩ := findAt_inv found
        obtain ⟨row, present, here, place⟩ := sound.written event member
        unfold MeterLimitWindow.reverseMeterLimitUsageIfEligible at accepted
        rw [if_pos inside] at accepted
        cases accepted
        refine ⟨event, row, member, rfl, Nat.not_lt.mp enough, Nat.pos_of_ne_zero positive, present, here, place, ?_, rfl, rfl, rfl, rfl⟩
        rw [here]

theorem Reversed.usage_le (reversed : Reversed w id quantity event row next) (sound : Sound w) : quantity ≤ row.usage := by
  rw [sound.usage row reversed.counted, reversed.here]
  exact reversed.within.trans (remaining_le reversed.recorded)

theorem Reversed.sound (reversed : Reversed w id quantity event row next) (sound : Sound w) : Sound next := by
  have change_id (other : UsageWindowRow) :
      (if quantity ≤ other.usage then { other with usage := other.usage - quantity } else other).id = other.id := by
    split <;> rfl
  have kept : Continues (fun row next => next.id = row.id ∧ next.scope = row.scope ∧ next.entityId = row.entityId) w.rows next.rows := by
    rw [reversed.rows]
    apply kept_updateAt
    intro other
    split <;> exact ⟨rfl, rfl, rfl⟩
  have rowKeys : next.rows.map UsageWindowRow.id = w.rows.map UsageWindowRow.id := by
    rw [reversed.rows]
    exact updateAt_keys change_id w.rows
  have eventKeys : next.events.map WindowEvent.id = w.events.map WindowEvent.id := by
    rw [reversed.events]
    exact @updateAt_keys _ _ _ WindowEvent.id event.id (WindowEvent.corrected quantity) (fun _ => rfl) w.events
  have events {other : WindowEvent} (inside : other ∈ next.events) : ∃ old ∈ w.events, old.id = other.id ∧
      old.entityId = other.entityId ∧ old.usageWindowId = other.usageWindowId ∧ (other = old ∨ old = event ∧ other = event.corrected quantity) := by
    rw [reversed.events] at inside
    obtain ⟨old, present, ⟨same, rfl⟩ | ⟨-, rfl⟩⟩ := mem_updateAt.mp inside
    · obtain rfl := List.inj_on_of_nodup_map sound.eventIds present reversed.recorded same
      exact ⟨old, present, rfl, rfl, rfl, .inr ⟨rfl, rfl⟩⟩
    · exact ⟨other, present, rfl, rfl, rfl, .inl rfl⟩
  have within := reversed.within
  have all (other : WindowEvent) : (other.corrected quantity).corrections.sum = other.corrections.sum + quantity := by
    simp [WindowEvent.corrected]
  have taken : (event.corrected quantity).remaining = event.remaining - quantity := by
    unfold WindowEvent.remaining
    rw [all, Nat.sub_add_eq]
    rfl
  exact {
    rowIds := rowKeys ▸ sound.rowIds
    reservationIds := by
      rw [reversed.reservations]
      exact sound.reservationIds
    eventIds := eventKeys ▸ sound.eventIds
    rowsKnown := by
      intro other inside
      obtain ⟨old, present, same⟩ := List.mem_map.mp (rowKeys ▸ List.mem_map_of_mem (f := UsageWindowRow.id) inside)
      rw [reversed.nextId, ← same]
      exact sound.rowsKnown old present
    reservationsKnown := by
      rw [reversed.reservations, reversed.nextId]
      exact sound.reservationsKnown
    eventsKnown := by
      intro other inside
      obtain ⟨old, present, same, -⟩ := events inside
      rw [reversed.nextId, ← same]
      exact sound.eventsKnown old present
    reserved := by
      rw [reversed.reservations]
      exact fun reservation inside => (sound.reserved reservation inside).mono kept
    written := by
      intro other inside
      obtain ⟨old, present, -, entity, window, -⟩ := events inside
      rw [← entity, ← window]
      exact (sound.written old present).mono kept
    corrected := by
      intro other inside
      obtain ⟨old, present, -, -, -, rfl | ⟨rfl, rfl⟩⟩ := events inside
      · exact sound.corrected other present
      · have before := sound.corrected old present
        have same : (old.corrected quantity).quantity = old.quantity := rfl
        unfold WindowEvent.remaining at within
        rw [all, same]
        omega
    usage := by
      intro other inside
      have moved : totalAt WindowEvent.usageWindowId WindowEvent.remaining other.id next.events +
          (if event.usageWindowId = other.id then event.remaining else 0) =
            totalAt WindowEvent.usageWindowId WindowEvent.remaining other.id w.events +
              if event.usageWindowId = other.id then event.remaining - quantity else 0 := by
        rw [reversed.events, ← taken]
        exact totalAt_change sound.eventIds reversed.recorded (WindowEvent.corrected quantity) other.id
      rw [reversed.rows] at inside
      obtain ⟨old, present, ⟨here, rfl⟩ | ⟨apart, rfl⟩⟩ := mem_updateAt.mp inside
      · obtain rfl := List.inj_on_of_nodup_map sound.rowIds present reversed.counted here
        have before := sound.usage old present
        rw [change_id, if_pos reversed.here.symm, if_pos reversed.here.symm] at moved
        rw [change_id, if_pos (reversed.usage_le sound)]
        dsimp only
        omega
      · rw [reversed.here] at apart
        rw [if_neg (Ne.symm apart), if_neg (Ne.symm apart), add_zero, add_zero] at moved
        rw [moved]
        exact sound.usage other present }

theorem Reversed.lowers (reversed : Reversed w id quantity event row next)
    (sound : Sound w) (instant : Int) (declared : MeterLimitScope) (excluded : Option Nat) :
    (next.readScopeSetExposure instant (w.meterLimitScope instant declared event.entityId) excluded).usage + quantity =
      (w.readScopeSetExposure instant (w.meterLimitScope instant declared event.entityId) excluded).usage := by
  have inside : scopeSetSql (w.meterLimitScope instant declared event.entityId) row = true := by
    have own : w.governingMeterLimitScope instant declared = .entity → row.scope ≠ some .account ∧ row.entityId = event.entityId := by
      intro governs
      have apart := sound.event_entity reversed.counted (governing_entity governs row reversed.counted) reversed.recorded reversed.here.symm
        (reversed.positive.trans_le reversed.within).ne'
      exact ⟨apart, reversed.place.resolve_left apart⟩
    unfold MeterLimitWindow.meterLimitScope
    rw [part_of event.entityId own, belongs, beq_self_eq_true, Bool.or_true]
  generalize w.meterLimitScope instant declared event.entityId = selector at inside ⊢
  have enough := reversed.usage_le sound
  have moved := updateAt_sum sound.rowIds reversed.counted
    (fun row => if quantity ≤ row.usage then { row with usage := row.usage - quantity } else row)
    fun row => if scopeSetSql selector row then row.usage else 0
  have still : scopeSetSql selector { row with usage := row.usage - quantity } = true := inside
  rw [← reversed.rows, ← sum_part, ← sum_part, if_pos inside, if_pos enough, if_pos still] at moved
  unfold MeterLimitWindow.readScopeSetExposure
  dsimp only at moved ⊢
  omega

theorem Sound.consume (sound : Sound w) (succeeded : w.consume now input cleared = .ok next) :
    Sound next ∧ next.windowEndAt = w.windowEndAt := by
  unfold MeterLimitWindow.consume at succeeded
  split at succeeded
  · cases succeeded
  · obtain ⟨⟨locked, after⟩, found, succeeded⟩ := bind_ok succeeded
    have lock := sound.locked found
    dsimp only at succeeded
    split at succeeded
    · cases succeeded
      exact ⟨lock.sound, lock.ends⟩
    · split at succeeded
      · cases succeeded
      · cases succeeded
        exact ⟨lock.sound.record lock.member lock.placed input.quantity, lock.ends⟩

theorem Sound.reserveMeterLimit (sound : Sound w) {startsAt : Int} {expiresInSeconds : Nat}
    (succeeded : w.reserveMeterLimit now startsAt expiresInSeconds input cleared = .ok next) :
    Sound next ∧ next.windowEndAt = w.windowEndAt := by
  unfold MeterLimitWindow.reserveMeterLimit at succeeded
  split at succeeded
  · cases succeeded
  · obtain ⟨⟨locked, after⟩, found, succeeded⟩ := bind_ok succeeded
    have lock := sound.locked found
    dsimp only at succeeded
    split at succeeded
    · cases succeeded
      exact ⟨lock.sound, lock.ends⟩
    · cases succeeded
      exact ⟨lock.sound.reserve rfl ⟨locked.window, lock.member, rfl, lock.placed⟩, lock.ends⟩

theorem Sound.confirm (sound : Sound w) {lockedAt : Int} {meterLimit : ScopedLimit}
    (succeeded : w.confirm now lockedAt id quantity meterLimit cleared = .ok next) : Sound next ∧ next.windowEndAt = w.windowEndAt := by
  unfold MeterLimitWindow.confirm at succeeded
  split at succeeded
  · cases succeeded
  · next reservation found =>
    have present := (findAt_inv found).1
    split at succeeded
    · cases succeeded
    · split at succeeded
      · split at succeeded
        · cases succeeded
          exact ⟨sound, rfl⟩
        · cases succeeded
      · cases succeeded
        exact ⟨sound, rfl⟩
      · cases succeeded
      · split at succeeded
        · cases succeeded
          exact ⟨sound.finalize id .expired none, rfl⟩
        · split at succeeded
          · cases succeeded
          · unfold MeterLimitWindow.confirmMeterLimitReservation at succeeded
            split at succeeded
            · cases succeeded
            · next window located =>
              obtain ⟨member, same⟩ := findAt_inv located
              split at succeeded
              · cases succeeded
              · split at succeeded
                · cases succeeded
                  exact ⟨sound, rfl⟩
                · cases succeeded
                  obtain ⟨row, inside, here, place⟩ := sound.reserved reservation present
                  obtain rfl := List.inj_on_of_nodup_map sound.rowIds member inside (same.trans here.symm)
                  exact ⟨(sound.record member place quantity).finalize _ _ _, rfl⟩

theorem Sound.apply (sound : Sound w) (inside : now < w.windowEndAt) {operation : WindowOperation}
    (succeeded : w.apply now operation = .ok next) : Sound next ∧ next.windowEndAt = w.windowEndAt := by
  cases operation with
  | consume input cleared => exact sound.consume succeeded
  | reserve startsAt expiresInSeconds input cleared => exact sound.reserveMeterLimit succeeded
  | confirm lockedAt id quantity meterLimit cleared => exact sound.confirm succeeded
  | release lockedAt id =>
    change w.release lockedAt id = .ok next at succeeded
    unfold MeterLimitWindow.release at succeeded
    split at succeeded
    · cases succeeded
    · cases succeeded
      exact ⟨sound.finalize _ _ _, rfl⟩
  | expire clock =>
    cases succeeded
    exact ⟨sound.expired clock, rfl⟩
  | correct id quantity =>
    obtain ⟨event, row, reversed⟩ := sound.reversed inside succeeded
    exact ⟨reversed.sound sound, reversed.ends⟩

theorem Sound.run (sound : Sound w) {steps : List (Int × WindowOperation)} (inside : ∀ step ∈ steps, step.1 < w.windowEndAt) :
    Sound (w.run steps) ∧ (w.run steps).windowEndAt = w.windowEndAt := by
  unfold MeterLimitWindow.run
  induction steps generalizing w with
  | nil => exact ⟨sound, rfl⟩
  | cons step rest ih =>
    have reached : Sound (w.after step.1 step.2) ∧ (w.after step.1 step.2).windowEndAt = w.windowEndAt := by
      unfold MeterLimitWindow.after
      split
      · next next succeeded => exact sound.apply (inside step List.mem_cons_self) succeeded
      · exact ⟨sound, rfl⟩
    have later := ih reached.1 fun other member => reached.2 ▸ inside other (List.mem_cons_of_mem _ member)
    exact ⟨later.1, later.2.trans reached.2⟩

end Steps

/-- Whatever scopes were declared on the way, a decision inside a window counts the net usage recorded in it and its active unexpired holds:
all of them under the account scope, those of the entity under the entity scope. A correction lowers the set that governs its event. -/
theorem scope_change_frees_nothing {start : MeterLimitWindow} (legacy : Legacy start) {steps : List (Int × WindowOperation)}
    (inside : ∀ step ∈ steps, step.1 < start.windowEndAt) (now : Int) :
    (∀ declared entityId excluded,
      (start.run steps).readScopeSetExposure now ((start.run steps).meterLimitScope now declared entityId) excluded =
        (start.run steps).recorded now ((start.run steps).governingMeterLimitScope now declared) entityId excluded) ∧
    (∀ input locked next, (start.run steps).lockMeterLimitWindow now input = .ok (locked, next) →
      locked.scope = (start.run steps).governingMeterLimitScope now input.meterLimit.scope ∧
        locked.exposure = (start.run steps).recorded now locked.scope input.entityId none) ∧
    ∀ id quantity next, now < start.windowEndAt → (start.run steps).correct now id quantity = .ok next →
      ∃ event ∈ (start.run steps).events, event.id = id ∧ ∀ instant declared excluded,
        (next.readScopeSetExposure instant ((start.run steps).meterLimitScope instant declared event.entityId) excluded).usage + quantity =
          ((start.run steps).readScopeSetExposure instant ((start.run steps).meterLimitScope instant declared event.entityId) excluded).usage := by
  obtain ⟨sound, ends⟩ := legacy.sound.run inside
  refine ⟨?_, ?_, ?_⟩
  · intro declared entityId excluded
    exact sound.exposure entityId excluded governing_entity
  · intro input locked next succeeded
    have lock := sound.locked succeeded
    exact ⟨lock.scope, lock.exposure⟩
  · intro id quantity next open_ accepted
    obtain ⟨event, row, reversed⟩ := sound.reversed (ends ▸ open_) accepted
    exact ⟨event, reversed.recorded, reversed.named, reversed.lowers sound⟩

/-- A window with usage of two entities from before declared scopes. -/
def legacyWindow : MeterLimitWindow where
  windowEndAt := 1000
  rows := [⟨0, some 7, none, none, 4⟩, ⟨1, some 8, some "region", none, 2⟩]
  reservations := []
  events := [⟨2, some 7, 0, 5, [1]⟩, ⟨3, some 8, 1, 2, []⟩]
  nextId := 4

/-- Entity scope, account scope with a hold, entity scope again, and corrections that empty the account row. -/
def scopeChanges : List (Int × WindowOperation) :=
  let entity : ScopedLimit := ⟨20, .blocked, false, .entity, false⟩
  let account : ScopedLimit := ⟨20, .blocked, false, .account, false⟩
  [(10, .consume ⟨some 7, entity, 3⟩ true), (20, .consume ⟨some 7, account, 2⟩ true), (30, .reserve 30 1 ⟨some 8, account, 1⟩ true),
    (40, .consume ⟨some 8, entity, 1⟩ true), (50, .confirm 50 8 1 entity true), (60, .correct 7 2), (60, .correct 9 1), (60, .correct 10 1)]

theorem scope_change_frees_nothing_changes :
    (legacyWindow.run scopeChanges).readScopeSetExposure 70 ((legacyWindow.run scopeChanges).meterLimitScope 70 .account (some 7)) none =
      (legacyWindow.run scopeChanges).recorded 70 ((legacyWindow.run scopeChanges).governingMeterLimitScope 70 .account) (some 7) none :=
  (scope_change_frees_nothing
    { rowIds := by decide, reservationIds := by decide, eventIds := by decide, rowsKnown := by decide, reservationsKnown := by decide,
      eventsKnown := by decide, unscoped := by decide, reserved := by decide, written := by decide, corrected := by decide,
      usage := by decide } (by decide) 70).1 .account (some 7) none

end Quotum.MeterLimitScopes
