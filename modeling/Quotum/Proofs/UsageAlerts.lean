import Quotum.UsageAlerts
import Quotum.Proofs.Replacements

/-! Usage alerts follow the usage of their window: every evaluated write leaves an alert's count at the net usage
of its window, crossed when that reaches the threshold, with the crossings and rearmings of a window in turn. -/

namespace Quotum.Controls
open General Cadences Metering

def alertCounts (alert : UsageAlert) (window : Bounds) (event : ControlledEvent) : Bool :=
  alert.concerns event.feature event.entity && controlWindowBounds alert.interval event.recordedAt == window

def alertUsage (alert : UsageAlert) (window : Bounds) (events : List ControlledEvent) : Int :=
  netOf (alertCounts alert window) events

/-- The crossings of one window in order: each is crossed and, unless it is the last of a crossed alert, rearmed. -/
def turns : Nat → Bool → List (Nat × AlertEventType)
  | 0, _ => []
  | count + 1, crossed =>
    turns count false ++ (count + 1, .thresholdCrossed) :: if crossed then [] else [(count + 1, .thresholdRearmed)]

/-- The numbers and types of the events an alert recorded in the window that starts at an instant. -/
def eventsIn (startAt : Int) (events : List AlertEvent) : List (Nat × AlertEventType) :=
  (events.filter fun event => event.windowStartAt == startAt).map fun event => (event.crossingSequence, event.eventType)

variable {event : ControlledEvent}

section Windows
variable {interval : Option Cadence} {now time : Int}

private theorem alertWindow_contains (bounded : interval ≠ none) (now : Int) :
    (controlWindowBounds interval now).contains now = true := by
  cases interval with
  | none => exact absurd rfl bounded
  | some cadence => exact calendarWindow_contains cadence now

private theorem alertWindow_unique (inside : (controlWindowBounds interval now).contains time = true) :
    controlWindowBounds interval time = controlWindowBounds interval now := by
  cases interval with
  | none => rfl
  | some cadence => exact calendarWindow_unique cadence inside

private theorem start_earlier (earlier : now ≤ time)
    (same : (controlWindowBounds interval now).startAt = (controlWindowBounds interval time).startAt) :
    controlWindowBounds interval now = controlWindowBounds interval time := by
  cases interval with
  | none => rfl
  | some cadence =>
    apply alertWindow_unique
    have here := (contains_iff.mp (calendarWindow_contains cadence now)).1
    have there := (contains_iff.mp (calendarWindow_contains cadence time)).2
    apply contains_iff.mpr
    exact ⟨same ▸ here, fun ending last => earlier.trans_lt (there ending last)⟩

private theorem alertWindow_start (same : (controlWindowBounds interval now).startAt = (controlWindowBounds interval time).startAt) :
    controlWindowBounds interval now = controlWindowBounds interval time := by
  rcases le_total now time with earlier | later
  · exact start_earlier earlier same
  · exact (start_earlier later same.symm).symm

private theorem alertWindow_iff {alert : UsageAlert} :
    alertCounts alert (controlWindowBounds alert.interval now) event = true ↔
      alert.concerns event.feature event.entity = true ∧
        (controlWindowBounds alert.interval event.recordedAt).startAt = (controlWindowBounds alert.interval now).startAt := by
  unfold alertCounts
  rw [Bool.and_eq_true, beq_iff_eq]
  exact and_congr_right fun _ => ⟨congrArg Bounds.startAt, alertWindow_start⟩

private theorem readAlertWindowUsage_eq (alert : UsageAlert) (now : Int) (events : List ControlledEvent) :
    readAlertWindowUsage alert (controlWindowBounds alert.interval now) events =
      (alertUsage alert (controlWindowBounds alert.interval now) events).toNat := by
  have same : ∀ event : ControlledEvent, (event.feature == alert.feature &&
      (alert.entity.isNone || alert.entity == event.entity) &&
        ((controlWindowBounds alert.interval now).endAt.isNone ||
          (controlWindowBounds alert.interval now).contains event.recordedAt)) =
      alertCounts alert (controlWindowBounds alert.interval now) event := by
    intro event
    have inside : ((controlWindowBounds alert.interval now).endAt.isNone ||
        (controlWindowBounds alert.interval now).contains event.recordedAt) =
        (controlWindowBounds alert.interval event.recordedAt == controlWindowBounds alert.interval now) := by
      cases cadence : alert.interval with
      | none => simp [controlWindowBounds]
      | some unit =>
        rw [Bool.eq_iff_iff, Bool.or_eq_true, beq_iff_eq]
        constructor
        · rintro (endless | contains)
          · exact absurd (Option.isNone_iff_eq_none.mp endless) (calendarWindow_ends unit now)
          · exact alertWindow_unique contains
        · intro one
          right
          rw [← one]
          exact alertWindow_contains (by simp) _
    rw [inside]
    unfold alertCounts UsageAlert.concerns
    rw [Bool.beq_comm]
  unfold readAlertWindowUsage alertUsage netOf
  simp only [same]

end Windows

section Turns

private theorem turns_le {count : Nat} {crossed : Bool} {entry : Nat × AlertEventType} (member : entry ∈ turns count crossed) :
    entry.1 ≤ count := by
  induction count generalizing crossed with
  | zero => cases member
  | succ count ih =>
    rcases List.mem_append.mp member with before | last
    · exact (ih before).trans (Nat.le_succ count)
    · rcases List.mem_cons.mp last with rfl | rearmed
      · exact le_refl _
      · cases crossed with
        | true => cases rearmed
        | false => exact le_of_eq (congrArg Prod.fst (List.mem_singleton.mp rearmed))

private theorem turns_crossed (count : Nat) : turns (count + 1) true = turns count false ++ [(count + 1, .thresholdCrossed)] :=
  rfl

private theorem turns_rearmed (count : Nat) :
    turns (count + 1) false = turns (count + 1) true ++ [(count + 1, .thresholdRearmed)] := by
  rw [turns_crossed, List.append_assoc]
  rfl

private theorem eventsIn_append (startAt : Int) (events : List AlertEvent) (event : AlertEvent) :
    eventsIn startAt (events ++ [event]) = eventsIn startAt events ++
      if event.windowStartAt = startAt then [(event.crossingSequence, event.eventType)] else [] := by
  unfold eventsIn
  rw [List.filter_append, List.map_append, List.filter_cons]
  simp only [beq_iff_eq]
  split <;> rfl

/-- The events of an alert, numbered and in turn in each window, none of which starts after its current one. -/
structure InTurn (record : AlertRecord) : Prop where
  counted : record.state.crossed = true → 0 < record.state.crossingSequence
  current : eventsIn record.state.window.startAt record.events = turns record.state.crossingSequence record.state.crossed
  past : ∀ event ∈ record.events, event.windowStartAt ≤ record.state.window.startAt
  every : ∀ startAt, ∃ count crossed, eventsIn startAt record.events = turns count crossed

variable {record : AlertRecord} {bounds : Bounds}

private theorem insert_new {events : List AlertEvent} {event : AlertEvent}
    (fresh : (event.crossingSequence, event.eventType) ∉ eventsIn event.windowStartAt events) :
    insertAlertEvent events event = events ++ [event] := by
  unfold insertAlertEvent
  rw [if_neg]
  intro present
  obtain ⟨other, member, same⟩ := List.any_eq_true.mp present
  rw [Bool.and_eq_true, Bool.and_eq_true, beq_iff_eq, beq_iff_eq, beq_iff_eq] at same
  obtain ⟨⟨startAt, sequence⟩, type⟩ := same
  apply fresh
  apply List.mem_map.mpr
  refine ⟨other, List.mem_filter.mpr ⟨member, beq_iff_eq.mpr startAt⟩, ?_⟩
  rw [sequence, type]

private theorem before_turn (turn : InTurn record) (forward : record.state.window.startAt ≤ bounds.startAt) :
    let sameWindow := record.state.window.startAt == bounds.startAt
    let prior := sameWindow && record.state.crossed
    let before := if sameWindow then record.state.crossingSequence else 0
    eventsIn bounds.startAt record.events = turns before prior ∧ (prior = true → 0 < before) := by
  intro sameWindow prior before
  by_cases same : record.state.window.startAt = bounds.startAt
  · have here : sameWindow = true := beq_iff_eq.mpr same
    simp only [prior, before, here, Bool.true_and, if_true]
    exact ⟨same ▸ turn.current, turn.counted⟩
  · have apart : sameWindow = false := beq_false_of_ne same
    simp only [prior, before, apart, Bool.false_and]
    refine ⟨?_, fun crossed => by cases crossed⟩
    have none : record.events.filter (fun event => event.windowStartAt == bounds.startAt) = [] := by
      apply List.filter_eq_nil_iff.mpr
      intro event member here
      have past := turn.past event member
      have at_ := beq_iff_eq.mp here
      omega
    unfold eventsIn
    rw [none]
    rfl

private theorem turn_appended (turn : InTurn record) (forward : record.state.window.startAt ≤ bounds.startAt)
    {state : AlertState} {event : AlertEvent} (window : state.window = bounds) (placed : event.windowStartAt = bounds.startAt)
    (counted : state.crossed = true → 0 < state.crossingSequence)
    (moved : turns state.crossingSequence state.crossed =
      eventsIn bounds.startAt record.events ++ [(event.crossingSequence, event.eventType)]) :
    InTurn ⟨record.alert, state, record.events ++ [event]⟩ := by
  have current : eventsIn bounds.startAt (record.events ++ [event]) = turns state.crossingSequence state.crossed := by
    rw [eventsIn_append, if_pos placed, moved]
  refine ⟨counted, by simpa only [window] using current, ?_, ?_⟩
  · intro other member
    simp only [window]
    rcases List.mem_append.mp member with old | new
    · exact (turn.past other old).trans forward
    · rw [List.mem_singleton.mp new, placed]
  · intro startAt
    by_cases here : bounds.startAt = startAt
    · exact ⟨_, _, here ▸ current⟩
    · obtain ⟨count, crossed, same⟩ := turn.every startAt
      refine ⟨count, crossed, ?_⟩
      simp only
      rw [eventsIn_append, if_neg (by rw [placed]; exact here), List.append_nil, same]

private theorem advance_inTurn (turn : InTurn record) (forward : record.state.window.startAt ≤ bounds.startAt)
    (threshold next : Nat) : InTurn (record.advance bounds threshold next) := by
  obtain ⟨before, positive⟩ := before_turn turn forward
  unfold AlertRecord.advance
  simp only
  generalize (record.state.window.startAt == bounds.startAt && record.state.crossed) = prior at before positive ⊢
  generalize (if record.state.window.startAt == bounds.startAt then record.state.crossingSequence else 0) = count
    at before positive ⊢
  generalize decide (threshold ≤ next) = reached
  have kept : ∀ state : AlertState, state.window = bounds → state.crossingSequence = count → state.crossed = prior →
      InTurn ⟨record.alert, state, record.events⟩ := by
    intro state window sequence crossed
    refine ⟨by simpa only [sequence, crossed] using positive, by simpa only [window, sequence, crossed] using before, ?_, turn.every⟩
    intro event member
    simp only [window]
    exact (turn.past event member).trans forward
  cases prior with
  | false =>
    cases reached with
    | false => exact kept _ rfl rfl rfl
    | true =>
      have fresh : (count + 1, AlertEventType.thresholdCrossed) ∉ eventsIn bounds.startAt record.events := by
        rw [before]
        intro member
        exact absurd (turns_le member) (Nat.not_succ_le_self count)
      simp only [Bool.not_false, Bool.and_self, if_true]
      rw [@insert_new record.events ⟨bounds.startAt, count + 1, next, threshold, .thresholdCrossed⟩ fresh]
      apply turn_appended turn forward rfl rfl
      · exact fun _ => Nat.succ_pos count
      · rw [before]
        exact turns_crossed count
  | true =>
    cases reached with
    | true => exact kept _ rfl rfl rfl
    | false =>
      obtain ⟨earlier, rfl⟩ : ∃ earlier, count = earlier + 1 := Nat.exists_eq_succ_of_ne_zero (positive rfl).ne'
      have fresh : (earlier + 1, AlertEventType.thresholdRearmed) ∉ eventsIn bounds.startAt record.events := by
        rw [before, turns_crossed]
        intro member
        rcases List.mem_append.mp member with old | last
        · exact absurd (turns_le old) (Nat.not_succ_le_self earlier)
        · cases List.mem_singleton.mp last
      simp only [Bool.not_true, Bool.false_eq_true, if_false, Bool.not_false, Bool.and_self, if_true]
      rw [@insert_new record.events ⟨bounds.startAt, earlier + 1, next, threshold, .thresholdRearmed⟩ fresh]
      apply turn_appended turn forward rfl rfl
      · exact fun crossed => by cases crossed
      · rw [before]
        exact turns_rearmed earlier

/-- A new alert has at most the crossing it starts with. -/
private theorem created_inTurn (alert : UsageAlert) (bounds : Bounds) (used threshold : Nat) (crossed : Bool) :
    InTurn ⟨alert, ⟨bounds, used, threshold, crossed, if crossed then 1 else 0⟩,
      if crossed then [⟨bounds.startAt, 1, used, threshold, .thresholdCrossed⟩] else []⟩ := by
  have empty : InTurn ⟨alert, ⟨bounds, used, threshold, false, 0⟩, []⟩ :=
    ⟨fun crossed => absurd crossed Bool.false_ne_true, rfl, fun event member => absurd member List.not_mem_nil,
      fun _ => ⟨0, false, rfl⟩⟩
  cases crossed with
  | false => exact empty
  | true => exact turn_appended empty (le_refl _) rfl rfl (fun _ => Nat.one_pos) rfl

end Turns

section Deltas
variable {commercial : Commercial} {clock : Clock} {account next : ControlledAccount} {write : UsageWrite}

inductive Recorded (clock : Clock) (account next : ControlledAccount) : Option AlertDelta → Prop where
  | unchanged (same : next.events = account.events) : Recorded clock account next none
  | counted {event : ControlledEvent} (recordedAt : event.recordedAt = clock.recordedAt) (uncorrected : event.corrections = [])
      (positive : 0 < event.quantity) (appended : next.events = account.events ++ [event]) :
      Recorded clock account next (some ⟨event.feature, event.entity, event.quantity, none⟩)
  | corrected {original : ControlledEvent} {correction : UsageCorrection} (member : original ∈ account.events)
      (positive : 0 < correction.quantity) (fits : (correction.quantity : Int) ≤ original.net)
      (updated : next.events = updateAt ControlledEvent.id original.id (ControlledEvent.addCorrection correction) account.events) :
      Recorded clock account next
        (some ⟨original.feature, original.entity, -(correction.quantity : Int), some original.recordedAt⟩)

private theorem appended_longer (appended : next.events = account.events ++ [event]) :
    account.events.length < next.events.length := by
  rw [appended, List.length_append]
  exact Nat.lt_succ_self _

private theorem consume_recorded (tidy : Tidy account) {feature : Nat} {entity : Option Nat} {amount : Amount} {admitted : Bool}
    (done : consumeUsage commercial clock feature entity amount admitted account = .ok next) :
    Recorded clock account next (alertDelta (.consume feature entity amount admitted) account next) := by
  have quiet : next.events = account.events →
      Recorded clock account next (alertDelta (.consume feature entity amount admitted) account next) := by
    intro same
    have none : alertDelta (.consume feature entity amount admitted) account next = none :=
      if_neg (by rw [same]; exact Nat.lt_irrefl _)
    rw [none]
    exact .unchanged same
  rcases consume_inv tidy.distinct done with rfl | ⟨_, _, rfl⟩ | ⟨_, charges, positive, _, spent⟩
  · exact quiet rfl
  · exact quiet rfl
  · have grown := congrArg ControlledAccount.events spent
    have appended : next.events = account.events ++ [⟨account.events.length, .consume, feature, entity, clock.recordedAt,
        amount.quantity, charges.filterMap appliedEntry, []⟩] := grown
    unfold alertDelta
    simp only
    rw [if_pos (appended_longer appended)]
    exact .counted rfl rfl positive appended

private theorem confirm_recorded (tidy : Tidy account) {id : Nat} {amount : Amount} {admitted : Bool}
    (done : confirmUsage commercial clock id amount admitted account = .ok next) :
    Recorded clock account next (alertDelta (.confirm id amount admitted) account next) := by
  have quiet : next.events = account.events → Recorded clock account next (alertDelta (.confirm id amount admitted) account next) := by
    intro same
    have none : alertDelta (.confirm id amount admitted) account next = none := by
      unfold alertDelta
      simp only
      split
      · exact if_neg (by rw [same]; exact Nat.lt_irrefl _)
      · rfl
    rw [none]
    exact .unchanged same
  rcases confirm_inv done with rfl | ⟨_, _, _, rfl | ⟨-, rfl⟩⟩ | ⟨reservation, settled, ⟨rfl, -⟩, settlement, spent⟩
  · exact quiet rfl
  · exact quiet rfl
  · exact quiet rfl
  · have grown := congrArg ControlledAccount.events spent
    have appended : next.events = account.events ++ [⟨account.events.length, .confirm, reservation.feature, reservation.entity,
        clock.recordedAt, amount.quantity, settled.filterMap fun entry => appliedEntry entry.2, []⟩] := grown
    unfold alertDelta
    simp only [findAt_member tidy.reservationIds settlement.found]
    rw [if_pos (appended_longer appended)]
    exact .counted rfl rfl settlement.positive appended

private theorem write_recorded (tidy : Tidy account) (done : write.apply commercial clock account = .ok next) :
    Recorded clock account next (alertDelta write account next) := by
  cases write with
  | consume feature entity amount admitted => exact consume_recorded tidy done
  | confirm id amount admitted => exact confirm_recorded tidy done
  | reserve feature entity amount expiresIn admitted =>
    rcases reserve_inv tidy.distinct done with rfl | ⟨_, _, rfl⟩ | ⟨_, _, _, _, rfl⟩
    · exact .unchanged rfl
    · exact .unchanged rfl
    · exact .unchanged rfl
  | release id =>
    rcases release_inv done with rfl | ⟨_, _, _, _, _, rfl⟩
    · exact .unchanged rfl
    · exact .unchanged rfl
  | expire =>
    cases done
    apply Recorded.unchanged
    unfold expireUsage
    generalize account.reservations.filter _ = reservations
    induction reservations generalizing account with
    | nil => rfl
    | cons reservation rest ih => exact ih (tidy_closed tidy reservation .expired)
  | correct id quantity spendMinorReduction currency =>
    obtain ⟨original, member, rfl, positive, fits, rfl⟩ := correct_inv done
    unfold alertDelta
    simp only [findAt_member tidy.eventIds member, Option.map_some]
    exact @Recorded.corrected clock account _ original ⟨quantity, _⟩ member positive fits rfl

end Deltas

/-- What is known of an alert whose window is the last one its usage was recorded in. -/
structure Tracks (events : List ControlledEvent) (record : AlertRecord) : Prop where
  window : ∃ now, record.state.window = controlWindowBounds record.alert.interval now
  latest : ∀ event ∈ events, record.alert.concerns event.feature event.entity = true →
    (controlWindowBounds record.alert.interval event.recordedAt).startAt ≤ record.state.window.startAt
  current : record.alert.interval ≠ none →
    (record.state.currentValue : Int) = alertUsage record.alert record.state.window events
  crossed : record.state.crossed = decide (record.state.thresholdValue ≤ record.state.currentValue)
  turn : InTurn record

/-- An alert that was evaluated: against the threshold in force, at the usage of its window, with its events in turn. -/
structure Evaluated (commercial : Commercial) (events : List ControlledEvent) (record : AlertRecord) : Prop where
  threshold : evaluatedThreshold commercial record.alert = some record.state.thresholdValue
  current : (record.state.currentValue : Int) = alertUsage record.alert record.state.window events
  crossed : record.state.crossed = true ↔ record.state.thresholdValue ≤ record.state.currentValue
  current_turn : eventsIn record.state.window.startAt record.events = turns record.state.crossingSequence record.state.crossed
  turns : ∀ startAt, ∃ count crossed, eventsIn startAt record.events = turns count crossed

def countedWindow (now : Int) (input : AlertDelta) (alert : UsageAlert) : Bounds :=
  controlWindowBounds alert.interval (input.correctsRecordedAt.getD now)

/-- Whether a delta counts for an alert: it is of its scope and, for a correction, of the window it counts. -/
def Concerned (now : Int) (input : AlertDelta) (record : AlertRecord) : Prop :=
  record.alert.concerns input.feature input.entity = true ∧ (input.correctsRecordedAt.isSome = true →
    record.state.window.startAt = (countedWindow now input record.alert).startAt)

section Evaluations
variable {commercial : Commercial} {now : Int} {input : AlertDelta} {record : AlertRecord} {events after : List ControlledEvent}

def countedValue (record : AlertRecord) (window : Bounds) (delta : Int) (events : List ControlledEvent) : Nat :=
  if record.alert.interval = none then (alertUsage record.alert window events).toNat
  else ((if record.state.window.startAt == window.startAt then (record.state.currentValue : Int) else 0) + delta).toNat

private theorem evaluate_left (left : evaluatedThreshold commercial record.alert = none ∨ input.correctsRecordedAt.isSome = true ∧
    record.state.window.startAt ≠ (countedWindow now input record.alert).startAt) :
    evaluateAlert commercial events now input record = record := by
  unfold evaluateAlert
  simp only
  split
  · rfl
  · next threshold limited =>
    rcases left with unlimited | ⟨correcting, apart⟩
    · rw [unlimited] at limited
      cases limited
    · rw [if_pos]
      rw [Bool.and_eq_true, Bool.not_eq_true', beq_eq_false_iff_ne]
      exact ⟨correcting, apart⟩

private theorem evaluate_moves {threshold : Nat} (limited : evaluatedThreshold commercial record.alert = some threshold)
    (stays : input.correctsRecordedAt.isSome = true → record.state.window.startAt = (countedWindow now input record.alert).startAt) :
    evaluateAlert commercial events now input record = record.advance (countedWindow now input record.alert) threshold
      (countedValue record (countedWindow now input record.alert) input.delta events) := by
  unfold evaluateAlert
  simp only [limited]
  rw [if_neg]
  · unfold countedValue
    cases cadence : record.alert.interval with
    | none =>
      simp only [if_true]
      unfold countedWindow
      rw [← cadence, readAlertWindowUsage_eq, Int.toNat_natCast]
    | some unit =>
      simp only [reduceCtorEq, if_false]
      unfold countedWindow
      rw [cadence, apply_ite (Nat.cast : Nat → Int), Nat.cast_zero]
  · rw [Bool.and_eq_true, Bool.not_eq_true', beq_eq_false_iff_ne]
    exact fun ⟨correcting, apart⟩ => apart (stays correcting)

private theorem counted_usage (tracks : Tracks events record) {countedAt : Int} {bounds : Bounds}
    (placed : controlWindowBounds record.alert.interval countedAt = bounds)
    (fresh : record.state.window.startAt ≠ bounds.startAt → alertUsage record.alert bounds events = 0) {delta : Int}
    (moved : alertUsage record.alert bounds after = alertUsage record.alert bounds events + delta)
    (nonneg : 0 ≤ alertUsage record.alert bounds after) :
    (countedValue record bounds delta after : Int) = alertUsage record.alert bounds after := by
  unfold countedValue
  split
  · exact Int.toNat_of_nonneg nonneg
  · next bounded =>
    have before : (if record.state.window.startAt == bounds.startAt then (record.state.currentValue : Int) else 0) =
        alertUsage record.alert bounds events := by
      split
      · next same =>
        obtain ⟨started, window⟩ := tracks.window
        rw [tracks.current bounded, window]
        rw [window, beq_iff_eq, ← placed] at same
        rw [alertWindow_start same, placed]
      · next apart =>
        rw [beq_iff_eq] at apart
        exact (fresh apart).symm
    rw [before, ← moved]
    exact Int.toNat_of_nonneg nonneg

private theorem evaluate_alert : (evaluateAlert commercial events now input record).alert = record.alert := by
  unfold evaluateAlert
  simp only
  split
  · rfl
  · split
    · rfl
    · rfl

private theorem moved_tracks (tracks : Tracks events record) {countedAt : Int} {bounds : Bounds}
    (placed : controlWindowBounds record.alert.interval countedAt = bounds) (forward : record.state.window.startAt ≤ bounds.startAt)
    (latest : ∀ event ∈ after, record.alert.concerns event.feature event.entity = true →
      (controlWindowBounds record.alert.interval event.recordedAt).startAt ≤ bounds.startAt)
    {threshold next : Nat} (limited : evaluatedThreshold commercial record.alert = some threshold)
    (counts : (next : Int) = alertUsage record.alert bounds after) :
    Tracks after (record.advance bounds threshold next) ∧ Evaluated commercial after (record.advance bounds threshold next) := by
  have turn := advance_inTurn tracks.turn forward threshold next
  exact ⟨⟨⟨countedAt, placed.symm⟩, latest, fun _ => counts, rfl, turn⟩,
    ⟨limited, counts, decide_eq_true_iff, turn.current, turn.every⟩⟩

def written (commercial : Commercial) (after : List ControlledEvent) (now : Int) (input : AlertDelta) (record : AlertRecord) :
    AlertRecord :=
  if record.alert.concerns input.feature input.entity then evaluateAlert commercial after now input record else record

private theorem tracks_same (tracks : Tracks events record)
    (latest : ∀ event ∈ after, record.alert.concerns event.feature event.entity = true →
      (controlWindowBounds record.alert.interval event.recordedAt).startAt ≤ record.state.window.startAt)
    (same : record.alert.interval ≠ none →
      alertUsage record.alert record.state.window after = alertUsage record.alert record.state.window events) :
    Tracks after record :=
  { tracks with
    latest := latest
    current := fun bounded => (tracks.current bounded).trans (same bounded).symm }

/-- A quantity that was counted leaves every alert at the usage of its window. -/
private theorem counted_tracks (nets : ∀ event ∈ events, 0 ≤ event.net) (tracks : Tracks events record)
    (uncorrected : event.corrections = [])
    (recorded : controlWindowBounds record.alert.interval event.recordedAt = controlWindowBounds record.alert.interval now)
    (forward : record.state.window.startAt ≤ (controlWindowBounds record.alert.interval now).startAt)
    (limited : record.alert.interval ≠ none → record.alert.concerns event.feature event.entity = true →
      evaluatedThreshold commercial record.alert ≠ none) :
    let input : AlertDelta := ⟨event.feature, event.entity, event.quantity, none⟩
    Tracks (events ++ [event]) (written commercial (events ++ [event]) now input record) ∧
      (Concerned now input record → evaluatedThreshold commercial record.alert ≠ none →
        Evaluated commercial (events ++ [event]) (written commercial (events ++ [event]) now input record)) := by
  intro input
  have net : event.net = event.quantity := by
    unfold ControlledEvent.net ControlledEvent.corrected
    rw [uncorrected]
    exact sub_zero _
  have grown := fun window => netOf_append (alertCounts record.alert window) events event
  by_cases scope : record.alert.concerns event.feature event.entity = true
  · have placed : written commercial (events ++ [event]) now input record =
        evaluateAlert commercial (events ++ [event]) now input record := if_pos scope
    have latest : ∀ bounds : Bounds, record.state.window.startAt ≤ bounds.startAt →
        (controlWindowBounds record.alert.interval event.recordedAt).startAt ≤ bounds.startAt →
        ∀ other ∈ events ++ [event], record.alert.concerns other.feature other.entity = true →
          (controlWindowBounds record.alert.interval other.recordedAt).startAt ≤ bounds.startAt := by
      intro bounds later here other member concerned
      rcases List.mem_append.mp member with old | new
      · exact (tracks.latest other old concerned).trans later
      · rw [List.mem_singleton.mp new]
        exact here
    rw [placed]
    cases threshold : evaluatedThreshold commercial record.alert with
    | none =>
      rw [evaluate_left (.inl threshold)]
      have endless : record.alert.interval = none := by
        by_contra bounded
        exact limited bounded scope threshold
      refine ⟨tracks_same tracks ?_ fun bounded => absurd endless bounded, fun _ absent => absurd rfl absent⟩
      apply latest _ (le_refl _)
      obtain ⟨started, window⟩ := tracks.window
      rw [window, endless]
      exact le_refl _
    | some limit =>
      generalize current : controlWindowBounds record.alert.interval now = bounds at recorded forward
      have counted : countedWindow now input record.alert = bounds := current
      rw [evaluate_moves threshold (fun correcting => by cases correcting), counted]
      have moved : alertUsage record.alert bounds (events ++ [event]) = alertUsage record.alert bounds events + event.quantity := by
        unfold alertUsage
        rw [grown, ← current, if_pos (alertWindow_iff.mpr ⟨scope, congrArg Bounds.startAt (recorded.trans current.symm)⟩), net]
      have before := netOf_nonneg nets (alertCounts record.alert bounds)
      have fresh : record.state.window.startAt ≠ bounds.startAt → alertUsage record.alert bounds events = 0 := by
        intro apart
        have none : events.filter (alertCounts record.alert bounds) = [] := by
          apply List.filter_eq_nil_iff.mpr
          intro other member counts
          rw [← current] at counts forward apart
          obtain ⟨concerned, started⟩ := alertWindow_iff.mp counts
          have last := tracks.latest other member concerned
          omega
        unfold alertUsage netOf
        rw [none]
        rfl
      have nonneg : 0 ≤ alertUsage record.alert bounds (events ++ [event]) := by
        rw [moved]
        exact add_nonneg before (Int.natCast_nonneg _)
      have counts := counted_usage tracks current fresh moved nonneg
      obtain ⟨kept, evaluated⟩ := moved_tracks tracks current forward
        (latest _ forward (le_of_eq (congrArg Bounds.startAt recorded))) threshold counts
      exact ⟨kept, fun _ _ => evaluated⟩
  · have placed : written commercial (events ++ [event]) now input record = record := if_neg scope
    rw [placed]
    refine ⟨tracks_same tracks ?_ ?_, fun concerned => absurd concerned.1 scope⟩
    · intro other member concerned
      rcases List.mem_append.mp member with old | new
      · exact tracks.latest other old concerned
      · rw [List.mem_singleton.mp new] at concerned
        exact absurd concerned scope
    · intro _
      unfold alertUsage
      rw [grown, if_neg, add_zero]
      intro counts
      exact scope (Bool.and_eq_true_iff.mp counts).1

private theorem corrected_tracks (nets : ∀ event ∈ events, 0 ≤ event.net) (distinct : (events.map ControlledEvent.id).Nodup)
    (tracks : Tracks events record) {original : ControlledEvent} (member : original ∈ events) {correction : UsageCorrection}
    (fits : (correction.quantity : Int) ≤ original.net)
    (limited : record.alert.interval ≠ none → record.alert.concerns original.feature original.entity = true →
      record.state.window.startAt = (controlWindowBounds record.alert.interval original.recordedAt).startAt →
      evaluatedThreshold commercial record.alert ≠ none) :
    let input : AlertDelta := ⟨original.feature, original.entity, -(correction.quantity : Int), some original.recordedAt⟩
    let after := updateAt ControlledEvent.id original.id (ControlledEvent.addCorrection correction) events
    Tracks after (written commercial after now input record) ∧
      (Concerned now input record → evaluatedThreshold commercial record.alert ≠ none →
        Evaluated commercial after (written commercial after now input record)) := by
  intro input after
  have blind : ∀ window, alertCounts record.alert window (original.addCorrection correction) =
      alertCounts record.alert window original := by
    intro window
    unfold alertCounts ControlledEvent.addCorrection
    rfl
  have lowered := fun window => netOf_corrected distinct member correction (blind window)
  have counted : countedWindow now input record.alert = controlWindowBounds record.alert.interval original.recordedAt := rfl
  have latest : ∀ other ∈ after, record.alert.concerns other.feature other.entity = true →
      (controlWindowBounds record.alert.interval other.recordedAt).startAt ≤ record.state.window.startAt := by
    intro other inside concerned
    rcases mem_updateAt.mp inside with ⟨old, known, ⟨-, rfl⟩ | ⟨-, rfl⟩⟩
    · exact tracks.latest old known concerned
    · exact tracks.latest _ known concerned
  have untouched : (¬ ∃ now, record.state.window = controlWindowBounds record.alert.interval now ∧
      alertCounts record.alert record.state.window original = true) → Tracks after record := by
    intro apart
    apply tracks_same tracks latest
    intro _
    unfold alertUsage
    rw [lowered, if_neg, sub_zero]
    obtain ⟨started, window⟩ := tracks.window
    exact fun counts => apart ⟨started, window, counts⟩
  by_cases scope : record.alert.concerns original.feature original.entity = true
  · have placed : written commercial after now input record = evaluateAlert commercial after now input record := if_pos scope
    rw [placed]
    by_cases same : record.state.window.startAt = (controlWindowBounds record.alert.interval original.recordedAt).startAt
    · cases threshold : evaluatedThreshold commercial record.alert with
      | none =>
        rw [evaluate_left (.inl threshold)]
        have endless : record.alert.interval = none := by
          by_contra bounded
          exact limited bounded scope same threshold
        exact ⟨tracks_same tracks latest fun bounded => absurd endless bounded, fun _ absent => absurd rfl absent⟩
      | some limit =>
        rw [evaluate_moves threshold (fun _ => counted ▸ same), counted]
        generalize placed : controlWindowBounds record.alert.interval original.recordedAt = bounds at same ⊢
        have counts : alertCounts record.alert bounds original = true :=
          placed ▸ alertWindow_iff.mpr ⟨scope, rfl⟩
        have moved : alertUsage record.alert bounds after = alertUsage record.alert bounds events + -(correction.quantity : Int) := by
          unfold alertUsage
          rw [lowered, if_pos counts]
          rfl
        have most := le_netOf nets member counts
        have nonneg : 0 ≤ alertUsage record.alert bounds after := by
          rw [moved]
          unfold alertUsage
          omega
        have current := counted_usage tracks placed (fun apart => absurd same apart) moved nonneg
        obtain ⟨kept, evaluated⟩ := moved_tracks tracks placed (le_of_eq same)
          (fun other inside concerned => (latest other inside concerned).trans (le_of_eq same)) threshold current
        exact ⟨kept, fun _ _ => evaluated⟩
    · rw [evaluate_left (.inr ⟨rfl, counted ▸ same⟩)]
      refine ⟨untouched ?_, fun concerned => absurd (counted ▸ concerned.2 rfl) same⟩
      intro ⟨started, window, counts⟩
      rw [window] at counts same
      exact same (alertWindow_iff.mp counts).2.symm
  · have placed : written commercial after now input record = record := if_neg scope
    rw [placed]
    refine ⟨untouched ?_, fun concerned => absurd concerned.1 scope⟩
    exact fun ⟨_, _, counts⟩ => scope (Bool.and_eq_true_iff.mp counts).1

end Evaluations

/-- A write whose usage is recorded in the alert window it is evaluated in, no alert having counted a later one, and
that finds a limit for every percentage of a calendar window it counts for. -/
structure Followed (commercial : Commercial) (clock : AlertClock) (account : AlertedAccount) (write : AlertWrite) : Prop where
  created : ∀ input, write = .create input → ∀ event ∈ account.usage.events,
    (controlWindowBounds input.interval event.recordedAt).startAt ≤ (controlWindowBounds input.interval clock.alertNow).startAt
  recorded : ∀ record ∈ account.alerts,
    controlWindowBounds record.alert.interval clock.usage.recordedAt = controlWindowBounds record.alert.interval clock.alertNow
  forward : ∀ record ∈ account.alerts,
    record.state.window.startAt ≤ (controlWindowBounds record.alert.interval clock.alertNow).startAt
  limited : ∀ usage next input, write = .usage usage → usage.apply commercial clock.usage account.usage = .ok next →
    alertDelta usage account.usage next = some input → ∀ record ∈ account.alerts, record.alert.interval ≠ none →
      Concerned clock.alertNow input record → evaluatedThreshold commercial record.alert ≠ none

inductive AlertReaches : AlertedAccount → Prop where
  | opened : AlertReaches ⟨⟨[], [], []⟩, []⟩
  | step {commercial : Commercial} {clock : AlertClock} {write : AlertWrite} {account next : AlertedAccount}
      (reached : AlertReaches account) (followed : Followed commercial clock account write)
      (done : write.apply commercial clock account = .ok next) : AlertReaches next

/-- What every run of followed writes keeps. -/
structure Watched (account : AlertedAccount) : Prop where
  tidy : Tidy account.usage
  nets : ∀ event ∈ account.usage.events, 0 ≤ event.net
  tracks : ∀ record ∈ account.alerts, Tracks account.usage.events record

section Runs
variable {commercial : Commercial} {clock : AlertClock} {account next : AlertedAccount}

private theorem written_inv {write : UsageWrite} (done : writeUsage commercial clock write account = .ok next) :
    write.apply commercial clock.usage account.usage = .ok next.usage ∧
      match alertDelta write account.usage next.usage with
      | none => next.alerts = account.alerts
      | some input => next.alerts = recordUsageAlertDelta commercial next.usage.events clock.alertNow input account.alerts := by
  unfold writeUsage at done
  obtain ⟨usage, written, done⟩ := bind_ok done
  cases passed : alertDelta write account.usage usage with
  | none =>
    rw [passed] at done
    cases done
    refine ⟨written, ?_⟩
    rw [passed]
  | some input =>
    rw [passed] at done
    cases done
    refine ⟨written, ?_⟩
    rw [passed]

private theorem recorded_alerts {input : AlertDelta} (moves : input.delta ≠ 0) (events : List ControlledEvent) (now : Int)
    (records : List AlertRecord) : recordUsageAlertDelta commercial events now input records =
      records.map (written commercial events now input) :=
  if_neg moves

private theorem written_alert (events : List ControlledEvent) (now : Int) (input : AlertDelta) (record : AlertRecord) :
    (written commercial events now input record).alert = record.alert := by
  unfold written
  split
  · exact evaluate_alert
  · rfl

private theorem each_watched {input : AlertDelta} (tidy : Tidy next.usage) (nets : ∀ event ∈ next.usage.events, 0 ≤ event.net)
    (moved : next.alerts = account.alerts.map (written commercial next.usage.events clock.alertNow input))
    (each : ∀ record ∈ account.alerts,
      Tracks next.usage.events (written commercial next.usage.events clock.alertNow input record) ∧
        (Concerned clock.alertNow input record → evaluatedThreshold commercial record.alert ≠ none →
          Evaluated commercial next.usage.events (written commercial next.usage.events clock.alertNow input record))) :
    Watched next ∧ ∀ other, some input = some other → ∀ record ∈ account.alerts, Concerned clock.alertNow other record →
      evaluatedThreshold commercial record.alert ≠ none →
        ∃ after ∈ next.alerts, after.alert = record.alert ∧ Evaluated commercial next.usage.events after := by
  refine ⟨⟨tidy, nets, ?_⟩, ?_⟩
  · intro after inside
    rw [moved] at inside
    obtain ⟨record, member, rfl⟩ := List.mem_map.mp inside
    exact (each record member).1
  · intro other same record member concerned limit
    cases same
    refine ⟨_, ?_, written_alert _ _ _ record, (each record member).2 concerned limit⟩
    rw [moved]
    exact List.mem_map_of_mem member

private theorem usage_watched (watched : Watched account) {write : UsageWrite} (followed : Followed commercial clock account (.usage write))
    (done : writeUsage commercial clock write account = .ok next) : Watched next ∧
      ∀ input, alertDelta write account.usage next.usage = some input → ∀ record ∈ account.alerts,
        Concerned clock.alertNow input record → evaluatedThreshold commercial record.alert ≠ none →
          ∃ after ∈ next.alerts, after.alert = record.alert ∧ Evaluated commercial next.usage.events after := by
  obtain ⟨applied, alerts⟩ := written_inv done
  have recorded := write_recorded watched.tidy applied
  have tidy := tidy_step watched.tidy applied
  have nets := nets_step watched.tidy watched.nets applied
  have limited := fun input => followed.limited write next.usage input rfl applied
  generalize alertDelta write account.usage next.usage = passed at alerts recorded limited ⊢
  cases recorded with
  | unchanged same =>
    refine ⟨⟨tidy, nets, ?_⟩, fun _ absent => by cases absent⟩
    intro record member
    rw [same]
    exact watched.tracks record (alerts ▸ member)
  | @counted event recordedAt uncorrected positive appended =>
    apply each_watched tidy nets (alerts.trans (recorded_alerts (Int.natCast_ne_zero.mpr positive.ne') _ _ _))
    intro record member
    rw [appended]
    apply counted_tracks watched.nets (watched.tracks record member) uncorrected
    · rw [recordedAt]
      exact followed.recorded record member
    · exact followed.forward record member
    · exact fun bounded scope => limited _ rfl record member bounded ⟨scope, fun correcting => by cases correcting⟩
  | @corrected original correction known positive fits updated =>
    have moves : -(correction.quantity : Int) ≠ 0 := Int.neg_ne_zero.mpr (Int.natCast_ne_zero.mpr positive.ne')
    apply each_watched tidy nets (alerts.trans (recorded_alerts moves _ _ _))
    intro record member
    rw [updated]
    apply corrected_tracks watched.nets watched.tidy.eventIds (watched.tracks record member) known fits
    exact fun bounded scope same => limited _ rfl record member bounded ⟨scope, fun _ => same⟩

/-- A new alert starts at the usage of its window, with the crossing of a threshold that has reached. -/
private theorem created_watched (watched : Watched account) {input : UsageAlertInput}
    (followed : Followed commercial clock account (.create input))
    (done : createUsageAlert commercial clock.alertNow input account = .ok next) : Watched next := by
  unfold createUsageAlert at done
  split at done
  · cases done
  · split at done
    · cases done
    · simp only at done
      split at done
      · cases done
      · next threshold limited =>
        cases done
        refine ⟨watched.tidy, watched.nets, ?_⟩
        intro record member
        rcases List.mem_append.mp member with old | new
        · exact watched.tracks record old
        · rw [List.mem_singleton.mp new]
          have used := readAlertWindowUsage_eq (input.alert account.alerts.length) clock.alertNow account.usage.events
          refine ⟨⟨clock.alertNow, rfl⟩, ?_, ?_, rfl, created_inTurn _ _ _ _ _⟩
          · exact fun event inside _ => followed.created input rfl event inside
          · intro _
            exact (congrArg Nat.cast used).trans (Int.toNat_of_nonneg (netOf_nonneg watched.nets _))

private theorem reaches_watched (reached : AlertReaches account) : Watched account := by
  induction reached with
  | opened =>
    refine ⟨⟨List.nodup_nil, by simp [Has], by simp, by simp, by simp, by simp, by simp⟩, by simp, by simp⟩
  | @step commercial clock write account next reached followed done ih =>
    cases write with
    | create input => exact created_watched ih followed done
    | usage write => exact (usage_watched ih followed done).1

end Runs

/-- After every usage write, each alert it was evaluated for stands at the net usage of its window and scope, is crossed
exactly when that reaches its threshold, and has recorded crossings and rearmings in turn: those of one window are
numbered from one, and a rearming carries the number of the crossing it ends. -/
theorem alerts_track_usage {commercial : Commercial} {clock : AlertClock} {account next : AlertedAccount} {write : UsageWrite}
    {input : AlertDelta} (reached : AlertReaches account) (followed : Followed commercial clock account (.usage write))
    (done : writeUsage commercial clock write account = .ok next)
    (passed : alertDelta write account.usage next.usage = some input) {record : AlertRecord} (member : record ∈ account.alerts)
    (concerned : Concerned clock.alertNow input record) (limited : evaluatedThreshold commercial record.alert ≠ none) :
    ∃ after ∈ next.alerts, after.alert = record.alert ∧ Evaluated commercial next.usage.events after :=
  (usage_watched (reaches_watched reached) followed done).2 input passed record member concerned limited

section Example

def halfInput : UsageAlertInput := ⟨1, none, .percentage, 50000000000, some ⟨.day, 1, Nat.one_pos⟩⟩

def halfAlert : UsageAlert := halfInput.alert 0

def noonClock : AlertClock := ⟨atNoon, 43200000⟩

def wholeDay : Bounds := ⟨0, some 86400000⟩

def halfCreated : AlertRecord := ⟨halfAlert, ⟨wholeDay, 0, 50, false, 0⟩, []⟩

def crossing : AlertEvent := ⟨0, 1, 60, 50, .thresholdCrossed⟩

def rearming : AlertEvent := ⟨0, 1, 10, 50, .thresholdRearmed⟩

def halfCrossed : AlertRecord := ⟨halfAlert, ⟨wholeDay, 60, 50, true, 1⟩, [crossing]⟩

def halfRearmed : AlertRecord := ⟨halfAlert, ⟨wholeDay, 10, 50, false, 1⟩, [crossing, rearming]⟩

def sixtyConsumed (corrections : List UsageCorrection) : ControlledEvent :=
  ⟨0, .consume, 1, none, 43200000, 60, [⟨today, 60⟩], corrections⟩

def noneUsed : AlertedAccount := ⟨⟨[], [], []⟩, [halfCreated]⟩

def sixtyUsed : AlertedAccount := ⟨⟨[⟨today, 60, 0⟩], [], [sixtyConsumed []]⟩, [halfCrossed]⟩

def tenUsed : AlertedAccount := ⟨⟨[⟨today, 10, 0⟩], [], [sixtyConsumed [⟨50, [⟨today, -50⟩]⟩]]⟩, [halfRearmed]⟩

private theorem followed_half {account : AlertedAccount} {write : AlertWrite}
    (alerts : ∀ record ∈ account.alerts, record.alert = halfAlert ∧ record.state.window = wholeDay)
    (created : ∀ input, write = .create input → account.usage.events = []) :
    Followed (limits [dailyLimit]) noonClock account write := by
  refine ⟨?_, ?_, ?_, ?_⟩
  · intro input same event member
    rw [created input same] at member
    exact absurd member List.not_mem_nil
  · exact fun _ _ => rfl
  · intro record member
    rw [(alerts record member).1, (alerts record member).2]
    decide
  · intro usage next input same done passed record member _ _
    rw [(alerts record member).1]
    decide

private theorem noneUsed_reached : AlertReaches noneUsed := by
  apply AlertReaches.step .opened (@followed_half ⟨⟨[], [], []⟩, []⟩ (.create halfInput) (by simp) (fun _ _ => rfl))
  show (AlertWrite.create halfInput).apply (limits [dailyLimit]) noonClock ⟨⟨[], [], []⟩, []⟩ = .ok noneUsed
  decide

private theorem noneUsed_followed (write : UsageWrite) : Followed (limits [dailyLimit]) noonClock noneUsed (.usage write) := by
  apply followed_half
  · intro record member
    rw [List.mem_singleton.mp member]
    exact ⟨rfl, rfl⟩
  · exact fun _ created => by cases created

theorem alerts_track_usage_half : ∃ after ∈ sixtyUsed.alerts, after.alert = halfAlert ∧
    Evaluated (limits [dailyLimit]) sixtyUsed.usage.events after :=
  @alerts_track_usage _ _ noneUsed sixtyUsed (.consume 1 none (units 60) true) ⟨1, none, 60, none⟩ noneUsed_reached
    (noneUsed_followed _) (by decide) (by decide) halfCreated (List.mem_singleton.mpr rfl)
    ⟨by decide, fun correcting => by cases correcting⟩ (by decide)

/-- A rearming carries the number of the crossing it ends, so the numbers of a window's events do not strictly increase. -/
theorem rearming_repeats_number : ∃ account, AlertReaches account ∧ ∃ record ∈ account.alerts,
    ¬ ((eventsIn record.state.window.startAt record.events).map Prod.fst).Pairwise (· < ·) := by
  have crossed : AlertReaches sixtyUsed := by
    apply AlertReaches.step noneUsed_reached (noneUsed_followed (.consume 1 none (units 60) true))
    decide
  have followed : Followed (limits [dailyLimit]) noonClock sixtyUsed (.usage (.correct 0 50 0 none)) := by
    apply followed_half
    · intro record member
      rw [List.mem_singleton.mp member]
      exact ⟨rfl, rfl⟩
    · exact fun _ created => by cases created
  have rearmed : AlertReaches tenUsed := by
    apply AlertReaches.step crossed followed
    decide
  exact ⟨tenUsed, rearmed, halfRearmed, by decide, by decide⟩

end Example

end Quotum.Controls
