import Quotum.Proofs.UsageLimits

/-! Limits that replace one another keep counting one window: the count of whichever acts is the usage of
the window. -/

namespace Quotum.Controls
open General Cadences Metering

variable {event : ControlledEvent}

/-- Whether an event is usage of a usage limit's window: it was charged there, or recorded there and charged to no
earlier window of the limit's cadence. -/
def belongs (key : WindowKey) (event : ControlledEvent) : Bool :=
  (event.entries.any fun entry => entry.window.identity == key.identity) ||
    (key.policy.kind == .usageLimit event.feature && (key.policy.entity.isNone || key.policy.entity == event.entity) &&
      key.bounds.contains event.recordedAt && (event.operation == .consume || !chargedToEarlierWindow key.policy event))

def netUsage (key : WindowKey) (events : List ControlledEvent) : Int :=
  netOf (belongs key) events

/-- A policy that counts the same usage as a key's does, in windows of the same cadence. -/
def Replaces (key : WindowKey) (policy : ControlPolicy) : Prop :=
  policy.identity = key.policy.identity ∧ policy.cadenceKey = key.policy.cadenceKey

def Spans (key other : WindowKey) : Prop :=
  other.identity = key.identity

/-- What keeps the limits of one identity counting one window: they share a cadence and reach every entity, one of
them is in place as long as the window is open and counted, a write is recorded where it is charged, the window's
holds are confirmed before it rolls and under limits they are paired with, and a limit that counted an event from the
recorded usage still reaches it when it is corrected. -/
structure Steady (key : WindowKey) (commercial : Commercial) (clock : Clock) (write : UsageWrite)
    (account : ControlledAccount) : Prop where
  cadence : ∀ policy ∈ commercial.policies, policy.identity = key.policy.identity → ∀ now, policy.windowBounds now = key.bounds →
    policy.cadenceKey = key.policy.cadenceKey
  reaches : ∀ policy ∈ commercial.policies, policy.identity = key.policy.identity → ∀ entity, commercial.covers policy entity = true
  started : 0 ≤ clock.controlNow ∧ 0 ≤ clock.recordedAt
  recorded : key.bounds.contains clock.recordedAt = key.bounds.contains clock.controlNow
  inPlace : key.policy.interval.isSome = true → key.bounds.contains clock.controlNow = true →
    (∃ other, Has other account.windows ∧ Spans key other) → ∃ policy ∈ commercial.policies, Replaces key policy
  confirms : ∀ reservation amount admitted, write = .confirm reservation.id amount admitted → reservation ∈ account.reservations →
    (∀ hold ∈ reservation.holds, Spans key hold.window → key.bounds.contains clock.controlNow = true) ∧
      ∀ policy ∈ confirmingControls commercial reservation amount,
        Spans key (currentWindow clock.controlNow policy) → Paired clock.controlNow reservation.holds policy
  corrects : ∀ event quantity spendMinorReduction currency,
    write = .correct event.id quantity spendMinorReduction currency → event ∈ account.events → belongs key event = true →
      (∀ entry ∈ event.entries, ¬ Spans key entry.window) →
        ∀ other, Has other account.windows → Spans key other → commercial.covers other.policy event.entity = true

section Span
variable {key other : WindowKey} {policy : ControlPolicy} {now : Int}

private theorem spans_current (policy : ControlPolicy) (now : Int) :
    Spans key (currentWindow now policy) ↔ policy.identity = key.policy.identity ∧ policy.windowBounds now = key.bounds := by
  unfold Spans WindowKey.identity currentWindow
  exact Prod.mk_inj

private theorem replacing_spans (window : key.IsWindow) (replaces : Replaces key policy) (open_ : key.bounds.contains now = true) :
    Spans key (currentWindow now policy) := by
  obtain ⟨opened, bounds⟩ := window
  rw [bounds] at open_
  refine (spans_current policy now).mpr ⟨replaces.1, ?_⟩
  rw [windowBounds_cadence replaces.2, windowBounds_unique open_, bounds]

private theorem earlier_replaces (replaces : Replaces key policy) (event : ControlledEvent) :
    chargedToEarlierWindow policy event = chargedToEarlierWindow key.policy event := by
  obtain ⟨identity, cadence⟩ := replaces
  have bounded : policy.interval.isSome = key.policy.interval.isSome := by
    have := congrArg Option.isSome cadence
    unfold ControlPolicy.cadenceKey at this
    simpa using this
  unfold chargedToEarlierWindow
  rw [bounded, cadence, identity_kind identity, show policy.entity = key.policy.entity from congrArg Prod.snd identity]

def InScope (key : WindowKey) (feature : Nat) (entity : Option Nat) : Prop :=
  key.policy.kind = .usageLimit feature ∧ (key.policy.entity = none ∨ key.policy.entity = entity)

private theorem spans_scope (spans : Spans key other) {feature : Nat} {entity : Option Nat} :
    InScope other feature entity ↔ InScope key feature entity := by
  have identity : other.policy.identity = key.policy.identity := congrArg Prod.fst spans
  unfold InScope
  rw [identity_kind identity, show other.policy.entity = key.policy.entity from congrArg Prod.snd identity]

private theorem belongs_iff : belongs key event = true ↔
    (∃ entry ∈ event.entries, Spans key entry.window) ∨
      (InScope key event.feature event.entity ∧ key.bounds.contains event.recordedAt = true ∧
        (event.operation = .consume ∨ chargedToEarlierWindow key.policy event = false)) := by
  unfold belongs InScope Spans
  simp only [Bool.or_eq_true, List.any_eq_true, beq_iff_eq, Bool.and_eq_true, Option.isNone_iff_eq_none, Bool.not_eq_true', and_assoc]

private theorem counts_iff {commercial : Commercial} (spans : Spans key other) (replaces : Replaces key other.policy) {event : ControlledEvent} :
    countsEvent commercial other event = true ↔ InScope key event.feature event.entity ∧
      commercial.covers other.policy event.entity = true ∧ key.bounds.contains event.recordedAt = true ∧
        (event.operation = .consume ∨ chargedToEarlierWindow key.policy event = false) := by
  rw [← spans_scope spans, ← earlier_replaces replaces, ← show other.bounds = key.bounds from congrArg Prod.snd spans]
  unfold countsEvent InScope
  simp only [Bool.or_eq_true, beq_iff_eq, Bool.and_eq_true, Option.isNone_iff_eq_none, Bool.not_eq_true', and_assoc]

/-- Only a lifetime window never ends. -/
private theorem endless_window (window : key.IsWindow) (endless : key.bounds.endAt = none) :
    key.policy.interval = none ∧ key.bounds = ⟨0, none⟩ := by
  obtain ⟨opened, bounds⟩ := window
  rw [bounds] at endless ⊢
  unfold ControlPolicy.windowBounds at endless ⊢
  cases shape : key.policy.interval with
  | none => exact ⟨rfl, rfl⟩
  | some cadence =>
    rw [shape] at endless
    exact absurd endless (calendarWindow_ends cadence opened)

private theorem bounded_window (window : key.IsWindow) {ending : Int} (bounded : key.bounds.endAt = some ending) :
    key.policy.interval.isSome = true := by
  obtain ⟨opened, bounds⟩ := window
  rw [bounds] at bounded
  unfold ControlPolicy.windowBounds at bounded
  cases shape : key.policy.interval with
  | none => simp [shape] at bounded
  | some _ => rfl

private theorem spans_unique {first last : WindowKey} (same : first.identity = last.identity) (policy : first.policy = last.policy) :
    first = last := by
  have bounds : first.bounds = last.bounds := congrArg Prod.snd same
  rcases first with ⟨_, _⟩
  rcases last with ⟨_, _⟩
  simp only at policy bounds
  rw [policy, bounds]

private theorem lifetime_belongs (window : key.IsWindow) (endless : key.bounds.endAt = none)
    (recorded : 0 ≤ event.recordedAt) (scope : InScope key event.feature event.entity) : belongs key event = true := by
  obtain ⟨interval, bounds⟩ := endless_window window endless
  refine belongs_iff.mpr (.inr ⟨scope, ?_, .inr ?_⟩)
  · rw [bounds]
    exact contains_iff.mpr ⟨recorded, by simp⟩
  · unfold chargedToEarlierWindow
    rw [interval]
    rfl

end Span

/-- The rows of one window count no more than its usage, and one of them counts all of it; a lifetime window reads it
again. -/
structure Carried (key : WindowKey) (windows : List ControlWindow) (net : Int) : Prop where
  cadence : ∀ other, Has other windows → Spans key other → Replaces key other.policy
  most : ∀ other, Has other windows → Spans key other → (consumedIn other windows : Int) ≤ net
  full : key.policy.interval.isSome = true → (∃ other, Has other windows ∧ Spans key other) →
    ∃ other, Has other windows ∧ Spans key other ∧ (consumedIn other windows : Int) = net

structure Kept (key : WindowKey) (account : ControlledAccount) : Prop where
  carried : Carried key account.windows (netUsage key account.events)
  entries : ∀ event ∈ account.events, ∀ entry ∈ event.entries, Spans key entry.window →
    Has entry.window account.windows ∧ InScope key event.feature event.entity
  events : ∀ event ∈ account.events, 0 ≤ event.net ∧ 0 ≤ event.recordedAt
  holds : ∀ reservation ∈ account.reservations, ∀ hold ∈ reservation.holds, Spans key hold.window →
    InScope key reservation.feature reservation.entity

section Opening
variable {commercial : Commercial} {events : List ControlledEvent} {key other : WindowKey} {windows : List ControlWindow}

private theorem carried_net (distinct : Distinct windows) (carried : Carried key windows (netUsage key events)) (nonneg : 0 ≤ netUsage key events)
    (spans : Spans key other) : (carriedControlConsumption other windows : Int) ≤ netUsage key events := by
  have most : carriedControlConsumption other windows ≤ (netUsage key events).toNat := by
    apply carried_le
    intro window member same _
    have counted := carried.most window.key (List.mem_map_of_mem member) (same.trans spans)
    rw [row_consumed distinct member] at counted
    omega
  omega

private theorem countsAlways_iff (spans : Spans key other) : countsAlways commercial other event = true ↔
    InScope key event.feature event.entity ∧ commercial.covers other.policy event.entity = true := by
  rw [← spans_scope spans]
  unfold countsAlways InScope
  simp only [Bool.and_eq_true, beq_iff_eq, Bool.or_eq_true, Option.isNone_iff_eq_none]

private theorem recorded_le (nets : ∀ event ∈ events, 0 ≤ event.net ∧ 0 ≤ event.recordedAt) (window : key.IsWindow)
    (spans : Spans key other) (replaces : Replaces key other.policy) :
    (recordedControlConsumption commercial other windows events : Int) ≤ netUsage key events := by
  have nonneg : 0 ≤ netUsage key events := netOf_nonneg (fun event member => (nets event member).1) _
  have bounds : other.bounds = key.bounds := congrArg Prod.snd spans
  cases ending : other.bounds.endAt with
  | none =>
    rw [recorded_endless ending]
    have total : netOf (countsAlways commercial other) events ≤ netUsage key events := by
      apply netOf_mono fun event member => (nets event member).1
      intro event member chosen
      exact lifetime_belongs window (bounds ▸ ending) (nets event member).2 ((countsAlways_iff spans).mp chosen).1
    omega
  | some last =>
    by_cases present : Has other windows
    · rw [recorded_present ending present]
      exact_mod_cast nonneg
    · rw [recorded_absent ending present]
      have total : netOf (countsEvent commercial other) events ≤ netUsage key events := by
        apply netOf_mono fun event member => (nets event member).1
        intro event member chosen
        obtain ⟨scope, -, charged⟩ := (counts_iff spans replaces).mp chosen
        exact belongs_iff.mpr (.inr ⟨scope, charged⟩)
      omega

variable (distinct : Distinct windows) (carried : Carried key windows (netUsage key events))
  (entries : ∀ event ∈ events, ∀ entry ∈ event.entries, Spans key entry.window →
    Has entry.window windows ∧ InScope key event.feature event.entity)
  (nets : ∀ event ∈ events, 0 ≤ event.net ∧ 0 ≤ event.recordedAt) (window : key.IsWindow)
include distinct carried entries nets window

/-- The opening of a window finds all its usage: in the row of a limit that counted it, or among what is recorded. -/
private theorem opening_net (spans : Spans key other) (replaces : Replaces key other.policy)
    (covers : ∀ entity, commercial.covers other.policy entity = true) :
    ((max (consumedIn other windows) (openingControlConsumption commercial other windows events) : Nat) : Int) =
      netUsage key events := by
  have nonneg : 0 ≤ netUsage key events := netOf_nonneg (fun event member => (nets event member).1) _
  have others := carried_net distinct carried nonneg spans
  have read := @recorded_le commercial events key other windows nets window spans replaces
  have own : (consumedIn other windows : Int) ≤ netUsage key events := by
    by_cases has : Has other windows
    · exact carried.most other has spans
    · rw [absent_consumed has]
      exact_mod_cast nonneg
  have bounds : other.bounds = key.bounds := congrArg Prod.snd spans
  unfold openingControlConsumption
  suffices reached : netUsage key events ≤ consumedIn other windows ∨
      netUsage key events ≤ carriedControlConsumption other windows ∨
        netUsage key events ≤ recordedControlConsumption commercial other windows events by omega
  cases ending : other.bounds.endAt with
  | none =>
    right
    right
    have all : netUsage key events = netOf (countsAlways commercial other) events := by
      apply netOf_congr
      intro event member
      rw [Bool.eq_iff_iff, countsAlways_iff spans]
      constructor
      · intro inside
        rcases belongs_iff.mp inside with ⟨entry, listed, spans⟩ | ⟨scope, -⟩
        · exact ⟨(entries event member entry listed spans).2, covers _⟩
        · exact ⟨scope, covers _⟩
      · exact fun chosen => lifetime_belongs window (bounds ▸ ending) (nets event member).2 chosen.1
    rw [recorded_endless ending, ← all]
    omega
  | some last =>
    by_cases counted : ∃ row, Has row windows ∧ Spans key row
    · obtain ⟨best, has, same, full⟩ := carried.full (bounded_window window (bounds ▸ ending)) counted
      by_cases one : best = other
      · left
        rw [← one]
        exact le_of_eq full.symm
      · right
        left
        obtain ⟨row, member, rfl⟩ := List.mem_map.mp has
        have apart : row.key.policy ≠ other.policy :=
          fun policy => one (spans_unique (same.trans spans.symm) policy)
        have listed := le_carried member (same.trans spans.symm) apart
        rw [row_consumed distinct member] at full
        omega
    · right
      right
      have absent : ¬ Has other windows := fun present => counted ⟨other, present, spans⟩
      have all : netUsage key events = netOf (countsEvent commercial other) events := by
        apply netOf_congr
        intro event member
        rw [Bool.eq_iff_iff, counts_iff spans replaces]
        constructor
        · intro inside
          rcases belongs_iff.mp inside with ⟨entry, listed, same⟩ | ⟨scope, contains, charged⟩
          · exact absurd ⟨entry.window, (entries event member entry listed same).1, same⟩ counted
          · exact ⟨scope, covers _, contains, charged⟩
        · exact fun ⟨scope, _, contains, charged⟩ => belongs_iff.mpr (.inr ⟨scope, contains, charged⟩)
      rw [recorded_absent ending absent, ← all]
      omega

private theorem open_carried (opens : Spans key other → Replaces key other.policy ∧ ∀ entity, commercial.covers other.policy entity = true) :
    Carried key (openWindow commercial events other windows) (netUsage key events) ∧
      (Spans key other → (consumedIn other (openWindow commercial events other windows) : Int) = netUsage key events) := by
  have filled : Spans key other →
      (consumedIn other (openWindow commercial events other windows) : Int) = netUsage key events := by
    intro spans
    obtain ⟨replaces, covers⟩ := opens spans
    rw [open_consumed distinct, if_pos rfl]
    exact opening_net distinct carried entries nets window spans replaces covers
  refine ⟨⟨?_, ?_, ?_⟩, filled⟩
  · intro row has spans
    rcases open_has.mp has with rfl | old
    · exact (opens spans).1
    · exact carried.cadence row old spans
  · intro row has spans
    by_cases here : row = other
    · subst here
      exact le_of_eq (filled spans)
    · rw [open_consumed distinct, if_neg here]
      exact carried.most row ((open_has.mp has).resolve_left here) spans
  · rintro bounded ⟨row, has, spans⟩
    by_cases here : Spans key other
    · exact ⟨other, open_has.mpr (.inl rfl), here, filled here⟩
    · have old : Has row windows := (open_has.mp has).resolve_left fun same => here (same ▸ spans)
      obtain ⟨best, had, same, full⟩ := carried.full bounded ⟨row, old, spans⟩
      have apart : best ≠ other := by
        rintro rfl
        exact here same
      refine ⟨best, open_has.mpr (.inr had), same, ?_⟩
      rw [open_consumed distinct, if_neg apart]
      exact full

def Opens (key : WindowKey) (commercial : Commercial) (now : Int) (policies : List ControlPolicy) : Prop :=
  ∀ policy ∈ policies, Spans key (currentWindow now policy) →
    Replaces key policy ∧ ∀ entity, commercial.covers policy entity = true

private theorem opened_carried {now : Int} {policies : List ControlPolicy} (opens : Opens key commercial now policies) :
    Carried key (openWindows commercial events now policies windows) (netUsage key events) ∧
      ∀ policy ∈ policies, Spans key (currentWindow now policy) →
        (consumedIn (currentWindow now policy) (openWindows commercial events now policies windows) : Int) = netUsage key events := by
  induction policies generalizing windows with
  | nil => exact ⟨carried, by simp⟩
  | cons policy rest ih =>
    obtain ⟨next, filled⟩ := @open_carried commercial events key (currentWindow now policy) windows distinct carried entries nets window
      (opens policy (by simp))
    obtain ⟨later, counts⟩ := ih (open_distinct distinct) next
      (fun event member entry listed spans => (entries event member entry listed spans).imp_left fun has => open_has.mpr (.inr has))
      fun other member => opens other (by simp [member])
    refine ⟨later, ?_⟩
    intro other member spans
    by_cases again : other ∈ rest
    · exact counts other again spans
    · have one : other = policy := (List.mem_cons.mp member).resolve_right again
      subst one
      have apart : Distinct (openWindow commercial events (currentWindow now other) windows) := open_distinct distinct
      have kept := @openWindows_apart commercial events now _ rest (currentWindow now other) apart again
      exact (congrArg Nat.cast kept).trans (filled spans)

end Opening

section Moves
variable {key : WindowKey} {windows after : List ControlWindow} {net next : Int}

theorem Carried.same (carried : Carried key windows net) (has : ∀ other, Has other after ↔ Has other windows)
    (kept : ∀ other, consumedIn other after = consumedIn other windows) : Carried key after net := by
  refine ⟨?_, ?_, ?_⟩
  · exact fun other present => carried.cadence other ((has other).mp present)
  · intro other present spans
    rw [kept]
    exact carried.most other ((has other).mp present) spans
  · rintro bounded ⟨other, present, spans⟩
    obtain ⟨best, had, same, full⟩ := carried.full bounded ⟨other, (has other).mp present, spans⟩
    exact ⟨best, (has best).mpr had, same, by rw [kept, full]⟩

theorem Carried.counted {quantity : Nat} {moved : List WindowKey} (carried : Carried key windows net)
    (has : ∀ other, Has other after ↔ Has other windows)
    (inside : ∀ other ∈ moved, Spans key other → consumedIn other after = consumedIn other windows + quantity)
    (outside : ∀ other, other ∉ moved → consumedIn other after = consumedIn other windows)
    (grown : (∃ other ∈ moved, Spans key other) → next = net + quantity) (grows : net ≤ next)
    (whole : key.policy.interval.isSome = true → (∃ other, Has other windows ∧ Spans key other) → net < next →
      ∃ other ∈ moved, Has other windows ∧ Spans key other ∧ (consumedIn other windows : Int) = net) :
    Carried key after next := by
  refine ⟨?_, ?_, ?_⟩
  · exact fun other present => carried.cadence other ((has other).mp present)
  · intro other present spans
    have before := carried.most other ((has other).mp present) spans
    by_cases listed : other ∈ moved
    · rw [inside other listed spans, grown ⟨other, listed, spans⟩]
      omega
    · rw [outside other listed]
      omega
  · rintro bounded ⟨other, present, spans⟩
    have open_ : ∃ other, Has other windows ∧ Spans key other := ⟨other, (has other).mp present, spans⟩
    rcases lt_or_eq_of_le grows with more | same
    · obtain ⟨best, listed, had, same, full⟩ := whole bounded open_ more
      refine ⟨best, (has best).mpr had, same, ?_⟩
      rw [inside best listed same, grown ⟨best, listed, same⟩]
      omega
    · obtain ⟨best, had, spanned, full⟩ := carried.full bounded open_
      refine ⟨best, (has best).mpr had, spanned, ?_⟩
      by_cases listed : best ∈ moved
      · have := grown ⟨best, listed, spanned⟩
        rw [inside best listed spanned]
        omega
      · rw [outside best listed]
        omega

/-- A quantity taken off every row of the window. -/
theorem Carried.lowered {reduction : Int} (carried : Carried key windows net)
    (has : ∀ other, Has other after ↔ Has other windows)
    (moved : ∀ other, Has other windows → Spans key other →
      consumedIn other after = ((consumedIn other windows : Int) - reduction).toNat)
    (fits : reduction ≤ net) : Carried key after (net - reduction) := by
  refine ⟨?_, ?_, ?_⟩
  · exact fun other present => carried.cadence other ((has other).mp present)
  · intro other present spans
    have before := carried.most other ((has other).mp present) spans
    rw [moved other ((has other).mp present) spans]
    omega
  · rintro bounded ⟨other, present, spans⟩
    obtain ⟨best, had, same, full⟩ := carried.full bounded ⟨other, (has other).mp present, spans⟩
    refine ⟨best, (has best).mpr had, same, ?_⟩
    rw [moved best had same, full]
    omega

end Moves

section Acting
variable {commercial : Commercial} {key : WindowKey} {feature : Nat} {entity : Option Nat} {amount : Amount}
  {policy : ControlPolicy}

private theorem replacing_acts (scope : InScope key feature entity) (listed : policy ∈ commercial.policies)
    (replaces : Replaces key policy) (covers : commercial.covers policy entity = true) :
    ∃ acting ∈ actingControls commercial (amount.delta feature entity), Replaces key acting := by
  have ofPolicy : policy.entity = key.policy.entity := congrArg Prod.snd replaces.1
  have inForce : policy ∈ commercial.inForce entity := inForce_iff.mpr ⟨listed, covers, by rw [ofPolicy]; exact scope.2⟩
  have standing : ∃ other ∈ commercial.inForce entity, controlIdentity other = controlIdentity policy ∧
      (other.source = .planDefault → ∀ rival ∈ commercial.inForce entity, rival.source = .contract →
        controlIdentity rival ≠ controlIdentity other) := by
    by_cases replaced : ∃ rival ∈ commercial.inForce entity, rival.source = .contract ∧ controlIdentity rival = controlIdentity policy
    · obtain ⟨rival, member, contract, same⟩ := replaced
      exact ⟨rival, member, same, fun default => by rw [contract] at default; cases default⟩
    · exact ⟨policy, inForce, rfl, fun _ rival member contract same => replaced ⟨rival, member, contract, same⟩⟩
  obtain ⟨other, member, same, stands⟩ := standing
  obtain ⟨winner, won, identity⟩ := winner_exists member stands
  have counts := competing_identity (winners_inForce won) inForce (identity.trans same)
  refine ⟨winner, mem_acting.mpr ⟨won, ?_⟩, counts.trans replaces.1, ?_⟩
  · unfold ControlDelta.concerns
    rw [identity_kind (counts.trans replaces.1), scope.1]
    exact beq_self_eq_true feature
  · have cadence : winner.cadenceKey = policy.cadenceKey := congrArg (fun identity => identity.2.1) (identity.trans same)
    exact cadence.trans replaces.2

private theorem acting_scope {counted : Nat} (usage : key.policy.kind = .usageLimit counted) {now : Int}
    (acting : policy ∈ actingControls commercial (amount.delta feature entity)) (spans : Spans key (currentWindow now policy)) :
    InScope key feature entity := by
  have identity := ((spans_current policy now).mp spans).1
  have kind : policy.kind = .usageLimit counted := (identity_kind identity).trans usage
  have one : counted = feature := acting_feature acting kind
  refine (spans_scope spans).mp ⟨one ▸ kind, ?_⟩
  exact (inForce_iff.mp (acting_inForce acting)).2.2

end Acting

section Steps
variable {key : WindowKey} {commercial : Commercial} {clock : Clock} {account : ControlledAccount} {write : UsageWrite}
  {policies : List ControlPolicy} {entity : Option Nat} {feature : Nat}

theorem Steady.opens (steady : Steady key commercial clock write account)
    (known : ∀ policy ∈ policies, policy ∈ commercial.policies) : Opens key commercial clock.controlNow policies := by
  intro policy member spans
  obtain ⟨identity, bounds⟩ := (spans_current policy _).mp spans
  exact ⟨⟨identity, steady.cadence policy (known policy member) identity _ bounds⟩, steady.reaches policy (known policy member) identity⟩

theorem Steady.acts (steady : Steady key commercial clock write account) (window : key.IsWindow)
    (bounded : key.policy.interval.isSome = true) (counted : ∃ other, Has other account.windows ∧ Spans key other)
    (open_ : key.bounds.contains clock.controlNow = true) (scope : InScope key feature entity)
    (amount : Amount) : ∃ policy ∈ actingControls commercial (amount.delta feature entity),
      Replaces key policy ∧ Spans key (currentWindow clock.controlNow policy) := by
  obtain ⟨policy, listed, replaces⟩ := steady.inPlace bounded open_ counted
  obtain ⟨acting, member, same⟩ := @replacing_acts commercial key feature entity amount policy scope listed replaces
    (steady.reaches policy listed replaces.1 entity)
  exact ⟨acting, member, same, replacing_spans window same open_⟩

private theorem kept_opened (steady : Steady key commercial clock write account) (window : key.IsWindow) (tidy : Tidy account)
    (kept : Kept key account) (known : ∀ policy ∈ policies, policy ∈ commercial.policies) :
    Kept key (account.opened commercial clock policies) := by
  obtain ⟨carried, -⟩ := opened_carried tidy.distinct kept.carried kept.entries kept.events window (steady.opens known)
  refine { kept with carried := carried, entries := ?_ }
  intro event member entry listed spans
  exact (kept.entries event member entry listed spans).imp_left fun has => openWindows_has.mpr (.inr has)

private theorem kept_closed (kept : Kept key account) (tidy : Tidy account) (reservation : ControlledReservation)
    (status : ReservationStatus) : Kept key (closeReservation reservation status account) := by
  have dropped := dropped_holds tidy.distinct reservation.holds
  refine ⟨kept.carried.same dropped.has dropped.consumed, ?_, kept.events, ?_⟩
  · intro event member entry listed spans
    exact (kept.entries event member entry listed spans).imp_left (dropped.has _).mpr
  · intro other member
    rcases mem_updateAt.mp member with ⟨old, inside, ⟨-, rfl⟩ | ⟨-, rfl⟩⟩
    · exact kept.holds old inside
    · exact kept.holds _ inside

private theorem netUsage_record (key : WindowKey) (account : ControlledAccount) (operation : UsageOperation) (feature : Nat) (entity : Option Nat)
    (clock : Clock) (quantity : Nat) (entries : List ControlEntry) :
    netUsage key (account.record operation feature entity clock quantity entries) = netUsage key account.events +
      if belongs key ⟨account.events.length, operation, feature, entity, clock.recordedAt, quantity, entries, []⟩ = true
        then (quantity : Int) else 0 := by
  unfold netUsage ControlledAccount.record
  rw [netOf_append]
  simp only [ControlledEvent.net, ControlledEvent.corrected, List.map_nil, List.sum_nil, Nat.cast_zero, sub_zero]

private theorem kept_consumed (steady : Steady key commercial clock write account) (window : key.IsWindow) (tidy : Tidy account)
    (kept : Kept key account) {counted : Nat} (usage : key.policy.kind = .usageLimit counted)
    {amount : Amount} {charges : List Charge} (positive : 0 < amount.quantity)
    (charged : Charged commercial clock account (amount.delta feature entity) policies charges) :
    Kept key (account.consumed commercial clock feature entity amount policies charges) := by
  have opened := kept_opened steady window tidy kept charged.known
  obtain ⟨-, filled⟩ := opened_carried tidy.distinct kept.carried kept.entries kept.events window (steady.opens charged.known)
  have distinct : Distinct (openWindows commercial account.events clock.controlNow policies account.windows) :=
    openWindows_distinct tidy.distinct policies
  have moves := counted_charges distinct charged.apart fun charge member => (charged.admitted charge member).has
  have whole : ∀ charge ∈ charges, ∀ feature, charge.key.policy.kind = .usageLimit feature → charge.delta = amount.quantity :=
    fun charge member _ usage => usage_admitted (charged.admitted charge member) usage
  have spanKind : ∀ other, Spans key other → other.policy.kind = .usageLimit counted :=
    fun other spans => (identity_kind (congrArg Prod.fst spans)).trans usage
  have placed : ∀ other ∈ charges.map Charge.key, ∃ policy ∈ policies, other = currentWindow clock.controlNow policy := by
    intro other member
    rw [charged.keys] at member
    obtain ⟨policy, listed, rfl⟩ := List.mem_map.mp member
    exact ⟨policy, listed, rfl⟩
  have entries : ∀ entry ∈ charges.filterMap appliedEntry, Spans key entry.window →
      entry.window ∈ charges.map Charge.key :=
    fun entry member spans => (applied_counts positive whole (spanKind _ spans)).mp ⟨entry, member, rfl⟩
  have inScope : ∀ other ∈ charges.map Charge.key, Spans key other → InScope key feature entity := by
    intro other member spans
    obtain ⟨policy, listed, rfl⟩ := placed other member
    exact acting_scope usage (charged.within.subset listed) spans
  refine ⟨?_, ?_, ?_, opened.holds⟩
  · rw [netUsage_record]
    refine @Carried.counted key _ _ _ _ amount.quantity (charges.map Charge.key) opened.carried moves.has ?_ moves.others ?_ ?_ ?_
    · intro other member spans
      obtain ⟨charge, made, rfl⟩ := List.mem_map.mp member
      rw [moves.charged charge made, whole charge made counted (spanKind _ spans)]
      simp only
      omega
    · rintro ⟨other, member, spans⟩
      obtain ⟨entry, recorded, same⟩ := (applied_counts positive whole (spanKind other spans)).mpr member
      rw [if_pos (belongs_iff.mpr (.inl ⟨entry, recorded, by rw [same]; exact spans⟩))]
    · split
      · exact Int.le_add_of_nonneg_right (Int.natCast_nonneg _)
      · exact le_of_eq (add_zero _).symm
    · intro bounded open_ more
      have belonging : belongs key ⟨account.events.length, .consume, feature, entity, clock.recordedAt, amount.quantity,
          charges.filterMap appliedEntry, []⟩ = true := by
        by_contra apart
        rw [if_neg apart, add_zero] at more
        exact absurd more (lt_irrefl _)
      have reached : ∃ policy ∈ policies, Spans key (currentWindow clock.controlNow policy) := by
        rcases belongs_iff.mp belonging with ⟨entry, recorded, spans⟩ | ⟨scope, contains, -⟩
        · obtain ⟨policy, listed, same⟩ := placed entry.window (entries entry recorded spans)
          exact ⟨policy, listed, same ▸ spans⟩
        · obtain ⟨other, has, spans⟩ := open_
          rcases openWindows_has.mp has with ⟨policy, listed, rfl⟩ | old
          · exact ⟨policy, listed, spans⟩
          · obtain ⟨policy, acting, -, counts⟩ := steady.acts window bounded ⟨other, old, spans⟩ (steady.recorded ▸ contains) scope amount
            have kind : policy.kind = .usageLimit feature :=
              (identity_kind ((spans_current policy _).mp counts).1).trans scope.1
            exact ⟨policy, charged.usage policy acting kind, counts⟩
      obtain ⟨policy, listed, spans⟩ := reached
      refine ⟨currentWindow clock.controlNow policy, ?_, openWindows_has.mpr (.inl ⟨policy, listed, rfl⟩), spans, filled policy listed spans⟩
      rw [charged.keys]
      exact List.mem_map_of_mem listed
  · intro event member entry listed spans
    rcases List.mem_append.mp member with old | new
    · exact (opened.entries event old entry listed spans).imp_left (moves.has _).mpr
    · rw [List.mem_singleton] at new
      subst new
      have inside := entries entry listed spans
      obtain ⟨charge, made, same⟩ := List.mem_map.mp inside
      refine ⟨(moves.has _).mpr ?_, inScope _ inside spans⟩
      rw [← same]
      exact (charged.admitted charge made).has
  · intro event member
    rcases List.mem_append.mp member with old | new
    · exact kept.events event old
    · rw [List.mem_singleton] at new
      subst new
      refine ⟨?_, steady.started.2⟩
      simp [ControlledEvent.net, ControlledEvent.corrected]

private theorem kept_reserved (steady : Steady key commercial clock write account) (window : key.IsWindow) (tidy : Tidy account)
    (kept : Kept key account) {counted : Nat} (usage : key.policy.kind = .usageLimit counted)
    {amount : Amount} {charges : List Charge}
    (charged : Charged commercial clock account (amount.delta feature entity) policies charges)
    {reservation : ControlledReservation} (ofFeature : reservation.feature = feature) (ofEntity : reservation.entity = entity)
    (placed : ∀ hold ∈ reservation.holds, hold.window ∈ charges.map Charge.key) :
    Kept key (account.reserved commercial clock reservation policies charges) := by
  have opened := kept_opened steady window tidy kept charged.known
  obtain ⟨has, consumed, -⟩ := holdCharges_keep charges
    (openWindows commercial account.events clock.controlNow policies account.windows)
  refine ⟨opened.carried.same has consumed, ?_, kept.events, ?_⟩
  · intro event member entry listed spans
    exact (opened.entries event member entry listed spans).imp_left (has _).mpr
  · intro other member hold inside spans
    rcases List.mem_append.mp member with old | new
    · exact kept.holds other old hold inside spans
    · rw [List.mem_singleton] at new
      subst new
      have window := placed hold inside
      rw [charged.keys] at window
      obtain ⟨policy, listed, same⟩ := List.mem_map.mp window
      rw [ofFeature, ofEntity]
      exact acting_scope usage (charged.within.subset listed) (by rw [same]; exact spans)

variable {reservation : ControlledReservation} {amount : Amount} {settled : List (ConfirmationGroup × Charge)}
  {entry : ConfirmationGroup × Charge}

private theorem settled_spans (settlement : Settlement commercial clock account reservation amount settled)
    (member : entry ∈ settled) (spans : Spans key entry.1.window) :
    (∃ policy ∈ confirmingControls commercial reservation amount,
      Settles clock.controlNow reservation.holds policy ∧ entry.1.window = currentWindow clock.controlNow policy) ∨
        ∃ hold ∈ reservation.holds, Spans key hold.window ∧ entry.1.window = hold.window ∧
          ∀ policy ∈ confirmingControls commercial reservation amount,
            ¬ Spans key (currentWindow clock.controlNow policy) := by
  have group := settlement.groups ▸ List.mem_map_of_mem (f := Prod.fst) member
  rcases mem_groups.mp group with ⟨policy, acting, settles, shape⟩ | ⟨hold, inside, unadopted, shape⟩
  · exact .inl ⟨policy, acting, settles, by rw [shape]⟩
  · rw [shape] at spans
    refine .inr ⟨hold, inside, spans, by rw [shape], ?_⟩
    intro policy acting current
    have same : hold.window.identity = (currentWindow clock.controlNow policy).identity := spans.trans current.symm
    have identity : hold.window.policy.identity = policy.identity := congrArg Prod.fst same
    have bounds : hold.window.bounds = policy.windowBounds clock.controlNow := congrArg Prod.snd same
    exact unadopted policy acting (.inl ⟨hold, inside, identity, bounds⟩) (mem_adopted.mpr ⟨inside, identity, bounds⟩)

/-- A confirmation left to an earlier window of the limit's cadence that held it is no usage of the current one. -/
private theorem held_earlier (tidy : Tidy account) (window : key.IsWindow)
    (settlement : Settlement commercial clock account reservation amount settled)
    {counted : Nat} (usage : key.policy.kind = .usageLimit counted) (bounded : key.policy.interval.isSome = true)
    {policy : ControlPolicy} (spans : Spans key (currentWindow clock.controlNow policy)) (replaces : Replaces key policy)
    (paired : Paired clock.controlNow reservation.holds policy) (elsewhere : ¬ Settles clock.controlNow reservation.holds policy)
    (entries : event.entries = settled.filterMap fun entry => appliedEntry entry.2)
    (recorded : key.bounds.contains event.recordedAt = true) : chargedToEarlierWindow key.policy event = true := by
  obtain ⟨hold, placed, identity, cadence, apart, entry, member, group⟩ := elsewhere_held settlement tidy paired elsewhere
  have ofKey : hold.window.policy.identity = key.policy.identity := identity.trans replaces.1
  obtain ⟨listed, -⟩ := group_counts settlement tidy member (by rw [group]; exact (identity_kind ofKey).trans usage)
  rw [group] at listed
  unfold chargedToEarlierWindow
  rw [bounded, Bool.true_and]
  apply List.any_eq_true.mpr
  refine ⟨_, entries ▸ listed, ?_⟩
  simp only [Bool.and_eq_true, beq_iff_eq, Bool.not_eq_true']
  refine ⟨⟨⟨identity_kind ofKey, congrArg Prod.snd ofKey⟩, cadence.trans replaces.2⟩, ?_⟩
  by_contra contains
  rw [Bool.not_eq_false] at contains
  obtain ⟨opened, bounds⟩ := tidy.windows hold.window ((tidy.holds reservation settlement.found).2 hold placed)
  obtain ⟨first, at_⟩ := window
  rw [at_] at recorded
  rw [bounds] at contains
  apply apart
  rw [bounds, ← windowBounds_unique contains, windowBounds_cadence (cadence.trans replaces.2), windowBounds_unique recorded, ← at_]
  exact ((spans_current policy _).mp spans).2.symm

section Confirmed
variable {counted : Nat} {admitted : Bool} (window : key.IsWindow) (tidy : Tidy account) (kept : Kept key account)
  (usage : key.policy.kind = .usageLimit counted) (steady : Steady key commercial clock (.confirm reservation.id amount admitted) account)
  (settlement : Settlement commercial clock account reservation amount settled)
include window steady in
/-- A limit acts on a confirmation in an open window that has a row once the confirmation opened its windows. -/
private theorem confirming_spans (bounded : key.policy.interval.isSome = true)
    (opened : ∃ other, Has other (openedFor commercial clock account reservation amount) ∧ Spans key other)
    (scope : InScope key reservation.feature reservation.entity) (inside : key.bounds.contains clock.controlNow = true) :
    ∃ policy ∈ confirmingControls commercial reservation amount, Spans key (currentWindow clock.controlNow policy) := by
  obtain ⟨other, has, spans⟩ := opened
  rcases openWindows_has.mp has with ⟨policy, listed, rfl⟩ | old
  · exact ⟨policy, (List.mem_filter.mp listed).1, spans⟩
  · obtain ⟨policy, acting, -, counts⟩ := steady.acts window bounded ⟨other, old, spans⟩ inside scope amount
    exact ⟨policy, acting, counts⟩

include settlement

private theorem recorded_span {recorded : ControlEntry} (member : recorded ∈ settled.filterMap fun entry => appliedEntry entry.2)
    (spans : Spans key recorded.window) : ∃ entry ∈ settled, entry.1.window = recorded.window ∧ Spans key entry.1.window := by
  obtain ⟨entry, inside, same⟩ := entry_group settlement member
  exact ⟨entry, inside, same, same ▸ spans⟩

include kept usage in
private theorem settled_scope (member : entry ∈ settled) (spans : Spans key entry.1.window) :
    InScope key reservation.feature reservation.entity := by
  rcases settled_spans settlement member spans with ⟨policy, acting, -, same⟩ | ⟨hold, inside, spanned, -, -⟩
  · exact acting_scope usage acting (same ▸ spans)
  · exact kept.holds reservation settlement.found hold inside spanned

include window tidy kept usage steady in
/-- A confirmation that is usage of a window with a row is settled in it. -/
private theorem belonging_settles (bounded : key.policy.interval.isSome = true)
    (opened : ∃ other, Has other (openedFor commercial clock account reservation amount) ∧ Spans key other)
    (belonging : belongs key ⟨account.events.length, .confirm, reservation.feature, reservation.entity, clock.recordedAt,
      amount.quantity, settled.filterMap (fun entry => appliedEntry entry.2), []⟩ = true) :
    ∃ policy ∈ confirmingControls commercial reservation amount,
      Settles clock.controlNow reservation.holds policy ∧ Spans key (currentWindow clock.controlNow policy) := by
  obtain ⟨confirmedInside, paired⟩ := steady.confirms reservation amount admitted rfl settlement.found
  have acts := confirming_spans window steady bounded opened
  rcases belongs_iff.mp belonging with ⟨recorded, listed, spans⟩ | ⟨scope, contains, charged⟩
  · obtain ⟨entry, inside, -, counts⟩ := recorded_span settlement listed spans
    rcases settled_spans settlement inside counts with ⟨policy, acting, settles, same⟩ | ⟨hold, placed, spanned, -, none⟩
    · exact ⟨policy, acting, settles, same ▸ counts⟩
    · obtain ⟨policy, acting, current⟩ := acts (kept.holds reservation settlement.found hold placed spanned)
        (confirmedInside hold placed spanned)
      exact absurd current (none policy acting)
  · obtain ⟨policy, acting, current⟩ := acts scope (steady.recorded ▸ contains)
    refine ⟨policy, acting, ?_, current⟩
    by_contra elsewhere
    obtain ⟨identity, bounds⟩ := (spans_current policy _).mp current
    have replaces : Replaces key policy := ⟨identity, steady.cadence policy (acting_known acting) identity _ bounds⟩
    have earlier := held_earlier tidy window settlement usage bounded current replaces (paired policy acting current) elsewhere
      rfl contains
    rcases charged with consume | unmoved
    · cases consume
    · rw [earlier] at unmoved
      cases unmoved

include window tidy kept usage steady in
private theorem carried_confirmed : Carried key (account.confirmed commercial clock reservation amount settled).windows
    (netUsage key (account.confirmed commercial clock reservation amount settled).events) := by
  have settling : ∀ policy ∈ settlingControls commercial clock reservation amount, policy ∈ commercial.policies :=
    fun policy member => acting_known (List.mem_filter.mp member).1
  obtain ⟨carried, filled⟩ := opened_carried tidy.distinct kept.carried kept.entries kept.events window (steady.opens settling)
  have moves := settled_groups (openWindows_distinct tidy.distinct _) (settlement.apart tidy) (settlement.present tidy)
  have spanKind : ∀ other, Spans key other → other.policy.kind = .usageLimit counted :=
    fun other spans => (identity_kind (congrArg Prod.fst spans)).trans usage
  dsimp only [ControlledAccount.confirmed]
  rw [netUsage_record]
  refine @Carried.counted key _ _ _ _ amount.quantity (settled.map fun entry => entry.2.key) carried moves.has ?_
    moves.others ?_ ?_ ?_
  · intro other member spans
    obtain ⟨entry, inside, rfl⟩ := List.mem_map.mp member
    have confirmed := settlement.confirmed entry inside
    have delta : entry.2.delta = amount.quantity := usage_confirmed confirmed (confirmed.key ▸ spanKind _ spans)
    have charged := moves.charged entry inside
    rw [delta] at charged
    unfold openedFor
    rw [charged]
    omega
  · rintro ⟨other, member, spans⟩
    obtain ⟨entry, inside, rfl⟩ := List.mem_map.mp member
    have same := (settlement.confirmed entry inside).key
    obtain ⟨listed, -⟩ := group_counts settlement tidy inside (same ▸ spanKind _ spans)
    rw [if_pos (belongs_iff.mpr (.inl ⟨_, listed, same ▸ spans⟩))]
  · split
    · exact Int.le_add_of_nonneg_right (Int.natCast_nonneg _)
    · exact le_of_eq (add_zero _).symm
  · intro bounded opened more
    obtain ⟨policy, acting, settles, spans⟩ := belonging_settles window tidy kept usage steady settlement bounded opened (by
      by_contra apart
      rw [if_neg apart, add_zero] at more
      exact absurd more (lt_irrefl _))
    have listed := settles_settling acting settles
    obtain ⟨entry, member, same⟩ := current_settled settlement acting settles
    exact ⟨currentWindow clock.controlNow policy, List.mem_map.mpr ⟨entry, member, same⟩,
      openWindows_has.mpr (.inl ⟨policy, listed, rfl⟩), spans, filled policy listed spans⟩

include window tidy kept usage steady in
private theorem kept_confirmed : Kept key (account.confirmed commercial clock reservation amount settled) := by
  have settling : ∀ policy ∈ settlingControls commercial clock reservation amount, policy ∈ commercial.policies :=
    fun policy member => acting_known (List.mem_filter.mp member).1
  have opened := kept_opened steady window tidy kept settling
  have moves := settled_groups (openWindows_distinct tidy.distinct _) (settlement.apart tidy) (settlement.present tidy)
  refine ⟨carried_confirmed window tidy kept usage steady settlement, ?_, ?_, ?_⟩
  · intro event member recorded listed spans
    rcases List.mem_append.mp member with old | new
    · exact (opened.entries event old recorded listed spans).imp_left (moves.has _).mpr
    · rw [List.mem_singleton] at new
      subst new
      obtain ⟨entry, inside, same, counts⟩ := recorded_span settlement listed spans
      refine ⟨(moves.has _).mpr ?_, settled_scope kept usage settlement inside counts⟩
      rw [← same, ← (settlement.confirmed entry inside).key]
      exact settlement.present tidy entry inside
  · intro event member
    rcases List.mem_append.mp member with old | new
    · exact kept.events event old
    · rw [List.mem_singleton] at new
      subst new
      refine ⟨?_, steady.started.2⟩
      simp [ControlledEvent.net, ControlledEvent.corrected]
  · intro other member
    rcases mem_updateAt.mp member with ⟨old, inside, ⟨-, rfl⟩ | ⟨-, rfl⟩⟩
    · exact kept.holds old inside
    · exact kept.holds _ inside

end Confirmed

/-- What a correction takes off the rows of a window: the whole quantity when the event is usage of the window. -/
private theorem reduction_belongs (kept : Kept key account) {counted : Nat}
    (usage : key.policy.kind = .usageLimit counted) (member : event ∈ account.events)
    (reach : belongs key event = true → (∀ entry ∈ event.entries, ¬ Spans key entry.window) →
      ∀ other, Has other account.windows → Spans key other → commercial.covers other.policy event.entity = true)
    {other : WindowKey} (has : Has other account.windows) (spans : Spans key other) (quantity : Nat) (spendMinorReduction : Int)
    (currency : Option String) : reductionIn commercial event quantity spendMinorReduction currency account.windows other =
      if belongs key event = true then (quantity : Int) else 0 := by
  have kind : other.policy.kind = .usageLimit counted := (identity_kind (congrArg Prod.fst spans)).trans usage
  unfold reductionIn
  by_cases charged : ∃ entry ∈ event.entries, Spans key entry.window
  · rw [if_pos (belongs_iff.mpr (.inl charged))]
    obtain ⟨entry, listed, spanned⟩ := charged
    have counting : (countingEntry event account.windows other).isSome = true := by
      unfold countingEntry
      simp only [Option.isSome_or, Bool.or_eq_true, List.findSome?_isSome_iff]
      right
      obtain ⟨row, inside, window⟩ := List.mem_map.mp (kept.entries event member entry listed spanned).1
      refine ⟨row.key, List.mem_map_of_mem (List.mem_filter.mpr ⟨inside, ?_⟩), ?_⟩
      · rw [window]
        exact beq_iff_eq.mpr (spanned.trans spans.symm)
      · rw [List.find?_isSome]
        exact ⟨entry, listed, by rw [window]; exact beq_self_eq_true _⟩
    obtain ⟨found, same⟩ := Option.isSome_iff_exists.mp counting
    simp only [same, kind]
  · have apart : ∀ entry ∈ event.entries, ¬ Spans key entry.window := fun entry listed spanned => charged ⟨entry, listed, spanned⟩
    have counting : countingEntry event account.windows other = none := by
      unfold countingEntry
      simp only [Option.or_eq_none_iff, List.find?_eq_none, List.findSome?_eq_none_iff]
      constructor
      · intro entry listed same
        exact apart entry listed (by rw [beq_iff_eq.mp same]; exact spans)
      · intro window inside entry listed same
        obtain ⟨row, sibling, rfl⟩ := List.mem_map.mp inside
        have spanned : Spans key row.key := (beq_iff_eq.mp (List.mem_filter.mp sibling).2).trans spans
        exact apart entry listed (by rw [beq_iff_eq.mp same]; exact spanned)
    simp only [counting]
    have counts := @counts_iff key other commercial spans (kept.carried.cadence other has spans) event
    have equal : countsEvent commercial other event = belongs key event := by
      rw [Bool.eq_iff_iff, counts]
      constructor
      · exact fun ⟨scope, _, contains⟩ => belongs_iff.mpr (.inr ⟨scope, contains⟩)
      · intro belonging
        rcases belongs_iff.mp belonging with inside | ⟨scope, contains⟩
        · exact absurd inside charged
        · exact ⟨scope, reach belonging apart other has spans, contains⟩
    rw [equal]

private theorem kept_corrected (tidy : Tidy account) (kept : Kept key account) {counted : Nat}
    (usage : key.policy.kind = .usageLimit counted) {original : ControlledEvent} (member : original ∈ account.events)
    {quantity : Nat} (fits : (quantity : Int) ≤ original.net)
    (reach : belongs key original = true → (∀ entry ∈ original.entries, ¬ Spans key entry.window) →
      ∀ other, Has other account.windows → Spans key other → commercial.covers other.policy original.entity = true)
    (spendMinorReduction : Int) (currency : Option String) :
    Kept key (account.corrected commercial original quantity spendMinorReduction currency) := by
  dsimp only [ControlledAccount.corrected]
  generalize (correctControlConsumption commercial original quantity spendMinorReduction currency account.windows).2 = entries
  have keys : ∀ other, Has other (correctControlConsumption commercial original quantity spendMinorReduction currency
      account.windows).1 ↔ Has other account.windows := by
    intro other
    unfold Has
    rw [correct_keys]
  have nets : ∀ event ∈ account.events, 0 ≤ event.net := fun event inside => (kept.events event inside).1
  refine ⟨?_, ?_, ?_, kept.holds⟩
  · have left : netUsage key (updateAt ControlledEvent.id original.id (ControlledEvent.addCorrection ⟨quantity, entries⟩)
        account.events) = netUsage key account.events - if belongs key original = true then (quantity : Int) else 0 :=
      netOf_corrected tidy.eventIds member ⟨quantity, entries⟩ rfl
    have room : (if belongs key original = true then (quantity : Int) else 0) ≤ netUsage key account.events := by
      split
      · next belonging => exact fits.trans (le_netOf nets member belonging)
      · exact netOf_nonneg nets _
    simp only
    rw [left]
    apply kept.carried.lowered keys _ room
    intro other has spans
    rw [correct_consumed tidy.distinct has, reduction_belongs kept usage member reach has spans]
  · intro event inside entry listed spans
    rcases mem_updateAt.mp inside with ⟨old, known, ⟨-, rfl⟩ | ⟨-, rfl⟩⟩
    · exact (kept.entries old known entry listed spans).imp_left (keys _).mpr
    · exact (kept.entries _ known entry listed spans).imp_left (keys _).mpr
  · intro event inside
    rcases mem_updateAt.mp inside with ⟨old, known, ⟨id, rfl⟩ | ⟨-, rfl⟩⟩
    · have one : old = original := List.inj_on_of_nodup_map tidy.eventIds known member id
      subst one
      refine ⟨?_, (kept.events old known).2⟩
      rw [addCorrection_net]
      simp only
      omega
    · exact kept.events _ known

theorem kept_step {next : ControlledAccount} (window : key.IsWindow) {counted : Nat} (usage : key.policy.kind = .usageLimit counted)
    (tidy : Tidy account) (kept : Kept key account) (steady : Steady key commercial clock write account)
    (done : write.apply commercial clock account = .ok next) : Kept key next := by
  cases write with
  | consume feature entity amount admitted =>
    rcases consume_inv tidy.distinct done with rfl | ⟨policies, within, rfl⟩ | ⟨policies, charges, positive, charged, rfl⟩
    · exact kept
    · exact kept_opened steady window tidy kept fun policy member => acting_known (within.subset member)
    · exact kept_consumed steady window tidy kept usage positive charged
  | reserve feature entity amount expiresIn admitted =>
    rcases reserve_inv tidy.distinct done with rfl | ⟨policies, within, rfl⟩ | ⟨policies, charges, -, charged, rfl⟩
    · exact kept
    · exact kept_opened steady window tidy kept fun policy member => acting_known (within.subset member)
    · apply kept_reserved steady window tidy kept usage charged rfl rfl
      intro hold placed
      obtain ⟨charge, made, rfl⟩ := List.mem_map.mp placed
      exact List.mem_map_of_mem made
  | confirm id amount admitted =>
    rcases confirm_inv done with rfl | ⟨reservation, -, -, rfl | ⟨-, rfl⟩⟩ | ⟨reservation, settled, ⟨rfl, -⟩, settlement, rfl⟩
    · exact kept
    · exact kept_closed kept tidy reservation .expired
    · exact kept_opened steady window tidy kept fun policy member => acting_known (List.mem_filter.mp member).1
    · exact kept_confirmed window tidy kept usage steady settlement
  | release id =>
    rcases release_inv done with rfl | ⟨reservation, -, -, status, -, rfl⟩
    · exact kept
    · exact kept_closed kept tidy reservation status
  | expire =>
    cases done
    clear steady
    unfold expireUsage
    generalize account.reservations.filter _ = overdue
    induction overdue generalizing account with
    | nil => exact kept
    | cons reservation rest ih => exact ih (tidy_closed tidy reservation .expired) (kept_closed kept tidy reservation .expired)
  | correct id quantity spendMinorReduction currency =>
    obtain ⟨original, member, same, -, fits, rfl⟩ := correct_inv done
    subst same
    exact kept_corrected tidy kept usage member fits (steady.corrects original quantity _ _ rfl member) _ _

end Steps

theorem reaches_kept {key : WindowKey} (window : key.IsWindow) {counted : Nat} (usage : key.policy.kind = .usageLimit counted)
    {account : ControlledAccount} (reached : Reaches (Steady key) account) : Kept key account := by
  induction reached with
  | opened => exact ⟨⟨by simp [Has], by simp [Has], by simp [Has]⟩, by simp, by simp, by simp⟩
  | step reached allowed done ih => exact kept_step window usage (reaches_tidy reached) ih allowed done

/-- In every account reached by steady limits of one identity, whichever of them acts in the window counts exactly its
net usage. -/
theorem replaced_limit_keeps_count {key : WindowKey} (window : key.IsWindow) {feature : Nat}
    (usage : key.policy.kind = .usageLimit feature) {account : ControlledAccount} (reached : Reaches (Steady key) account)
    {commercial : Commercial} {policy : ControlPolicy} {now : Int} (replaces : Replaces key policy)
    (current : Spans key (currentWindow now policy)) (covers : ∀ entity, commercial.covers policy entity = true) :
    (consumedIn (currentWindow now policy)
      (openWindow commercial account.events (currentWindow now policy) account.windows) : Int) = netUsage key account.events := by
  have kept := reaches_kept window usage reached
  have tidy := reaches_tidy reached
  exact (open_carried tidy.distinct kept.carried kept.entries kept.events window fun _ => ⟨replaces, covers⟩).2 current

section Replaced

/-- The same limit a day, spelled in hours and tightened. -/
def tightenedLimit : ControlPolicy := ⟨2, .account, .usageLimit 1, 50, some ⟨.hour, 24, by decide⟩⟩

def todayTightened : WindowKey := ⟨tightenedLimit, ⟨0, some 86400000⟩⟩

def consumed (id quantity : Nat) (window : WindowKey) : ControlledEvent :=
  ⟨id, .consume, 1, none, 43200000, quantity, [⟨window, quantity⟩], []⟩

def consumedFive : ControlledAccount := ⟨[⟨today, 5, 0⟩], [], [consumed 0 5 today]⟩

def consumedSix : ControlledAccount :=
  ⟨[⟨today, 5, 0⟩, ⟨todayTightened, 6, 0⟩], [], [consumed 0 5 today, consumed 1 1 todayTightened]⟩

private theorem steady_noon {policy : ControlPolicy} (replaces : Replaces today policy) (feature : Nat) (entity : Option Nat) (amount : Amount)
    (admitted : Bool) (account : ControlledAccount) :
    Steady today (limits [policy]) atNoon (.consume feature entity amount admitted) account := by
  refine ⟨?_, fun other _ _ _ => ?_, by decide, rfl, fun _ _ _ => ⟨policy, by simp [limits], replaces⟩, ?_, ?_⟩
  · intro other member _ _ _
    rw [show other = policy by simpa [limits] using member]
    exact replaces.2
  · unfold Commercial.covers limits
    split <;> rfl
  · exact fun _ _ _ absurd => by cases absurd
  · exact fun _ _ _ _ absurd => by cases absurd

end Replaced

theorem replaced_limit_keeps_count_tightened : (consumedIn (currentWindow 43200000 dailyLimit)
    (openWindow (limits [dailyLimit]) consumedSix.events (currentWindow 43200000 dailyLimit) consumedSix.windows) : Int) =
      netUsage today consumedSix.events := by
  have five : Reaches (Steady today) consumedFive := .step .opened (steady_noon ⟨rfl, rfl⟩ _ _ _ _ _)
    (show (UsageWrite.consume 1 none (units 5) true).apply (limits [dailyLimit]) atNoon ⟨[], [], []⟩ = .ok consumedFive by decide)
  have replaces : Replaces today tightenedLimit := ⟨rfl, by decide⟩
  have six : Reaches (Steady today) consumedSix := .step five (steady_noon replaces _ _ _ _ _)
    (show (UsageWrite.consume 1 none (units 1) true).apply (limits [tightenedLimit]) atNoon consumedFive = .ok consumedSix by decide)
  exact replaced_limit_keeps_count ⟨43200000, by decide⟩ rfl six ⟨rfl, rfl⟩ (by unfold Spans; decide) fun _ => rfl

def recordedIn (key : WindowKey) (events : List ControlledEvent) : Int :=
  netOf (fun event => key.policy.kind == .usageLimit event.feature && (key.policy.entity.isNone || key.policy.entity == event.entity) &&
    key.bounds.contains event.recordedAt) events

section Rolled

def lateEvening : Clock := ⟨84600000, 84600000⟩

def nextDay : Clock := ⟨87000000, 87000000⟩

def tomorrow : WindowKey := ⟨dailyLimit, ⟨86400000, some 172800000⟩⟩

def heldLate : ControlledReservation := ⟨0, 1, none, 5, none, 88200000, .active, [⟨today, 5⟩]⟩

def consumedNextDay : ControlledEvent := ⟨0, .consume, 1, none, 87000000, 1, [⟨tomorrow, 1⟩], []⟩

def heldOver : ControlledAccount := ⟨[⟨today, 0, 5⟩, ⟨tomorrow, 1, 0⟩], [heldLate], [consumedNextDay]⟩

def confirmedOver : ControlledAccount :=
  ⟨[⟨today, 5, 0⟩, ⟨tomorrow, 1, 0⟩], [{ heldLate with status := .confirmed, confirmedQuantity := some 5 }],
    [consumedNextDay, ⟨1, .confirm, 1, none, 87000000, 5, [⟨today, 5⟩], []⟩]⟩

def planFor (reach : ControlPolicy → Option Nat → Bool) : Commercial := ⟨[planDaily], reach, false⟩

def firstEntity : ControlledEvent := ⟨0, .consume, 1, some 1, 43200000, 1, [⟨todayPlan, 1⟩], []⟩

def secondEntity : ControlledEvent := ⟨1, .consume, 1, some 2, 43200000, 5, [], []⟩

end Rolled

/-- What a window is charged is not what is recorded in it: a hold confirmed after its window rolled counts where it was held,
and a limit that starts to reach an entity does not go back for the usage it missed. -/
theorem count_differs_from_recorded :
    (∃ account, Reaches (fun commercial _ _ _ => commercial = limits [dailyLimit]) account ∧
      (consumedIn tomorrow (openWindow (limits [dailyLimit]) account.events tomorrow account.windows) : Int) ≠
        recordedIn tomorrow account.events) ∧
    ∃ account, Reaches (fun commercial _ _ _ => commercial.policies = [planDaily]) account ∧
      (consumedIn todayPlan (openWindow (planFor fun _ _ => true) account.events todayPlan account.windows) : Int) ≠
        recordedIn todayPlan account.events := by
  constructor
  · have held : Reaches (fun commercial _ _ _ => commercial = limits [dailyLimit]) ⟨[⟨today, 0, 5⟩], [heldLate], []⟩ :=
      .step .opened rfl (show (UsageWrite.reserve 1 none (units 5) 3600000 true).apply (limits [dailyLimit]) lateEvening
        ⟨[], [], []⟩ = .ok ⟨[⟨today, 0, 5⟩], [heldLate], []⟩ by decide)
    have spent : Reaches (fun commercial _ _ _ => commercial = limits [dailyLimit]) heldOver :=
      .step held rfl (show (UsageWrite.consume 1 none (units 1) true).apply (limits [dailyLimit]) nextDay
        ⟨[⟨today, 0, 5⟩], [heldLate], []⟩ = .ok heldOver by decide)
    have confirmed : Reaches (fun commercial _ _ _ => commercial = limits [dailyLimit]) confirmedOver :=
      .step spent rfl (show (UsageWrite.confirm 0 (units 5) true).apply (limits [dailyLimit]) nextDay heldOver = .ok confirmedOver by
        decide)
    exact ⟨confirmedOver, confirmed, by decide⟩
  · have first : Reaches (fun commercial _ _ _ => commercial.policies = [planDaily]) ⟨[⟨todayPlan, 1, 0⟩], [], [firstEntity]⟩ :=
      .step .opened rfl (show (UsageWrite.consume 1 (some 1) (units 1) true).apply (planFor fun _ entity => entity == some 1) atNoon
        ⟨[], [], []⟩ = .ok ⟨[⟨todayPlan, 1, 0⟩], [], [firstEntity]⟩ by decide)
    have second : Reaches (fun commercial _ _ _ => commercial.policies = [planDaily])
        ⟨[⟨todayPlan, 1, 0⟩], [], [firstEntity, secondEntity]⟩ :=
      .step first rfl (show (UsageWrite.consume 1 (some 2) (units 5) true).apply (planFor fun _ entity => entity == some 1) atNoon
        ⟨[⟨todayPlan, 1, 0⟩], [], [firstEntity]⟩ = .ok ⟨[⟨todayPlan, 1, 0⟩], [], [firstEntity, secondEntity]⟩ by decide)
    exact ⟨_, second, by decide⟩

end Quotum.Controls
