import Quotum.Controls
import Quotum.General.Outcomes

/-! What opening, charging, holding and settling do to the windows of controls. -/

namespace Quotum.Controls
open General Cadences

variable {change : ControlWindow → ControlWindow}

def heldIn (key : WindowKey) (windows : List ControlWindow) : Nat :=
  totalAt ControlWindow.key ControlWindow.heldValue key windows

def Has (key : WindowKey) (windows : List ControlWindow) : Prop :=
  key ∈ windows.map ControlWindow.key

instance (key : WindowKey) (windows : List ControlWindow) : Decidable (Has key windows) :=
  inferInstanceAs (Decidable (key ∈ windows.map ControlWindow.key))

def Distinct (windows : List ControlWindow) : Prop :=
  (windows.map ControlWindow.key).Nodup

theorem has_iff {key : WindowKey} {windows : List ControlWindow} :
    (windows.any fun window => window.key == key) = true ↔ Has key windows := by
  simp [Has]

theorem absent_consumed {key : WindowKey} {windows : List ControlWindow} (absent : ¬ Has key windows) :
    consumedIn key windows = 0 :=
  totalAt_absent absent

theorem absent_held {key : WindowKey} {windows : List ControlWindow} (absent : ¬ Has key windows) :
    heldIn key windows = 0 :=
  totalAt_absent absent

section Rows
variable {windows : List ControlWindow} {window : ControlWindow} {key : WindowKey}

theorem row_consumed (distinct : Distinct windows) (member : window ∈ windows) :
    consumedIn window.key windows = window.consumedValue :=
  totalAt_unique distinct member

theorem row_held (distinct : Distinct windows) (member : window ∈ windows) :
    heldIn window.key windows = window.heldValue :=
  totalAt_unique distinct member

theorem held_le_identity (distinct : Distinct windows) (key : WindowKey) :
    heldIn key windows ≤ controlIdentityHeld key windows := by
  by_cases present : Has key windows
  · obtain ⟨window, member, rfl⟩ := List.mem_map.mp present
    rw [row_held distinct member]
    apply List.single_le_sum (fun _ _ => Nat.zero_le _)
    exact List.mem_map_of_mem (List.mem_filter.mpr ⟨member, by simp⟩)
  · rw [absent_held present]
    exact Nat.zero_le _

theorem carried_le {most : Nat} (bounded : ∀ window ∈ windows, window.key.identity = key.identity →
    window.key.policy ≠ key.policy → window.consumedValue ≤ most) : carriedControlConsumption key windows ≤ most := by
  apply List.max_le_of_forall_le
  intro value listed
  obtain ⟨window, inside, rfl⟩ := List.mem_map.mp listed
  obtain ⟨sibling, other⟩ := List.mem_filter.mp inside
  obtain ⟨member, same⟩ := List.mem_filter.mp sibling
  exact bounded window member (by simpa using same) (by simpa using other)

theorem le_carried (member : window ∈ windows)
    (same : window.key.identity = key.identity) (other : window.key.policy ≠ key.policy) :
    window.consumedValue ≤ carriedControlConsumption key windows := by
  apply List.le_max_of_le (a := window.consumedValue) _ (le_refl _)
  apply List.mem_map_of_mem
  refine List.mem_filter.mpr ⟨List.mem_filter.mpr ⟨member, by simpa using same⟩, by simpa using other⟩

/-- What siblings carry follows the counts in their rows. -/
theorem carried_mono (distinct : Distinct windows) {later : List ControlWindow} (still : Distinct later)
    (grown : ∀ other, Has other windows → other.identity = key.identity →
      Has other later ∧ consumedIn other windows ≤ consumedIn other later) :
    carriedControlConsumption key windows ≤ carriedControlConsumption key later := by
  apply carried_le
  intro window member same other
  obtain ⟨has, more⟩ := grown window.key (List.mem_map_of_mem member) same
  obtain ⟨row, inside, sameKey⟩ := List.mem_map.mp has
  rw [row_consumed distinct member, ← sameKey, row_consumed still inside] at more
  exact le_trans more (le_carried inside (by rw [sameKey]; exact same) (by rw [sameKey]; exact other))

end Rows

section Change
variable {key other : WindowKey} {windows : List ControlWindow}

def KeepsKey (change : ControlWindow → ControlWindow) : Prop :=
  ∀ window, (change window).key = window.key

private theorem catchUp_key (opening : Nat) : KeepsKey (ControlWindow.catchUp opening) :=
  fun _ => rfl

private theorem count_key (delta : Int) : KeepsKey (ControlWindow.count delta) :=
  fun _ => rfl

private theorem hold_key (value : Nat) : KeepsKey (ControlWindow.hold value) :=
  fun _ => rfl

private theorem free_key (value : Nat) : KeepsKey (ControlWindow.free value) :=
  fun _ => rfl

variable (kept : KeepsKey change)
include kept

private theorem change_keys (windows : List ControlWindow) :
    (changeWindow key change windows).map ControlWindow.key = windows.map ControlWindow.key :=
  updateAt_keys kept windows

private theorem change_has :
    Has other (changeWindow key change windows) ↔ Has other windows := by
  unfold Has
  rw [change_keys kept]

private theorem change_distinct (distinct : Distinct windows) :
    Distinct (changeWindow key change windows) := by
  unfold Distinct
  rwa [change_keys kept]

private theorem change_consumed (distinct : Distinct windows)
    (present : Has key windows) {f : Nat → Nat} (effect : ∀ window, (change window).consumedValue = f window.consumedValue) :
    consumedIn other (changeWindow key change windows) =
      if other = key then f (consumedIn key windows) else consumedIn other windows := by
  split
  · next here =>
    subst here
    exact totalAt_update_here distinct present kept effect
  · next apart => exact totalAt_update_apart apart kept windows

private theorem change_keeps_consumed
    (effect : ∀ window, (change window).consumedValue = window.consumedValue) (windows : List ControlWindow) :
    consumedIn other (changeWindow key change windows) = consumedIn other windows := by
  induction windows with
  | nil => rfl
  | cons window rest ih =>
    unfold consumedIn changeWindow updateAt at *
    rw [List.map_cons, totalAt_cons, totalAt_cons, ih]
    by_cases here : window.key = key
    · rw [if_pos here, kept, effect]
    · rw [if_neg here]

private theorem change_keeps_held (effect : ∀ window, (change window).heldValue = window.heldValue) (windows : List ControlWindow) :
    heldIn other (changeWindow key change windows) = heldIn other windows := by
  induction windows with
  | nil => rfl
  | cons window rest ih =>
    unfold heldIn changeWindow updateAt at *
    rw [List.map_cons, totalAt_cons, totalAt_cons, ih]
    by_cases here : window.key = key
    · rw [if_pos here, kept, effect]
    · rw [if_neg here]

end Change

section Open
variable {commercial : Commercial} {events : List ControlledEvent} {key other : WindowKey} {windows : List ControlWindow}

theorem open_has : Has other (openWindow commercial events key windows) ↔ other = key ∨ Has other windows := by
  simp only [openWindow]
  split
  · next present =>
    rw [change_has (catchUp_key _)]
    constructor
    · exact .inr
    · rintro (rfl | has)
      · exact has_iff.mp present
      · exact has
  · unfold Has
    rw [List.map_append, List.mem_append, List.map_cons, List.map_nil, List.mem_singleton, or_comm]

theorem open_distinct (distinct : Distinct windows) : Distinct (openWindow commercial events key windows) := by
  simp only [openWindow]
  split
  · exact change_distinct (catchUp_key _) distinct
  · next absent =>
    rw [has_iff] at absent
    unfold Distinct
    rw [List.map_append, List.nodup_append]
    refine ⟨distinct, by simp, ?_⟩
    intro first member last single
    rw [List.map_cons, List.map_nil, List.mem_singleton] at single
    rintro rfl
    simp only at single
    subst single
    exact absent member

theorem open_consumed (distinct : Distinct windows) :
    consumedIn other (openWindow commercial events key windows) =
      if other = key then max (consumedIn key windows) (openingControlConsumption commercial key windows events)
      else consumedIn other windows := by
  simp only [openWindow]
  split
  · next present => exact change_consumed (f := fun value => max value _) (catchUp_key _) distinct (has_iff.mp present) fun _ => rfl
  · next absent =>
    rw [has_iff] at absent
    unfold consumedIn
    rw [totalAt_append, totalAt_cons, totalAt_nil, add_zero]
    split
    · next same =>
      subst same
      rw [totalAt_absent absent, if_pos rfl]
      simp
    · next apart => rw [if_neg fun same => apart same.symm, add_zero]

private theorem open_held : heldIn other (openWindow commercial events key windows) = heldIn other windows := by
  simp only [openWindow]
  split
  · exact change_keeps_held (catchUp_key _) (fun _ => rfl) windows
  · unfold heldIn
    rw [totalAt_append, totalAt_cons, totalAt_nil]
    split <;> rfl

private theorem open_identityHeld : controlIdentityHeld other (openWindow commercial events key windows) = controlIdentityHeld other windows := by
  simp only [openWindow]
  split
  · unfold controlIdentityHeld siblings changeWindow updateAt
    rw [List.filter_map, List.map_map]
    have same : ((fun window => window.key.identity == other.identity) ∘ fun row =>
        if row.key = key then ControlWindow.catchUp (openingControlConsumption commercial key windows events) row else row) =
          fun window : ControlWindow => window.key.identity == other.identity := by
      funext window
      rw [Function.comp]
      split <;> rfl
    rw [same]
    apply congrArg List.sum
    apply List.map_congr_left
    intro window _
    rw [Function.comp]
    split <;> rfl
  · unfold controlIdentityHeld siblings
    rw [List.filter_append, List.map_append, List.sum_append, List.filter_cons]
    split <;> simp

end Open

section OpenAll
variable {commercial : Commercial} {events : List ControlledEvent} {now : Int} {windows : List ControlWindow}
  {policies : List ControlPolicy} {key : WindowKey}

private theorem openWindows_induct {P : List ControlWindow → Prop} (start : P windows)
    (step : ∀ policy ∈ policies, ∀ rows, P rows → P (openWindow commercial events ⟨policy, policy.windowBounds now⟩ rows)) :
    P (openWindows commercial events now policies windows) := by
  induction policies generalizing windows with
  | nil => exact start
  | cons policy rest ih =>
    exact ih (step policy (by simp) windows start) fun other member => step other (by simp [member])

theorem openWindows_distinct (distinct : Distinct windows) (policies : List ControlPolicy) :
    Distinct (openWindows commercial events now policies windows) :=
  openWindows_induct distinct fun _ _ _ kept => open_distinct kept

theorem openWindows_held (policies : List ControlPolicy) (key : WindowKey) :
    heldIn key (openWindows commercial events now policies windows) = heldIn key windows :=
  openWindows_induct (P := fun rows => heldIn key rows = heldIn key windows) rfl fun _ _ _ kept => open_held.trans kept

theorem openWindows_identityHeld (policies : List ControlPolicy) (key : WindowKey) :
    controlIdentityHeld key (openWindows commercial events now policies windows) = controlIdentityHeld key windows :=
  openWindows_induct (P := fun rows => controlIdentityHeld key rows = controlIdentityHeld key windows) rfl
    fun _ _ _ kept => open_identityHeld.trans kept

theorem openWindows_has :
    Has key (openWindows commercial events now policies windows) ↔
      (∃ policy ∈ policies, key = ⟨policy, policy.windowBounds now⟩) ∨ Has key windows := by
  induction policies generalizing windows with
  | nil => simp [openWindows]
  | cons policy rest ih =>
    have step := @ih (openWindow commercial events ⟨policy, policy.windowBounds now⟩ windows)
    rw [open_has] at step
    refine Iff.trans step ?_
    simp only [List.mem_cons, exists_eq_or_imp]
    rw [or_assoc]
    exact or_left_comm

theorem openWindows_others (distinct : Distinct windows) (others : ∀ policy ∈ policies, key ≠ ⟨policy, policy.windowBounds now⟩) :
    consumedIn key (openWindows commercial events now policies windows) = consumedIn key windows := by
  refine (openWindows_induct (P := fun rows => Distinct rows ∧ consumedIn key rows = consumedIn key windows)
    ⟨distinct, rfl⟩ ?_).2
  rintro policy member rows ⟨kept, same⟩
  refine ⟨open_distinct kept, ?_⟩
  rw [open_consumed kept, if_neg (others policy member), same]

theorem openWindows_apart (distinct : Distinct windows) (apart : key.policy ∉ policies) :
    consumedIn key (openWindows commercial events now policies windows) = consumedIn key windows := by
  apply openWindows_others distinct
  rintro policy member rfl
  exact apart member

theorem openWindows_grows (distinct : Distinct windows) (policies : List ControlPolicy) (key : WindowKey) :
    consumedIn key windows ≤ consumedIn key (openWindows commercial events now policies windows) := by
  refine (openWindows_induct (P := fun rows => Distinct rows ∧ consumedIn key windows ≤ consumedIn key rows)
    ⟨distinct, le_refl _⟩ ?_).2
  rintro policy member rows ⟨kept, grown⟩
  refine ⟨open_distinct kept, ?_⟩
  rw [open_consumed kept]
  split
  · next same =>
    subst same
    exact le_max_of_le_left grown
  · exact grown

theorem recorded_same {later : List ControlWindow} (same : Has key later ↔ Has key windows) :
    recordedControlConsumption commercial key later events = recordedControlConsumption commercial key windows events := by
  unfold recordedControlConsumption
  rw [← has_iff, ← has_iff, ← Bool.eq_iff_iff] at same
  rw [same]

/-- Opening more windows, of an account that counts more, counts no less in any of them. -/
private theorem openWindows_mono {all : List ControlPolicy} (within : policies.Sublist all) (different : all.Nodup)
    (distinct : Distinct windows) {later : List ControlWindow} (still : Distinct later)
    (has : ∀ key, Has key windows → Has key later) (grown : ∀ key, consumedIn key windows ≤ consumedIn key later)
    (fresh : ∀ policy ∈ all, Has ⟨policy, policy.windowBounds now⟩ later → Has ⟨policy, policy.windowBounds now⟩ windows)
    (key : WindowKey) : consumedIn key (openWindows commercial events now policies windows) ≤
      consumedIn key (openWindows commercial events now all later) := by
  induction within generalizing windows later with
  | slnil => exact grown key
  | @cons _ rest first sublist ih =>
    obtain ⟨apart, different⟩ := List.nodup_cons.mp different
    refine ih different distinct (open_distinct still) ?_ ?_ ?_
    · exact fun key old => open_has.mpr (.inr (has key old))
    · exact fun key => le_trans (grown key) (@openWindows_grows _ _ now _ still [first] key)
    · intro policy member opened
      rcases open_has.mp opened with same | old
      · cases same
        exact absurd member apart
      · exact fresh policy (by simp [member]) old
  | @cons_cons _ rest first sublist ih =>
    obtain ⟨apart, different⟩ := List.nodup_cons.mp different
    refine ih different (open_distinct distinct) (open_distinct still) ?_ ?_ ?_
    · intro key old
      rcases open_has.mp old with same | known
      · exact open_has.mpr (.inl same)
      · exact open_has.mpr (.inr (has key known))
    · intro key
      rw [open_consumed distinct, open_consumed still]
      split
      · have own := grown ⟨first, first.windowBounds now⟩
        have carried : carriedControlConsumption ⟨first, first.windowBounds now⟩ windows ≤
            carriedControlConsumption ⟨first, first.windowBounds now⟩ later :=
          carried_mono distinct still fun other known _ => ⟨has other known, grown other⟩
        have recorded := @recorded_same commercial events windows ⟨first, first.windowBounds now⟩ later
          ⟨fresh first (by simp), has _⟩
        unfold openingControlConsumption
        rw [recorded]
        omega
      · exact grown key
    · intro policy member opened
      rcases open_has.mp opened with same | old
      · exact open_has.mpr (.inl same)
      · exact open_has.mpr (.inr (fresh policy (by simp [member]) old))

/-- A window opened with some of a list's windows starts no higher than with all of them. -/
theorem openWindows_sublist {all : List ControlPolicy} (within : policies.Sublist all) (different : all.Nodup)
    (distinct : Distinct windows) (key : WindowKey) :
    consumedIn key (openWindows commercial events now policies windows) ≤
      consumedIn key (openWindows commercial events now all windows) :=
  openWindows_mono within different distinct distinct (fun _ has => has) (fun _ => le_refl _) (fun _ _ has => has) key

end OpenAll

def currentWindow (now : Int) (policy : ControlPolicy) : WindowKey :=
  ⟨policy, policy.windowBounds now⟩

theorem currentWindow_inj (now : Int) : Function.Injective (currentWindow now) :=
  fun _ _ same => congrArg WindowKey.policy same

section Admit
variable {commercial : Commercial} {events : List ControlledEvent} {input : ControlDelta} {mode : ControlMode} {now : Int}

structure Admitted (input : ControlDelta) (windows : List ControlWindow) (charge : Charge) : Prop where
  has : Has charge.key windows
  consumed : charge.consumed = consumedIn charge.key windows
  delta : deltaFor input "spend control delta" charge.key.policy = .ok charge.delta
  fits : 0 < charge.delta →
    ((charge.consumed + controlIdentityHeld charge.key windows : Nat) : Int) + charge.delta ≤ charge.key.policy.limitValue

/-- An admission opens the windows of some of the limits; when it is not denied, of all of them that the write
moves, and each admits its charge. -/
theorem admit_inv {active : List ControlPolicy} (different : active.Nodup) {windows opened : List ControlWindow}
    (distinct : Distinct windows) {charges : Option (List Charge)}
    (admitted : admitControls commercial events input mode now active windows = .ok (opened, charges)) :
    ∃ policies, policies.Sublist active ∧ opened = openWindows commercial events now policies windows ∧
      ∀ made, charges = some made → made.map Charge.key = policies.map (currentWindow now) ∧
        (∀ policy ∈ active, policy ∈ policies ∨ mode = .hold ∧ ∃ delta ≤ 0, deltaFor input "spend control delta" policy = .ok delta) ∧
          ∀ charge ∈ made, Admitted input opened charge := by
  induction active generalizing windows opened charges with
  | nil =>
    cases admitted
    refine ⟨[], List.Sublist.refl _, rfl, ?_⟩
    rintro made ⟨⟩
    exact ⟨rfl, by simp, by simp⟩
  | cons policy rest ih =>
    rw [List.nodup_cons] at different
    simp only [admitControls] at admitted
    obtain ⟨delta, moved, admitted⟩ := bind_ok admitted
    split at admitted
    · next skipped =>
      obtain ⟨policies, within, same, spec⟩ := ih different.2 distinct admitted
      refine ⟨policies, within.cons _, same, ?_⟩
      intro made charged
      obtain ⟨keys, all, each⟩ := spec made charged
      refine ⟨keys, ?_, each⟩
      intro other member
      rcases List.mem_cons.mp member with rfl | later
      · exact .inr ⟨skipped.2, delta, skipped.1, moved⟩
      · exact all other later
    · next acting =>
      split at admitted
      · cases admitted
        refine ⟨[policy], by simp, rfl, ?_⟩
        rintro made ⟨⟩
      · next room =>
        obtain ⟨⟨final, others⟩, continued, admitted⟩ := bind_ok admitted
        cases admitted
        have fresh : policy ∉ rest := different.1
        obtain ⟨policies, within, same, spec⟩ := ih different.2 (open_distinct distinct) continued
        refine ⟨policy :: policies, within.cons_cons _, same, ?_⟩
        intro made charged
        obtain ⟨later, rfl, rfl⟩ := Option.map_eq_some_iff.mp charged
        obtain ⟨keys, all, each⟩ := spec later rfl
        refine ⟨by simp [keys, currentWindow], ?_, ?_⟩
        · intro other member
          rcases List.mem_cons.mp member with rfl | inside
          · exact .inl (by simp)
          · exact (all other inside).imp_left fun found => by simp [found]
        · intro charge member
          rcases List.mem_cons.mp member with rfl | inside
          · have apart : policy ∉ policies := fun found => fresh (within.subset found)
            constructor
            · rw [same]
              exact openWindows_has.mpr (.inr (open_has.mpr (.inl rfl)))
            · rw [same, openWindows_apart (open_distinct distinct) apart]
            · exact moved
            · intro positive
              rw [same, openWindows_identityHeld]
              simp only at positive ⊢
              by_contra beyond
              exact room ⟨positive, by omega⟩
          · exact each charge inside

end Admit

section Count

/-- Windows whose counts moved by charges, one to a window at most. -/
structure Counted (charges : List Charge) (before after : List ControlWindow) : Prop where
  distinct : Distinct after
  has : ∀ key, Has key after ↔ Has key before
  held : ∀ key, heldIn key after = heldIn key before
  charged : ∀ charge ∈ charges, consumedIn charge.key after = ((consumedIn charge.key before : Int) + charge.delta).toNat
  others : ∀ key, key ∉ charges.map Charge.key → consumedIn key after = consumedIn key before

variable {windows : List ControlWindow}

private theorem countCharge_consumed {charge : Charge} (distinct : Distinct windows)
    (present : Has charge.key windows) (key : WindowKey) :
    consumedIn key (countCharge charge windows) =
      if key = charge.key then ((consumedIn charge.key windows : Int) + charge.delta).toNat else consumedIn key windows :=
  change_consumed (f := fun value => ((value : Int) + charge.delta).toNat) (count_key _) distinct present fun _ => rfl

theorem counted_charges {charges : List Charge} (distinct : Distinct windows)
    (apart : (charges.map Charge.key).Nodup) (present : ∀ charge ∈ charges, Has charge.key windows) :
    Counted charges windows (charges.foldl (fun rows charge => countCharge charge rows) windows) := by
  induction charges generalizing windows with
  | nil => exact ⟨distinct, fun _ => Iff.rfl, fun _ => rfl, by simp, fun _ _ => rfl⟩
  | cons charge rest ih =>
    rw [List.map_cons, List.nodup_cons] at apart
    have here := present charge (by simp)
    have later := @ih (countCharge charge windows) (change_distinct (count_key charge.delta) distinct) apart.2
      fun other member => (change_has (count_key charge.delta)).mpr (present other (by simp [member]))
    refine ⟨later.distinct, ?_, ?_, ?_, ?_⟩
    · exact fun key => (later.has key).trans (change_has (count_key charge.delta))
    · exact fun key => (later.held key).trans (change_keeps_held (count_key charge.delta) (fun _ => rfl) windows)
    · intro other member
      rcases List.mem_cons.mp member with rfl | inside
      · rw [List.foldl_cons, later.others _ apart.1, countCharge_consumed distinct here, if_pos rfl]
      · have elsewhere : other.key ≠ charge.key := fun same => apart.1 (same ▸ List.mem_map_of_mem inside)
        have moved := later.charged other inside
        have unmoved := countCharge_consumed distinct here other.key
        rw [if_neg elsewhere] at unmoved
        rw [List.foldl_cons, moved]
        exact congrArg (fun value : Nat => ((value : Int) + other.delta).toNat) unmoved
    · intro key outside
      rw [List.map_cons, List.mem_cons, not_or] at outside
      rw [List.foldl_cons, later.others key outside.2, countCharge_consumed distinct here, if_neg outside.1]

def holdingOn (key : WindowKey) (charges : List Charge) : Nat :=
  totalAt Charge.key (fun charge => charge.delta.toNat) key charges

theorem holdCharges_keep (charges : List Charge) (windows : List ControlWindow) :
    (∀ key, Has key (charges.foldl (fun rows charge => holdCharge charge rows) windows) ↔ Has key windows) ∧
      (∀ key, consumedIn key (charges.foldl (fun rows charge => holdCharge charge rows) windows) = consumedIn key windows) ∧
        (Distinct windows → Distinct (charges.foldl (fun rows charge => holdCharge charge rows) windows)) := by
  induction charges generalizing windows with
  | nil => exact ⟨fun _ => Iff.rfl, fun _ => rfl, id⟩
  | cons charge rest ih =>
    obtain ⟨has, consumed, distinct⟩ := ih (holdCharge charge windows)
    refine ⟨?_, ?_, ?_⟩
    · exact fun key => (has key).trans (change_has (hold_key _))
    · exact fun key => (consumed key).trans (change_keeps_consumed (hold_key _) (fun _ => rfl) windows)
    · exact fun kept => distinct (change_distinct (hold_key _) kept)

theorem holdCharges_held {charges : List Charge} (distinct : Distinct windows)
    (present : ∀ charge ∈ charges, Has charge.key windows) (key : WindowKey) :
    heldIn key (charges.foldl (fun rows charge => holdCharge charge rows) windows) =
      heldIn key windows + holdingOn key charges := by
  induction charges generalizing windows with
  | nil => rfl
  | cons charge rest ih =>
    have later := @ih (holdCharge charge windows) (change_distinct (hold_key _) distinct)
      fun other member => (change_has (hold_key _)).mpr (present other (by simp [member]))
    rw [List.foldl_cons, later]
    unfold holdingOn
    rw [totalAt_cons]
    by_cases here : charge.key = key
    · subst here
      rw [if_pos rfl, ← Nat.add_assoc]
      congr 1
      exact totalAt_update_here (f := fun value => value + charge.delta.toNat) distinct (present charge (by simp))
        (hold_key _) fun _ => rfl
    · rw [if_neg here, Nat.zero_add]
      congr 1
      exact totalAt_update_apart (Ne.symm here) (hold_key _) windows

end Count

section Drop

def holdsOn (key : WindowKey) (holds : List ControlHold) : Nat :=
  totalAt ControlHold.window ControlHold.heldValue key holds

private theorem dropHold_held {windows : List ControlWindow} (distinct : Distinct windows) (hold : ControlHold) (key : WindowKey) :
    heldIn key (dropHold windows hold) = heldIn key windows - if hold.window = key then hold.heldValue else 0 := by
  by_cases here : hold.window = key
  · subst here
    rw [if_pos rfl]
    by_cases present : Has hold.window windows
    · exact totalAt_update_here (f := fun value => value - hold.heldValue) distinct present (free_key _) fun _ => rfl
    · have absent : ¬ Has hold.window (dropHold windows hold) := fun has => present ((change_has (free_key _)).mp has)
      rw [absent_held absent, absent_held present, Nat.zero_sub]
  · rw [if_neg here, Nat.sub_zero]
    exact totalAt_update_apart (Ne.symm here) (free_key _) windows

/-- Dropping holds takes what they keep off each window and leaves every count. -/
structure Dropped (holds : List ControlHold) (before after : List ControlWindow) : Prop where
  distinct : Distinct after
  has : ∀ key, Has key after ↔ Has key before
  held : ∀ key, heldIn key after = heldIn key before - holdsOn key holds
  consumed : ∀ key, consumedIn key after = consumedIn key before

theorem dropped_holds {windows : List ControlWindow} (distinct : Distinct windows) (holds : List ControlHold) :
    Dropped holds windows (holds.foldl dropHold windows) := by
  induction holds generalizing windows with
  | nil => exact ⟨distinct, fun _ => Iff.rfl, fun _ => rfl, fun _ => rfl⟩
  | cons hold rest ih =>
    have later := @ih (dropHold windows hold) (change_distinct (free_key _) distinct)
    refine ⟨later.distinct, ?_, ?_, ?_⟩
    · exact fun key => (later.has key).trans (change_has (free_key _))
    · intro key
      rw [List.foldl_cons, later.held, dropHold_held distinct, Nat.sub_sub]
      unfold holdsOn
      rw [totalAt_cons]
    · exact fun key => (later.consumed key).trans (change_keeps_consumed (free_key _) (fun _ => rfl) windows)

end Drop

section Settle

def settledHolds (settled : List (ConfirmationGroup × Charge)) : List ControlHold :=
  settled.flatMap fun entry => entry.1.holds

structure Settled (settled : List (ConfirmationGroup × Charge)) (before after : List ControlWindow) : Prop where
  distinct : Distinct after
  has : ∀ key, Has key after ↔ Has key before
  held : ∀ key, heldIn key after = heldIn key before - holdsOn key (settledHolds settled)
  charged : ∀ entry ∈ settled, consumedIn entry.2.key after = ((consumedIn entry.2.key before : Int) + entry.2.delta).toNat
  others : ∀ key, key ∉ settled.map (fun entry => entry.2.key) → consumedIn key after = consumedIn key before

variable {settled : List (ConfirmationGroup × Charge)}

theorem settled_groups {windows : List ControlWindow}
    (distinct : Distinct windows) (apart : (settled.map fun entry => entry.2.key).Nodup)
    (present : ∀ entry ∈ settled, Has entry.2.key windows) : Settled settled windows (settled.foldl settleGroup windows) := by
  induction settled generalizing windows with
  | nil => exact ⟨distinct, fun _ => Iff.rfl, fun _ => rfl, by simp, fun _ _ => rfl⟩
  | cons entry rest ih =>
    rw [List.map_cons, List.nodup_cons] at apart
    have dropped := dropped_holds distinct entry.1.holds
    have here := (dropped.has _).mpr (present entry (by simp))
    have later := @ih (settleGroup windows entry) (change_distinct (count_key _) dropped.distinct) apart.2
      fun other member => (change_has (count_key _)).mpr ((dropped.has _).mpr (present other (by simp [member])))
    have moved : ∀ key, consumedIn key (settleGroup windows entry) =
        if key = entry.2.key then ((consumedIn entry.2.key windows : Int) + entry.2.delta).toNat else consumedIn key windows := by
      intro key
      unfold settleGroup
      rw [countCharge_consumed dropped.distinct here, dropped.consumed, dropped.consumed]
    refine ⟨later.distinct, ?_, ?_, ?_, ?_⟩
    · exact fun key => (later.has key).trans ((change_has (count_key _)).trans (dropped.has key))
    · intro key
      have kept : heldIn key (settleGroup windows entry) = heldIn key windows - holdsOn key entry.1.holds :=
        (change_keeps_held (count_key _) (fun _ => rfl) _).trans (dropped.held key)
      rw [List.foldl_cons, later.held, kept, Nat.sub_sub]
      unfold settledHolds holdsOn
      rw [List.flatMap_cons, totalAt_append]
    · intro other member
      rcases List.mem_cons.mp member with rfl | inside
      · rw [List.foldl_cons, later.others _ apart.1, moved, if_pos rfl]
      · have elsewhere : other.2.key ≠ entry.2.key :=
          fun same => apart.1 (same ▸ List.mem_map_of_mem (f := fun entry => entry.2.key) inside)
        rw [List.foldl_cons, later.charged other inside, moved, if_neg elsewhere]
    · intro key outside
      rw [List.map_cons, List.mem_cons, not_or] at outside
      rw [List.foldl_cons, later.others key outside.2, moved, if_neg outside.1]

structure Confirmed (input : ControlDelta) (windows : List ControlWindow) (entry : ConfirmationGroup × Charge) : Prop where
  key : entry.2.key = entry.1.window
  consumed : entry.2.consumed = consumedIn entry.1.window windows
  delta : deltaFor input "confirmed control value" entry.1.window.policy = .ok entry.2.delta
  fits : 0 < entry.2.delta →
    ((entry.2.consumed + (controlIdentityHeld entry.1.window windows - heldBy entry.1.holds) : Nat) : Int) + entry.2.delta ≤
      entry.1.window.policy.limitValue

theorem confirmation_inv {input : ControlDelta} {windows : List ControlWindow} {groups : List ConfirmationGroup}
    (admitted : admitConfirmation input windows groups = .ok (some settled)) :
    settled.map Prod.fst = groups ∧ ∀ entry ∈ settled, Confirmed input windows entry := by
  induction groups generalizing settled with
  | nil =>
    cases admitted
    exact ⟨rfl, by simp⟩
  | cons group rest ih =>
    simp only [admitConfirmation] at admitted
    obtain ⟨target, moved, admitted⟩ := bind_ok admitted
    split at admitted
    · cases admitted
    · next room =>
      obtain ⟨others, continued, admitted⟩ := bind_ok admitted
      cases others with
      | none => cases admitted
      | some later =>
        cases admitted
        obtain ⟨groups, each⟩ := ih continued
        refine ⟨by simp [groups], ?_⟩
        intro entry member
        rcases List.mem_cons.mp member with rfl | inside
        · refine ⟨rfl, rfl, moved, ?_⟩
          intro positive
          simp only at positive ⊢
          by_contra beyond
          exact room ⟨positive, by omega⟩
        · exact each entry inside

end Settle

end Quotum.Controls
