import Quotum.General.Outcomes
import Quotum.SubscriptionItems

/-! Every sync leaves the subscription's rows as the provider's items say, in whatever order they are listed: the row of each price is given in
closed form, from the row before and the list's members alone. -/

namespace Quotum.SubscriptionItems
open General SubscriptionItem ItemSync

namespace ItemSync
variable (sync : ItemSync)

def listing (items : List PriceItem) : ItemSync :=
  { sync with items }

def Apart (first second : PriceItem) : Prop :=
  first.providerSubscriptionItemId ≠ second.providerSubscriptionItemId ∧
    ∀ one other, sync.price first = some one → sync.price second = some other → one.id ≠ other.id

/-- Whether an item of a list carries a row's id, and has a price that is bound, or one that is not. -/
def carries (bound : Bool) (items : List PriceItem) (row : SubscriptionItem) : Bool :=
  items.any fun item => (sync.price item).isSome == bound && row.providerSubscriptionItemId == some item.providerSubscriptionItemId

/-- A row that no price leads to, with the items that went to other rows. -/
def passed (items : List PriceItem) (row : SubscriptionItem) : SubscriptionItem :=
  if row.subscriptionId = sync.subscriptionId ∧ sync.carries true items row = true then row.released sync.now else row

/-- A row that no price leads to, after a sync. -/
def settled (row : SubscriptionItem) : SubscriptionItem :=
  let left := sync.passed sync.items row
  if left.subscriptionId = sync.subscriptionId ∧ left.active = true ∧ sync.carries false sync.items row = false then left.ended sync.now else left

/-- Whether the table refuses an item of a bound price: its quantity, or its id, which another subscription holds. -/
def refuses (rows : List SubscriptionItem) (item : PriceItem) : Bool :=
  (sync.price item).isSome && (!quantityFits item || rows.any fun row =>
    row.subscriptionId != sync.subscriptionId && row.providerSubscriptionItemId == some item.providerSubscriptionItemId)

/-- Whether each row of the subscription that has no end started before the sync. -/
def Started (rows : List SubscriptionItem) : Prop :=
  ∀ row ∈ rows, row.subscriptionId = sync.subscriptionId → row.endsAt = none → row.startsAt < sync.now

/-- The rows that a sync leaves: each bound item's with the item, a tracked one as it was, and every other one at its end. -/
structure Follows (before after : List SubscriptionItem) : Prop where
  bound : ∀ item ∈ sync.items, ∀ price, sync.price item = some price →
    sync.attached item price (sync.startOf before price.id) ∈ after
  tracked : ∀ item ∈ sync.items, sync.price item = none → ∀ row ∈ before, row.subscriptionId = sync.subscriptionId →
    row.providerSubscriptionItemId = some item.providerSubscriptionItemId → row.active = true →
    (∀ other ∈ sync.items, ∀ price, sync.price other = some price → price.id ≠ row.priceComponentId) → row ∈ after
  others : ∀ row ∈ after, row.subscriptionId = sync.subscriptionId → row.active = true ∧ row.endsAt = none ∧
      (∃ item ∈ sync.items, row.providerSubscriptionItemId = some item.providerSubscriptionItemId ∧
        ((∃ price, sync.price item = some price ∧ price.id = row.priceComponentId) ∨ sync.price item = none ∧ row ∈ before)) ∨
    row.active = false ∧ row.endsAt ≠ none
  elsewhere : ∀ row, row.subscriptionId ≠ sync.subscriptionId → (row ∈ after ↔ row ∈ before)

end ItemSync

/-- What holds of the table: one row for each price of a subscription, one row for each item id, ends after starts, and no end while active. -/
structure Sound (rows : List SubscriptionItem) : Prop where
  keys : (rows.map key).Nodup
  items : ∀ first ∈ rows, ∀ second ∈ rows, ∀ id, first.providerSubscriptionItemId = some id → second.providerSubscriptionItemId = some id →
    first = second
  bounds : ∀ row ∈ rows, row.withinBounds = true
  open_ : ∀ row ∈ rows, row.active = row.endsAt.isNone

section Rows
variable {rows after : List SubscriptionItem} {sync : ItemSync} {item : PriceItem} {price : PriceComponent}

theorem Sound.updated (sound : Sound rows) {selects : SubscriptionItem → Bool} {edit : SubscriptionItem → SubscriptionItem}
    (ends : ∀ row, (edit row).key = row.key ∧ (∀ id, (edit row).providerSubscriptionItemId = some id → row.providerSubscriptionItemId = some id) ∧
      (edit row).active = false ∧ (edit row).endsAt.isNone = false)
    (done : updateRows selects edit rows = .ok after) :
    Sound after ∧ ∀ k, findAt key k after = (findAt key k rows).map fun row => if selects row then edit row else row := by
  rw [updateRows] at done
  split at done
  case isFalse => cases done
  next fits =>
  obtain rfl := Except.ok.inj done
  have same (row : SubscriptionItem) : (if selects row then edit row else row).key = row.key := by
    split
    · exact (ends row).1
    · rfl
  have named {row : SubscriptionItem} {id : Text} (has : (if selects row then edit row else row).providerSubscriptionItemId = some id) :
      row.providerSubscriptionItemId = some id := by
    split at has
    · exact (ends row).2.1 id has
    · exact has
  refine ⟨⟨?_, ?_, ?_, ?_⟩, fun k => findAt_map fun row _ => same row⟩
  · have keys : (rows.map fun row => if selects row then edit row else row).map key = rows.map key := by
      rw [List.map_map]
      exact List.map_congr_left fun row _ => same row
    rw [keys]
    exact sound.keys
  · intro first one second two id has also
    obtain ⟨old, inside, rfl⟩ := List.mem_map.mp one
    obtain ⟨other, there, rfl⟩ := List.mem_map.mp two
    rw [sound.items old inside other there id (named has) (named also)]
  · intro row member
    obtain ⟨old, inside, rfl⟩ := List.mem_map.mp member
    have each := List.all_eq_true.mp fits old inside
    split
    · next selected => simpa [selected] using each
    · exact sound.bounds old inside
  · intro row member
    obtain ⟨old, inside, rfl⟩ := List.mem_map.mp member
    split
    · rw [(ends old).2.2.1, (ends old).2.2.2]
    · exact sound.open_ old inside

def releasedBy (sync : ItemSync) (item : PriceItem) (row : SubscriptionItem) : SubscriptionItem :=
  if row.subscriptionId = sync.subscriptionId ∧ row.providerSubscriptionItemId = some item.providerSubscriptionItemId then
    row.released sync.now
  else row

private theorem release_ok (sound : Sound rows) (done : sync.release item price rows = .ok after) : Sound after ∧
    findAt key (sync.subscriptionId, price.id) after = findAt key (sync.subscriptionId, price.id) rows ∧
    ∀ k, k ≠ (sync.subscriptionId, price.id) → findAt key k after = (findAt key k rows).map (releasedBy sync item) := by
  obtain ⟨kept, lookup⟩ := @Sound.updated _ _ sound _ (SubscriptionItem.released sync.now) (fun row => ⟨rfl, by rintro id ⟨⟩, rfl, rfl⟩) done
  refine ⟨kept, ?_, fun k apart => ?_⟩
  · rw [lookup]
    refine (Option.map_congr fun row found => ?_).trans (congrFun Option.map_id _)
    have same : row.priceComponentId = price.id := congrArg Prod.snd (findAt_inv found).2
    simp [same]
  · rw [lookup]
    apply Option.map_congr
    intro row found
    have other : row.subscriptionId = sync.subscriptionId → row.priceComponentId ≠ price.id :=
      fun own same => apart ((findAt_inv found).2.symm.trans (Prod.ext own same))
    rw [releasedBy]
    congr 1
    simp only [Bool.and_eq_true, beq_iff_eq, bne_iff_ne, ne_eq, eq_iff_iff]
    exact ⟨fun holds => holds.1, fun holds => ⟨holds, other holds.1⟩⟩

private theorem attach_ok (sound : Sound rows) (done : sync.attach item price rows = .ok after) :
    quantityFits item = true ∧
    (∀ row ∈ rows, row.providerSubscriptionItemId = some item.providerSubscriptionItemId → row.key = (sync.subscriptionId, price.id)) ∧
    Sound after ∧ findAt key (sync.subscriptionId, price.id) after = some (sync.attached item price (sync.startOf rows price.id)) ∧
    ∀ k, k ≠ (sync.subscriptionId, price.id) → findAt key k after = findAt key k rows := by
  rw [attach] at done
  split at done
  case isTrue => cases done
  next fits =>
  split at done
  case isTrue => cases done
  next free =>
  have same := Except.ok.inj done
  have alone : ∀ row ∈ rows, row.providerSubscriptionItemId = some item.providerSubscriptionItemId →
      row.key = (sync.subscriptionId, price.id) := by
    intro row member has
    by_contra apart
    exact free (List.any_eq_true.mpr ⟨row, List.mem_filter.mpr ⟨member, bne_iff_ne.mpr apart⟩, beq_iff_eq.mpr has⟩)
  have members (row : SubscriptionItem) : row ∈ after ↔ (row ∈ rows ∧ row.key ≠ (sync.subscriptionId, price.id)) ∨
      row = sync.attached item price (sync.startOf rows price.id) := by
    rw [← same, List.mem_append, List.mem_filter, bne_iff_ne, List.mem_singleton]
  have keys : (after.map key).Nodup := by
    rw [← same, List.map_append, List.nodup_append']
    refine ⟨(List.filter_sublist.map key).nodup sound.keys, List.nodup_singleton _, ?_⟩
    intro k old new
    obtain ⟨row, inside, rfl⟩ := List.mem_map.mp old
    exact bne_iff_ne.mp (List.mem_filter.mp inside).2 (List.mem_singleton.mp new)
  refine ⟨by simpa using fits, alone, ⟨keys, ?_, ?_, ?_⟩, (findAt_mem keys).mpr ⟨(members _).mpr (.inr rfl), rfl⟩, ?_⟩
  · intro first one second two id has also
    rcases (members first).mp one with ⟨old, apart⟩ | rfl
    · rcases (members second).mp two with ⟨other, -⟩ | rfl
      · exact sound.items first old second other id has also
      · cases also
        exact absurd (alone first old has) apart
    · rcases (members second).mp two with ⟨old, apart⟩ | rfl
      · cases has
        exact absurd (alone second old also) apart
      · rfl
  · intro row member
    rcases (members row).mp member with ⟨old, -⟩ | rfl
    · exact sound.bounds row old
    · rfl
  · intro row member
    rcases (members row).mp member with ⟨old, -⟩ | rfl
    · exact sound.open_ row old
    · rfl
  · intro k apart
    apply Option.ext
    intro row
    rw [findAt_mem keys, findAt_mem sound.keys, members]
    constructor
    · rintro ⟨⟨old, -⟩ | rfl, here⟩
      · exact ⟨old, here⟩
      · exact absurd here.symm apart
    · rintro ⟨old, here⟩
      exact ⟨.inl ⟨old, here ▸ apart⟩, here⟩

/-- A row that no price leads to, once the first item of a list is synced and then the others. -/
private theorem passed_cons (bound : sync.price item = some price) (rest : List PriceItem) (row : SubscriptionItem) :
    sync.passed rest (releasedBy sync item row) = sync.passed (item :: rest) row := by
  have first : sync.carries true (item :: rest) row =
      (row.providerSubscriptionItemId == some item.providerSubscriptionItemId || sync.carries true rest row) := by
    simp only [carries, List.any_cons, bound, Option.isSome_some, beq_self_eq_true, Bool.true_and]
  rw [releasedBy]
  split
  · next here =>
    have nothing : sync.carries true rest (row.released sync.now) = false :=
      List.any_eq_false.mpr fun other _ => by simp [SubscriptionItem.released]
    rw [passed, nothing, passed, first, here.2, beq_self_eq_true, Bool.true_or]
    simp [here.1]
  · next apart =>
    rw [passed, passed, first]
    by_cases own : row.subscriptionId = sync.subscriptionId
    · have other : (row.providerSubscriptionItemId == some item.providerSubscriptionItemId) = false :=
        beq_eq_false_iff_ne.mpr fun has => apart ⟨own, has⟩
      rw [other, Bool.false_or]
    · rw [if_neg fun both => own both.1, if_neg fun both => own both.1]

private theorem carries_unbound (free : sync.price item = none) (rest : List PriceItem) (row : SubscriptionItem) :
    sync.carries true (item :: rest) row = sync.carries true rest row ∧ sync.carries false (item :: rest) row =
      (row.providerSubscriptionItemId == some item.providerSubscriptionItemId || sync.carries false rest row) := by
  simp only [carries, List.any_cons, free, Option.isSome_none, beq_self_eq_true, Bool.true_and]
  exact ⟨Bool.false_or _, trivial⟩

private theorem carries_apart {rest : List PriceItem} (apart : ∀ other ∈ rest, item.providerSubscriptionItemId ≠ other.providerSubscriptionItemId)
    {row : SubscriptionItem} (has : row.providerSubscriptionItemId = some item.providerSubscriptionItemId) (bound : Bool) :
    sync.carries bound rest row = false := by
  apply List.any_eq_false.mpr
  intro other member holds
  rw [Bool.and_eq_true, has, beq_iff_eq, beq_iff_eq] at holds
  exact apart other member (Option.some.inj holds.2)

private theorem tracked_row (sound : Sound rows) {row : SubscriptionItem} (member : row ∈ rows) (own : row.subscriptionId = sync.subscriptionId) :
    row.priceComponentId ∈ ((sync.tracked item rows).map priceComponentId).toList ↔
      row.active = true ∧ row.providerSubscriptionItemId = some item.providerSubscriptionItemId := by
  rw [Option.mem_toList, Option.map_eq_some_iff]
  constructor
  · rintro ⟨found, isFound, same⟩
    have holds := List.find?_some isFound
    rw [Bool.and_eq_true, Bool.and_eq_true, beq_iff_eq, beq_iff_eq] at holds
    obtain rfl : found = row := List.inj_on_of_nodup_map sound.keys (List.mem_of_find?_eq_some isFound) member
      (Prod.ext (holds.1.1.trans own.symm) same)
    exact ⟨holds.2, holds.1.2⟩
  · rintro ⟨active, has⟩
    cases found : sync.tracked item rows with
    | none => exact absurd (by simp [own, active, has]) (List.find?_eq_none.mp found row member)
    | some other =>
      have holds := List.find?_some found
      rw [Bool.and_eq_true, Bool.and_eq_true, beq_iff_eq, beq_iff_eq] at holds
      rw [sound.items other (List.mem_of_find?_eq_some found) row member _ holds.1.2 has]
      exact ⟨row, rfl, rfl⟩

end Rows

section Items
variable {sync : ItemSync} {items : List PriceItem} {item : PriceItem} {price : PriceComponent} {state next final : SyncState}

structure Attaches (sync : ItemSync) (item : PriceItem) (price : PriceComponent) (before after : List SubscriptionItem) : Prop where
  sound : Sound after
  here : findAt key (sync.subscriptionId, price.id) after = some (sync.attached item price (sync.startOf before price.id))
  others : ∀ k, k ≠ (sync.subscriptionId, price.id) → findAt key k after = (findAt key k before).map (releasedBy sync item)
  admitted : sync.refuses before item = false

theorem Attaches.row {before after : List SubscriptionItem} (attaches : Attaches sync item price before after) (sound : Sound before)
    {row : SubscriptionItem} (member : row ∈ before) (apart : row.key ≠ (sync.subscriptionId, price.id)) : releasedBy sync item row ∈ after := by
  have found := attaches.others row.key apart
  rw [(findAt_mem sound.keys).mpr ⟨member, rfl⟩, Option.map_some] at found
  exact (findAt_inv found).1

theorem Attaches.foreign {before after : List SubscriptionItem} (attaches : Attaches sync item price before after) (sound : Sound before)
    {row : SubscriptionItem} (member : row ∈ before) (other : row.subscriptionId ≠ sync.subscriptionId) : row ∈ after := by
  have there := attaches.row sound member fun same => other (congrArg Prod.fst same)
  rwa [releasedBy, if_neg fun both => other both.1] at there

private theorem syncItem_attaches (sound : Sound state.rows) (bound : sync.price item = some price) (done : sync.syncItem item state = .ok next) :
    Attaches sync item price state.rows next.rows ∧ next.activeComponentIds = state.activeComponentIds ++ [price.id] ∧
      next.unboundPrices = state.unboundPrices := by
  rw [syncItem, bound] at done
  obtain ⟨released, release, done⟩ := bind_ok done
  obtain ⟨rows, attach, done⟩ := bind_ok done
  obtain rfl := Except.ok.inj done
  obtain ⟨clean, same, others⟩ := release_ok sound release
  obtain ⟨fits, alone, kept, here, elsewhere⟩ := attach_ok clean attach
  refine ⟨⟨kept, ?_, fun k apart => (elsewhere k apart).trans (others k apart), ?_⟩, rfl, rfl⟩
  · rw [here, startOf, startOf, same]
  · have free : (state.rows.any fun row => row.subscriptionId != sync.subscriptionId &&
        row.providerSubscriptionItemId == some item.providerSubscriptionItemId) = false := by
      apply List.any_eq_false.mpr
      intro row member holds
      rw [Bool.and_eq_true, bne_iff_ne, beq_iff_eq] at holds
      have found := others row.key fun equal => holds.1 (congrArg Prod.fst equal)
      rw [(findAt_mem sound.keys).mpr ⟨member, rfl⟩, Option.map_some, releasedBy, if_neg fun both => holds.1 both.1] at found
      exact holds.1 (congrArg Prod.fst (alone row (findAt_inv found).1 holds.2))
    rw [refuses, fits, free, Bool.not_true, Bool.or_self, Bool.and_false]

structure Passes (sync : ItemSync) (items : List PriceItem) (state final : SyncState) : Prop where
  sound : Sound final.rows
  bound : ∀ item ∈ items, ∀ price, sync.price item = some price → price.id ∈ final.activeComponentIds ∧
    findAt key (sync.subscriptionId, price.id) final.rows = some (sync.attached item price (sync.startOf state.rows price.id))
  others : ∀ k, (∀ item ∈ items, ∀ price, sync.price item = some price → k ≠ (sync.subscriptionId, price.id)) →
    findAt key k final.rows = (findAt key k state.rows).map (sync.passed items)
  active : ∀ row ∈ state.rows, row.subscriptionId = sync.subscriptionId →
    (∀ item ∈ items, ∀ price, sync.price item = some price → price.id ≠ row.priceComponentId) →
    (row.priceComponentId ∈ final.activeComponentIds ↔
      row.priceComponentId ∈ state.activeComponentIds ∨ row.active = true ∧ sync.carries false items row = true)
  kept : state.activeComponentIds ⊆ final.activeComponentIds
  prices : final.unboundPrices = state.unboundPrices ++
    items.filterMap fun item => if (sync.price item).isSome then none else some item.externalPriceId
  admitted : ∀ item ∈ items, sync.refuses state.rows item = false

/-- A list whose first price is bound. -/
theorem Passes.attached {rest : List PriceItem} (sound : Sound state.rows) (bound : sync.price item = some price)
    (ahead : ∀ other ∈ rest, sync.Apart item other) (attaches : Attaches sync item price state.rows next.rows)
    (active : next.activeComponentIds = state.activeComponentIds ++ [price.id]) (prices : next.unboundPrices = state.unboundPrices)
    (passes : Passes sync rest next final) : Passes sync (item :: rest) state final where
  sound := passes.sound
  bound := by
    rintro other member led leads
    rcases List.mem_cons.mp member with rfl | later
    · obtain rfl := Option.some.inj (bound.symm.trans leads)
      refine ⟨passes.kept (active ▸ List.mem_append_right _ (List.mem_singleton_self _)), ?_⟩
      rw [passes.others _ fun after inside there goes same =>
        (ahead after inside).2 price there bound goes (congrArg Prod.snd same), attaches.here, Option.map_some, passed, if_neg]
      rw [carries_apart (fun after inside => (ahead after inside).1) rfl]
      exact fun both => Bool.false_ne_true both.2
    · obtain ⟨isActive, found⟩ := passes.bound other later led leads
      have apart : (sync.subscriptionId, led.id) ≠ (sync.subscriptionId, price.id) :=
        fun same => (ahead other later).2 price led bound leads (congrArg Prod.snd same).symm
      have starts (row : SubscriptionItem) : (releasedBy sync item row).startsAt = row.startsAt := by
        rw [releasedBy]
        split <;> rfl
      refine ⟨isActive, ?_⟩
      rw [found, startOf, startOf, attaches.others _ apart]
      cases findAt key (sync.subscriptionId, led.id) state.rows with
      | none => rfl
      | some row => rw [Option.map_some, Option.elim_some, Option.elim_some, starts]
  others := by
    intro k unled
    rw [passes.others k fun other later => unled other (List.mem_cons_of_mem _ later),
      attaches.others k (unled item List.mem_cons_self price bound), Option.map_map]
    exact Option.map_congr fun row _ => passed_cons bound rest row
  active := by
    intro row member own unled
    have apart := unled item List.mem_cons_self price bound
    have there := attaches.row sound member fun same => apart (congrArg Prod.snd same).symm
    have placed : (releasedBy sync item row).priceComponentId = row.priceComponentId ∧
        (releasedBy sync item row).subscriptionId = row.subscriptionId := by
      rw [releasedBy]
      split <;> exact ⟨rfl, rfl⟩
    have later := passes.active _ there (placed.2.trans own) (by
      rw [placed.1]
      exact fun other inside => unled other (List.mem_cons_of_mem _ inside))
    have first : sync.carries false (item :: rest) row = sync.carries false rest row := by
      simp [carries, bound]
    rw [placed.1, active, List.mem_append, List.mem_singleton, or_iff_left (Ne.symm apart)] at later
    rw [later, first, releasedBy]
    split
    · next here =>
      rw [carries_apart (fun after inside => (ahead after inside).1) here.2]
      simp [SubscriptionItem.released, SubscriptionItem.ended]
    · exact Iff.rfl
  kept := fun id member => passes.kept (active ▸ List.mem_append_left _ member)
  prices := by
    rw [passes.prices, prices, List.filterMap_cons, bound]
    rfl
  admitted := by
    rintro other member
    rcases List.mem_cons.mp member with rfl | later
    · exact attaches.admitted
    · have admitted := passes.admitted other later
      rw [refuses, Bool.and_eq_false_iff, Bool.or_eq_false_iff] at admitted ⊢
      refine admitted.imp_right fun free => ⟨free.1, List.any_eq_false.mpr fun row member holds => ?_⟩
      have foreign := bne_iff_ne.mp (Bool.and_eq_true_iff.mp holds).1
      exact List.any_eq_false.mp free.2 row (attaches.foreign sound member foreign) holds

private theorem syncItems_passes (sound : Sound state.rows) (apart : items.Pairwise sync.Apart) (done : sync.syncItems items state = .ok final) :
    Passes sync items state final := by
  induction items generalizing state with
  | nil =>
    obtain rfl := Except.ok.inj done
    have same : sync.passed [] = id := funext fun row => if_neg fun both => Bool.false_ne_true both.2
    refine ⟨sound, by rintro item ⟨⟩, fun k _ => ?_, fun row _ _ _ => ?_, fun _ => id, (List.append_nil _).symm, by rintro item ⟨⟩⟩
    · rw [same, Option.map_id, id]
    · simp [carries]
  | cons item rest ih =>
    obtain ⟨next, step, done⟩ := bind_ok done
    obtain ⟨ahead, apart⟩ := List.pairwise_cons.mp apart
    cases bound : sync.price item with
    | none =>
      rw [syncItem, bound] at step
      obtain rfl := Except.ok.inj step
      have passes := ih (by exact sound) apart done
      have same : sync.passed (item :: rest) = sync.passed rest := by
        funext row
        rw [passed, passed, (carries_unbound bound rest row).1]
      refine ⟨passes.sound, ?_, ?_, ?_, fun id member => passes.kept (List.mem_append_left _ member), ?_, ?_⟩
      · intro other member price leads
        rcases List.mem_cons.mp member with rfl | later
        · cases bound.symm.trans leads
        · exact passes.bound other later price leads
      · intro k unled
        rw [same]
        exact passes.others k fun other later => unled other (List.mem_cons_of_mem _ later)
      · intro row member own unled
        rw [passes.active row member own fun other later => unled other (List.mem_cons_of_mem _ later), List.mem_append,
          tracked_row sound member own, (carries_unbound bound rest row).2, Bool.or_eq_true, beq_iff_eq, or_assoc, and_or_left]
      · rw [passes.prices, List.filterMap_cons, bound, List.append_assoc]
        rfl
      · intro other member
        rcases List.mem_cons.mp member with rfl | later
        · rw [refuses, bound]
          rfl
        · exact passes.admitted other later
    | some price =>
      obtain ⟨attaches, active, prices⟩ := syncItem_attaches sound bound step
      exact (ih attaches.sound apart done).attached sound bound ahead attaches active prices

/-- A row that carries another item's id was there before. -/
theorem Attaches.old {before after : List SubscriptionItem} (attaches : Attaches sync item price before after) {row : SubscriptionItem}
    (member : row ∈ after) {id : Text} (has : row.providerSubscriptionItemId = some id) (apart : item.providerSubscriptionItemId ≠ id) :
    row ∈ before := by
  have found := (findAt_mem attaches.sound.keys).mpr ⟨member, rfl⟩
  by_cases here : row.key = (sync.subscriptionId, price.id)
  · rw [here, attaches.here] at found
    obtain rfl := Option.some.inj found
    exact absurd (Option.some.inj has) apart
  · rw [attaches.others _ here] at found
    obtain ⟨old, inside, rfl⟩ := Option.map_eq_some_iff.mp found
    rw [releasedBy] at has ⊢
    split at has
    · cases has
    · next kept =>
      rw [if_neg kept]
      exact (findAt_inv inside).1

def Unstarted (sync : ItemSync) (row : SubscriptionItem) : Prop :=
  row.subscriptionId = sync.subscriptionId ∧ row.endsAt = none ∧ sync.now ≤ row.startsAt

private theorem updateRows_error {rows : List SubscriptionItem} (bounds : ∀ row ∈ rows, row.withinBounds = true) {selects : SubscriptionItem → Bool}
    {edit : SubscriptionItem → SubscriptionItem} (ends : ∀ row, (edit row).startsAt = row.startsAt ∧ (edit row).endsAt = some (row.endsAt.getD sync.now))
    {error : ItemError} (failed : updateRows selects edit rows = .error error) :
    error = .boundsCheck ∧ ∃ row ∈ rows, selects row = true ∧ row.endsAt = none ∧ sync.now ≤ row.startsAt := by
  rw [updateRows] at failed
  split at failed
  case isTrue => cases failed
  next refused =>
  cases failed
  obtain ⟨row, member, fails⟩ := List.all_eq_false.mp (Bool.eq_false_iff.mpr refused)
  rw [Bool.or_eq_true, not_or, Bool.not_eq_true, Bool.not_eq_false', withinBounds, (ends row).2, (ends row).1, Option.all_some,
    decide_eq_true_eq, not_lt] at fails
  refine ⟨rfl, row, member, fails.1, ?_⟩
  cases open_ : row.endsAt with
  | none =>
    rw [open_] at fails
    exact ⟨rfl, fails.2⟩
  | some ends_ =>
    have within := bounds row member
    rw [withinBounds, open_, Option.all_some, decide_eq_true_eq] at within
    rw [open_] at fails
    exact absurd within (not_lt.mpr fails.2)

private theorem syncItem_error (sound : Sound state.rows) {error : ItemError} (failed : sync.syncItem item state = .error error) :
    (sync.refuses state.rows item = true ∧ (error = .providerItemUnique → ∃ row ∈ state.rows, row.subscriptionId ≠ sync.subscriptionId ∧
        row.providerSubscriptionItemId = some item.providerSubscriptionItemId)) ∨
      error = .boundsCheck ∧ ∃ row ∈ state.rows, Unstarted sync row ∧ row.providerSubscriptionItemId = some item.providerSubscriptionItemId := by
  cases bound : sync.price item with
  | none =>
    rw [syncItem, bound] at failed
    cases failed
  | some price =>
    rw [syncItem, bound] at failed
    rcases bind_error failed with failed | ⟨released, release, failed⟩
    · rw [release] at failed
      obtain ⟨rfl, row, member, selected, open_, late⟩ :=
        @updateRows_error sync _ sound.bounds _ (SubscriptionItem.released sync.now) (fun row => ⟨rfl, rfl⟩) _ failed
      rw [Bool.and_eq_true, Bool.and_eq_true, beq_iff_eq, beq_iff_eq] at selected
      exact .inr ⟨rfl, row, member, ⟨selected.1.1, open_, late⟩, selected.1.2⟩
    · rcases bind_error failed with failed | ⟨rows, -, failed⟩
      · rw [attach] at failed
        split at failed
        · next unfit =>
          cases failed
          refine .inl ⟨?_, by rintro ⟨⟩⟩
          rw [refuses, bound, unfit]
          rfl
        · split at failed
          · next taken =>
            cases failed
            obtain ⟨clean, -, others⟩ := release_ok sound release
            obtain ⟨row, inside, has⟩ := List.any_eq_true.mp taken
            obtain ⟨member, apart⟩ := List.mem_filter.mp inside
            rw [beq_iff_eq] at has
            have found := (findAt_mem clean.keys).mpr ⟨member, rfl⟩
            rw [others _ (bne_iff_ne.mp apart)] at found
            obtain ⟨old, there, same⟩ := Option.map_eq_some_iff.mp found
            rw [releasedBy] at same
            split at same
            · rw [← same] at has
              cases has
            · next kept =>
              obtain rfl := same
              have foreign : old.subscriptionId ≠ sync.subscriptionId := fun own => kept ⟨own, has⟩
              have known := (findAt_inv there).1
              refine .inl ⟨?_, fun _ => ⟨old, known, foreign, has⟩⟩
              have held : (state.rows.any fun row => row.subscriptionId != sync.subscriptionId &&
                  row.providerSubscriptionItemId == some item.providerSubscriptionItemId) = true :=
                List.any_eq_true.mpr ⟨old, known, by simp [foreign, has]⟩
              rw [refuses, bound, held, Bool.or_true]
              rfl
          · cases failed
      · cases failed

private theorem syncItems_error (sound : Sound state.rows) (apart : items.Pairwise sync.Apart) {error : ItemError}
    (failed : sync.syncItems items state = .error error) :
    (∃ item ∈ items, sync.refuses state.rows item = true ∧ (error = .providerItemUnique → ∃ row ∈ state.rows,
        row.subscriptionId ≠ sync.subscriptionId ∧ row.providerSubscriptionItemId = some item.providerSubscriptionItemId)) ∨
      error = .boundsCheck ∧ ∃ item ∈ items, ∃ row ∈ state.rows, Unstarted sync row ∧
        row.providerSubscriptionItemId = some item.providerSubscriptionItemId := by
  induction items generalizing state with
  | nil => cases failed
  | cons item rest ih =>
    obtain ⟨ahead, apart⟩ := List.pairwise_cons.mp apart
    rcases bind_error failed with failed | ⟨next, step, failed⟩
    · exact (syncItem_error sound failed).imp (fun refused => ⟨item, List.mem_cons_self, refused⟩)
        fun late => ⟨late.1, item, List.mem_cons_self, late.2⟩
    · have earlier : Sound next.rows ∧ ∀ other ∈ rest, ∀ row ∈ next.rows,
          row.providerSubscriptionItemId = some other.providerSubscriptionItemId → row ∈ state.rows := by
        cases bound : sync.price item with
        | none =>
          rw [syncItem, bound] at step
          obtain rfl := Except.ok.inj step
          exact ⟨sound, fun _ _ _ member _ => member⟩
        | some price =>
          obtain ⟨attaches, -⟩ := syncItem_attaches sound bound step
          exact ⟨attaches.sound, fun other later row member has => attaches.old member has (ahead other later).1⟩
      rcases ih earlier.1 apart failed with ⟨other, later, refused, foreign⟩ | ⟨same, other, later, row, member, late, has⟩
      · refine .inl ⟨other, List.mem_cons_of_mem _ later, ?_, fun same => ?_⟩
        · rw [refuses, Bool.and_eq_true, Bool.or_eq_true, List.any_eq_true] at refused ⊢
          refine refused.imp_right fun either => either.imp_right ?_
          rintro ⟨row, member, holds⟩
          exact ⟨row, earlier.2 other later row member (beq_iff_eq.mp (Bool.and_eq_true_iff.mp holds).2), holds⟩
        · obtain ⟨row, member, holds⟩ := foreign same
          exact ⟨row, earlier.2 other later row member holds.2, holds⟩
      · exact .inr ⟨same, other, List.mem_cons_of_mem _ later, row, earlier.2 other later row member has, late, has⟩

end Items

section Syncs
variable {sync : ItemSync} {rows after : List SubscriptionItem} {prices : List Text}

structure Synced (sync : ItemSync) (rows after : List SubscriptionItem) (prices : List Text) : Prop where
  sound : Sound after
  bound : ∀ item ∈ sync.items, ∀ price, sync.price item = some price →
    findAt key (sync.subscriptionId, price.id) after = some (sync.attached item price (sync.startOf rows price.id))
  others : ∀ k, (∀ item ∈ sync.items, ∀ price, sync.price item = some price → k ≠ (sync.subscriptionId, price.id)) →
    findAt key k after = (findAt key k rows).map sync.settled
  prices : prices = sync.items.filterMap fun item => if (sync.price item).isSome then none else some item.externalPriceId
  admitted : ∀ item ∈ sync.items, sync.refuses rows item = false

private theorem settled_cases (sync : ItemSync) (row : SubscriptionItem) :
    (sync.settled row = row ∧ (row.subscriptionId = sync.subscriptionId → row.active = true → sync.carries false sync.items row = true)) ∨
      row.subscriptionId = sync.subscriptionId ∧ (sync.settled row).subscriptionId = sync.subscriptionId ∧
        (sync.settled row).active = false ∧ (sync.settled row).endsAt ≠ none := by
  rw [settled, passed]
  split
  · next gone =>
    right
    rw [if_neg (by simp [SubscriptionItem.released, SubscriptionItem.ended])]
    exact ⟨gone.1, gone.1, rfl, by rintro ⟨⟩⟩
  · split
    · next ends => exact .inr ⟨ends.1, ends.1, rfl, by rintro ⟨⟩⟩
    · next stays =>
      refine .inl ⟨rfl, fun own active => ?_⟩
      by_contra untracked
      exact stays ⟨own, active, Bool.eq_false_iff.mpr untracked⟩

theorem synced (sound : Sound rows) (apart : sync.items.Pairwise sync.Apart) (listed : sync.items ≠ []) (configured : sync.configured = true)
    (done : sync.syncSubscriptionPriceItems rows = .ok (after, prices)) : Synced sync rows after prices := by
  rw [syncSubscriptionPriceItems, if_neg listed, configured, Bool.not_true, if_neg Bool.false_ne_true] at done
  obtain ⟨state, items, done⟩ := bind_ok done
  obtain ⟨ended, ends, done⟩ := bind_ok done
  obtain ⟨rfl, rfl⟩ := Prod.mk.inj (Except.ok.inj done)
  have start : Sound (SyncState.mk rows [] []).rows := sound
  have passes := syncItems_passes start apart items
  rw [endOthers] at ends
  obtain ⟨kept, lookup⟩ := @Sound.updated _ _ passes.sound _ (SubscriptionItem.ended sync.now) (fun row => ⟨rfl, fun _ => id, rfl, rfl⟩) ends
  refine ⟨kept, ?_, ?_, passes.prices, passes.admitted⟩
  · intro item member price leads
    obtain ⟨isActive, found⟩ := passes.bound item member price leads
    rw [lookup, found, Option.map_some, if_neg]
    simp [attached, isActive]
  · intro k unled
    rw [lookup, passes.others k unled, Option.map_map]
    apply Option.map_congr
    intro row found
    obtain ⟨member, same⟩ := findAt_inv found
    rw [Function.comp, settled]
    apply if_congr _ rfl rfl
    rw [Bool.and_eq_true, Bool.and_eq_true, beq_iff_eq, and_assoc]
    refine and_congr_right fun own => and_congr_right fun active => ?_
    have stays : sync.passed sync.items row = row := by
      rw [passed] at active ⊢
      split at active
      · cases active
      · next kept => rw [if_neg kept]
    rw [stays] at own active ⊢
    have only := passes.active row member own fun item inside price leads at_ =>
      unled item inside price leads (same.symm.trans (Prod.ext own at_.symm))
    rw [active] at only
    simpa using not_congr only

theorem Synced.led (synced : Synced sync rows after prices) {row : SubscriptionItem} (member : row ∈ after) :
    (∃ item ∈ sync.items, ∃ price, sync.price item = some price ∧ row = sync.attached item price (sync.startOf rows price.id)) ∨
      ∃ old ∈ rows, row = sync.settled old ∧ row.key = old.key := by
  have found := (findAt_mem synced.sound.keys).mpr ⟨member, rfl⟩
  by_cases led : ∃ item ∈ sync.items, ∃ price, sync.price item = some price ∧ row.key = (sync.subscriptionId, price.id)
  · obtain ⟨item, inside, price, leads, here⟩ := led
    rw [here, synced.bound item inside price leads] at found
    exact .inl ⟨item, inside, price, leads, (Option.some.inj found).symm⟩
  · rw [synced.others _ fun item inside price leads here => led ⟨item, inside, price, leads, here⟩] at found
    obtain ⟨old, there, same⟩ := Option.map_eq_some_iff.mp found
    exact .inr ⟨old, (findAt_inv there).1, same.symm, (findAt_inv there).2.symm⟩

theorem Synced.follows (synced : Synced sync rows after prices) (sound : Sound rows) (apart : sync.items.Pairwise sync.Apart) :
    sync.Follows rows after where
  bound := fun item member price leads => (findAt_inv (synced.bound item member price leads)).1
  tracked := by
    intro item member free row inside own has active unled
    have ids : (sync.items.map PriceItem.providerSubscriptionItemId).Nodup := by
      rw [List.nodup_iff_pairwise_ne, List.pairwise_map]
      exact apart.imp And.left
    have found := synced.others row.key fun other there price leads same =>
      unled other there price leads (congrArg Prod.snd same).symm
    rw [(findAt_mem sound.keys).mpr ⟨inside, rfl⟩, Option.map_some] at found
    have left : sync.passed sync.items row = row := by
      refine if_neg fun both => ?_
      obtain ⟨other, there, holds⟩ := List.any_eq_true.mp both.2
      rw [Bool.and_eq_true, beq_iff_eq, beq_iff_eq, has] at holds
      rw [← List.inj_on_of_nodup_map ids member there (Option.some.inj holds.2), free] at holds
      cases holds.1
    have tracks : sync.carries false sync.items row = true := List.any_eq_true.mpr ⟨item, member, by simp [free, has]⟩
    rw [settled, left, tracks] at found
    simp only [Bool.true_eq_false, and_false, if_false] at found
    exact (findAt_inv found).1
  others := by
    intro row member own
    rcases synced.led member with ⟨item, inside, price, leads, rfl⟩ | ⟨old, there, same, -⟩
    · exact .inl ⟨rfl, rfl, item, inside, rfl, .inl ⟨price, leads, rfl⟩⟩
    · rcases settled_cases sync old with ⟨stays, tracks⟩ | ⟨-, -, inactive, ends⟩
      · obtain rfl := same.trans stays
        have opens := sound.open_ row there
        cases active : row.active with
        | true =>
          obtain ⟨item, inside, holds⟩ := List.any_eq_true.mp (tracks own active)
          rw [Bool.and_eq_true, beq_iff_eq, beq_iff_eq] at holds
          rw [active] at opens
          exact .inl ⟨rfl, Option.isNone_iff_eq_none.mp opens.symm, item, inside, holds.2, .inr ⟨by simpa using holds.1, there⟩⟩
        | false =>
          rw [active] at opens
          exact .inr ⟨rfl, Option.isNone_eq_false_iff.mp opens.symm |> Option.isSome_iff_ne_none.mp⟩
      · rw [same]
        exact .inr ⟨inactive, ends⟩
  elsewhere := by
    intro row foreign
    constructor
    · intro member
      rcases synced.led member with ⟨item, inside, price, leads, rfl⟩ | ⟨old, there, same, at_⟩
      · exact absurd rfl foreign
      · rcases settled_cases sync old with ⟨stays, -⟩ | ⟨own, -⟩
        · exact same.trans stays ▸ there
        · exact absurd ((congrArg Prod.fst at_).trans own) foreign
    · intro member
      have found := synced.others row.key fun item there price leads same => foreign (congrArg Prod.fst same)
      rw [(findAt_mem sound.keys).mpr ⟨member, rfl⟩, Option.map_some] at found
      rcases settled_cases sync row with ⟨stays, -⟩ | ⟨own, -⟩
      · exact stays ▸ (findAt_inv found).1
      · exact absurd own foreign

/-- Two orders of one list leave the same rows. -/
theorem Synced.same {others : List PriceItem} {later : List SubscriptionItem} {alsoPrices : List Text} (first : Synced sync rows after prices)
    (second : Synced (sync.listing others) rows later alsoPrices) (perm : sync.items.Perm others) :
    (∀ row, row ∈ later ↔ row ∈ after) ∧ alsoPrices.Perm prices := by
  have lookups (k : Nat × Nat) : findAt key k later = findAt key k after := by
    by_cases led : ∃ item ∈ sync.items, ∃ price, sync.price item = some price ∧ k = (sync.subscriptionId, price.id)
    · obtain ⟨item, inside, price, leads, rfl⟩ := led
      exact (second.bound item (perm.mem_iff.mp inside) price leads).trans (first.bound item inside price leads).symm
    · have unled : ∀ item ∈ sync.items, ∀ price, sync.price item = some price → k ≠ (sync.subscriptionId, price.id) :=
        fun item inside price leads here => led ⟨item, inside, price, leads, here⟩
      have carries (bound : Bool) : (sync.listing others).carries bound others = sync.carries bound sync.items :=
        funext fun row => perm.any_eq.symm
      have settled : (sync.listing others).settled = sync.settled := by
        funext row
        rw [ItemSync.settled, ItemSync.settled, ItemSync.passed, ItemSync.passed, ← carries, ← carries]
        rfl
      rw [first.others k unled, second.others k fun item inside => unled item (perm.mem_iff.mpr inside), settled]
  refine ⟨fun row => ⟨fun member => ?_, fun member => ?_⟩, ?_⟩
  · exact (findAt_inv ((lookups row.key).symm.trans ((findAt_mem second.sound.keys).mpr ⟨member, rfl⟩))).1
  · exact (findAt_inv ((lookups row.key).trans ((findAt_mem first.sound.keys).mpr ⟨member, rfl⟩))).1
  · rw [first.prices, second.prices]
    exact (perm.filterMap _).symm

/-- A sync fails for an item that the table refuses, or for a row that cannot end yet. -/
private theorem sync_error (sound : Sound rows) (apart : sync.items.Pairwise sync.Apart) {error : ItemError}
    (failed : sync.syncSubscriptionPriceItems rows = .error error) :
    (∃ item ∈ sync.items, sync.refuses rows item = true ∧ (error = .providerItemUnique → ∃ row ∈ rows,
        row.subscriptionId ≠ sync.subscriptionId ∧ row.providerSubscriptionItemId = some item.providerSubscriptionItemId)) ∨
      error = .boundsCheck ∧ ∃ row ∈ rows, Unstarted sync row := by
  have start : Sound (SyncState.mk rows [] []).rows := sound
  rw [syncSubscriptionPriceItems] at failed
  split at failed
  · cases failed
  split at failed
  · cases failed
  rcases bind_error failed with failed | ⟨state, items, failed⟩
  · exact (syncItems_error start apart failed).imp_right fun ⟨same, _, _, row, member, late, _⟩ => ⟨same, row, member, late⟩
  · have passes := syncItems_passes start apart items
    rcases bind_error failed with failed | ⟨ended, -, failed⟩
    · rw [endOthers] at failed
      obtain ⟨rfl, row, member, selected, open_, late⟩ :=
        @updateRows_error sync _ passes.sound.bounds _ (SubscriptionItem.ended sync.now) (fun row => ⟨rfl, rfl⟩) _ failed
      rw [Bool.and_eq_true, Bool.and_eq_true, beq_iff_eq] at selected
      have found := (findAt_mem passes.sound.keys).mpr ⟨member, rfl⟩
      have unled : ∀ item ∈ sync.items, ∀ price, sync.price item = some price → row.key ≠ (sync.subscriptionId, price.id) := by
        intro item inside price leads here
        have stays := (passes.bound item inside price leads).1
        rw [← show row.priceComponentId = price.id from congrArg Prod.snd here] at stays
        simp [stays] at selected
      rw [passes.others _ unled] at found
      obtain ⟨old, there, rfl⟩ := Option.map_eq_some_iff.mp found
      refine .inr ⟨rfl, old, (findAt_inv there).1, ?_⟩
      rw [passed] at selected open_ late
      split at selected
      · cases selected.1.2
      · next kept =>
        rw [if_neg kept] at open_ late
        exact ⟨selected.1.1, open_, late⟩
    · cases failed

private theorem syncItems_sound {items : List PriceItem} {state final : SyncState} (sound : Sound state.rows)
    (done : sync.syncItems items state = .ok final) : Sound final.rows := by
  induction items generalizing state with
  | nil => exact Except.ok.inj done ▸ sound
  | cons item rest ih =>
    obtain ⟨next, step, done⟩ := bind_ok done
    refine ih ?_ done
    cases bound : sync.price item with
    | none =>
      rw [syncItem, bound] at step
      exact Except.ok.inj step ▸ sound
    | some price => exact (syncItem_attaches sound bound step).1.sound

private theorem sync_sound (sound : Sound rows) (done : sync.syncSubscriptionPriceItems rows = .ok (after, prices)) : Sound after := by
  have start : Sound (SyncState.mk rows [] []).rows := sound
  rw [syncSubscriptionPriceItems] at done
  split at done
  · exact (Prod.mk.inj (Except.ok.inj done)).1 ▸ sound
  split at done
  · exact (Prod.mk.inj (Except.ok.inj done)).1 ▸ sound
  obtain ⟨state, items, done⟩ := bind_ok done
  obtain ⟨ended, ends, done⟩ := bind_ok done
  rw [← (Prod.mk.inj (Except.ok.inj done)).1]
  rw [endOthers] at ends
  exact (@Sound.updated _ _ (syncItems_sound start items) _ (SubscriptionItem.ended sync.now) (fun row => ⟨rfl, fun _ => id, rfl, rfl⟩) ends).1

theorem perform_sound (sound : Sound rows) (sync : ItemSync) : Sound (perform rows sync) := by
  rw [perform]
  split
  · next done => exact sync_sound sound done
  · exact sound

theorem run_sound (syncs : List ItemSync) : Sound (run syncs) := by
  have from_ {rows : List SubscriptionItem} (sound : Sound rows) : Sound (syncs.foldl perform rows) := by
    induction syncs generalizing rows with
    | nil => exact sound
    | cons sync rest ih => exact ih (perform_sound sound sync)
  exact from_ ⟨List.nodup_nil, by rintro row ⟨⟩, by rintro row ⟨⟩, by rintro row ⟨⟩⟩

end Syncs

structure FollowsProvider (rows : List SubscriptionItem) (sync : ItemSync) : Prop where
  unpriced : sync.configured = false → sync.syncSubscriptionPriceItems rows = .ok (rows, [])
  follows : sync.configured = true → ∀ after prices, sync.syncSubscriptionPriceItems rows = .ok (after, prices) → sync.Follows rows after
  unique : ∀ after prices, sync.syncSubscriptionPriceItems rows = .ok (after, prices) → ∀ first ∈ after, ∀ second ∈ after, ∀ id,
    first.providerSubscriptionItemId = some id → second.providerSubscriptionItemId = some id → first = second
  foreign : sync.syncSubscriptionPriceItems rows = .error .providerItemUnique → ∃ item ∈ sync.items, ∃ row ∈ rows,
    row.subscriptionId ≠ sync.subscriptionId ∧ row.providerSubscriptionItemId = some item.providerSubscriptionItemId
  order : ∀ others, sync.items.Perm others →
    (∀ after prices later alsoPrices, sync.syncSubscriptionPriceItems rows = .ok (after, prices) →
      (sync.listing others).syncSubscriptionPriceItems rows = .ok (later, alsoPrices) →
        (∀ row, row ∈ later ↔ row ∈ after) ∧ alsoPrices.Perm prices) ∧
    (sync.Started rows → ((∃ result, sync.syncSubscriptionPriceItems rows = .ok result) ↔
      ∃ result, (sync.listing others).syncSubscriptionPriceItems rows = .ok result))

private theorem sync_unpriced (rows : List SubscriptionItem) {sync : ItemSync} (unpriced : sync.configured = false) :
    sync.syncSubscriptionPriceItems rows = .ok (rows, []) := by
  rw [syncSubscriptionPriceItems, unpriced]
  split <;> rfl

/-- Once the rows have started, a sync fails only for an item that the table refuses. -/
private theorem sync_ok {rows : List SubscriptionItem} {sync : ItemSync} (sound : Sound rows) (apart : sync.items.Pairwise sync.Apart)
    (listed : sync.items ≠ []) (configured : sync.configured = true) (started : sync.Started rows) :
    (∃ result, sync.syncSubscriptionPriceItems rows = .ok result) ↔ ∀ item ∈ sync.items, sync.refuses rows item = false := by
  constructor
  · rintro ⟨⟨after, prices⟩, done⟩
    exact (synced sound apart listed configured done).admitted
  · intro admitted
    cases result : sync.syncSubscriptionPriceItems rows with
    | ok outcome => exact ⟨outcome, rfl⟩
    | error failure =>
      rcases sync_error sound apart result with ⟨item, member, refused, -⟩ | ⟨-, row, member, own, open_, late⟩
      · exact absurd refused (Bool.eq_false_iff.mp (admitted item member))
      · exact absurd (started row member own open_) (not_lt.mpr late)

/-- In every run each sync of a list of items with distinct ids and components follows the provider. -/
theorem items_follow (syncs : List ItemSync) (sync : ItemSync) (listed : sync.items ≠ []) (apart : sync.items.Pairwise sync.Apart) :
    FollowsProvider (run syncs) sync := by
  have sound := run_sound syncs
  refine ⟨sync_unpriced _, ?_, fun after prices done => (sync_sound sound done).items, ?_, ?_⟩
  · intro configured after prices done
    exact (synced sound apart listed configured done).follows sound apart
  · intro failed
    rcases sync_error sound apart failed with ⟨item, member, -, foreign⟩ | ⟨other, -⟩
    · exact ⟨item, member, foreign rfl⟩
    · cases other
  · intro others perm
    have alsoListed : (sync.listing others).items ≠ [] := fun none : others = [] => listed (List.perm_nil.mp (none ▸ perm))
    have alsoApart : (sync.listing others).items.Pairwise (sync.listing others).Apart :=
      (perm.pairwise_iff fun first => ⟨first.1.symm, fun one other leads also => (first.2 other one also leads).symm⟩).mp apart
    cases configured : sync.configured with
    | false =>
      rw [sync_unpriced _ configured, sync_unpriced _ (show (sync.listing others).configured = false from configured)]
      refine ⟨?_, fun _ => Iff.rfl⟩
      rintro _ _ _ _ ⟨⟩ ⟨⟩
      exact ⟨fun row => Iff.rfl, List.Perm.refl _⟩
    | true =>
      have alsoConfigured : (sync.listing others).configured = true := configured
      constructor
      · intro after prices later alsoPrices done also
        exact (synced sound apart listed configured done).same (synced sound alsoApart alsoListed alsoConfigured also) perm
      · intro started
        rw [sync_ok sound apart listed configured started, sync_ok sound alsoApart alsoListed alsoConfigured started]
        exact forall_congr' fun item => imp_congr_left perm.mem_iff

section Examples

def pricedCatalog : Catalog where
  components := [⟨1, 1, 100, "usd".toList⟩, ⟨2, 1, 200, "usd".toList⟩]
  bindings := [⟨1, 1, "stripe".toList, "web".toList, .published⟩, ⟨2, 2, "stripe".toList, "web".toList, .published⟩]
  storeProducts := [⟨1, ['p'], ['a']⟩, ⟨2, ['p'], ['b']⟩]

def syncOn (planVersionId : Nat) (now periodStartAt : Int) (items : List PriceItem) : ItemSync :=
  ⟨pricedCatalog, 0, some planVersionId, now, periodStartAt, items⟩

/-- An item on the first price, and then another on the second price whose period starts after the swap. -/
def beforeSwap : List ItemSync :=
  [syncOn 1 10 0 [⟨['j'], ['p'], ['a'], 1⟩], syncOn 1 20 100 [⟨['j'], ['p'], ['a'], 1⟩, ⟨['i'], ['p'], ['b'], 1⟩]]

def swap : ItemSync :=
  syncOn 1 30 100 [⟨['j'], ['p'], ['b'], 1⟩, ⟨['i'], ['p'], ['a'], 1⟩]

/-- A version without prices leaves an item that is gone active, and a row that starts after the sync makes the order matter. -/
theorem items_follow_fails :
    (syncOn 2 20 0 [⟨['i'], ['p'], ['b'], 1⟩]).syncSubscriptionPriceItems (run [syncOn 1 10 0 [⟨['j'], ['p'], ['a'], 1⟩]]) =
      .ok ([⟨0, 1, some ['j'], 1, 100, "usd".toList, true, 0, none⟩], []) ∧
    (swap.syncSubscriptionPriceItems (run beforeSwap)).isOk = true ∧
      (swap.listing swap.items.reverse).syncSubscriptionPriceItems (run beforeSwap) = .error .boundsCheck :=
  ⟨rfl, rfl, rfl⟩

theorem items_follow_swap : FollowsProvider (run beforeSwap) swap := by
  apply items_follow
  · rintro ⟨⟩
  · refine List.pairwise_pair.mpr ⟨by rintro ⟨⟩, ?_⟩
    rintro _ _ ⟨⟩ ⟨⟩ ⟨⟩

end Examples

end Quotum.SubscriptionItems
