import Quotum.General.Outcomes
import Quotum.ResetAllocations

/-! A reset window is granted once, in every run in which no window is granted into one that was granted while the recorded
period was another. -/

namespace Quotum.ResetAllocations
open General Cadences SubscriptionChanges

variable {others : List AllowanceRow} {result : SubscriptionAllocationPeriodResult} {items : List PlanItem} {period : Bounds}

/-- Whether a grant of a reset window would cut into a row: they overlap, the row does not span the window, and it got its
period under other recorded bounds. -/
def AllowanceRow.cutBy (item : PlanItem) (recorded window : Bounds) (row : AllowanceRow) : Bool :=
  decide (row.item = item) && decide (row.grantedUnder ≠ some recorded) && !row.period.apart window && !row.period.covers window

/-- Whether a grant of a whole period would cut into a row, which is not that grant. -/
def AllowanceRow.crossedBy (item : PlanItem) (period : Bounds) (row : AllowanceRow) : Bool :=
  decide (row.item = item) && decide (row.grantedUnder ≠ some period) && !row.period.apart period &&
    decide (row.sourceKey ≠ ⟨item, period⟩)

def cutsWindows (stored : StoredSubscription) (now : Int) (rows : List AllowanceRow) : Bool :=
  stored.active now && stored.splitItems.any fun item =>
    rows.any (AllowanceRow.cutBy item stored.period (planGrantWindowBounds stored.period item.reset now))

def crossesPeriods (items : List PlanItem) (period : Bounds) (rows : List AllowanceRow) : Bool :=
  items.any fun item => !item.splits period && rows.any (AllowanceRow.crossedBy item period)

/-- A step whose grants cut into no row that was granted under other bounds. -/
def Uncut (allowances : Allowances) : AllowanceStep → Prop
  | .sync input => input.stored.funds = true → crossesPeriods input.stored.items input.period allowances.rows = false ∧
      ∀ rows, input.stored.items.foldlM (grantPeriod input.period input.now) allowances.rows = .ok rows →
        cutsWindows input.stored input.now rows = false
  | .maintain now => allowances.isDue now = true → cutsWindows allowances.stored now allowances.rows = false
  | .write _ _ => True

/-- The states of a subscription's allowances over the runs whose steps are all allowed. The rows it starts with were
granted before: they are keyed apart, and no two of one item overlap. -/
inductive AllowancesReach (allowed : Allowances → AllowanceStep → Prop) : Allowances → Prop where
  | opened {stored : StoredSubscription} {rows : List AllowanceRow} : (rows.map AllowanceRow.id) = List.range rows.length →
      (rows.map AllowanceRow.sourceKey).Nodup → (∀ row ∈ rows, row.grantedUnder = none) →
      (∀ row ∈ rows, ∃ time, row.period.contains time = true) →
      rows.Pairwise (fun row other => row.item = other.item → row.period.apart other.period = true) →
      AllowancesReach allowed ⟨stored, rows⟩
  | step {allowances next : Allowances} {step : AllowanceStep} : AllowancesReach allowed allowances →
      allowed allowances step → step.apply allowances = .ok next → AllowancesReach allowed next

/-- A row after a grant: what it holds is the same, and its period is no longer. -/
structure Kept (row next : AllowanceRow) : Prop where
  id : next.id = row.id
  item : next.item = row.item
  sourceKey : next.sourceKey = row.sourceKey
  quantity : next.quantity = row.quantity
  reversed : next.reversedQuantity = row.reversedQuantity
  consumed : next.consumedQuantity = row.consumedQuantity
  held : next.heldQuantity = row.heldQuantity
  period : next.period = row.period ∨ row.period.covers next.period = true
  expires : ∀ expiry, row.expiresAt = some expiry → ∃ earlier, next.expiresAt = some earlier ∧ earlier ≤ expiry

/-- Every window of an item is granted at most once, the windows of an item are apart, and neither a sync nor a maintenance
run gives back what was consumed from a row. -/
structure GrantedOnce (allowances : Allowances) : Prop where
  keyed : (allowances.rows.map AllowanceRow.sourceKey).Nodup
  once : (allowances.rows.map fun row => (row.item, row.period)).Nodup
  apart : allowances.rows.Pairwise fun row other => row.item = other.item → row.period.apart other.period = true
  synced : ∀ (input : PeriodSync) (next : Allowances) (granted : Nat), syncAllowances input allowances = .ok (next, granted) →
    ∀ row ∈ allowances.rows, ∃ kept ∈ next.rows, Kept row kept
  maintained : ∀ (now : Int) (next : Allowances) (result : SubscriptionAllocationPeriodResult),
    materializeDueSubscriptionAllocations now allowances = .ok (next, result) →
      ∀ row ∈ allowances.rows, ∃ kept ∈ next.rows, Kept row kept

/-- What a row got its period for: a reset window of the recorded period, or all of it under its own key. -/
def GrantedFor (row : AllowanceRow) (recorded : Bounds) : Prop :=
  if row.item.splits recorded = true then
    ∃ time, recorded.contains time = true ∧ recorded.endAt ≠ none ∧
      row.period = planGrantWindowBounds recorded row.item.reset time
  else row.period = recorded ∧ row.sourceKey = ⟨row.item, recorded⟩

structure Sound (rows : List AllowanceRow) : Prop where
  ids : rows.map AllowanceRow.id = List.range rows.length
  keyed : (rows.map AllowanceRow.sourceKey).Nodup
  granted : ∀ row ∈ rows, ∀ recorded, row.grantedUnder = some recorded → GrantedFor row recorded
  open_ : ∀ row ∈ rows, ∃ time, row.period.contains time = true
  apart : rows.Pairwise fun row other => row.item = other.item → row.period.apart other.period = true

section Rows
variable {rows : List AllowanceRow} {row next : AllowanceRow} {item : PlanItem} {recorded window : Bounds}

theorem Kept.refl (row : AllowanceRow) : Kept row row :=
  ⟨rfl, rfl, rfl, rfl, rfl, rfl, rfl, .inl rfl, fun expiry same => ⟨expiry, same, le_refl expiry⟩⟩

private theorem covers_trans {outer middle inner : Bounds} (first : outer.covers middle = true) (second : middle.covers inner = true) :
    outer.covers inner = true := by
  unfold Bounds.covers at *
  simp only [Bool.and_eq_true, decide_eq_true_eq, Option.any_eq_true_iff_get] at *
  obtain ⟨begun, ends, middleEnds, last⟩ := first
  obtain ⟨begunAlso, _, innerEnds, lastAlso⟩ := second
  exact ⟨begun.trans begunAlso, ends, innerEnds, lastAlso.trans last⟩

theorem Kept.trans {last : AllowanceRow} (first : Kept row next) (second : Kept next last) : Kept row last where
  id := second.id.trans first.id
  item := second.item.trans first.item
  sourceKey := second.sourceKey.trans first.sourceKey
  quantity := second.quantity.trans first.quantity
  reversed := second.reversed.trans first.reversed
  consumed := second.consumed.trans first.consumed
  held := second.held.trans first.held
  period := by
    rcases first.period with same | inside
    · rw [← same]
      exact second.period
    · rcases second.period with same | deeper
      · exact .inr (same ▸ inside)
      · exact .inr (covers_trans inside deeper)
  expires := by
    intro expiry same
    obtain ⟨earlier, sooner, bound⟩ := first.expires expiry same
    obtain ⟨earliest, soonest, below⟩ := second.expires earlier sooner
    exact ⟨earliest, soonest, below.trans bound⟩

private theorem adopt_kept (item : PlanItem) (recorded window : Bounds) (row : AllowanceRow) : Kept row (row.adopt item recorded window) := by
  unfold AllowanceRow.adopt
  split
  · next spans =>
    unfold AllowanceRow.spans at spans
    simp only [Bool.and_eq_true] at spans
    refine ⟨rfl, rfl, rfl, rfl, rfl, rfl, rfl, .inr spans.1.2, ?_⟩
    intro expiry same
    cases ending : window.endAt with
    | none => exact ⟨expiry, by simp [least, same], le_refl expiry⟩
    | some at_ => exact ⟨min expiry at_, by simp [least, same], min_le_left expiry at_⟩
  · exact .refl row

private theorem adopt_adopted (spans : row.spans item window = true) :
    (row.adopt item recorded window).period = window ∧ (row.adopt item recorded window).grantedUnder = some recorded := by
  unfold AllowanceRow.adopt
  rw [if_pos spans]
  exact ⟨rfl, rfl⟩

private theorem adopt_left (elsewhere : row.spans item window = false) : row.adopt item recorded window = row := by
  unfold AllowanceRow.adopt
  rw [if_neg (by simp [elsewhere])]

private theorem spans_inv (spans : row.spans item window = true) : row.item = item ∧ row.period.covers window = true := by
  unfold AllowanceRow.spans at spans
  simp only [Bool.and_eq_true, decide_eq_true_eq] at spans
  exact spans.1

private theorem cutBy_fits (uncut : row.cutBy item recorded window = false) (own : row.item = item)
    (under : row.grantedUnder ≠ some recorded) : row.period.apart window = true ∨ row.period.covers window = true := by
  cases away : row.period.apart window with
  | true => exact .inl rfl
  | false =>
    right
    simpa [AllowanceRow.cutBy, own, under, away] using uncut

private theorem crossedBy_fits (uncrossed : row.crossedBy item window = false) (own : row.item = item)
    (under : row.grantedUnder ≠ some window) (free : row.sourceKey ≠ ⟨item, window⟩) : row.period.apart window = true := by
  simpa [AllowanceRow.crossedBy, own, under, free] using uncrossed

private theorem adopt_apart {other : Bounds} (away : row.period.apart other = true) :
    (row.adopt item recorded window).period.apart other = true := by
  cases spans : row.spans item window with
  | false => rwa [adopt_left spans]
  | true =>
    rw [(adopt_adopted spans).1, Bounds.apart_comm]
    rw [Bounds.apart_comm] at away
    exact Bounds.apart_covered away (spans_inv spans).2

end Rows

section Windows
variable {rows : List AllowanceRow} {stored : StoredSubscription} {item : PlanItem} {now : Int} {window : Bounds}
  {next : List AllowanceRow × SubscriptionAllocationPeriodResult}

theorem Sound.adopt (sound : Sound rows) (splits : item.splits stored.period = true) (inside : stored.period.contains now = true)
    (ends : stored.period.endAt ≠ none) (current : planGrantWindowBounds stored.period item.reset now = window) :
    Sound (rows.map (AllowanceRow.adopt item stored.period window)) where
  ids := by
    rw [List.map_map, List.length_map, ← sound.ids]
    apply List.map_congr_left
    intro row _
    exact (adopt_kept _ _ _ row).id
  keyed := by
    have same : AllowanceRow.sourceKey ∘ AllowanceRow.adopt item stored.period window = AllowanceRow.sourceKey := by
      funext row
      exact (adopt_kept _ _ _ row).sourceKey
    rw [List.map_map, same]
    exact sound.keyed
  granted := by
    intro next member recorded granted
    obtain ⟨row, inRows, rfl⟩ := List.mem_map.mp member
    cases spans : row.spans item window with
    | false =>
      rw [adopt_left spans] at granted ⊢
      exact sound.granted row inRows recorded granted
    | true =>
      obtain ⟨period, under⟩ := @adopt_adopted _ _ stored.period _ spans
      rw [under] at granted
      cases granted
      unfold GrantedFor
      rw [(adopt_kept _ _ _ row).item, (spans_inv spans).1, if_pos splits]
      exact ⟨now, inside, ends, period.trans current.symm⟩
  open_ := by
    intro next member
    obtain ⟨row, inRows, rfl⟩ := List.mem_map.mp member
    cases spans : row.spans item window with
    | false =>
      rw [adopt_left spans]
      exact sound.open_ row inRows
    | true =>
      rw [(adopt_adopted spans).1]
      exact ⟨now, current ▸ planGrantWindow_contains inside fun endless => absurd endless ends⟩
  apart := by
    rw [List.pairwise_map]
    apply sound.apart.imp
    intro row other away same
    rw [(adopt_kept _ _ _ row).item, (adopt_kept _ _ _ other).item] at same
    have away := @adopt_apart row item stored.period window _ (away same)
    rw [Bounds.apart_comm] at away ⊢
    exact adopt_apart away

theorem Sound.grant (sound : Sound rows) {recorded : Bounds} {expiresAt : Option Int}
    (for_ : GrantedFor (newRow rows.length item recorded window expiresAt) recorded)
    (contains : window.contains now = true) (free : isTaken ⟨item, window⟩ rows = false)
    (away : ∀ row ∈ rows, row.item = item → row.period.apart window = true) :
    Sound (rows ++ [newRow rows.length item recorded window expiresAt]) where
  ids := by
    rw [List.map_append, sound.ids, List.length_append]
    exact List.range_succ.symm
  keyed := by
    rw [List.map_append, List.nodup_append]
    refine ⟨sound.keyed, by simp, ?_⟩
    intro key member other also
    obtain ⟨row, inRows, rfl⟩ := List.mem_map.mp member
    simp only [List.map_cons, List.map_nil, List.mem_singleton] at also
    intro same
    have taken : isTaken ⟨item, window⟩ rows = true :=
      List.any_eq_true.mpr ⟨row, inRows, beq_iff_eq.mpr (same.trans also)⟩
    rw [free] at taken
    cases taken
  granted := by
    intro row member under granted
    rcases List.mem_append.mp member with old | new
    · exact sound.granted row old under granted
    · obtain rfl := List.mem_singleton.mp new
      cases granted
      exact for_
  open_ := by
    intro row member
    rcases List.mem_append.mp member with old | new
    · exact sound.open_ row old
    · obtain rfl := List.mem_singleton.mp new
      exact ⟨now, contains⟩
  apart := by
    refine List.pairwise_append.mpr ⟨sound.apart, List.pairwise_singleton _ _, ?_⟩
    intro row inRows other member same
    obtain rfl := List.mem_singleton.mp member
    exact away row inRows same

/-- What a series of grants leaves: sound rows, among them every row there was, and others only for the recorded period. -/
structure Grants (recorded : Bounds) (rows others : List AllowanceRow) : Prop where
  sound : Sound others
  kept : ∀ row ∈ rows, ∃ kept ∈ others, Kept row kept
  fresh : ∀ row ∈ others, row ∈ rows ∨ row.grantedUnder = some recorded

theorem Grants.refl (sound : Sound rows) (recorded : Bounds) : Grants recorded rows rows :=
  ⟨sound, fun row member => ⟨row, member, .refl row⟩, fun _ member => .inl member⟩

theorem Grants.trans {recorded : Bounds} {middle : List AllowanceRow} (first : Grants recorded rows middle)
    (second : Grants recorded middle others) : Grants recorded rows others where
  sound := second.sound
  kept := by
    intro row member
    obtain ⟨next, inMiddle, kept⟩ := first.kept row member
    obtain ⟨last, inOthers, keptAlso⟩ := second.kept next inMiddle
    exact ⟨last, inOthers, kept.trans keptAlso⟩
  fresh := by
    intro row member
    rcases second.fresh row member with old | new
    · exact first.fresh row old
    · exact .inr new

private theorem adopted_apart (sound : Sound rows) (splits : item.splits stored.period = true)
    (inside : stored.period.contains now = true) (ends : stored.period.endAt ≠ none)
    (current : planGrantWindowBounds stored.period item.reset now = window) (uncut : rows.any (AllowanceRow.cutBy item stored.period window) = false)
    {row : AllowanceRow} (member : row ∈ rows) (own : row.item = item)
    (other : (row.adopt item stored.period window).period ≠ window) :
    (row.adopt item stored.period window).period.apart window = true := by
  cases spans : row.spans item window with
  | true => exact absurd (adopt_adopted spans).1 other
  | false =>
    rw [adopt_left spans] at other ⊢
    by_cases under : row.grantedUnder = some stored.period
    · have granted := sound.granted row member stored.period under
      unfold GrantedFor at granted
      rw [own, if_pos splits] at granted
      obtain ⟨time, insideAlso, -, period⟩ := granted
      have held : ∀ instant : Int, stored.period.endAt = none → instant < openEnd := fun _ endless => absurd endless ends
      subst current
      rcases @planGrantWindow_unique _ item.reset _ _ insideAlso (held time) inside (held now) with same | away
      · exact absurd (period.trans same) other
      · rw [period]
        exact away
    · rcases cutBy_fits (Bool.eq_false_iff.mpr (List.any_eq_false.mp uncut row member)) own under with away | covers
      · exact away
      · simp [AllowanceRow.spans, own, covers, other] at spans

private theorem grantWindow_grants (sound : Sound rows) (splits : item.splits stored.period = true)
    (inside : stored.period.contains now = true) (ends : stored.period.endAt ≠ none)
    (uncut : rows.any (AllowanceRow.cutBy item stored.period (planGrantWindowBounds stored.period item.reset now)) = false)
    (done : grantWindow stored now (rows, result) item = .ok next) : Grants stored.period rows next.1 := by
  unfold grantWindow at done
  dsimp only at done
  generalize current : planGrantWindowBounds stored.period item.reset now = window at done uncut
  split at done
  · cases done
  · have adopted := sound.adopt splits inside ends current
    have narrowed : Grants stored.period rows (rows.map (AllowanceRow.adopt item stored.period window)) := by
      refine ⟨adopted, ?_, ?_⟩
      · intro row member
        exact ⟨_, List.mem_map_of_mem member, adopt_kept _ _ _ row⟩
      · intro next member
        obtain ⟨row, inRows, rfl⟩ := List.mem_map.mp member
        cases spans : row.spans item window with
        | true => exact .inr (adopt_adopted spans).2
        | false => exact .inl (by rwa [adopt_left spans])
    split at done
    · cases done
      exact narrowed
    · next free =>
      cases done
      rw [not_or] at free
      obtain ⟨absent, untaken⟩ := free
      have away : ∀ row ∈ rows.map (AllowanceRow.adopt item stored.period window),
          row.item = item → row.period.apart window = true := by
        intro next member own
        obtain ⟨row, inRows, rfl⟩ := List.mem_map.mp member
        rw [(adopt_kept _ _ _ row).item] at own
        apply adopted_apart sound splits inside ends current uncut inRows own
        intro same
        apply absent
        refine List.any_eq_true.mpr ⟨_, member, ?_⟩
        simp [same, (adopt_kept _ _ _ row).item, own]
      have granted : Sound (rows.map (AllowanceRow.adopt item stored.period window) ++
          [newRow (rows.map (AllowanceRow.adopt item stored.period window)).length item stored.period window
            (windowExpiresAt item window)]) := by
        refine adopted.grant ?_ (current ▸ planGrantWindow_contains inside fun endless => absurd endless ends)
          (Bool.eq_false_iff.mpr untaken) away
        unfold GrantedFor
        exact (if_pos splits).mpr ⟨now, inside, ends, current.symm⟩
      rw [List.length_map] at granted
      refine narrowed.trans ⟨granted, ?_, ?_⟩
      · intro row member
        exact ⟨row, List.mem_append_left _ member, .refl row⟩
      · intro row member
        rcases List.mem_append.mp member with old | new
        · exact .inl old
        · obtain rfl := List.mem_singleton.mp new
          exact .inr rfl

theorem Grants.uncut (grants : Grants stored.period rows others)
    (uncut : rows.any (AllowanceRow.cutBy item stored.period window) = false) :
    others.any (AllowanceRow.cutBy item stored.period window) = false := by
  apply List.any_eq_false.mpr
  intro row member
  rcases grants.fresh row member with old | new
  · exact List.any_eq_false.mp uncut row old
  · simp [AllowanceRow.cutBy, new]

private theorem grantWindows_grants (splits : ∀ item ∈ items, item.splits stored.period = true)
    (inside : stored.period.contains now = true) (ends : stored.period.endAt ≠ none) (sound : Sound rows)
    (uncut : ∀ item ∈ items, rows.any (AllowanceRow.cutBy item stored.period
      (planGrantWindowBounds stored.period item.reset now)) = false)
    (done : items.foldlM (grantWindow stored now) (rows, result) = .ok next) : Grants stored.period rows next.1 := by
  induction items generalizing rows result with
  | nil =>
    cases done
    exact .refl sound _
  | cons item rest ih =>
    rw [List.foldlM_cons] at done
    obtain ⟨⟨middle, counted⟩, first, later⟩ := bind_ok done
    have granted := grantWindow_grants sound (splits item (by simp)) inside ends (uncut item (by simp)) first
    refine granted.trans (ih (fun other member => splits other (by simp [member])) granted.sound ?_ later)
    intro other member
    exact granted.uncut (uncut other (by simp [member]))

end Windows

section Steps
variable {allowances next : Allowances} {now : Int} {rows : List AllowanceRow}

private theorem active_inside {stored : StoredSubscription} (active : stored.active now = true) :
    stored.period.contains now = true ∧ stored.period.endAt ≠ none := by
  unfold StoredSubscription.active at active
  simp only [Bool.and_eq_true, decide_eq_true_eq, Option.any_eq_true_iff_get] at active
  obtain ⟨⟨⟨-, begun⟩, ends, unfinished⟩, -⟩ := active
  refine ⟨contains_iff.mpr ⟨begun, ?_⟩, Option.isSome_iff_ne_none.mp ends⟩
  intro ending same
  obtain rfl : stored.period.endAt.get ends = ending := Option.some.inj ((Option.some_get ends).trans same)
  exact unfinished

private theorem materialize_grants (sound : Sound allowances.rows)
    (uncut : cutsWindows allowances.stored now allowances.rows = false) {result : SubscriptionAllocationPeriodResult}
    (done : materializeSubscriptionResetAllocations now allowances = .ok (next, result)) :
    next.stored = allowances.stored ∧ Grants allowances.stored.period allowances.rows next.rows := by
  unfold materializeSubscriptionResetAllocations at done
  split at done
  · next active =>
    obtain ⟨granted, folded, rest⟩ := bind_ok done
    cases rest
    obtain ⟨inside, ends⟩ := active_inside active
    refine ⟨rfl, grantWindows_grants ?_ inside ends sound ?_ folded⟩
    · intro item member
      exact (List.mem_filter.mp member).2
    · intro item member
      unfold cutsWindows at uncut
      rw [active, Bool.true_and] at uncut
      exact Bool.eq_false_iff.mpr (List.any_eq_false.mp uncut item member)
  · cases done
    exact ⟨rfl, .refl sound _⟩

theorem Sound.map (sound : Sound rows) {write : AllowanceRow → AllowanceRow}
    (id : ∀ row, (write row).id = row.id) (item : ∀ row, (write row).item = row.item)
    (key : ∀ row, (write row).sourceKey = row.sourceKey) (period : ∀ row, (write row).period = row.period)
    (under : ∀ row, (write row).grantedUnder = row.grantedUnder) : Sound (rows.map write) where
  ids := by
    rw [List.map_map, List.length_map, ← sound.ids]
    exact List.map_congr_left fun row _ => id row
  keyed := by
    rw [List.map_map, show AllowanceRow.sourceKey ∘ write = AllowanceRow.sourceKey from funext key]
    exact sound.keyed
  granted := by
    intro next member recorded granted
    obtain ⟨row, inRows, rfl⟩ := List.mem_map.mp member
    rw [under] at granted
    have for_ := sound.granted row inRows recorded granted
    unfold GrantedFor at for_ ⊢
    rwa [item, period, key]
  open_ := by
    intro next member
    obtain ⟨row, inRows, rfl⟩ := List.mem_map.mp member
    rw [period]
    exact sound.open_ row inRows
  apart := by
    rw [List.pairwise_map]
    apply sound.apart.imp
    intro row other away same
    rw [item, item] at same
    rw [period, period]
    exact away same

private theorem grantPeriod_grants {item : PlanItem} (sound : Sound rows)
    (uncrossed : item.splits period = false → rows.any (AllowanceRow.crossedBy item period) = false)
    (done : grantPeriod period now rows item = .ok others) : Grants period rows others := by
  unfold grantPeriod at done
  split at done
  · cases done
    exact .refl sound _
  · next whole =>
    split at done
    · cases done
      exact .refl sound _
    · split at done
      · cases done
        exact .refl sound _
      · next untaken =>
        split at done
        · cases done
        · next long =>
          cases done
          have whole := Bool.eq_false_iff.mpr whole
          have begins : period.contains period.startAt = true := by
            refine contains_iff.mpr ⟨le_refl _, ?_⟩
            intro ending same
            simpa [same] using long
          refine ⟨sound.grant ?_ begins (Bool.eq_false_iff.mpr untaken) ?_, ?_, ?_⟩
          · unfold GrantedFor
            exact (if_neg (by simpa [newRow] using whole)).mpr ⟨rfl, rfl⟩
          · intro row member own
            have free : row.sourceKey ≠ ⟨item, period⟩ := fun same =>
              untaken (List.any_eq_true.mpr ⟨row, member, beq_iff_eq.mpr same⟩)
            by_cases under : row.grantedUnder = some period
            · have granted := sound.granted row member period under
              unfold GrantedFor at granted
              rw [own, if_neg (by simp [whole])] at granted
              exact absurd granted.2 free
            · have fits := Bool.eq_false_iff.mpr (List.any_eq_false.mp (uncrossed whole) row member)
              exact crossedBy_fits fits own under free
          · intro row member
            exact ⟨row, List.mem_append_left _ member, .refl row⟩
          · intro row member
            rcases List.mem_append.mp member with old | new
            · exact .inl old
            · obtain rfl := List.mem_singleton.mp new
              exact .inr rfl

private theorem grantPeriods_grants (sound : Sound rows) (uncrossed : crossesPeriods items period rows = false)
    (done : items.foldlM (grantPeriod period now) rows = .ok others) : Grants period rows others := by
  unfold crossesPeriods at uncrossed
  rw [List.any_eq_false] at uncrossed
  induction items generalizing rows with
  | nil =>
    cases done
    exact .refl sound _
  | cons item rest ih =>
    rw [List.foldlM_cons] at done
    obtain ⟨middle, first, later⟩ := bind_ok done
    have granted : Grants period rows middle := by
      refine grantPeriod_grants sound ?_ first
      intro whole
      simpa [whole] using uncrossed item (by simp)
    refine granted.trans (ih granted.sound ?_ later)
    intro other member
    cases whole : other.splits period with
    | true => simp
    | false =>
      have before := uncrossed other (by simp [member])
      simp only [whole, Bool.not_false, Bool.true_and, Bool.not_eq_true, List.any_eq_false] at before ⊢
      intro row inMiddle
      rcases granted.fresh row inMiddle with old | new
      · exact before row old
      · simp [AllowanceRow.crossedBy, new]

private theorem sync_grants {input : PeriodSync} {granted : Nat} (sound : Sound allowances.rows)
    (uncut : Uncut allowances (.sync input)) (done : syncAllowances input allowances = .ok (next, granted)) :
    Sound next.rows := by
  unfold syncAllowances at done
  split at done
  · split at done
    · cases done
      exact sound.map (fun _ => rfl) (fun _ => rfl) (fun _ => rfl) (fun _ => rfl) (fun _ => rfl)
    · cases done
      exact sound
  · next funds =>
    split at done
    · cases done
    · obtain ⟨rows, whole, rest⟩ := bind_ok done
      obtain ⟨⟨last, result⟩, windows, rest⟩ := bind_ok rest
      cases rest
      obtain ⟨uncrossed, fits⟩ := uncut (by simpa using funds)
      have periods := grantPeriods_grants sound uncrossed whole
      exact (@materialize_grants ⟨input.stored, rows⟩ _ _ periods.sound (fits rows whole) _ windows).2.sound

private theorem maintain_grants (sound : Sound allowances.rows)
    (uncut : Uncut allowances (.maintain now)) (done : materializeDueSubscriptionAllocations now allowances = .ok (next, result)) :
    Sound next.rows := by
  unfold materializeDueSubscriptionAllocations at done
  split at done
  · next due => exact (materialize_grants sound (uncut due) done).2.sound
  · cases done
    exact sound

end Steps

section Keeps
variable {allowances next : Allowances} {now : Int} {rows : List AllowanceRow}
  {granted : List AllowanceRow × SubscriptionAllocationPeriodResult} {stored : StoredSubscription}

private theorem grantWindow_keeps {item : PlanItem}
    (done : grantWindow stored now (rows, result) item = .ok granted) : ∀ row ∈ rows, ∃ kept ∈ granted.1, Kept row kept := by
  unfold grantWindow at done
  dsimp only at done
  intro row member
  have narrowed := List.mem_map_of_mem
    (f := AllowanceRow.adopt item stored.period (planGrantWindowBounds stored.period item.reset now)) member
  split at done
  · cases done
  · split at done
    · cases done
      exact ⟨_, narrowed, adopt_kept _ _ _ row⟩
    · cases done
      exact ⟨_, List.mem_append_left _ narrowed, adopt_kept _ _ _ row⟩

private theorem grantWindows_keeps (done : items.foldlM (grantWindow stored now) (rows, result) = .ok granted) :
    ∀ row ∈ rows, ∃ kept ∈ granted.1, Kept row kept := by
  induction items generalizing rows result with
  | nil =>
    cases done
    exact fun row member => ⟨row, member, .refl row⟩
  | cons item rest ih =>
    rw [List.foldlM_cons] at done
    obtain ⟨⟨middle, counted⟩, first, later⟩ := bind_ok done
    intro row member
    obtain ⟨kept, inMiddle, same⟩ := grantWindow_keeps first row member
    obtain ⟨last, inLast, sameAlso⟩ := ih later kept inMiddle
    exact ⟨last, inLast, same.trans sameAlso⟩

theorem materialize_keeps (done : materializeSubscriptionResetAllocations now allowances = .ok (next, result)) :
    ∀ row ∈ allowances.rows, ∃ kept ∈ next.rows, Kept row kept := by
  unfold materializeSubscriptionResetAllocations at done
  split at done
  · obtain ⟨granted, folded, rest⟩ := bind_ok done
    cases rest
    exact grantWindows_keeps folded
  · cases done
    exact fun row member => ⟨row, member, .refl row⟩

private theorem maintain_keeps (done : materializeDueSubscriptionAllocations now allowances = .ok (next, result)) :
    ∀ row ∈ allowances.rows, ∃ kept ∈ next.rows, Kept row kept := by
  unfold materializeDueSubscriptionAllocations at done
  split at done
  · exact materialize_keeps done
  · cases done
    exact fun row member => ⟨row, member, .refl row⟩

private theorem grantPeriod_keeps {item : PlanItem} (done : grantPeriod period now rows item = .ok others) : ∀ row ∈ rows, row ∈ others := by
  unfold grantPeriod at done
  intro row member
  split at done
  · cases done
    exact member
  · split at done
    · cases done
      exact member
    · split at done
      · cases done
        exact member
      · split at done
        · cases done
        · cases done
          exact List.mem_append_left _ member

private theorem grantPeriods_keeps (done : items.foldlM (grantPeriod period now) rows = .ok others) : ∀ row ∈ rows, row ∈ others := by
  induction items generalizing rows with
  | nil =>
    cases done
    exact fun _ member => member
  | cons item rest ih =>
    rw [List.foldlM_cons] at done
    obtain ⟨middle, first, later⟩ := bind_ok done
    exact fun row member => ih later row (grantPeriod_keeps first row member)

private theorem sync_keeps {input : PeriodSync} {granted : Nat} (done : syncAllowances input allowances = .ok (next, granted)) :
    ∀ row ∈ allowances.rows, ∃ kept ∈ next.rows, Kept row kept := by
  unfold syncAllowances at done
  split at done
  · split at done
    · cases done
      intro row member
      exact ⟨_, List.mem_map_of_mem member, rfl, rfl, rfl, rfl, rfl, rfl, rfl, .inl rfl,
        fun expiry same => ⟨expiry, same, le_refl expiry⟩⟩
    · cases done
      exact fun row member => ⟨row, member, .refl row⟩
  · split at done
    · cases done
    · obtain ⟨rows, whole, rest⟩ := bind_ok done
      obtain ⟨⟨last, result⟩, windows, rest⟩ := bind_ok rest
      cases rest
      intro row member
      exact materialize_keeps windows row (grantPeriods_keeps whole row member)

end Keeps

section Runs
variable {allowances next : Allowances}

theorem Sound.step (sound : Sound allowances.rows) {step : AllowanceStep} (uncut : Uncut allowances step)
    (done : step.apply allowances = .ok next) : Sound next.rows := by
  cases step with
  | sync input =>
    obtain ⟨⟨last, granted⟩, synced, rfl⟩ := map_ok done
    exact sync_grants sound uncut synced
  | maintain now =>
    obtain ⟨⟨last, result⟩, maintained, rfl⟩ := map_ok done
    exact maintain_grants sound uncut maintained
  | write id values =>
    cases done
    unfold updateAt
    apply sound.map <;> intro row <;> split <;> rfl

theorem reaches_sound (reached : AllowancesReach Uncut allowances) : Sound allowances.rows := by
  induction reached with
  | opened ids keyed old open_ apart =>
    refine ⟨ids, keyed, ?_, open_, apart⟩
    intro row member recorded granted
    rw [old row member] at granted
    cases granted
  | step _ uncut done sound => exact sound.step uncut done

theorem Sound.once {rows : List AllowanceRow} (sound : Sound rows) :
    (rows.map fun row => (row.item, row.period)).Nodup := by
  unfold List.Nodup
  rw [List.pairwise_map]
  apply sound.apart.imp_of_mem
  intro row other member _ away same
  obtain ⟨time, inside⟩ := sound.open_ row member
  have overlap := Bounds.not_apart inside inside
  have separate := away (congrArg Prod.fst same)
  rw [← show row.period = other.period from congrArg Prod.snd same, overlap] at separate
  cases separate

/-- In every run of syncs, maintenance runs and writes whose grants cut into no row that was granted under other bounds,
every reset window is granted once, and nothing consumed from it comes back. -/
theorem windows_granted_once (reached : AllowancesReach Uncut allowances) : GrantedOnce allowances := by
  have sound := reaches_sound reached
  refine ⟨sound.keyed, sound.once, sound.apart, ?_, ?_⟩
  · intro input next granted done
    exact sync_keeps done
  · intro now next result done
    exact maintain_keeps done

end Runs

section Example

def monthlyItem : PlanItem := ⟨1, 100, ⟨.month, 1, Nat.one_pos⟩, .never, false, false, some ⟨.year, 1, Nat.one_pos⟩⟩

def recordedTo (lastDay : Int) : StoredSubscription :=
  ⟨.active, 0, none, some 0, some (lastDay * dayMs), none, [monthlyItem]⟩

def syncOn (day lastDay : Int) : AllowanceStep :=
  .sync ⟨recordedTo lastDay, (recordedTo lastDay).period, day * dayMs⟩

def rowTo (id : Nat) (firstDay lastDay : Int) (recorded : Bounds) : AllowanceRow :=
  newRow id monthlyItem recorded ⟨firstDay * dayMs, some (lastDay * dayMs)⟩ (some (lastDay * dayMs))

/-- A trial of two weeks that is extended by one: the running window was granted up to the old end, and is granted again up
to the new one. -/
theorem extended_window_granted_twice : ∃ allowances, AllowancesReach (fun _ _ => True) allowances ∧ ¬ GrantedOnce allowances := by
  have opened : AllowancesReach (fun _ _ => True) ⟨recordedTo 14, []⟩ :=
    .opened rfl .nil (fun _ member => absurd member List.not_mem_nil) (fun _ member => absurd member List.not_mem_nil) .nil
  have granted : AllowancesReach (fun _ _ => True) ⟨recordedTo 14, [rowTo 0 0 14 (recordedTo 14).period]⟩ :=
    @AllowancesReach.step _ _ _ (syncOn 1 14) opened trivial (by decide)
  have again : AllowancesReach (fun _ _ => True)
      ⟨recordedTo 21, [rowTo 0 0 14 (recordedTo 14).period, rowTo 1 0 21 (recordedTo 21).period]⟩ :=
    @AllowancesReach.step _ _ _ (syncOn 8 21) granted trivial (by decide)
  refine ⟨_, again, ?_⟩
  intro once
  exact absurd once.apart (by decide)

/-- A window of a year that a sync grants in January and a maintenance run in February. -/
theorem windows_granted_once_january :
    GrantedOnce ⟨recordedTo 365, [rowTo 0 0 31 (recordedTo 365).period, rowTo 1 31 59 (recordedTo 365).period]⟩ := by
  have opened : AllowancesReach Uncut ⟨recordedTo 365, []⟩ :=
    .opened rfl .nil (fun _ member => absurd member List.not_mem_nil) (fun _ member => absurd member List.not_mem_nil) .nil
  have january : AllowancesReach Uncut ⟨recordedTo 365, [rowTo 0 0 31 (recordedTo 365).period]⟩ := by
    refine @AllowancesReach.step _ _ _ (syncOn 1 365) opened ?_ (by decide)
    intro _
    refine ⟨by decide, ?_⟩
    intro rows granted
    cases granted
    decide
  apply windows_granted_once
  refine @AllowancesReach.step _ _ _ (.maintain (40 * dayMs)) january ?_ (by decide)
  intro _
  decide

end Example

end Quotum.ResetAllocations
