import Quotum.KeptLevels
import Quotum.General.Outcomes

/-! Shrinking a group of allowances that hold one level: the group gives back what it grants above
its item's quantity, or above its floors while they are higher. -/

namespace Quotum.KeptLevels
open General

variable {row : Allocation}

structure LevelKey where
  subscription : Nat
  planItem : Nat
  feature : Nat
  entity : Option Nat

def LevelKey.matches (key : LevelKey) (row : Allocation) : Bool :=
  row.subscription == some key.subscription && row.planItem == some key.planItem && row.feature == key.feature &&
    row.entity == key.entity

def keptGroup (catalog : Catalog) (now : Time) (key : LevelKey) (rows : List Allocation) : List Allocation :=
  rows.filter fun row => isMember catalog now row && key.matches row

/-- What a group grants once reversals are taken off. -/
def netGranted (group : List Allocation) : Int :=
  (group.map Allocation.net).sum

/-- No quantity of the group is reversed, or its level is at least the item's quantity. -/
def Steady (item : PlanItem) (group : List Allocation) : Prop :=
  (group.map Allocation.reversedQuantity).sum = 0 ∨ item.quantity ≤ groupLevel group

/-- No row that holds nothing lies wholly in the room the group has to give back. -/
def SparesRows (item : PlanItem) (group : List Allocation) : Prop :=
  ∀ row ∈ group, 0 < floor row ∨ excess item group < roomBefore room shrinkOrder group row + room row

section Group
variable {catalog : Catalog} {now : Time} {key : LevelKey} {rows : List Allocation}

theorem mem_group :
    row ∈ keptGroup catalog now key rows ↔ row ∈ rows ∧ isMember catalog now row = true ∧ key.matches row = true := by
  simp [keptGroup, List.mem_filter]

theorem sameLevel_comm (row other : Allocation) : sameLevel row other = sameLevel other row := by
  rw [Bool.eq_iff_iff]
  simp only [sameLevel, Bool.and_eq_true, beq_iff_eq]
  constructor
  · rintro ⟨⟨⟨first, second⟩, third⟩, fourth⟩
    exact ⟨⟨⟨first.symm, second.symm⟩, third.symm⟩, fourth.symm⟩
  · rintro ⟨⟨⟨first, second⟩, third⟩, fourth⟩
    exact ⟨⟨⟨first.symm, second.symm⟩, third.symm⟩, fourth.symm⟩

theorem matches_same {other : Allocation} (matched : key.matches row = true) :
    sameLevel row other = key.matches other := by
  simp only [LevelKey.matches, Bool.and_eq_true, beq_iff_eq] at matched
  obtain ⟨⟨⟨subscription, planItem⟩, feature⟩, entity⟩ := matched
  rw [sameLevel_comm, sameLevel, subscription, planItem, feature, entity]
  rfl

private theorem members_group {row : Allocation} (matched : key.matches row = true) :
    members catalog now rows row = keptGroup catalog now key rows := by
  unfold members keptGroup
  congr 1
  funext other
  rw [matches_same matched]

theorem group_item {item : PlanItem}
    (found : catalog.items.find? (fun other => some other.id == some key.planItem) = some item)
    (member : row ∈ keptGroup catalog now key rows) : catalog.item row = some item := by
  obtain ⟨-, -, matched⟩ := mem_group.mp member
  simp only [LevelKey.matches, Bool.and_eq_true, beq_iff_eq] at matched
  rw [Catalog.item, matched.1.1.2, found]

end Group

theorem isOpen_earlier {now later : Time} (order : now ≤ later) (isOpen : row.isOpen later = true) :
    row.isOpen now = true := by
  simp only [Allocation.isOpen, Bool.and_eq_true] at isOpen ⊢
  refine ⟨isOpen.1, ?_⟩
  cases expiry : row.expiresAt with
  | none => rfl
  | some instant =>
    have after := isOpen.2
    rw [expiry] at after
    simp only [Option.all_some, decide_eq_true_eq] at after ⊢
    exact Nat.lt_of_le_of_lt order after

private theorem net_sum (group : List Allocation) :
    netGranted group = (group.map Allocation.quantity).sum - (group.map Allocation.reversedQuantity).sum := by
  induction group with
  | nil => rfl
  | cons row rest ih =>
    simp only [netGranted, List.map_cons, List.sum_cons, Allocation.net] at ih ⊢
    rw [ih]
    push_cast
    ring

theorem floor_sum (group : List Allocation) :
    (group.map floor).sum = groupLevel group + (group.map Allocation.reversedQuantity).sum := by
  induction group with
  | nil => rfl
  | cons row rest ih =>
    simp only [groupLevel, List.map_cons, List.sum_cons, floor] at ih ⊢
    omega

private theorem room_sum (group : List Allocation) :
    (group.map room).sum = (group.map Allocation.quantity).sum - (group.map floor).sum := by
  induction group with
  | nil => rfl
  | cons row rest ih =>
    simp only [List.map_cons, List.sum_cons, room] at ih ⊢
    rw [ih]
    push_cast
    ring

/-- A group whose rows grant what they hold, and which no renewal stacked. -/
structure Held (catalog : Catalog) (now : Time) (key : LevelKey) (item : PlanItem) (rows : List Allocation) : Prop where
  found : catalog.items.find? (fun other => some other.id == some key.planItem) = some item
  unique : (rows.map Allocation.id).Nodup
  settled : ∀ row ∈ keptGroup catalog now key rows, stacked catalog row = false
  holds : ∀ row ∈ keptGroup catalog now key rows, floor row ≤ row.quantity ∧ 0 < row.quantity

section Shrink
variable {catalog : Catalog} {now : Time} {key : LevelKey} {item : PlanItem} {rows : List Allocation}
  (held : Held catalog now key item rows)
include held

private theorem room_nonnegative : ∀ row ∈ keptGroup catalog now key rows, 0 ≤ room row := by
  intro row member
  have fits := (held.holds row member).1
  simp only [room]
  omega

private theorem order_distinct : ((keptGroup catalog now key rows).map shrinkOrder).Nodup := by
  have ids : ((keptGroup catalog now key rows).map Allocation.id).Nodup :=
    (List.filter_sublist.map _).nodup held.unique
  refine List.Nodup.of_map (fun key => (ofLex key).2) ?_
  rw [List.map_map]
  exact ids

def taken (item : PlanItem) (group : List Allocation) (row : Allocation) : Int :=
  windowTaken room shrinkOrder (excess item group) group row

theorem before_nonnegative (row : Allocation) :
    0 ≤ roomBefore room shrinkOrder (keptGroup catalog now key rows) row := by
  apply List.sum_nonneg
  intro value member
  obtain ⟨other, inside, rfl⟩ := List.mem_map.mp member
  exact room_nonnegative held other (List.mem_filter.mp inside).1

private theorem taken_bounds {row : Allocation} (member : row ∈ keptGroup catalog now key rows) :
    0 ≤ taken item (keptGroup catalog now key rows) row ∧ taken item (keptGroup catalog now key rows) row ≤ room row := by
  have positive := room_nonnegative held row member
  unfold taken windowTaken
  omega

theorem shrinkTaken_group (member : row ∈ keptGroup catalog now key rows) :
    shrinkTaken catalog now rows row = taken item (keptGroup catalog now key rows) row := by
  have matched := (mem_group.mp member).2.2
  have loose : (keptGroup catalog now key rows).any (stacked catalog) = false := by
    simpa using held.settled
  simp only [shrinkTaken, group_item held.found member, members_group matched, loose, Bool.false_eq_true,
    not_false_eq_true, or_true, and_true]
  split
  · rfl
  · next covered =>
    have positive := room_nonnegative held row member
    have before := before_nonnegative held row
    unfold taken windowTaken
    omega

theorem shrinkRow_group {ids : List AllocationId}
    (member : row ∈ keptGroup catalog now key rows) (reached : touched ids rows row = true)
    (spared : SparesRows item (keptGroup catalog now key rows)) :
    shrinkRow catalog now ids rows row =
      .ok { row with quantity := (row.quantity - taken item (keptGroup catalog now key rows) row).toNat } := by
  obtain ⟨-, isMember, -⟩ := mem_group.mp member
  obtain ⟨fits, positive⟩ := held.holds row member
  obtain ⟨nonnegative, below⟩ := taken_bounds held member
  have left : 0 < (row.quantity - taken item (keptGroup catalog now key rows) row).toNat := by
    rcases spared row member with holds | outside
    · simp only [room] at below
      omega
    · have given : taken item (keptGroup catalog now key rows) row < max 1 (room row) := by
        unfold taken windowTaken
        omega
      simp only [room] at given
      omega
  simp only [shrinkRow, shrinkTaken_group held member, isMember, reached, true_and]
  split
  · have checked : ({ row with
        quantity := (row.quantity - taken item (keptGroup catalog now key rows) row).toNat } : Allocation).checked = true := by
      simp only [room, floor, Allocation.level] at below
      simp only [Allocation.checked, Bool.and_eq_true, decide_eq_true_eq]
      refine ⟨⟨left, ?_⟩, ?_⟩ <;> omega
    rw [if_pos checked]
  · next none =>
    have zero : taken item (keptGroup catalog now key rows) row = 0 := by omega
    simp [zero]

private theorem taken_sum (covered : 0 ≤ excess item (keptGroup catalog now key rows)) :
    ((keptGroup catalog now key rows).map (taken item (keptGroup catalog now key rows))).sum =
      excess item (keptGroup catalog now key rows) := by
  have given := windowTaken_sum covered (order_distinct held) (room_nonnegative held)
  rw [room_sum] at given
  have enough : excess item (keptGroup catalog now key rows) ≤
      ((keptGroup catalog now key rows).map Allocation.quantity).sum - ((keptGroup catalog now key rows).map floor).sum := by
    unfold excess
    omega
  unfold taken
  rw [given]
  omega

end Shrink

/-- The group grants its item's quantity, or its level while that is higher, besides what is reversed. -/
def Granted (item : PlanItem) (group : List Allocation) : Prop :=
  (group.map Allocation.quantity).sum =
    max item.quantity (groupLevel group) + (group.map Allocation.reversedQuantity).sum

theorem granted_net {item : PlanItem} {group : List Allocation} (granted : Granted item group) :
    netGranted group = max (item.quantity : Int) (groupLevel group) := by
  rw [net_sum, granted]
  push_cast
  omega

/-- A step that lowers what is consumed or held on some rows, a release, an expiry, a confirmation or a
correction, with the ids of the rows it touched. -/
structure Lowering (rows : List Allocation) (lower : Allocation → Allocation) (ids : List AllocationId) : Prop where
  levels : ∀ row, ∃ consumed held, lower row = { row with consumedQuantity := consumed, heldQuantity := held } ∧
    consumed + held ≤ row.level
  touched : ∀ row ∈ rows, row.id ∉ ids → lower row = row

def Own (catalog : Catalog) (now : Time) (key : LevelKey) (rows : List Allocation) (ids : List AllocationId) : Prop :=
  ∀ row ∈ rows, row.id ∈ ids → row ∈ keptGroup catalog now key rows

private theorem group_map {catalog : Catalog} {now : Time} {key : LevelKey} {rows : List Allocation}
    {f : Allocation → Allocation}
    (same : ∀ row, isMember catalog now (f row) = isMember catalog now row ∧ key.matches (f row) = key.matches row) :
    keptGroup catalog now key (rows.map f) = (keptGroup catalog now key rows).map f := by
  unfold keptGroup
  rw [List.filter_map]
  congr 1
  apply List.filter_congr
  intro row _
  simp [(same row).1, (same row).2]

section Lower
variable {catalog : Catalog} {now : Time} {key : LevelKey} {item : PlanItem} {rows : List Allocation}
  {lower : Allocation → Allocation} {ids : List AllocationId} (lowering : Lowering rows lower ids)
include lowering

theorem lower_group : keptGroup catalog now key (rows.map lower) = (keptGroup catalog now key rows).map lower := by
  apply group_map
  intro row
  obtain ⟨consumed, held, same, -⟩ := lowering.levels row
  rw [same]
  exact ⟨rfl, rfl⟩

theorem lower_fields (row : Allocation) : (lower row).id = row.id ∧ (lower row).quantity = row.quantity ∧
    (lower row).reversedQuantity = row.reversedQuantity ∧ (lower row).level ≤ row.level ∧
    stacked catalog (lower row) = stacked catalog row := by
  obtain ⟨consumed, held, same, below⟩ := lowering.levels row
  rw [same]
  exact ⟨rfl, rfl, rfl, below, rfl⟩

theorem lower_held (held : Held catalog now key item rows) : Held catalog now key item (rows.map lower) := by
  refine ⟨held.found, ?_, ?_, ?_⟩
  · rw [List.map_map]
    have ids : Allocation.id ∘ lower = Allocation.id := funext fun row => (@lower_fields catalog _ _ _ lowering row).1
    rw [ids]
    exact held.unique
  · intro row member
    rw [lower_group lowering] at member
    obtain ⟨old, inside, rfl⟩ := List.mem_map.mp member
    rw [(lower_fields lowering old).2.2.2.2]
    exact held.settled old inside
  · intro row member
    rw [lower_group lowering] at member
    obtain ⟨old, inside, rfl⟩ := List.mem_map.mp member
    obtain ⟨-, quantity, reversed, level, -⟩ := @lower_fields catalog _ _ _ lowering old
    obtain ⟨fits, positive⟩ := held.holds old inside
    simp only [floor] at fits ⊢
    omega

private theorem lower_sums :
    ((keptGroup catalog now key (rows.map lower)).map Allocation.quantity).sum =
      ((keptGroup catalog now key rows).map Allocation.quantity).sum ∧
    ((keptGroup catalog now key (rows.map lower)).map Allocation.reversedQuantity).sum =
      ((keptGroup catalog now key rows).map Allocation.reversedQuantity).sum ∧
    groupLevel (keptGroup catalog now key (rows.map lower)) ≤ groupLevel (keptGroup catalog now key rows) := by
  rw [lower_group lowering, List.map_map, List.map_map, groupLevel, groupLevel, List.map_map]
  have fields := @lower_fields catalog _ _ _ lowering
  refine ⟨?_, ?_, ?_⟩
  · exact congrArg List.sum (List.map_congr_left fun row _ => (fields row).2.1)
  · exact congrArg List.sum (List.map_congr_left fun row _ => (fields row).2.2.1)
  · exact List.sum_le_sum fun row _ => (fields row).2.2.2.1

/-- What a lowered group grants above its item and its floors is not negative, and giving it back
restores the grant. -/
theorem lower_excess (granted : Granted item (keptGroup catalog now key rows))
    (steady : Steady item (keptGroup catalog now key (rows.map lower))) :
    0 ≤ excess item (keptGroup catalog now key (rows.map lower)) ∧
      ((keptGroup catalog now key (rows.map lower)).map Allocation.quantity).sum -
          excess item (keptGroup catalog now key (rows.map lower)) =
        max (item.quantity : Int) (groupLevel (keptGroup catalog now key (rows.map lower))) +
          ((keptGroup catalog now key (rows.map lower)).map Allocation.reversedQuantity).sum := by
  obtain ⟨quantity, reversed, level⟩ := @lower_sums catalog now key _ _ _ lowering
  simp only [Granted] at granted
  simp only [Steady] at steady
  unfold excess
  rw [floor_sum, quantity, granted]
  rw [reversed] at steady ⊢
  generalize ((keptGroup catalog now key rows).map Allocation.reversedQuantity).sum = reversals at steady ⊢
  generalize groupLevel (keptGroup catalog now key rows) = before at level ⊢
  generalize groupLevel (keptGroup catalog now key (rows.map lower)) = after at level steady ⊢
  omega

end Lower

def shrunk (catalog : Catalog) (now : Time) (ids : List AllocationId) (rows : List Allocation)
    (row : Allocation) : Allocation :=
  if isMember catalog now row ∧ touched ids rows row ∧ shrinkTaken catalog now rows row > 0 then
    { row with quantity := (row.quantity - shrinkTaken catalog now rows row).toNat }
  else row

private theorem shrinkRow_inv {catalog : Catalog} {now : Time} {ids : List AllocationId} {rows : List Allocation}
    (row result : Allocation) (succeeded : shrinkRow catalog now ids rows row = .ok result) :
    result = shrunk catalog now ids rows row := by
  simp only [shrinkRow] at succeeded
  unfold shrunk
  split at succeeded
  · next shrinks =>
    rw [if_pos shrinks]
    split at succeeded
    · cases succeeded
      rfl
    · cases succeeded
  · next keeps =>
    rw [if_neg keeps]
    cases succeeded
    rfl

theorem shrink_inv {catalog : Catalog} {now : Time} {ids : List AllocationId} {rows result : List Allocation}
    (succeeded : shrinkKeptLevels catalog now ids rows = .ok result) :
    result = rows.map (shrunk catalog now ids rows) := by
  unfold shrinkKeptLevels at succeeded
  split at succeeded
  · next none =>
    cases succeeded
    subst none
    have same : shrunk catalog now [] rows = id := by
      funext row
      simp [shrunk, touched]
    rw [same, List.map_id]
  · exact mapM_ok_map shrinkRow_inv succeeded

theorem shrunk_same {catalog : Catalog} {now : Time} {ids : List AllocationId} {rows : List Allocation}
    (row : Allocation) : ∃ quantity, shrunk catalog now ids rows row = { row with quantity := quantity } := by
  unfold shrunk
  split
  · exact ⟨_, rfl⟩
  · exact ⟨_, rfl⟩

def Reached (key : LevelKey) (rows : List Allocation) (ids : List AllocationId) : Prop :=
  ∃ row ∈ rows, row.id ∈ ids ∧ row.sourceKind = .subscription ∧ key.matches row = true

section Step
variable {catalog : Catalog} {now : Time} {key : LevelKey} {item : PlanItem} {rows : List Allocation}
  {ids : List AllocationId}

private theorem touched_reached (matched : key.matches row = true) :
    touched ids rows row = true ↔ Reached key rows ids := by
  simp only [touched, Reached, List.any_eq_true, Bool.and_eq_true, beq_iff_eq, List.contains_iff_mem,
    matches_same matched]
  constructor
  · rintro ⟨other, member, ⟨named, source⟩, same⟩
    exact ⟨other, member, named, source, same⟩
  · rintro ⟨other, member, named, source, same⟩
    exact ⟨other, member, ⟨named, source⟩, same⟩

private theorem shrunk_group (held : Held catalog now key item rows)
    (reached : Reached key rows ids) (member : row ∈ keptGroup catalog now key rows) :
    shrunk catalog now ids rows row =
      { row with quantity := (row.quantity - taken item (keptGroup catalog now key rows) row).toNat } := by
  obtain ⟨-, isMember, matched⟩ := mem_group.mp member
  obtain ⟨nonnegative, -⟩ := taken_bounds held member
  unfold shrunk
  rw [shrinkTaken_group held member]
  split
  · rfl
  · next keeps =>
    have zero : taken item (keptGroup catalog now key rows) row = 0 := by
      by_contra given
      exact keeps ⟨isMember, (touched_reached matched).mpr reached, by omega⟩
    rw [zero]
    rfl

theorem shrunk_unreached (unreached : ¬Reached key rows ids)
    (member : row ∈ keptGroup catalog now key rows) : shrunk catalog now ids rows row = row := by
  obtain ⟨-, -, matched⟩ := mem_group.mp member
  unfold shrunk
  rw [if_neg]
  rintro ⟨-, reached, -⟩
  exact unreached ((touched_reached matched).mp reached)

theorem shrunk_keptGroup :
    keptGroup catalog now key (rows.map (shrunk catalog now ids rows)) =
      (keptGroup catalog now key rows).map (shrunk catalog now ids rows) := by
  apply group_map
  intro row
  obtain ⟨quantity, same⟩ := @shrunk_same catalog now ids rows row
  rw [same]
  exact ⟨rfl, rfl⟩

/-- What a shrunk group keeps: its levels and reversals, and grants that still cover them. -/
theorem shrunk_held (held : Held catalog now key item rows)
    (positive : ∀ row ∈ keptGroup catalog now key rows, 0 < (shrunk catalog now ids rows row).quantity) :
    Held catalog now key item (rows.map (shrunk catalog now ids rows)) := by
  refine ⟨held.found, ?_, ?_, ?_⟩
  · rw [List.map_map]
    have ids : Allocation.id ∘ shrunk catalog now ids rows = Allocation.id := by
      funext row
      obtain ⟨quantity, same⟩ := @shrunk_same catalog now ids rows row
      rw [Function.comp, same]
    rw [ids]
    exact held.unique
  · intro row member
    rw [shrunk_keptGroup] at member
    obtain ⟨old, inside, rfl⟩ := List.mem_map.mp member
    obtain ⟨quantity, same⟩ := @shrunk_same catalog now ids rows old
    rw [same]
    exact held.settled old inside
  · intro row member
    rw [shrunk_keptGroup] at member
    obtain ⟨old, inside, rfl⟩ := List.mem_map.mp member
    refine ⟨?_, positive old inside⟩
    by_cases reached : Reached key rows ids
    · have below := (taken_bounds held inside).2
      rw [shrunk_group held reached inside]
      simp only [room, floor, Allocation.level] at below ⊢
      omega
    · rw [shrunk_unreached reached inside]
      exact (held.holds old inside).1

private theorem sum_quantities {group : List Allocation} {given : Allocation → Int} {after : Allocation → Allocation}
    (each : ∀ row ∈ group, ((after row).quantity : Int) = row.quantity - given row) :
    (((group.map after).map Allocation.quantity).sum : Int) = (group.map Allocation.quantity).sum - (group.map given).sum := by
  induction group with
  | nil => rfl
  | cons row rest ih =>
    simp only [List.map_cons, List.sum_cons, Nat.cast_add]
    rw [each row (by simp), ih fun other member => each other (by simp [member])]
    ring

private theorem shrunk_fields (row : Allocation) :
    (shrunk catalog now ids rows row).reversedQuantity = row.reversedQuantity ∧
      (shrunk catalog now ids rows row).level = row.level := by
  obtain ⟨quantity, same⟩ := @shrunk_same catalog now ids rows row
  rw [same]
  exact ⟨rfl, rfl⟩

theorem shrunk_sums (group : List Allocation) :
    ((group.map (shrunk catalog now ids rows)).map Allocation.reversedQuantity).sum =
        (group.map Allocation.reversedQuantity).sum ∧
      groupLevel (group.map (shrunk catalog now ids rows)) = groupLevel group := by
  unfold groupLevel
  rw [List.map_map, List.map_map]
  exact ⟨congrArg List.sum (List.map_congr_left fun row _ => (shrunk_fields row).1),
    congrArg List.sum (List.map_congr_left fun row _ => (shrunk_fields row).2)⟩

theorem shrunk_granted (held : Held catalog now key item rows) (reached : Reached key rows ids)
    (covered : 0 ≤ excess item (keptGroup catalog now key rows))
    (restored : ((keptGroup catalog now key rows).map Allocation.quantity).sum -
      excess item (keptGroup catalog now key rows) =
        max (item.quantity : Int) (groupLevel (keptGroup catalog now key rows)) +
          ((keptGroup catalog now key rows).map Allocation.reversedQuantity).sum) :
    Granted item (keptGroup catalog now key (rows.map (shrunk catalog now ids rows))) := by
  have each : ∀ row ∈ keptGroup catalog now key rows, ((shrunk catalog now ids rows row).quantity : Int) =
      row.quantity - taken item (keptGroup catalog now key rows) row := by
    intro row member
    have fits := (held.holds row member).1
    have below := (taken_bounds held member).2
    rw [shrunk_group held reached member]
    simp only [room] at below ⊢
    omega
  have total := sum_quantities each
  rw [taken_sum held covered, restored] at total
  obtain ⟨reversed, level⟩ := @shrunk_sums catalog now rows ids (keptGroup catalog now key rows)
  unfold Granted
  rw [shrunk_keptGroup, reversed, level]
  omega

end Step

end Quotum.KeptLevels
