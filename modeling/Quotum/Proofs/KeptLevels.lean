import Quotum.Proofs.ShrinkLevels

/-! A level kept across a switch: its group grants the incoming item's quantity, or the level while
that is higher, from the switch on and through every later decrease. -/

namespace Quotum.KeptLevels
open General

variable {row : Allocation} {lower : Allocation → Allocation} {group : List Allocation} {ids : List AllocationId}

def moved (switch : Switch) (item : PlanItem) (group : List Allocation) (row : Allocation) : Allocation :=
  { row with
    planItem := some item.id
    quantity := row.level + row.reversedQuantity +
      if holdsMost group row then item.quantity - groupLevel group else 0
    periodStartAt := some switch.periodStartAt
    periodEndAt := if item.lifetime then none else switch.periodEndAt
    expiresAt := keptExpiry switch item }

private theorem find_item {catalog : Catalog} {item : PlanItem} (member : item ∈ catalog.items) :
    catalog.items.find? (fun other => some other.id == some item.id) = some item := by
  obtain ⟨front, back, split⟩ := List.append_of_mem member
  have unique := catalog.unique
  rw [split, List.map_append, List.map_cons, List.nodup_append] at unique
  rw [List.find?_eq_some_iff_append]
  refine ⟨by simp, front, back, split, ?_⟩
  intro other earlier
  have apart := unique.2.2 _ (List.mem_map_of_mem earlier) item.id (by simp)
  simpa using apart

section Group
variable {catalog : Catalog} {now : Time} {switch : Switch} {rows : List Allocation} {other : Allocation} {item : PlanItem}

private theorem incomingItem_inv (incoming : incomingItem catalog now switch row = some item) :
    row.subscription = some switch.subscription ∧ row.sourceKind = .subscription ∧ row.isOpen now = true ∧
      (catalog.item row).any (fun item => item.planVersion == switch.outgoingPlanVersion) = true ∧
      catalog.nonConsumable row.feature = true ∧ item ∈ catalog.items ∧ item.planVersion = switch.incomingPlanVersion := by
  unfold incomingItem at incoming
  split at incoming
  · next conditions =>
    obtain ⟨subscription, source, isOpen, outgoing, nonConsumable⟩ := conditions
    have chosen := List.find?_some incoming
    simp only [Bool.and_eq_true, beq_iff_eq] at chosen
    exact ⟨subscription, source, isOpen, outgoing, nonConsumable, List.mem_of_find?_eq_some incoming, chosen.1.1.1.1⟩
  · cases incoming

private theorem incomingItem_same {another : PlanItem} (first : incomingItem catalog now switch row = some item)
    (second : incomingItem catalog now switch other = some another)
    (feature : other.feature = row.feature) (entity : other.entity = row.entity) : another = item := by
  unfold incomingItem at first second
  split at first
  · split at second
    · rw [feature, entity, first] at second
      exact (Option.some.inj second).symm
    · cases second
  · cases first

private theorem mem_levelGroup : other ∈ levelGroup catalog now switch rows row ↔
    other ∈ rows ∧ (incomingItem catalog now switch other).isSome ∧ other.feature = row.feature ∧
      other.entity = row.entity := by
  simp [levelGroup, List.mem_filter, and_assoc]

private theorem levelGroup_same (feature : other.feature = row.feature) (entity : other.entity = row.entity) :
    levelGroup catalog now switch rows other = levelGroup catalog now switch rows row := by
  unfold levelGroup
  rw [feature, entity]

private def heldOrder (row : Allocation) : Nat ×ₗ Natᵒᵈ :=
  toLex (row.level, OrderDual.toDual row.id)

private theorem holdsMost_greatest (group : List Allocation) (row : Allocation) :
    holdsMost group row = group.all (fun other => decide (heldOrder other ≤ heldOrder row)) := by
  unfold holdsMost
  congr 1
  funext other
  rw [Bool.eq_iff_iff]
  simp only [heldOrder, Prod.Lex.toLex_le_toLex, OrderDual.toDual_le_toDual, Bool.not_eq_true', Bool.or_eq_false_iff,
    decide_eq_false_iff_not, Bool.and_eq_false_iff, beq_eq_false_iff_ne, decide_eq_true_eq]
  rw [not_lt, not_lt, le_iff_lt_or_eq]
  constructor
  · rintro ⟨below | same, apart | later⟩
    · exact .inl below
    · exact .inl below
    · exact absurd same.symm apart
    · exact .inr ⟨same, later⟩
  · rintro (below | ⟨same, later⟩)
    · exact ⟨.inl below, .inl below.ne'⟩
    · exact ⟨.inr same, .inr later⟩

/-- The headroom of the incoming item is granted once. -/
private theorem headroom_sum (unique : (group.map Allocation.id).Nodup) (nonempty : group ≠ [])
    (headroom : Nat) : (group.map fun row => if holdsMost group row then headroom else 0).sum = headroom := by
  have distinct : (group.map heldOrder).Nodup := by
    refine List.Nodup.of_map (fun key => OrderDual.ofDual (ofLex key).2) ?_
    rw [List.map_map]
    exact unique
  have once := toGreatest_sum distinct nonempty headroom
  unfold toGreatest at once
  simpa only [← holdsMost_greatest] using once

private theorem holdsMost_level (level : 0 < groupLevel group)
    (most : holdsMost group row = true) : 0 < row.level := by
  by_contra empty
  have zero : groupLevel group = 0 := by
    apply List.sum_eq_zero
    intro value member
    obtain ⟨other, inside, rfl⟩ := List.mem_map.mp member
    have lesser := List.all_eq_true.mp most other inside
    simp only [Bool.not_eq_true', Bool.or_eq_false_iff, decide_eq_false_iff_not] at lesser
    omega
  omega

private theorem keepRow_none (none : incomingItem catalog now switch row = none) :
    keepRow catalog now switch rows row = row := by
  unfold keepRow
  rw [none]

/-- A candidate moves exactly when its own level is not zero. -/
private theorem keepRow_some (inside : row ∈ rows)
    (incoming : incomingItem catalog now switch row = some item) : keepRow catalog now switch rows row =
      if 0 < row.level then moved switch item (levelGroup catalog now switch rows row) row else row := by
  have member : row ∈ levelGroup catalog now switch rows row := by
    refine mem_levelGroup.mpr ⟨inside, ?_, rfl, rfl⟩
    rw [incoming]
    rfl
  have below : row.level ≤ groupLevel (levelGroup catalog now switch rows row) :=
    List.single_le_sum (by simp) _ (List.mem_map_of_mem member)
  have moves : (groupLevel (levelGroup catalog now switch rows row) > 0 ∧
      (row.level > 0 ∨ holdsMost (levelGroup catalog now switch rows row) row = true)) ↔ 0 < row.level := by
    constructor
    · rintro ⟨level, own | most⟩
      · exact own
      · exact holdsMost_level level most
    · intro own
      exact ⟨by omega, .inl own⟩
  unfold keepRow
  simp only [incoming, moves]
  rfl

private theorem keepRow_id (row : Allocation) : (keepRow catalog now switch rows row).id = row.id := by
  unfold keepRow
  split
  · rfl
  · simp only
    split <;> rfl

end Group

/-- A switch that moves a level: rows as their table checks them, no open allowance of the incoming version
yet (each switch ends those of the version it leaves), and an incoming allowance that has not expired. -/
structure Moves (catalog : Catalog) (now : Time) (switch : Switch) (rows : List Allocation) (key : LevelKey)
    (item : PlanItem) : Prop where
  unique : (rows.map Allocation.id).Nodup
  apart : switch.outgoingPlanVersion ≠ switch.incomingPlanVersion
  ended : ∀ row ∈ rows, row.subscription = some switch.subscription → row.sourceKind = .subscription →
    row.isOpen now = true → (catalog.item row).all (fun item => item.planVersion != switch.incomingPlanVersion) = true
  level : ∃ row ∈ rows, incomingItem catalog now switch row = some item ∧
    key = ⟨switch.subscription, item.id, row.feature, row.entity⟩ ∧ 0 < row.level
  live : (keptExpiry switch item).all (fun expiry => decide (now < expiry)) = true

section Moves
variable {catalog : Catalog} {now : Time} {switch : Switch} {rows : List Allocation} {key : LevelKey} {item : PlanItem}
  (moves : Moves catalog now switch rows key item)
include moves

private theorem moves_found :
    catalog.items.find? (fun other => some other.id == some key.planItem) = some item := by
  obtain ⟨row, -, incoming, rfl, -⟩ := moves.level
  obtain ⟨-, -, -, -, -, member, -⟩ := incomingItem_inv incoming
  exact find_item member

/-- Before the switch no open allowance is of the group's item. -/
private theorem moves_ended (inside : row ∈ rows) :
    (isMember catalog now row && key.matches row) = false := by
  rw [Bool.eq_false_iff]
  intro both
  obtain ⟨member, matched⟩ := Bool.and_eq_true_iff.mp both
  have group : row ∈ keptGroup catalog now key rows := mem_group.mpr ⟨inside, member, matched⟩
  have found := group_item (moves_found moves) group
  obtain ⟨witness, -, incoming, rfl, -⟩ := moves.level
  obtain ⟨-, -, -, -, -, -, version⟩ := incomingItem_inv incoming
  simp only [isMember, Bool.and_eq_true, beq_iff_eq] at member
  simp only [LevelKey.matches, Bool.and_eq_true, beq_iff_eq] at matched
  have other := moves.ended row inside matched.1.1.1 member.1.1.1.1 member.1.2
  rw [found] at other
  simp [version] at other

private theorem moved_matches {another : PlanItem}
    (incoming : incomingItem catalog now switch row = some another) {witness : Allocation}
    (own : incomingItem catalog now switch witness = some item)
    (same : key = ⟨switch.subscription, item.id, witness.feature, witness.entity⟩) :
    (isMember catalog now (moved switch another group row) && key.matches (moved switch another group row)) =
      (row.feature == witness.feature && row.entity == witness.entity) := by
  rw [Bool.eq_iff_iff]
  simp only [same, LevelKey.matches, moved, Bool.and_eq_true, beq_iff_eq]
  constructor
  · rintro ⟨-, ⟨-, feature⟩, entity⟩
    exact ⟨feature, entity⟩
  · rintro ⟨feature, entity⟩
    obtain rfl := incomingItem_same own incoming feature entity
    obtain ⟨subscription, source, isOpen, -, nonConsumable, -, -⟩ := incomingItem_inv incoming
    have found := moves_found moves
    rw [same] at found
    refine ⟨?_, ⟨⟨subscription, rfl⟩, feature⟩, entity⟩
    simp only [Allocation.isOpen, Bool.and_eq_true] at isOpen
    simp only [isMember, Catalog.item, Allocation.isOpen, found, source, subscription, isOpen.1, moves.live,
      nonConsumable]
    rfl

/-- The kept group: every candidate of the level's feature and scope that holds some of it, moved. -/
private theorem kept_group {witness : Allocation} (own : incomingItem catalog now switch witness = some item)
    (same : key = ⟨switch.subscription, item.id, witness.feature, witness.entity⟩) :
    keptGroup catalog now key (keepNonConsumableLevels catalog now switch rows) =
      ((levelGroup catalog now switch rows witness).filter fun row => decide (0 < row.level)).map
        (moved switch item (levelGroup catalog now switch rows witness)) := by
  unfold keptGroup keepNonConsumableLevels
  rw [List.filter_map]
  have chosen : rows.filter ((fun row => isMember catalog now row && key.matches row) ∘ keepRow catalog now switch rows) =
      (levelGroup catalog now switch rows witness).filter fun row => decide (0 < row.level) := by
    unfold levelGroup
    rw [List.filter_filter]
    apply List.filter_congr
    intro row inside
    rw [Function.comp]
    cases incoming : incomingItem catalog now switch row with
    | none =>
      rw [keepRow_none incoming, moves_ended moves inside]
      simp
    | some another =>
      rw [keepRow_some inside incoming]
      by_cases level : 0 < row.level
      · rw [if_pos level, moved_matches moves incoming own same]
        simp [level]
      · rw [if_neg level, moves_ended moves inside]
        simp [level]
  rw [chosen]
  apply List.map_congr_left
  intro row member
  obtain ⟨candidate, level⟩ := List.mem_filter.mp member
  obtain ⟨inside, some, feature, entity⟩ := mem_levelGroup.mp candidate
  obtain ⟨another, incoming⟩ := Option.isSome_iff_exists.mp some
  obtain rfl := incomingItem_same own incoming feature entity
  rw [keepRow_some inside incoming, if_pos (of_decide_eq_true level), levelGroup_same feature entity]

private theorem kept_granted :
    Granted item (keptGroup catalog now key (keepNonConsumableLevels catalog now switch rows)) := by
  obtain ⟨witness, inside, own, same, level⟩ := moves.level
  rw [kept_group moves own same]
  have sublist : (levelGroup catalog now switch rows witness).Sublist rows := List.filter_sublist
  have unique : ((levelGroup catalog now switch rows witness).map Allocation.id).Nodup :=
    (sublist.map _).nodup moves.unique
  have member : witness ∈ levelGroup catalog now switch rows witness := by
    refine mem_levelGroup.mpr ⟨inside, ?_, rfl, rfl⟩
    rw [own]
    rfl
  have positive : 0 < groupLevel (levelGroup catalog now switch rows witness) :=
    Nat.lt_of_lt_of_le level (List.single_le_sum (by simp) _ (List.mem_map_of_mem member))
  have headroom := headroom_sum unique (List.ne_nil_of_mem member)
    (item.quantity - groupLevel (levelGroup catalog now switch rows witness))
  generalize levelGroup catalog now switch rows witness = group at positive headroom ⊢
  have levels : ((group.filter fun row => decide (0 < row.level)).map Allocation.level).sum = groupLevel group := by
    apply sum_filter
    intro row _ empty
    simpa using empty
  have once : ((group.filter fun row => decide (0 < row.level)).map fun row =>
      if holdsMost group row then item.quantity - groupLevel group else 0).sum = item.quantity - groupLevel group := by
    rw [sum_filter, headroom]
    intro row _ empty
    rw [if_neg]
    intro most
    have some := holdsMost_level positive most
    simp only [decide_eq_false_iff_not] at empty
    exact empty some
  unfold Granted
  have quantities : ∀ rest : List Allocation, ((rest.map (moved switch item group)).map Allocation.quantity).sum =
      (rest.map Allocation.level).sum + (rest.map Allocation.reversedQuantity).sum +
        (rest.map fun row => if holdsMost group row then item.quantity - groupLevel group else 0).sum := by
    intro rest
    induction rest with
    | nil => rfl
    | cons row rest ih =>
      simp only [List.map_cons, List.sum_cons, ih, moved]
      omega
  have reversed : ((group.filter fun row => decide (0 < row.level)).map (moved switch item group)).map
      Allocation.reversedQuantity = (group.filter fun row => decide (0 < row.level)).map Allocation.reversedQuantity := by
    rw [List.map_map]
    rfl
  have level : groupLevel ((group.filter fun row => decide (0 < row.level)).map (moved switch item group)) =
      groupLevel group := by
    rw [← levels, groupLevel, List.map_map]
    rfl
  rw [quantities, levels, once, reversed, level]
  omega

private theorem kept_held : Held catalog now key item (keepNonConsumableLevels catalog now switch rows) := by
  obtain ⟨witness, -, own, same, -⟩ := moves.level
  refine ⟨moves_found moves, ?_, ?_, ?_⟩
  · unfold keepNonConsumableLevels
    rw [List.map_map]
    have ids : Allocation.id ∘ keepRow catalog now switch rows = Allocation.id := funext keepRow_id
    rw [ids]
    exact moves.unique
  · intro row member
    have found := group_item (moves_found moves) member
    rw [kept_group moves own same] at member
    obtain ⟨old, -, rfl⟩ := List.mem_map.mp member
    rw [stacked, found]
    cases lifetime : item.lifetime <;> simp [moved, lifetime]
  · intro row member
    rw [kept_group moves own same] at member
    obtain ⟨old, candidate, rfl⟩ := List.mem_map.mp member
    have level := of_decide_eq_true (List.mem_filter.mp candidate).2
    simp only [floor, Allocation.level, moved] at level ⊢
    omega

/-- What was left behind holds nothing of a level. -/
private theorem kept_idle : ∀ row ∈ keepNonConsumableLevels catalog now switch rows,
    (incomingItem catalog now switch row).isSome → row.level = 0 := by
  intro row member
  obtain ⟨old, inside, rfl⟩ := List.mem_map.mp member
  cases incoming : incomingItem catalog now switch old with
  | none =>
    rw [keepRow_none incoming, incoming]
    intro some
    cases some
  | some another =>
    rw [keepRow_some inside incoming]
    split
    · intro some
      obtain ⟨next, again⟩ := Option.isSome_iff_exists.mp some
      obtain ⟨-, -, -, outgoing, -, -, -⟩ := incomingItem_inv again
      obtain ⟨-, -, -, -, -, item, version⟩ := incomingItem_inv incoming
      rw [Catalog.item, moved, find_item item] at outgoing
      simp only [Option.any_some, version, beq_iff_eq] at outgoing
      exact absurd outgoing.symm moves.apart
    · intro _
      omega

private theorem kept_expiry : ∀ row ∈ keptGroup catalog now key (keepNonConsumableLevels catalog now switch rows),
    row.expiresAt = keptExpiry switch item := by
  obtain ⟨witness, -, own, same, -⟩ := moves.level
  intro row member
  rw [kept_group moves own same] at member
  obtain ⟨old, -, rfl⟩ := List.mem_map.mp member
  rfl

end Moves

/-- What a kept level's rows keep: grants that cover them, one expiry, and nothing left behind. -/
structure Settled (catalog : Catalog) (now : Time) (switch : Switch) (key : LevelKey) (item : PlanItem)
    (rows : List Allocation) : Prop where
  held : Held catalog now key item rows
  granted : Granted item (keptGroup catalog now key rows)
  steady : Steady item (keptGroup catalog now key rows)
  expiry : ∀ row ∈ keptGroup catalog now key rows, row.expiresAt = keptExpiry switch item
  idle : ∀ row ∈ rows, (incomingItem catalog now switch row).isSome → row.level = 0

section Settled
variable {catalog : Catalog} {now later : Time} {switch : Switch} {rows result : List Allocation} {key : LevelKey}
  {item : PlanItem}

private theorem incomingItem_earlier (order : now ≤ later)
    (some : (incomingItem catalog later switch row).isSome) : (incomingItem catalog now switch row).isSome := by
  obtain ⟨item, incoming⟩ := Option.isSome_iff_exists.mp some
  have isOpen := (incomingItem_inv incoming).2.2.1
  unfold incomingItem at incoming ⊢
  rw [isOpen] at incoming
  rw [isOpen_earlier order isOpen, incoming]
  rfl

/-- While the incoming allowance has not expired the group stays as it is. -/
private theorem settled_waits (settled : Settled catalog now switch key item rows) (order : now ≤ later)
    (live : (keptExpiry switch item).all (fun expiry => decide (later < expiry)) = true) :
    Settled catalog later switch key item rows := by
  have group : keptGroup catalog later key rows = keptGroup catalog now key rows := by
    apply List.filter_congr
    intro row inside
    rw [Bool.eq_iff_iff]
    constructor
    · intro both
      obtain ⟨member, matched⟩ := Bool.and_eq_true_iff.mp both
      simp only [isMember, Bool.and_eq_true] at member
      simp only [isMember, member, isOpen_earlier order member.1.2, matched, Bool.and_self]
    · intro both
      obtain ⟨member, matched⟩ := Bool.and_eq_true_iff.mp both
      have expiry := settled.expiry row (mem_group.mpr ⟨inside, member, matched⟩)
      simp only [isMember, Allocation.isOpen, Bool.and_eq_true] at member
      simp only [isMember, Allocation.isOpen, member, expiry, live, matched, Bool.and_self]
  refine ⟨⟨settled.held.found, settled.held.unique, ?_, ?_⟩, ?_, ?_, ?_, ?_⟩
  · rw [group]
    exact settled.held.settled
  · rw [group]
    exact settled.held.holds
  · rw [group]
    exact settled.granted
  · rw [group]
    exact settled.steady
  · rw [group]
    exact settled.expiry
  · intro row inside some
    exact settled.idle row inside (incomingItem_earlier order some)

private theorem reached_lower (lowering : Lowering rows lower ids)
    (unreached : ¬Reached key (rows.map lower) ids) :
    (keptGroup catalog now key rows).map lower = keptGroup catalog now key rows := by
  have same : ∀ row ∈ keptGroup catalog now key rows, lower row = row := by
    intro row member
    obtain ⟨inside, isMember, matched⟩ := mem_group.mp member
    apply lowering.touched row inside
    intro named
    obtain ⟨consumed, held, new, -⟩ := lowering.levels row
    refine unreached ⟨lower row, List.mem_map_of_mem inside, ?_, ?_, ?_⟩
    · rw [new]
      exact named
    · simp only [KeptLevels.isMember, Bool.and_eq_true, beq_iff_eq] at isMember
      rw [new]
      exact isMember.1.1.1.1
    · rw [new]
      exact matched
  rw [List.map_congr_left same, List.map_id']

private theorem shrunk_positive (succeeded : shrinkKeptLevels catalog now ids rows = .ok result) :
    ∀ row ∈ rows, 0 < row.quantity → 0 < (shrunk catalog now ids rows row).quantity := by
  intro row inside positive
  unfold shrinkKeptLevels at succeeded
  split at succeeded
  · next none =>
    subst none
    simpa [shrunk, touched] using positive
  · obtain ⟨output, here⟩ := mapM_ok_mem succeeded row inside
    simp only [shrinkRow] at here
    unfold shrunk
    split at here
    · next shrinks =>
      rw [if_pos shrinks]
      split at here
      · next checked =>
        simp only [Allocation.checked, Bool.and_eq_true, decide_eq_true_eq] at checked
        exact checked.1.1
      · cases here
    · next keeps =>
      rw [if_neg keeps]
      exact positive

private theorem settled_decreases (settled : Settled catalog now switch key item rows) (lowering : Lowering rows lower ids)
    (steady : Steady item (keptGroup catalog now key (rows.map lower)))
    (succeeded : shrinkKeptLevels catalog now ids (rows.map lower) = .ok result) :
    Settled catalog now switch key item result := by
  have held := lower_held lowering settled.held
  have positive := shrunk_positive succeeded
  obtain rfl := shrink_inv succeeded
  have group := @shrunk_keptGroup catalog now key (rows.map lower) ids
  obtain ⟨reversed, level⟩ := @shrunk_sums catalog now (rows.map lower) ids (keptGroup catalog now key (rows.map lower))
  refine ⟨?_, ?_, ?_, ?_, ?_⟩
  · apply shrunk_held held
    intro row member
    exact positive row (mem_group.mp member).1 (held.holds row member).2
  · by_cases reached : Reached key (rows.map lower) ids
    · obtain ⟨covered, restored⟩ := lower_excess lowering settled.granted steady
      exact shrunk_granted held reached covered restored
    · rw [group, List.map_congr_left fun row member => shrunk_unreached reached member, List.map_id',
        lower_group lowering, reached_lower lowering reached]
      exact settled.granted
  · unfold Steady at steady ⊢
    rw [group, reversed, level]
    exact steady
  · intro row member
    rw [group] at member
    obtain ⟨old, inside, rfl⟩ := List.mem_map.mp member
    obtain ⟨quantity, same⟩ := @shrunk_same catalog now ids (rows.map lower) old
    rw [lower_group lowering] at inside
    obtain ⟨older, before, rfl⟩ := List.mem_map.mp inside
    obtain ⟨consumed, held, new, -⟩ := lowering.levels older
    rw [same, new]
    exact settled.expiry older before
  · intro row member some
    obtain ⟨old, inside, rfl⟩ := List.mem_map.mp member
    obtain ⟨older, before, rfl⟩ := List.mem_map.mp inside
    obtain ⟨quantity, same⟩ := @shrunk_same catalog now ids (rows.map lower) (lower older)
    obtain ⟨consumed, held, new, below⟩ := lowering.levels older
    rw [same, new] at some ⊢
    have idle := settled.idle older before some
    simp only [Allocation.level] at idle below ⊢
    omega

private theorem settled_excess (settled : Settled catalog now switch key item rows) :
    excess item (keptGroup catalog now key rows) ≤ 0 := by
  have granted := settled.granted
  have steady := settled.steady
  unfold Granted at granted
  unfold Steady at steady
  unfold excess
  rw [floor_sum, granted]
  generalize ((keptGroup catalog now key rows).map Allocation.reversedQuantity).sum = reversals at steady ⊢
  generalize groupLevel (keptGroup catalog now key rows) = level at steady ⊢
  omega

private theorem own_touched (own : Own catalog now key rows ids)
    (inside : row ∈ rows) (member : isMember catalog now row = true) (reached : touched ids rows row = true) :
    row ∈ keptGroup catalog now key rows := by
  obtain ⟨other, within, both⟩ := List.any_eq_true.mp reached
  simp only [Bool.and_eq_true, List.contains_iff_mem] at both
  have matched := (mem_group.mp (own other within both.1.1)).2.2
  refine mem_group.mpr ⟨inside, member, ?_⟩
  rw [← matches_same matched, sameLevel_comm]
  exact both.2

variable (settled : Settled catalog now switch key item rows)
include settled

/-- A settled group gives nothing more. -/
private theorem settled_shrinks (own : Own catalog now key rows ids) : shrinkKeptLevels catalog now ids rows = .ok rows := by
  have keeps : ∀ row ∈ rows, shrinkRow catalog now ids rows row = .ok (id row) := by
    intro row inside
    unfold shrinkRow
    rw [if_neg]
    · rfl
    rintro ⟨member, reached, more⟩
    have group := own_touched own inside member reached
    rw [shrinkTaken_group settled.held group] at more
    have before := before_nonnegative settled.held row
    have none := settled_excess settled
    unfold taken windowTaken at more
    omega
  unfold shrinkKeptLevels
  split
  · rfl
  · rw [mapM_eq keeps, List.map_id]

/-- A decrease of the level's own rows can always be shrunk, when it leaves every row something. -/
private theorem settled_succeeds (lowering : Lowering rows lower ids)
    (own : Own catalog now key rows ids) (spared : SparesRows item (keptGroup catalog now key (rows.map lower))) :
    ∃ result, shrinkKeptLevels catalog now ids (rows.map lower) = .ok result := by
  have held := lower_held lowering settled.held
  have lowered : Own catalog now key (rows.map lower) ids := by
    intro row inside named
    obtain ⟨old, before, rfl⟩ := List.mem_map.mp inside
    rw [(@lower_fields catalog _ _ _ lowering old).1] at named
    rw [lower_group lowering]
    exact List.mem_map_of_mem (own old before named)
  unfold shrinkKeptLevels
  split
  · exact ⟨_, rfl⟩
  · apply mapM_succeeds
    intro row inside
    by_cases shrinks : isMember catalog now row = true ∧ touched ids (rows.map lower) row = true
    · have group := own_touched lowered inside shrinks.1 shrinks.2
      exact ⟨_, shrinkRow_group held group shrinks.2 spared⟩
    · refine ⟨row, ?_⟩
      unfold shrinkRow
      rw [if_neg fun all => shrinks ⟨all.1, all.2.1⟩]

/-- Keeping again moves nothing. -/
private theorem settled_keeps :
    keepNonConsumableLevels catalog now switch rows = rows := by
  have same : ∀ row ∈ rows, keepRow catalog now switch rows row = row := by
    intro row inside
    cases incoming : incomingItem catalog now switch row with
    | none => exact keepRow_none incoming
    | some another =>
      rw [keepRow_some inside incoming, if_neg]
      have idle := settled.idle row inside (by simp [incoming])
      omega
  unfold keepNonConsumableLevels
  rw [List.map_congr_left same, List.map_id']

end Settled

/-- The states a kept level goes through: the switch that keeps it, time passing while the incoming
allowance lives, and decreases followed by a shrink. -/
inductive KeptRun (catalog : Catalog) (switch : Switch) (key : LevelKey) (item : PlanItem) : Time → List Allocation → Prop
  | kept {now : Time} {rows : List Allocation} (moves : Moves catalog now switch rows key item)
      (steady : Steady item (keptGroup catalog now key (keepNonConsumableLevels catalog now switch rows))) :
      KeptRun catalog switch key item now (keepNonConsumableLevels catalog now switch rows)
  | waited {now later : Time} {rows : List Allocation} (run : KeptRun catalog switch key item now rows)
      (order : now ≤ later) (live : (keptExpiry switch item).all (fun expiry => decide (later < expiry)) = true) :
      KeptRun catalog switch key item later rows
  | decreased {now : Time} {rows result : List Allocation} {lower : Allocation → Allocation} {ids : List AllocationId}
      (run : KeptRun catalog switch key item now rows) (lowering : Lowering rows lower ids)
      (steady : Steady item (keptGroup catalog now key (rows.map lower)))
      (succeeded : shrinkKeptLevels catalog now ids (rows.map lower) = .ok result) :
      KeptRun catalog switch key item now result

section Run
variable {catalog : Catalog} {switch : Switch} {key : LevelKey} {item : PlanItem} {now : Time} {rows : List Allocation}

private theorem run_settled (run : KeptRun catalog switch key item now rows) :
    Settled catalog now switch key item rows := by
  induction run with
  | kept moves steady => exact ⟨kept_held moves, kept_granted moves, steady, kept_expiry moves, kept_idle moves⟩
  | waited _ order live ih => exact settled_waits ih order live
  | decreased _ lowering steady succeeded ih => exact settled_decreases ih lowering steady succeeded

/-- A kept level grants its item's quantity, or the level while that is higher, over every run of steady
decreases; neither function changes anything when it runs again, and a decrease that leaves every row
something can be shrunk. -/
theorem kept_level_grants (run : KeptRun catalog switch key item now rows) :
    netGranted (keptGroup catalog now key rows) =
        max (item.quantity : Int) (groupLevel (keptGroup catalog now key rows)) ∧
      (∀ row ∈ keptGroup catalog now key rows, row.consumedQuantity + row.heldQuantity ≤ row.quantity) ∧
      (∀ ids, Own catalog now key rows ids → shrinkKeptLevels catalog now ids rows = .ok rows) ∧
      keepNonConsumableLevels catalog now switch rows = rows ∧
      ∀ lower ids, Lowering rows lower ids → Own catalog now key rows ids →
        SparesRows item (keptGroup catalog now key (rows.map lower)) →
        ∃ result, shrinkKeptLevels catalog now ids (rows.map lower) = .ok result := by
  have settled := run_settled run
  refine ⟨granted_net settled.granted, ?_, ?_, settled_keeps settled, ?_⟩
  · intro row member
    have fits := (settled.held.holds row member).1
    simp only [floor, Allocation.level] at fits
    omega
  · intro ids own
    exact settled_shrinks settled own
  · intro lower ids lowering own spared
    exact settled_succeeds settled lowering own spared

end Run

def secondItem (quantity : Nat) : PlanItem :=
  ⟨2, 2, 7, false, true, quantity, true, none⟩

def twoVersions (quantity : Nat) : Catalog where
  items := [⟨1, 1, 7, false, true, 12, true, none⟩, secondItem quantity]
  unique := by simp [secondItem]
  nonConsumable _ := true
  splitsPeriod _ _ _ := false

def upgrade : Switch := ⟨5, 1, 2, 100, some 200⟩

def seats (id level reversed : Nat) : Allocation where
  id := id
  subscription := some 5
  planItem := some 1
  feature := 7
  entity := none
  sourceKind := .subscription
  quantity := 12
  reversedQuantity := reversed
  consumedQuantity := level
  heldQuantity := 0
  periodStartAt := some 0
  periodEndAt := some 200
  expiresAt := some 200
  reversedAt := none
  createdAt := 0

def correct (id consumed : Nat) (row : Allocation) : Allocation :=
  if row.id = id ∧ consumed ≤ row.consumedQuantity then { row with consumedQuantity := consumed } else row

private theorem correct_lowers (id consumed : Nat) (rows : List Allocation) : Lowering rows (correct id consumed) [id] := by
  constructor
  · intro row
    unfold correct
    split
    · next lowers => exact ⟨consumed, row.heldQuantity, rfl, Nat.add_le_add_right lowers.2 _⟩
    · exact ⟨row.consumedQuantity, row.heldQuantity, rfl, Nat.le_refl _⟩
  · intro row _ other
    unfold correct
    rw [if_neg]
    rintro ⟨same, -⟩
    exact other (by simp [same])

def secondKey : LevelKey := ⟨5, 2, 7, none⟩

/-- A level of twelve moves to an item of ten, falls to nine and then grants the ten. -/
theorem kept_level_grants_ten : ∃ rows,
    netGranted (keptGroup (twoVersions 10) 150 secondKey rows) = max 10 (groupLevel (keptGroup (twoVersions 10) 150 secondKey rows)) ∧
      groupLevel (keptGroup (twoVersions 10) 150 secondKey rows) = 9 := by
  have moves : Moves (twoVersions 10) 150 upgrade [seats 1 12 0] secondKey (secondItem 10) :=
    ⟨by decide, by decide, by decide, ⟨seats 1 12 0, by decide, rfl, rfl, by decide⟩, rfl⟩
  have run := KeptRun.decreased (KeptRun.kept moves (.inl rfl)) (correct_lowers 1 9 _) (.inl rfl) rfl
  exact ⟨_, (kept_level_grants run).1, rfl⟩

/-- A kept row with a reversed quantity is shrunk below the item's quantity, and one of several rows that
a decrease leaves empty cannot be shrunk at all. -/
theorem kept_levels_out_of_step :
    (¬ ∀ catalog now switch rows key item lower ids result, Moves catalog now switch rows key item →
      Lowering (keepNonConsumableLevels catalog now switch rows) lower ids →
      shrinkKeptLevels catalog now ids ((keepNonConsumableLevels catalog now switch rows).map lower) = .ok result →
      netGranted (keptGroup catalog now key result) =
        max (item.quantity : Int) (groupLevel (keptGroup catalog now key result))) ∧
    (¬ ∀ catalog now switch rows key item lower ids, Moves catalog now switch rows key item →
      Lowering (keepNonConsumableLevels catalog now switch rows) lower ids →
      Own catalog now key (keepNonConsumableLevels catalog now switch rows) ids →
      ∃ result,
        shrinkKeptLevels catalog now ids ((keepNonConsumableLevels catalog now switch rows).map lower) = .ok result) := by
  constructor
  · intro all
    have moves : Moves (twoVersions 10) 150 upgrade [seats 1 4 2] secondKey (secondItem 10) :=
      ⟨by decide, by decide, by decide, ⟨seats 1 4 2, by decide, rfl, rfl, by decide⟩, rfl⟩
    have net := all _ _ _ _ _ _ _ _ _ moves (correct_lowers 1 3 _) rfl
    revert net
    decide
  · intro all
    have moves : Moves (twoVersions 3) 150 upgrade [seats 1 1 0, seats 2 3 0] secondKey (secondItem 3) :=
      ⟨by decide, by decide, by decide, ⟨seats 1 1 0, by decide, rfl, rfl, by decide⟩, rfl⟩
    obtain ⟨result, succeeded⟩ := all _ _ _ _ _ _ _ _ moves (correct_lowers 1 0 _) (by unfold Own; decide)
    have fails : shrinkKeptLevels (twoVersions 3) 150 [1]
        ((keepNonConsumableLevels (twoVersions 3) 150 upgrade [seats 1 1 0, seats 2 3 0]).map (correct 1 0)) =
        .error (.internal "new row for relation balance_allocations violates check constraint") := rfl
    rw [fails] at succeeded
    cases succeeded

end Quotum.KeptLevels
