import Quotum.General.Outcomes
import Quotum.General.Waterfall
import Quotum.Licenses

/-! Assignments are honored within capacity. What a check honors is the share that each assignment takes of its pool's capacity when the
earlier ones take theirs first, so a capacity that drops below the assigned total leaves a prefix. -/

namespace Quotum.Licenses
open General

variable {pool : LicensePool} {featureId : Nat} {wanted : WantedPool}

section Desired
variable {purchases : Purchases}

private theorem flatMap_le_one {α β : Type} {rows : List α} {f : α → List β} (few : rows.length ≤ 1) (each : ∀ row ∈ rows, (f row).length ≤ 1) :
    (rows.flatMap f).length ≤ 1 := by
  match rows with
  | [] => exact Nat.zero_le _
  | [row] => simpa using each row (by simp)
  | _ :: _ :: _ => simp at few

private theorem licensedPrices_le_one (item : PlanItem) : (purchases.licensedPrices item).length ≤ 1 := by
  have counted : (purchases.priceComponents.filterMap PriceComponent.planItemId).count item.id ≤ 1 :=
    List.nodup_iff_count_le_one.mp purchases.priced_once item.id
  rw [List.count_filterMap] at counted
  rw [Purchases.licensedPrices, ← List.countP_eq_length_filter]
  refine le_trans (List.countP_mono_left ?_) counted
  intro price _ priced
  rw [Bool.and_eq_true, decide_eq_true_eq] at priced
  rw [beq_iff_eq]
  exact priced.1

private theorem boughtItems_le_one (subscription : Subscription) (price : PriceComponent) :
    (purchases.boughtItems subscription price).length ≤ 1 := by
  rw [Purchases.boughtItems, ← List.countP_eq_length_filter]
  apply countP_key purchases.bought_once
  intro row bought
  rw [Bool.and_eq_true, decide_eq_true_eq] at bought
  exact bought.1

private theorem leftJoin_le_one {α : Type} {rows : List α} (few : rows.length ≤ 1) : (leftJoin rows).length ≤ 1 := by
  cases rows with
  | nil => exact le_rfl
  | cons row rest => simpa [leftJoin] using few

private theorem wantedPools_le_one (subscription : Subscription) (item : PlanItem) : (purchases.wantedPools subscription item).length ≤ 1 := by
  apply flatMap_le_one (licensedPrices_le_one item)
  intro price _
  rw [List.length_map]
  exact leftJoin_le_one (boughtItems_le_one subscription price)

private theorem wantedPools_key {subscription : Subscription} {item : PlanItem}
    (member : wanted ∈ purchases.wantedPools subscription item) : wanted.key = (subscription.id, item.id) := by
  obtain ⟨price, -, member⟩ := List.mem_flatMap.mp member
  obtain ⟨bought, -, rfl⟩ := List.mem_map.mp member
  rfl

private theorem desired_inv {now : Int} (member : wanted ∈ purchases.desiredLicensePools now) :
    ∃ subscription ∈ purchases.subscriptions, subscription.live now = true ∧ subscription.id = wanted.subscriptionId := by
  obtain ⟨subscription, kept, member⟩ := List.mem_flatMap.mp member
  obtain ⟨item, -, member⟩ := List.mem_flatMap.mp member
  obtain ⟨inside, live⟩ := List.mem_filter.mp kept
  exact ⟨subscription, inside, live, (congrArg Prod.fst (wantedPools_key member)).symm⟩

private theorem desired_distinct (now : Int) : ((purchases.desiredLicensePools now).map WantedPool.key).Nodup := by
  have keyOf {subscription : Subscription} {item : PlanItem} {key : Nat × Nat}
      (member : key ∈ (purchases.wantedPools subscription item).map WantedPool.key) : key = (subscription.id, item.id) := by
    obtain ⟨wanted, inside, rfl⟩ := List.mem_map.mp member
    exact wantedPools_key inside
  rw [Purchases.desiredLicensePools, List.map_flatMap, List.nodup_flatMap]
  constructor
  · intro subscription _
    rw [List.map_flatMap, List.nodup_flatMap]
    constructor
    · intro item _
      have few := @wantedPools_le_one purchases subscription item
      match purchases.wantedPools subscription item, few with
      | [], _ => exact List.nodup_nil
      | [wanted], _ => exact List.nodup_singleton _
    · have apart : (purchases.pooledItems subscription).Pairwise fun first second => first.id ≠ second.id :=
        List.pairwise_map.mp (purchases.planItems_distinct.sublist (List.filter_sublist.map PlanItem.id))
      refine apart.imp ?_
      intro first second different key left right
      exact different (congrArg Prod.snd ((keyOf left).symm.trans (keyOf right)))
  · have apart : (purchases.subscriptions.filter (Subscription.live now)).Pairwise fun first second => first.id ≠ second.id :=
      List.pairwise_map.mp (purchases.subscriptions_distinct.sublist (List.filter_sublist.map Subscription.id))
    refine apart.imp ?_
    intro first second different key left right
    dsimp only at left right
    rw [List.map_flatMap] at left right
    obtain ⟨one, -, left⟩ := List.mem_flatMap.mp left
    obtain ⟨two, -, right⟩ := List.mem_flatMap.mp right
    exact different (congrArg Prod.fst ((keyOf left).symm.trans (keyOf right)))

end Desired

structure Valid (account : Account) : Prop where
  pool_ids : (account.pools.map LicensePool.id).Nodup
  pools_known : ∀ pool ∈ account.pools, pool.id < account.nextPoolId
  assignment_ids : (account.assignments.map LicenseAssignment.id).Nodup
  assignments_known : ∀ row ∈ account.assignments, row.id < account.nextAssignmentId
  entity_ids : (account.entities.map Entity.id).Nodup
  entities_known : ∀ entity ∈ account.entities, entity.id < account.nextEntityId
  assigned_entity : ∀ row ∈ account.assignments, row.entityId ∈ account.entities.map Entity.id

def Settled (now : Int) (account : Account) : Prop :=
  ∀ pool ∈ account.pools, pool.active = true →
    (pool.key, pool.quantity) ∈ (account.purchases.desiredLicensePools now).map fun row => (row.key, row.quantity)

section Sync
variable {now : Int} {account next : Account}

structure PoolsWritten (account next : Account) : Prop where
  purchases : next.purchases = account.purchases
  assignments : next.assignments = account.assignments
  entities : next.entities = account.entities

theorem PoolsWritten.refl (account : Account) : PoolsWritten account account :=
  ⟨rfl, rfl, rfl⟩

theorem PoolsWritten.trans {middle : Account} (first : PoolsWritten account middle) (second : PoolsWritten middle next) :
    PoolsWritten account next :=
  ⟨second.purchases.trans first.purchases, second.assignments.trans first.assignments, second.entities.trans first.entities⟩

private theorem upsertPool_inv (done : account.upsertPool wanted = .ok next) :
    next = { account with
      pools := updateAt LicensePool.key wanted.key (fun row => { row with quantity := wanted.quantity, active := true }) account.pools } ∨
    ∃ created : LicensePool, created.id = account.nextPoolId ∧ created.key = wanted.key ∧ created.quantity = wanted.quantity ∧
      next = { account with pools := account.pools ++ [created], nextPoolId := account.nextPoolId + 1 } := by
  unfold Account.upsertPool at done
  split at done
  · cases done
  · split at done
    · cases done
      exact .inl rfl
    · cases done
      exact .inr ⟨_, rfl, rfl, rfl, rfl⟩

private theorem upsertPool_kept (valid : Valid account) (settled : Settled now account)
    (inside : wanted ∈ account.purchases.desiredLicensePools now) (done : account.upsertPool wanted = .ok next) :
    Valid next ∧ Settled now next ∧ PoolsWritten account next := by
  have pair : (wanted.key, wanted.quantity) ∈ (account.purchases.desiredLicensePools now).map fun row => (row.key, row.quantity) :=
    List.mem_map.mpr ⟨wanted, inside, rfl⟩
  rcases upsertPool_inv done with rfl | ⟨created, fresh, under, bought, rfl⟩
  · have ids : ((updateAt LicensePool.key wanted.key (fun row => { row with quantity := wanted.quantity, active := true })
        account.pools).map LicensePool.id) = account.pools.map LicensePool.id :=
      map_kept (fun row => by split <;> rfl) account.pools
    refine ⟨{ valid with pool_ids := ids ▸ valid.pool_ids, pools_known := ?_ }, ?_, ⟨rfl, rfl, rfl⟩⟩
    · intro pool member
      obtain ⟨old, known, ⟨-, rfl⟩ | ⟨-, rfl⟩⟩ := mem_updateAt.mp member
      · exact valid.pools_known old known
      · exact valid.pools_known pool known
    · intro pool member active
      obtain ⟨old, known, ⟨same, rfl⟩ | ⟨-, rfl⟩⟩ := mem_updateAt.mp member
      · exact same ▸ pair
      · exact settled pool known active
  · refine ⟨{ valid with pool_ids := nodup_fresh valid.pool_ids valid.pools_known fresh, pools_known := known_fresh valid.pools_known fresh },
      ?_, ⟨rfl, rfl, rfl⟩⟩
    intro pool member active
    rcases List.mem_append.mp member with old | new
    · exact settled pool old active
    · obtain rfl := List.mem_singleton.mp new
      rw [under, bought]
      exact pair

private theorem upserts_kept {rows : List WantedPool} (valid : Valid account) (settled : Settled now account)
    (inside : ∀ wanted ∈ rows, wanted ∈ account.purchases.desiredLicensePools now)
    (done : rows.foldlM Account.upsertPool account = .ok next) : Valid next ∧ Settled now next ∧ PoolsWritten account next := by
  induction rows generalizing account with
  | nil =>
    cases done
    exact ⟨valid, settled, .refl _⟩
  | cons wanted rest ih =>
    rw [List.foldlM_cons] at done
    obtain ⟨middle, first, done⟩ := bind_ok done
    obtain ⟨validToo, settledToo, written⟩ := upsertPool_kept valid settled (inside wanted (by simp)) first
    have bought := written.purchases
    obtain ⟨last, satisfied, writtenToo⟩ := ih validToo settledToo (fun row member => bought ▸ inside row (by simp [member])) done
    exact ⟨last, satisfied, written.trans writtenToo⟩

private theorem sync_kept (valid : Valid account) (done : account.syncLicensePools now = .ok next) :
    Valid next ∧ Settled now next ∧ PoolsWritten account next := by
  unfold Account.syncLicensePools at done
  split at done
  next current =>
    cases done
    refine ⟨valid, ?_, .refl account⟩
    intro pool member active
    rw [Account.poolsCurrent, Bool.and_eq_true] at current
    have stored := List.all_eq_true.mp current.2 (pool.key, pool.quantity)
      (List.mem_map.mpr ⟨pool, List.mem_filter.mpr ⟨member, active⟩, rfl⟩)
    exact List.contains_iff_mem.mp stored
  next =>
    have cleared : Valid { account with pools := account.pools.map fun row => { row with active := false } } := by
      refine { valid with pool_ids := ?_, pools_known := ?_ }
      · have ids : ((account.pools.map fun row => { row with active := false }).map LicensePool.id) = account.pools.map LicensePool.id := by
          rw [List.map_map]
          rfl
        exact ids ▸ valid.pool_ids
      · intro pool member
        obtain ⟨old, known, rfl⟩ := List.mem_map.mp member
        exact valid.pools_known old known
    have unsettled : Settled now { account with pools := account.pools.map fun row => { row with active := false } } := by
      intro pool member active
      obtain ⟨old, -, rfl⟩ := List.mem_map.mp member
      cases active
    obtain ⟨validToo, settled, written⟩ := upserts_kept cleared unsettled (fun _ member => member) done
    exact ⟨validToo, settled, written.purchases, written.assignments, written.entities⟩

end Sync

section Assign
variable {now : Int} {account next : Account} {entity : Entity}

private theorem resolveEntity_inv {externalId : Text} (done : account.resolveEntity externalId = .ok entity) :
    entity ∈ account.entities ∧ entity.externalId = externalId := by
  unfold Account.resolveEntity at done
  split at done
  · cases done
  · cases done
    exact findAt_inv ‹_›

private theorem activePool_inv {poolId : Nat} (done : account.activePool poolId = .ok pool) :
    pool ∈ account.pools ∧ pool.id = poolId ∧ pool.active = true := by
  unfold Account.activePool at done
  split at done
  · cases done
  next found =>
    cases done
    have named := List.find?_some found
    rw [Bool.and_eq_true, decide_eq_true_eq] at named
    exact ⟨List.mem_of_find?_eq_some found, named⟩

private theorem insertAssignment_inv {quantity : Nat} (done : account.insertAssignment now pool entity quantity = .ok next) :
    account.assignedQuantity pool.id + quantity ≤ pool.quantity ∧
    next = { account with
      assignments := account.assignments ++
        [{ id := account.nextAssignmentId, licensePoolId := pool.id, entityId := entity.id, quantity := quantity, assignedAt := now,
           revokedAt := none }]
      nextAssignmentId := account.nextAssignmentId + 1 } := by
  unfold Account.insertAssignment at done
  split at done
  · cases done
  · split at done
    · cases done
    next room =>
      cases done
      exact ⟨not_lt.mp room, rfl⟩

private theorem assignLicense_inv {input : AssignInput} (done : account.assignLicense now input = .ok next) :
    ∃ entity ∈ account.entities, ∃ synced pool quantity, account.syncLicensePools now = .ok synced ∧ pool ∈ synced.pools ∧
      pool.id = input.poolId ∧ pool.active = true ∧ synced.insertAssignment now pool entity quantity = .ok next := by
  unfold Account.assignLicense at done
  obtain ⟨entity, resolved, done⟩ := bind_ok done
  obtain ⟨quantity, -, done⟩ := bind_ok done
  obtain ⟨synced, brought, done⟩ := bind_ok done
  obtain ⟨pool, found, done⟩ := bind_ok done
  obtain ⟨inside, named, active⟩ := activePool_inv found
  exact ⟨entity, (resolveEntity_inv resolved).1, synced, pool, quantity, brought, inside, named, active, done⟩

private theorem revokeLicense_inv {assignmentId : Nat} (done : account.revokeLicense now assignmentId = .ok next) :
    next = { account with
      assignments := updateAt LicenseAssignment.id assignmentId
        (fun row => { row with revokedAt := some (row.revokedAt.getD now) }) account.assignments } := by
  unfold Account.revokeLicense at done
  split at done
  · cases done
  · split at done
    · cases done
    · cases done
      rfl

private theorem createEntity_valid (valid : Valid account) (externalId : Text) : Valid (account.createEntity externalId) := by
  unfold Account.createEntity
  split
  · exact valid
  · refine { valid with
      entity_ids := nodup_fresh valid.entity_ids valid.entities_known rfl
      entities_known := known_fresh valid.entities_known rfl
      assigned_entity := ?_ }
    intro row member
    rw [List.map_append, List.mem_append]
    exact .inl (valid.assigned_entity row member)

private theorem insertAssignment_valid (valid : Valid account) {quantity : Nat}
    (known : entity ∈ account.entities) (done : account.insertAssignment now pool entity quantity = .ok next) : Valid next := by
  obtain ⟨-, rfl⟩ := insertAssignment_inv done
  refine { valid with
    assignment_ids := nodup_fresh valid.assignment_ids valid.assignments_known rfl
    assignments_known := known_fresh valid.assignments_known rfl
    assigned_entity := ?_ }
  intro row member
  rcases List.mem_append.mp member with old | new
  · exact valid.assigned_entity row old
  · obtain rfl := List.mem_singleton.mp new
    exact List.mem_map_of_mem known

private theorem revoke_valid (valid : Valid account) {assignmentId : Nat} (done : account.revokeLicense now assignmentId = .ok next) :
    Valid next := by
  obtain rfl := revokeLicense_inv done
  have kept {row : LicenseAssignment} (member : row ∈ updateAt LicenseAssignment.id assignmentId
      (fun row => { row with revokedAt := some (row.revokedAt.getD now) }) account.assignments) :
      ∃ old ∈ account.assignments, row.id = old.id ∧ row.entityId = old.entityId := by
    obtain ⟨old, known, ⟨-, rfl⟩ | ⟨-, rfl⟩⟩ := mem_updateAt.mp member
    · exact ⟨old, known, rfl, rfl⟩
    · exact ⟨row, known, rfl, rfl⟩
  refine { valid with assignment_ids := ?_, assignments_known := ?_, assigned_entity := ?_ }
  · have ids : (updateAt LicenseAssignment.id assignmentId (fun row => { row with revokedAt := some (row.revokedAt.getD now) })
        account.assignments).map LicenseAssignment.id = account.assignments.map LicenseAssignment.id := by
      apply updateAt_keys
      intro row
      rfl
    exact ids ▸ valid.assignment_ids
  · intro row member
    obtain ⟨old, known, same, -⟩ := kept member
    exact same ▸ valid.assignments_known old known
  · intro row member
    obtain ⟨old, known, -, same⟩ := kept member
    exact same ▸ valid.assigned_entity old known

private theorem step_valid (valid : Valid account) (step : Step account next) : Valid next := by
  cases step with
  | purchased purchases => exact { valid with }
  | synced now done => exact (sync_kept valid done).1
  | entity externalId => exact createEntity_valid valid externalId
  | assigned now input done =>
    obtain ⟨entity, known, synced, pool, quantity, brought, -, -, -, done⟩ := assignLicense_inv done
    obtain ⟨validToo, -, written⟩ := sync_kept valid brought
    exact insertAssignment_valid validToo (written.entities ▸ known) done
  | revoked now assignmentId done => exact revoke_valid valid done

private theorem reachable_valid (reachable : Reachable account) : Valid account := by
  obtain ⟨purchases, run⟩ := reachable
  induction run with
  | refl => constructor <;> simp [Account.opened]
  | tail _ step ih => exact step_valid ih step

end Assign

section Honored
variable {now : Int} {account : Account} {row : LicensedRow} {assignment : LicenseAssignment}

def Account.capacity (now : Int) (account : Account) (pool : LicensePool) : Nat :=
  ((findAt WantedPool.key pool.key (account.purchases.desiredLicensePools now)).map WantedPool.quantity).getD 0

private theorem flatMap_if {α β : Type} (p : α → Bool) (f : α → List β) (rows : List α) :
    rows.flatMap (fun row => if p row then f row else []) = (rows.filter p).flatMap f := by
  induction rows with
  | nil => rfl
  | cons row rest ih =>
    rw [List.flatMap_cons, ih]
    cases kept : p row <;> simp [kept]

private theorem joinedRows_inv (member : row ∈ account.joinedRows now featureId assignment) : row.assignment = assignment ∧
      ∃ pool ∈ account.pools, pool.id = assignment.licensePoolId ∧ pool.featureId = featureId := by
  obtain ⟨pool, named, member⟩ := List.mem_flatMap.mp member
  obtain ⟨wanted, -, member⟩ := List.mem_flatMap.mp member
  obtain ⟨subscription, -, rfl⟩ := List.mem_map.mp member
  obtain ⟨inside, matched⟩ := List.mem_filter.mp named
  rw [Bool.and_eq_true, decide_eq_true_eq, decide_eq_true_eq] at matched
  exact ⟨rfl, pool, inside, matched⟩

private theorem licensedRows_inv (member : row ∈ account.licensedRows now featureId) :
    row.assignment ∈ account.assignments ∧
      ∃ pool ∈ account.pools, pool.id = row.assignment.licensePoolId ∧ pool.featureId = featureId := by
  obtain ⟨assignment, held, member⟩ := List.mem_flatMap.mp member
  obtain ⟨rfl, pooled⟩ := joinedRows_inv member
  exact ⟨(List.mem_filter.mp held).1, pooled⟩

private theorem joinedRows_pool (valid : Valid account) (member : pool ∈ account.pools)
    (assigned : assignment.licensePoolId = pool.id) : account.joinedRows now pool.featureId assignment =
      (findAt WantedPool.key pool.key (account.purchases.desiredLicensePools now)).toList.map
        fun wanted => { assignment := assignment, capacity := wanted.quantity } := by
  rw [Account.joinedRows, assigned, filter_key_and valid.pool_ids member, if_pos (decide_eq_true rfl), List.flatMap_singleton,
    filter_findAt (desired_distinct now)]
  cases found : findAt WantedPool.key pool.key (account.purchases.desiredLicensePools now) with
  | none => rfl
  | some wanted =>
    obtain ⟨inside, under⟩ := findAt_inv found
    obtain ⟨subscription, known, live, same⟩ := desired_inv inside
    have named : pool.subscriptionId = subscription.id := (congrArg Prod.fst under).symm.trans same.symm
    rw [Option.toList_some, List.flatMap_singleton, named, filter_key_and account.purchases.subscriptions_distinct known, if_pos live]
    rfl

private theorem licensedRows_pool (valid : Valid account) (member : pool ∈ account.pools) :
    (account.licensedRows now pool.featureId).filter (fun row => decide (row.assignment.licensePoolId = pool.id)) =
      match findAt WantedPool.key pool.key (account.purchases.desiredLicensePools now) with
      | none => []
      | some wanted => (account.held pool.id).map fun row => { assignment := row, capacity := wanted.quantity } := by
  have each (row : LicenseAssignment) : (account.joinedRows now pool.featureId row).filter
      (fun row => decide (row.assignment.licensePoolId = pool.id)) =
        if decide (row.licensePoolId = pool.id) then account.joinedRows now pool.featureId row else [] := by
    by_cases here : row.licensePoolId = pool.id
    · rw [if_pos (decide_eq_true here), List.filter_eq_self]
      intro joined inside
      rw [(joinedRows_inv inside).1, decide_eq_true_eq]
      exact here
    · rw [if_neg (by simpa using here), List.filter_eq_nil_iff]
      intro joined inside
      rw [(joinedRows_inv inside).1, decide_eq_true_eq]
      exact here
  have joined : ∀ row ∈ account.held pool.id, account.joinedRows now pool.featureId row =
      (findAt WantedPool.key pool.key (account.purchases.desiredLicensePools now)).toList.map
        fun wanted => { assignment := row, capacity := wanted.quantity } := by
    intro row inside
    have named := (List.mem_filter.mp inside).2
    rw [Bool.and_eq_true, decide_eq_true_eq] at named
    exact joinedRows_pool valid member named.1
  rw [Account.licensedRows, List.filter_flatMap, funext each, flatMap_if, List.filter_filter]
  change (account.held pool.id).flatMap _ = _
  rw [List.flatMap_congr joined]
  cases findAt WantedPool.key pool.key (account.purchases.desiredLicensePools now) with
  | none => exact List.flatMap_eq_nil_iff.mpr fun _ _ => rfl
  | some wanted => exact (List.map_eq_flatMap ..).symm

def LicensedRow.room (row : LicensedRow) : Int :=
  row.assignment.quantity

def LicensedRow.turn (row : LicensedRow) : (Int ×ₗ Nat)ᵒᵈ :=
  OrderDual.toDual row.position

def ofPool (poolId : Nat) (rows : List LicensedRow) : List LicensedRow :=
  rows.filter fun row => decide (row.assignment.licensePoolId = poolId)

private theorem honored_window {rows : List LicensedRow} {poolId : Nat} (distinct : ((ofPool poolId rows).map LicensedRow.turn).Nodup)
    (member : row ∈ ofPool poolId rows) :
    row.honored rows = windowTaken LicensedRow.room LicensedRow.turn row.capacity (ofPool poolId rows) row := by
  have here : row.assignment.licensePoolId = poolId := of_decide_eq_true (List.mem_filter.mp member).2
  have total : row.runningTotal rows = roomBefore LicensedRow.room LicensedRow.turn (ofPool poolId rows) row + row.room := by
    rw [← roomBefore_add distinct member, ofPool, List.filter_filter, LicensedRow.runningTotal, here]
    congr 2
    apply List.filter_congr
    intro other _
    rw [Bool.and_comm]
    congr 1
  rw [LicensedRow.honored, windowTaken, total]
  congr 2
  exact congrArg _ (by rw [LicensedRow.room]; ring)

private theorem ofPool_distinct (valid : Valid account) {pool : LicensePool} (member : pool ∈ account.pools) :
    ((ofPool pool.id (account.licensedRows now pool.featureId)).map LicensedRow.turn).Nodup := by
  apply List.Nodup.of_map (fun turn : (Int ×ₗ Nat)ᵒᵈ => (ofLex (OrderDual.ofDual turn)).2)
  rw [List.map_map, ofPool, licensedRows_pool valid member]
  cases findAt WantedPool.key pool.key (account.purchases.desiredLicensePools now) with
  | none => exact List.nodup_nil
  | some wanted =>
    rw [List.map_map]
    exact valid.assignment_ids.sublist (List.filter_sublist.map LicenseAssignment.id)

private theorem ofPool_capacity (valid : Valid account) (member : pool ∈ account.pools)
    (inside : row ∈ ofPool pool.id (account.licensedRows now pool.featureId)) : row.capacity = account.capacity now pool := by
  rw [ofPool, licensedRows_pool valid member] at inside
  rw [Account.capacity]
  cases found : findAt WantedPool.key pool.key (account.purchases.desiredLicensePools now) with
  | none => simp [found] at inside
  | some wanted =>
    rw [found] at inside
    obtain ⟨assignment, -, rfl⟩ := List.mem_map.mp inside
    rfl

private theorem pool_honored_sum (valid : Valid account) (member : pool ∈ account.pools) :
    ((ofPool pool.id (account.licensedRows now pool.featureId)).map (LicensedRow.honored (account.licensedRows now pool.featureId))).sum =
      min (account.capacity now pool) (account.assignedQuantity pool.id) := by
  have distinct := @ofPool_distinct now _ valid _ member
  have taken : ∀ row ∈ ofPool pool.id (account.licensedRows now pool.featureId),
      row.honored (account.licensedRows now pool.featureId) = windowTaken LicensedRow.room LicensedRow.turn (account.capacity now pool)
        (ofPool pool.id (account.licensedRows now pool.featureId)) row := by
    intro row inside
    rw [honored_window distinct inside, ofPool_capacity valid member inside]
  have nonnegative : ∀ row ∈ ofPool pool.id (account.licensedRows now pool.featureId), 0 ≤ row.room := fun row _ => Int.natCast_nonneg _
  rw [List.map_congr_left taken, windowTaken_sum (Int.natCast_nonneg _) distinct nonnegative, Nat.cast_min]
  rw [ofPool, licensedRows_pool valid member, Account.capacity]
  cases found : findAt WantedPool.key pool.key (account.purchases.desiredLicensePools now) with
  | none => simp
  | some wanted =>
    rw [List.map_map, Account.assignedQuantity, Nat.cast_list_sum, List.map_map]
    rfl

def Account.honoredFrom (now : Int) (account : Account) (pool : LicensePool) (entityId : Nat) : Int :=
  totalAt (fun row : LicensedRow => row.assignment.entityId) (LicensedRow.honored (account.licensedRows now pool.featureId)) entityId
    (ofPool pool.id (account.licensedRows now pool.featureId))

private theorem entities_honored_sum (valid : Valid account) (member : pool ∈ account.pools) :
    (account.entities.map fun entity => account.honoredFrom now pool entity.id).sum =
      min (account.capacity now pool) (account.assignedQuantity pool.id) := by
  rw [← pool_honored_sum valid member]
  apply totalAt_sum valid.entity_ids
  intro row inside
  exact valid.assigned_entity row.assignment (licensedRows_inv (List.mem_filter.mp inside).1).1

private theorem feature_honored_sum (valid : Valid account) (featureId : Nat) :
    (account.entities.map fun entity => account.honoredQuantity now featureId entity.id).sum =
      (((account.pools.filter fun pool => decide (pool.featureId = featureId)).map fun pool =>
        min (account.capacity now pool) (account.assignedQuantity pool.id)).sum : Nat) := by
  have everyone : (account.entities.map fun entity => account.honoredQuantity now featureId entity.id).sum =
      ((account.licensedRows now featureId).map (LicensedRow.honored (account.licensedRows now featureId))).sum := by
    apply totalAt_sum valid.entity_ids
    intro row inside
    exact valid.assigned_entity row.assignment (licensedRows_inv inside).1
  have pooled : ((account.pools.filter fun pool => decide (pool.featureId = featureId)).map fun pool =>
      totalAt (fun row : LicensedRow => row.assignment.licensePoolId) (LicensedRow.honored (account.licensedRows now featureId)) pool.id
        (account.licensedRows now featureId)).sum =
      ((account.licensedRows now featureId).map (LicensedRow.honored (account.licensedRows now featureId))).sum := by
    apply totalAt_sum (valid.pool_ids.sublist (List.filter_sublist.map LicensePool.id))
    intro row inside
    obtain ⟨-, pool, known, named, feature⟩ := licensedRows_inv inside
    exact List.mem_map.mpr ⟨pool, List.mem_filter.mpr ⟨known, decide_eq_true feature⟩, named⟩
  rw [everyone, ← pooled, Nat.cast_list_sum, List.map_map]
  congr 1
  apply List.map_congr_left
  intro pool inside
  obtain ⟨known, feature⟩ := List.mem_filter.mp inside
  obtain rfl := of_decide_eq_true feature
  exact pool_honored_sum valid known

/-- Some of the assignment is honored, and some is not. -/
def LicensedRow.cutShort (rows : List LicensedRow) (row : LicensedRow) : Prop :=
  0 < row.honored rows ∧ row.honored rows < row.assignment.quantity

section Pair
variable {first second : LicensedRow} (valid : Valid account) (inside : first ∈ account.licensedRows now featureId)
  (also : second ∈ account.licensedRows now featureId)
  (same : first.assignment.licensePoolId = second.assignment.licensePoolId)
include valid inside also same

omit valid in
private theorem same_pool : ∃ pool ∈ account.pools, pool.featureId = featureId ∧ first ∈ ofPool pool.id (account.licensedRows now featureId) ∧
    second ∈ ofPool pool.id (account.licensedRows now featureId) := by
  obtain ⟨-, pool, member, named, feature⟩ := licensedRows_inv inside
  exact ⟨pool, member, feature, List.mem_filter.mpr ⟨inside, decide_eq_true named.symm⟩,
    List.mem_filter.mpr ⟨also, decide_eq_true (same.symm.trans named.symm)⟩⟩

/-- An assignment is honored in full before the next one of its pool is honored at all. -/
private theorem honored_prefix (earlier : first.position < second.position)
    (counts : 0 < second.honored (account.licensedRows now featureId)) :
    first.honored (account.licensedRows now featureId) = first.assignment.quantity := by
  obtain ⟨pool, member, rfl, here, there⟩ := same_pool inside also same
  have distinct := @ofPool_distinct now _ valid _ member
  have nonnegative : ∀ row ∈ ofPool pool.id (account.licensedRows now pool.featureId), 0 ≤ row.room := fun row _ => Int.natCast_nonneg _
  rw [honored_window distinct there, ofPool_capacity valid member there] at counts
  rw [honored_window distinct here, ofPool_capacity valid member here]
  exact windowTaken_full nonnegative here (OrderDual.toDual_lt_toDual.mpr earlier) counts

private theorem honored_order (cut : first.cutShort (account.licensedRows now featureId))
    (counts : 0 < second.honored (account.licensedRows now featureId)) :
    second.position ≤ first.position := by
  by_contra later
  have full := honored_prefix valid inside also same (not_le.mp later) counts
  exact absurd full cut.2.ne

private theorem cutShort_once (cut : first.cutShort (account.licensedRows now featureId))
    (cutToo : second.cutShort (account.licensedRows now featureId)) :
    first = second := by
  have position : first.position = second.position :=
    le_antisymm (honored_order valid also inside same.symm cutToo cut.1) (honored_order valid inside also same cut cutToo.1)
  obtain ⟨pool, member, rfl, here, there⟩ := same_pool inside also same
  exact List.inj_on_of_nodup_map (ofPool_distinct valid member) here there (congrArg OrderDual.toDual position)

end Pair

/-- What a check honors of an account's assignments, whatever their pools have of capacity now. -/
structure HonoredWithin (now : Int) (account : Account) : Prop where
  pools : ∀ pool ∈ account.pools, (account.entities.map fun entity => account.honoredFrom now pool entity.id).sum =
    min (account.capacity now pool) (account.assignedQuantity pool.id)
  features : ∀ featureId, (account.entities.map fun entity => account.honoredQuantity now featureId entity.id).sum =
    (((account.pools.filter fun pool => decide (pool.featureId = featureId)).map fun pool =>
      min (account.capacity now pool) (account.assignedQuantity pool.id)).sum : Nat)
  ordered : ∀ featureId, ∀ first ∈ account.licensedRows now featureId, ∀ second ∈ account.licensedRows now featureId,
    first.assignment.licensePoolId = second.assignment.licensePoolId → first.position < second.position →
      0 < second.honored (account.licensedRows now featureId) →
        first.honored (account.licensedRows now featureId) = first.assignment.quantity
  once : ∀ featureId, ∀ first ∈ account.licensedRows now featureId, ∀ second ∈ account.licensedRows now featureId,
    first.assignment.licensePoolId = second.assignment.licensePoolId → first.cutShort (account.licensedRows now featureId) →
      second.cutShort (account.licensedRows now featureId) → first = second

private theorem honored_within (valid : Valid account) (now : Int) : HonoredWithin now account where
  pools _ member := entities_honored_sum valid member
  features := feature_honored_sum valid
  ordered _ _ inside _ also := honored_prefix valid inside also
  once _ _ inside _ also := cutShort_once valid inside also

end Honored

section Capacity
variable {now : Int} {account next : Account}

private theorem settled_capacity (settled : Settled now account) (member : pool ∈ account.pools) (active : pool.active = true) :
    account.capacity now pool = pool.quantity := by
  obtain ⟨wanted, inside, same⟩ := List.mem_map.mp (settled pool member active)
  obtain ⟨under, bought⟩ := Prod.mk.injEq .. ▸ same
  have found := findAt_member (desired_distinct now) inside
  rw [under] at found
  rw [Account.capacity, found, Option.map_some, Option.getD_some, bought]

private theorem assign_within_capacity (valid : Valid account) {input : AssignInput} (done : account.assignLicense now input = .ok next) :
    ∃ pool ∈ next.pools, pool.id = input.poolId ∧ next.assignedQuantity pool.id ≤ next.capacity now pool ∧
      ∀ other, other ≠ pool.id → next.assignedQuantity other = account.assignedQuantity other := by
  obtain ⟨entity, -, synced, pool, quantity, brought, member, named, active, done⟩ := assignLicense_inv done
  obtain ⟨-, settled, written⟩ := sync_kept valid brought
  obtain ⟨room, rfl⟩ := insertAssignment_inv done
  refine ⟨pool, member, named, ?_, ?_⟩
  · have capacity := settled_capacity settled member active
    simp only [Account.capacity] at capacity ⊢
    rw [capacity]
    simpa [Account.assignedQuantity, Account.held, LicenseAssignment.unrevoked] using room
  · intro other apart
    simp [Account.assignedQuantity, Account.held, written.assignments, Ne.symm apart]

end Capacity

/-- In every account that purchases, assignments and revocations lead to, the entities are honored for what each pool has of capacity and
assignments, earlier assignments first; and no assignment takes a pool above its capacity of the moment. -/
theorem licenses_within_capacity {account : Account} (reachable : Reachable account) (now : Int) :
    HonoredWithin now account ∧
      ∀ input next, account.assignLicense now input = .ok next →
        ∃ pool ∈ next.pools, pool.id = input.poolId ∧ next.assignedQuantity pool.id ≤ next.capacity now pool ∧
          ∀ other, other ≠ pool.id → next.assignedQuantity other = account.assignedQuantity other := by
  have valid := reachable_valid reachable
  exact ⟨honored_within valid now, fun input next done => assign_within_capacity valid done⟩

def seats (quantity : Nat) : Purchases where
  subscriptions := [{ id := 1, planVersionId := 1, status := .active, expiresAt := none }]
  planItems := [{ id := 1, planVersionId := 1, featureId := 1, itemKind := .licensedQuantity, allocationScope := .licensePool, quantity := 1 }]
  priceComponents := [{ id := 1, planItemId := some 1, componentKind := .licensed }]
  subscriptionItems := [{ subscriptionId := 1, priceComponentId := 1, quantity := quantity, active := true }]
  subscriptions_distinct := List.nodup_singleton _
  planItems_distinct := List.nodup_singleton _
  priced_once := List.nodup_singleton _
  bought_once := List.nodup_singleton _

def downgraded : Account where
  purchases := seats 6
  pools := [{ id := 1, subscriptionId := 1, planItemId := 1, featureId := 1, quantity := 8, active := true }]
  assignments :=
    [{ id := 1, licensePoolId := 1, entityId := 1, quantity := 5, assignedAt := 10, revokedAt := none },
     { id := 2, licensePoolId := 1, entityId := 2, quantity := 3, assignedAt := 20, revokedAt := none }]
  entities := [{ id := 1, externalId := ['a'] }, { id := 2, externalId := ['b'] }]
  nextPoolId := 2
  nextAssignmentId := 3
  nextEntityId := 3

private theorem downgraded_reachable : Reachable downgraded := by
  let joined := ((Account.opened (seats 8)).createEntity ['a']).createEntity ['b']
  let half : Account := { downgraded with purchases := seats 8, assignments := downgraded.assignments.take 1, nextAssignmentId := 2 }
  have first : joined.assignLicense 10 { poolId := 1, entityId := ['a'], quantity := 5 } = .ok half := rfl
  have second : half.assignLicense 20 { poolId := 1, entityId := ['b'], quantity := 3 } = .ok { downgraded with purchases := seats 8 } :=
    rfl
  have created : Relation.ReflTransGen Step (Account.opened (seats 8)) joined := .tail (.tail .refl (.entity _ ['a'])) (.entity _ ['b'])
  exact ⟨seats 8, .tail (.tail (.tail created (.assigned 10 _ first)) (.assigned 20 _ second)) (.purchased _ (seats 6))⟩

theorem licenses_within_capacity_downgraded :
    HonoredWithin 30 downgraded ∧ downgraded.honoredQuantity 30 1 1 = 5 ∧ downgraded.honoredQuantity 30 1 2 = 1 :=
  ⟨(licenses_within_capacity downgraded_reachable 30).1, by decide, by decide⟩

section Checks
variable {now : Int} {account : Account} {featureId : Nat}

private theorem honoredQuantity_nonneg (entityId : Nat) : 0 ≤ account.honoredQuantity now featureId entityId := by
  apply List.sum_nonneg
  intro quantity member
  obtain ⟨row, -, rfl⟩ := List.mem_map.mp member
  exact le_min (Int.natCast_nonneg _) (le_max_right _ _)

private theorem checkEntityLicense_allowed {entityId : Text} {required : Int} {decision : EntityLicenseDecision}
    (done : account.checkEntityLicense now entityId featureId required = .ok decision) (allowed : decision.allowed = true) :
    ∃ entity ∈ account.entities, entity.externalId = entityId ∧ required ≤ account.honoredQuantity now featureId entity.id := by
  obtain ⟨quantity, bounded, done⟩ := bind_ok done
  obtain ⟨entity, resolved, done⟩ := bind_ok done
  cases done
  obtain ⟨known, named⟩ := resolveEntity_inv resolved
  have natural : (quantity : Int) = required := by
    rw [boundedInteger] at bounded
    split at bounded
    · cases bounded
    · cases bounded
      omega
  exact ⟨entity, known, named, natural ▸ of_decide_eq_true allowed⟩

/-- Distinct entities that each cover a quantity cover them together. -/
private theorem covered_sum {quantity : Entity → Int} (nonneg : ∀ entity, 0 ≤ quantity entity) {checks : List (Text × Int)}
    (distinct : (checks.map Prod.fst).Nodup) {entities : List Entity}
    (covered : ∀ check ∈ checks, ∃ entity ∈ entities, entity.externalId = check.1 ∧ check.2 ≤ quantity entity) :
    (checks.map Prod.snd).sum ≤ (entities.map quantity).sum := by
  induction checks generalizing entities with
  | nil =>
    apply List.sum_nonneg
    intro value member
    obtain ⟨entity, -, rfl⟩ := List.mem_map.mp member
    exact nonneg entity
  | cons check rest ih =>
    obtain ⟨apart, distinct⟩ := List.nodup_cons.mp distinct
    obtain ⟨entity, inside, named, enough⟩ := covered check List.mem_cons_self
    have others : (rest.map Prod.snd).sum ≤ ((entities.erase entity).map quantity).sum := by
      apply ih distinct
      intro other member
      obtain ⟨another, there, called, also⟩ := covered other (List.mem_cons_of_mem _ member)
      refine ⟨another, (List.mem_erase_of_ne ?_).mpr there, called, also⟩
      rintro rfl
      exact apart (List.mem_map.mpr ⟨other, member, called.symm.trans named⟩)
    rw [((List.perm_cons_erase inside).map quantity).sum_eq]
    exact Int.add_le_add enough others

/-- The checks of distinct entities that are allowed at one moment never ask for more of a feature than its pools have of capacity. -/
theorem allowed_within_capacity (reachable : Reachable account) (now : Int) (featureId : Nat) {checks : List (Text × Int)}
    (distinct : (checks.map Prod.fst).Nodup)
    (allowed : ∀ check ∈ checks, ∃ decision, account.checkEntityLicense now check.1 featureId check.2 = .ok decision ∧ decision.allowed = true) :
    (checks.map Prod.snd).sum ≤
      (((account.pools.filter fun pool => decide (pool.featureId = featureId)).map (account.capacity now)).sum : Nat) := by
  have covered : ∀ check ∈ checks, ∃ entity ∈ account.entities, entity.externalId = check.1 ∧
      check.2 ≤ account.honoredQuantity now featureId entity.id := by
    intro check member
    obtain ⟨decision, done, yes⟩ := allowed check member
    exact checkEntityLicense_allowed done yes
  apply (covered_sum (fun entity => honoredQuantity_nonneg entity.id) distinct covered).trans
  rw [feature_honored_sum (reachable_valid reachable)]
  exact Int.ofNat_le.mpr (List.sum_le_sum fun pool _ => min_le_left _ _)

end Checks

def downgradedChecks : List (Text × Int) := [(['a'], 5), (['b'], 1)]

/-- After the downgrade the second entity is allowed one of the three licenses it was assigned. -/
theorem allowed_within_capacity_downgraded : (downgradedChecks.map Prod.snd).sum ≤
    (((downgraded.pools.filter fun pool => decide (pool.featureId = 1)).map (downgraded.capacity 30)).sum : Nat) := by
  have distinct : (downgradedChecks.map Prod.fst).Nodup := by decide
  apply allowed_within_capacity downgraded_reachable 30 1 distinct
  intro check member
  rcases List.mem_pair.mp member with rfl | rfl
  · exact ⟨⟨5, 5, true⟩, rfl, rfl⟩
  · exact ⟨⟨1, 1, true⟩, rfl, rfl⟩

end Quotum.Licenses
