import Quotum.Rollovers
import Quotum.Proofs.OperatorGrants

/-! A pool's rolled-over quantity over every run of usage, grants and rollovers. -/

namespace Quotum.Rollovers
open General Metering
open OperatorGrants (nextAllocation expired nextAllocation_fresh)

/-- What a pool's rollovers can still give. -/
def rolledAvailable (pool : Pool) (state : RolledLedger) : Nat :=
  ((state.ledger.allocations.filter (inPool pool)).map (spendable state.ledger.now)).sum

def rolledHeld (pool : Pool) (state : RolledLedger) : Nat :=
  ((state.ledger.allocations.filter (inPool pool)).map Allocation.heldQuantity).sum

/-- What of a pool's rollovers is not spent. -/
def unspent (pool : Pool) (state : RolledLedger) : Nat :=
  rolledAvailable pool state + rolledHeld pool state

/-- The states an account reaches by usage, grants and rollovers, with the most that was held of a pool's rollovers as a rollover ran. -/
inductive Reaches (catalog : Catalog) (proportion : Nat → Nat → Nat → Nat) (policies : Nat → Option RolloverPolicy) (pool : Pool) :
    Nat → RolledLedger → Prop where
  | opened (now : Time) : Reaches catalog proportion policies pool 0 (opened now)
  | usage {most : Nat} {state next : RolledLedger} (reached : Reaches catalog proportion policies pool most state)
      (operation : Metering.Operation) (spends : operation.corrects = false)
      (done : meterUsage catalog proportion state operation = .ok next) : Reaches catalog proportion policies pool most next
  | grant {most : Nat} {state next : RolledLedger} (reached : Reaches catalog proportion policies pool most state)
      (row : Allocation) (done : grantAllocation row state = .ok next) : Reaches catalog proportion policies pool most next
  | rollOver {most : Nat} {state next : RolledLedger} (reached : Reaches catalog proportion policies pool most state)
      (limit : Nat) (busy : Allocation → Bool) (done : materializeExpiredRollovers policies limit busy state = .ok next) :
      Reaches catalog proportion policies pool (max most (rolledHeld pool state)) next

def isRollover (row : Allocation) : Bool :=
  row.sourceKind == .rollover

/-- What every run keeps: each rollover has its allocation, and no allowance two rollovers. -/
structure Sound (state : RolledLedger) : Prop where
  rows : (state.ledger.allocations.map Allocation.id).Nodup
  rolled : (state.ledger.allocations.filter isRollover).map Allocation.id = state.rollovers.map Rollover.allocation
  apart : (state.rollovers.map Rollover.origin).Nodup
  within : ∀ row ∈ state.ledger.allocations, isRollover row = true →
    row.reversedQuantity + row.consumedQuantity + row.heldQuantity ≤ row.quantity

section Rows
variable {now : Time} {pool : Pool} {row result : Allocation}

private theorem spends_opens {consume release : Nat} (spends : RowSpends now consume release row result) :
    result.isOpen now = row.isOpen now ∧ poolOf result = poolOf row := by
  cases spends with
  | settles held within => exact ⟨rfl, rfl⟩
  | takes consumed held quiet within => exact ⟨rfl, rfl⟩

private theorem not_operator (rollover : isRollover row = true) :
    ¬ (row.sourceKind = .operator ∧ row.reversedAt.isSome = true) := by
  rw [isRollover, beq_iff_eq] at rollover
  rw [rollover]
  nofun

private theorem spends_unspent {consume release : Nat} (rollover : isRollover row = true)
    (spends : RowSpends now consume release row result) :
    spendable now result + result.heldQuantity ≤ spendable now row + row.heldQuantity := by
  have opens := (spends_opens spends).1
  have kind := not_operator rollover
  rw [spendable, spendable, opens]
  cases spends with
  | settles held within =>
    rw [spendable] at within
    by_cases opened : row.isOpen now = true
    · simp only [if_pos opened, settled, if_neg kind, Allocation.available] at within ⊢
      omega
    · simp only [if_neg opened, settled] at within ⊢
      omega
  | takes consumed held quiet within =>
    rw [spendable] at within
    by_cases opened : row.isOpen now = true
    · simp only [if_pos opened, Allocation.available] at within ⊢
      omega
    · simp only [if_neg opened] at within ⊢
      omega

private theorem spends_within {consume release : Nat} (rollover : isRollover row = true)
    (within : row.reversedQuantity + row.consumedQuantity + row.heldQuantity ≤ row.quantity)
    (spends : RowSpends now consume release row result) :
    result.reversedQuantity + result.consumedQuantity + result.heldQuantity ≤ result.quantity := by
  have kind := not_operator rollover
  cases spends with
  | settles held taken =>
    rw [spendable] at taken
    simp only [settled, if_neg kind, Allocation.available] at taken ⊢
    split at taken <;> omega
  | takes consumed held quiet taken =>
    rw [spendable] at taken
    simp only [Allocation.available] at taken ⊢
    split at taken <;> omega

private theorem spendable_later {later : Time} (order : now ≤ later) (row : Allocation) : spendable later row ≤ spendable now row := by
  rw [spendable, spendable]
  by_cases opened : row.isOpen later = true
  · have before : row.isOpen now = true := by
      rw [Allocation.isOpen, Bool.and_eq_true] at opened ⊢
      refine ⟨opened.1, ?_⟩
      cases known : row.expiresAt with
      | none => rfl
      | some expiry =>
        have early := opened.2
        rw [known] at early
        have ahead : later < expiry := of_decide_eq_true early
        exact decide_eq_true (order.trans_lt ahead)
    rw [if_pos opened, if_pos before]
  · rw [if_neg opened]
    exact Nat.zero_le _

private theorem pool_rollover (inside : inPool pool row = true) : isRollover row = true :=
  (Bool.and_eq_true _ _ ▸ inside : _ ∧ _).1

end Rows

private theorem unspent_eq (pool : Pool) (state : RolledLedger) : unspent pool state =
    ((state.ledger.allocations.filter (inPool pool)).map fun row => spendable state.ledger.now row + row.heldQuantity).sum :=
  List.sum_map_add.symm

section Usage
variable {catalog : Catalog} {proportion : Nat → Nat → Nat → Nat} {pool : Pool} {state next : RolledLedger}

private theorem write_sound {ledger : Ledger} (sound : Sound state) (write : UsageWrite state.ledger ledger) :
    Sound { state with ledger } ∧ unspent pool { state with ledger } ≤ unspent pool state := by
  obtain ⟨⟨consume, release, spends⟩, later⟩ := write
  have ids := rowsSpend_ids spends
  obtain ⟨change, rows, kept, each⟩ := spends
  have spent : ∀ row ∈ state.ledger.allocations, isRollover row = true →
      RowSpends state.ledger.now (consume row.id) (release row.id) row (change row) := by
    intro row member rollover
    refine each row member ?_
    rw [eq_of_beq rollover]
    nofun
  have kind : ∀ row ∈ state.ledger.allocations, isRollover (change row) = isRollover row := by
    intro row member
    rw [isRollover, (kept row member).2, isRollover]
  have rolled : ∀ row ∈ state.ledger.allocations, inPool pool (change row) = inPool pool row := by
    intro row member
    cases rollover : isRollover row with
    | true => rw [inPool, inPool, (kept row member).2, (spends_opens (spent row member rollover)).2]
    | false =>
      have other := (kind row member).trans rollover
      rw [isRollover] at rollover other
      rw [inPool, inPool, rollover, other, Bool.false_and, Bool.false_and]
  refine ⟨⟨?_, ?_, sound.apart, ?_⟩, ?_⟩
  · rw [ids]
    exact sound.rows
  · have same := @List.filter_congr _ (isRollover ∘ change) isRollover _ kind
    rw [rows, List.filter_map, List.map_map, same, ← sound.rolled]
    exact List.map_congr_left fun row member => (kept row (List.mem_filter.mp member).1).1
  · intro result member rollover
    rw [rows] at member
    obtain ⟨row, inside, rfl⟩ := List.mem_map.mp member
    have before := (kind row inside).symm.trans rollover
    exact spends_within before (sound.within row inside before) (spent row inside before)
  · have same := @List.filter_congr _ (inPool pool ∘ change) (inPool pool) _ rolled
    rw [unspent_eq, unspent_eq]
    dsimp only
    rw [rows, List.filter_map, List.map_map, same]
    refine List.sum_le_sum fun row member => ?_
    obtain ⟨inside, pooled⟩ := List.mem_filter.mp member
    have rollover := pool_rollover pooled
    have order := spends_unspent rollover (spent row inside rollover)
    exact (Nat.add_le_add_right (spendable_later later (change row)) _).trans order

theorem usage_sound (sound : Sound state) {operation : Metering.Operation} (spends : operation.corrects = false)
    (done : meterUsage catalog proportion state operation = .ok next) : Sound next ∧ unspent pool next ≤ unspent pool state := by
  obtain ⟨ledger, applied, written⟩ := bind_ok done
  cases written
  have writes := usage_writes spends sound.rows applied
  clear applied done
  induction writes with
  | refl => exact ⟨sound, le_refl _⟩
  | tail _ write ih =>
    obtain ⟨middle, less⟩ := ih
    obtain ⟨after, final⟩ := @write_sound pool _ _ middle write
    exact ⟨after, final.trans less⟩

private theorem granted_rows {row : Allocation} {rows : List Allocation} (unique : (rows.map Allocation.id).Nodup)
    (fresh : row.id = nextAllocation rows) : ((rows ++ [row]).map Allocation.id).Nodup := by
  rw [List.map_append, List.map_singleton]
  refine List.nodup_append.mpr ⟨unique, List.nodup_singleton _, fun id old other new => ?_⟩
  obtain ⟨known, inside, rfl⟩ := List.mem_map.mp old
  rw [List.mem_singleton.mp new, fresh]
  exact (nextAllocation_fresh rows known inside).ne

theorem grant_sound (sound : Sound state) {row : Allocation} (done : grantAllocation row state = .ok next) :
    Sound next ∧ unspent pool next = unspent pool state := by
  rw [grantAllocation] at done
  split at done
  · cases done
  · next other =>
    obtain ⟨granted, checked, done⟩ := bind_ok done
    have made := (checkRow_inv checked).1
    cases done
    have kind : isRollover granted = false := by
      rw [made]
      exact beq_eq_false_iff_ne.mpr other
    have outside : inPool pool granted = false := by
      rw [isRollover] at kind
      rw [inPool, kind, Bool.false_and]
    refine ⟨⟨granted_rows sound.rows ?_, ?_, sound.apart, ?_⟩, ?_⟩
    · rw [made]
    · rw [List.filter_append, List.filter_singleton, kind]
      exact (congrArg _ (List.append_nil _)).trans sound.rolled
    · intro known member rollover
      rcases List.mem_append.mp member with old | new
      · exact sound.within known old rollover
      · rw [List.mem_singleton.mp new, kind] at rollover
        cases rollover
    · rw [unspent_eq, unspent_eq, List.filter_append, List.filter_singleton, outside]
      exact congrArg _ (congrArg _ (List.append_nil _))

end Usage

section Materialize
variable {policies : Nat → Option RolloverPolicy} {pool : Pool} {state next : RolledLedger} {policy : RolloverPolicy}
  {origin : Allocation} {cap : Nat}

/-- A rollover marks its origin, and inserts an allocation when there is something to roll over and the origin has none yet. -/
private theorem rollOver_inv (done : rollOver policies state origin = .ok next) :
    ∃ processed, next = { state with processed } ∨ ∃ policy units, origin.planItem.bind policies = some policy ∧
      rolloverUnits policy state.ledger.now origin state.ledger.allocations = .ok units ∧ 0 < units ∧
      origin.id ∉ state.rollovers.map Rollover.origin ∧ next = {
        ledger := { state.ledger with allocations := state.ledger.allocations ++
          [rolloverAllocation (nextAllocation state.ledger.allocations) policy origin units state.ledger.now] }
        rollovers := state.rollovers ++ [⟨nextAllocation state.ledger.allocations, origin.id, policy.revision⟩]
        processed } := by
  rw [rollOver] at done
  split at done
  · cases done
    exact ⟨state.processed, .inl rfl⟩
  · next policy known =>
    obtain ⟨units, planned, done⟩ := bind_ok done
    obtain ⟨rolled, inserted, done⟩ := bind_ok done
    cases done
    rw [insertRollover] at inserted
    split at inserted
    · cases inserted
      exact ⟨_, .inl rfl⟩
    · next some =>
      rw [not_or] at some
      obtain ⟨row, checked, inserted⟩ := bind_ok inserted
      rw [(checkRow_inv checked).1] at inserted
      cases inserted
      refine ⟨_, .inr ⟨policy, units, known, planned, Nat.pos_of_ne_zero some.1, fun again => some.2 ?_, rfl⟩⟩
      obtain ⟨rollover, member, same⟩ := List.mem_map.mp again
      exact List.any_eq_true.mpr ⟨rollover, member, decide_eq_true same⟩

private theorem active_eq (sound : Sound state) :
    activeRollover state.ledger.now pool state.ledger.allocations = (rolledAvailable pool state : Int) := by
  have within := sound.within
  rw [activeRollover, rolledAvailable]
  generalize state.ledger.allocations = rows at within
  induction rows with
  | nil => rfl
  | cons row rest ih =>
    have others := ih fun other member => within other (List.mem_cons_of_mem _ member)
    rw [List.filter_cons, List.filter_cons]
    cases pooled : inPool pool row with
    | false =>
      rw [Bool.false_and]
      exact others
    | true =>
      have fits := within row List.mem_cons_self (pool_rollover pooled)
      rw [Bool.true_and, if_pos rfl, List.map_cons, List.sum_cons, Nat.cast_add, ← others, spendable]
      split
      · rw [List.map_cons, List.sum_cons, Int.toNat_of_nonneg]
        rw [Allocation.available]
        omega
      · rw [Nat.cast_zero, zero_add]

/-- What rollovers do to a state: they take nothing of what is held, and a pool's available quantity no further than its maximum. -/
structure Rolls (pool : Pool) (cap : Nat) (origins : List Allocation) (state next : RolledLedger) : Prop where
  now : next.ledger.now = state.ledger.now
  kept : ∀ row ∈ state.ledger.allocations, row ∈ next.ledger.allocations
  held : rolledHeld pool next = rolledHeld pool state
  available : rolledAvailable pool next = rolledAvailable pool state ∨ rolledAvailable pool next ≤ cap
  remainders : ∀ rollover ∈ next.rollovers, rollover ∈ state.rollovers ∨ ∃ origin ∈ origins, origin.id = rollover.origin ∧
    ∃ row ∈ next.ledger.allocations, row.id = rollover.allocation ∧ row.quantity ≤ remainder origin

theorem Rolls.refl (pool : Pool) (cap : Nat) (origins : List Allocation) (state : RolledLedger) : Rolls pool cap origins state state :=
  ⟨rfl, fun _ member => member, rfl, .inl rfl, fun _ member => .inl member⟩

theorem Rolls.trans {first second : List Allocation} {middle : RolledLedger} (before : Rolls pool cap first state middle)
    (after : Rolls pool cap second middle next) : Rolls pool cap (first ++ second) state next := by
  refine ⟨after.now.trans before.now, fun row member => after.kept row (before.kept row member), after.held.trans before.held, ?_, ?_⟩
  · rcases after.available with same | below
    · rw [same]
      exact before.available
    · exact .inr below
  · intro rollover member
    rcases after.remainders rollover member with old | ⟨origin, listed, made⟩
    · rcases before.remainders rollover old with older | ⟨origin, listed, same, row, inside, key, within⟩
      · exact .inl older
      · exact .inr ⟨origin, List.mem_append_left _ listed, same, row, after.kept row inside, key, within⟩
    · exact .inr ⟨origin, List.mem_append_right _ listed, made⟩

private theorem rolled_units {units : Nat} (sound : Sound state) (maximum : policy.maxQuantity = some cap)
    (planned : rolloverUnits policy state.ledger.now origin state.ledger.allocations = .ok units) (positive : 0 < units) :
    rolledAvailable (poolOf origin) state + units ≤ cap := by
  simp only [rolloverUnits, maximum, active_eq sound] at planned
  split at planned
  · cases planned
  · cases planned
    omega

private theorem units_remainder {units : Nat} {rows : List Allocation} {now : Time}
    (planned : rolloverUnits policy now origin rows = .ok units) : units ≤ remainder origin := by
  rw [rolloverUnits] at planned
  split at planned
  · cases planned
    exact le_refl _
  · dsimp only at planned
    split at planned
    · cases planned
    · cases planned
      exact Nat.min_le_left _ _

private theorem rollOver_rolls (item : pool.planItem.bind policies = some policy) (maximum : policy.maxQuantity = some cap)
    (sound : Sound state)
    (done : rollOver policies state origin = .ok next) : Sound next ∧ Rolls pool cap [origin] state next := by
  obtain ⟨processed, rfl | ⟨other, units, known, planned, positive, absent, rfl⟩⟩ := rollOver_inv done
  · exact ⟨⟨sound.rows, sound.rolled, sound.apart, sound.within⟩, rfl, fun _ member => member, rfl, .inl rfl, fun _ member => .inl member⟩
  · refine ⟨⟨granted_rows sound.rows rfl, ?_, ?_, ?_⟩, rfl, fun row member => List.mem_append_left _ member, ?_, ?_, ?_⟩
    · rw [List.filter_append, List.map_append, List.map_append, sound.rolled]
      rfl
    · rw [List.map_append, List.map_singleton]
      refine List.nodup_append.mpr ⟨sound.apart, List.nodup_singleton _, fun id old other new => ?_⟩
      rw [List.mem_singleton.mp new]
      rintro rfl
      exact absent old
    · intro row member rollover
      rcases List.mem_append.mp member with old | new
      · exact sound.within row old rollover
      · rw [List.mem_singleton.mp new]
        exact Nat.zero_le _
    · rw [rolledHeld, List.filter_append, List.map_append, List.sum_append, rolledHeld, List.filter_cons, List.filter_nil]
      split <;> rfl
    · rw [rolledAvailable, List.filter_append, List.map_append, List.sum_append, List.filter_cons, List.filter_nil]
      by_cases same : poolOf origin = pool
      · right
        subst same
        have alike : other = policy := Option.some.inj (known.symm.trans item)
        have fits := rolled_units sound (alike ▸ maximum) planned positive
        rw [rolledAvailable] at fits
        refine (Nat.add_le_add_left ?_ _).trans fits
        split
        · rw [List.map_singleton, List.sum_singleton, spendable]
          split
          · rw [Allocation.available, rolloverAllocation]
            dsimp only
            omega
          · exact Nat.zero_le _
        · exact Nat.zero_le _
      · left
        have outside : inPool pool (rolloverAllocation (nextAllocation state.ledger.allocations) other origin units
            state.ledger.now) = false := by
          rw [inPool, Bool.and_eq_false_iff]
          exact .inr (decide_eq_false same)
        rw [outside]
        rfl
    · intro rollover member
      rcases List.mem_append.mp member with old | new
      · exact .inl old
      · rw [List.mem_singleton.mp new]
        refine .inr ⟨origin, List.mem_singleton_self _, rfl, _, List.mem_append_right _ (List.mem_singleton_self _), rfl, ?_⟩
        exact units_remainder planned

private theorem materialize_rolls {limit : Nat} {busy : Allocation → Bool}
    (item : pool.planItem.bind policies = some policy) (maximum : policy.maxQuantity = some cap) (sound : Sound state)
    (done : materializeExpiredRollovers policies limit busy state = .ok next) :
    Sound next ∧ Rolls pool cap (rolloverOrigins policies limit busy state) state next := by
  rw [materializeExpiredRollovers] at done
  generalize rolloverOrigins policies limit busy state = origins at done ⊢
  induction origins generalizing state with
  | nil =>
    cases done
    exact ⟨sound, .refl _ _ _ _⟩
  | cons origin rest ih =>
    rw [List.foldlM_cons] at done
    obtain ⟨middle, first, done⟩ := bind_ok done
    obtain ⟨kept, rolled⟩ := rollOver_rolls item maximum sound first
    obtain ⟨after, others⟩ := ih kept done
    exact ⟨after, rolled.trans others⟩

end Materialize

section Runs
variable {catalog : Catalog} {proportion : Nat → Nat → Nat → Nat} {policies : Nat → Option RolloverPolicy} {policy : RolloverPolicy}
  {pool : Pool} {cap most : Nat} {state : RolledLedger}

private theorem opened_sound (now : Time) : Sound (opened now) :=
  ⟨List.nodup_nil, rfl, List.nodup_nil, fun _ held => absurd held List.not_mem_nil⟩

theorem run_sound (item : pool.planItem.bind policies = some policy) (maximum : policy.maxQuantity = some cap)
    (reached : Reaches catalog proportion policies pool most state) : Sound state ∧ unspent pool state ≤ cap + most := by
  induction reached with
  | opened now => exact ⟨opened_sound now, Nat.zero_le _⟩
  | usage _ operation spends done ih =>
    obtain ⟨sound, less⟩ := @usage_sound _ _ pool _ _ ih.1 operation spends done
    exact ⟨sound, less.trans ih.2⟩
  | grant _ row done ih =>
    obtain ⟨sound, same⟩ := @grant_sound pool _ _ ih.1 row done
    exact ⟨sound, same.le.trans ih.2⟩
  | @rollOver most state next _ limit busy done ih =>
    obtain ⟨sound, rolls⟩ := materialize_rolls item maximum ih.1 done
    refine ⟨sound, ?_⟩
    have before := ih.2
    rw [unspent] at before ⊢
    rw [rolls.held]
    rcases rolls.available with same | below
    · rw [same]
      exact before.trans (Nat.add_le_add_left (Nat.le_max_left _ _) _)
    · exact Nat.add_le_add below (Nat.le_max_right _ _)

/-- Over every run of grants, holds, consumptions, releases and rollovers, what a pool has unspent exceeds its maximum by no more than
was held of its rollovers as a rollover ran. A rollover takes what the pool can give no further than the maximum, and what an allowance
leaves is rolled over once. -/
theorem rollover_cap (item : pool.planItem.bind policies = some policy) (maximum : policy.maxQuantity = some cap)
    (reached : Reaches catalog proportion policies pool most state) :
    unspent pool state ≤ cap + most ∧ (state.rollovers.map Rollover.origin).Nodup ∧
      (state.ledger.allocations.filter isRollover).map Allocation.id = state.rollovers.map Rollover.allocation ∧
      ∀ limit busy next, materializeExpiredRollovers policies limit busy state = .ok next →
        Rolls pool cap (rolloverOrigins policies limit busy state) state next := by
  obtain ⟨sound, less⟩ := run_sound item maximum reached
  exact ⟨less, sound.apart, sound.rolled, fun limit busy next done => (materialize_rolls item maximum sound done).2⟩

end Runs

section Example
open OperatorGrants (rounding creditRate)

def tenAtMost : RolloverPolicy := ⟨1, some 10, none, fun start => start + 10⟩

def everyItem : Nat → Option RolloverPolicy :=
  fun _ => some tenAtMost

def monthlyPool : Pool := ⟨some 1, some 1, none⟩

def allowance (id : AllocationId) (endsAt : Time) : Allocation :=
  ⟨id, some 1, some 1, 1, none, .subscription, 10, 0, 0, 0, some (endsAt - 10), some endsAt, some endsAt, none, endsAt - 10⟩

def rolledTen (id : AllocationId) (heldQuantity : Nat) (start : Time) : Allocation :=
  ⟨id, some 1, some 1, 1, none, .rollover, 10, 0, 0, heldQuantity, some start, some (start + 10), none, none, start⟩

def holdTen : Reservation := ⟨0, none, creditRate, 10, none, 21, .active, [⟨2, 10, 0⟩]⟩

def rolledOnce : RolledLedger := ⟨⟨10, [allowance 1 10, rolledTen 2 0 10], [], []⟩, [⟨2, 1, 1⟩], [1]⟩

def rolledTwice : RolledLedger :=
  ⟨⟨20, [allowance 1 10, rolledTen 2 10 10, allowance 3 20, rolledTen 4 0 20], [holdTen], []⟩, [⟨2, 1, 1⟩, ⟨4, 3, 1⟩], [1, 3]⟩

private theorem rolledOnce_reached : Reaches OperatorGrants.noPlans rounding everyItem monthlyPool 0 rolledOnce := by
  have granted : grantAllocation (allowance 1 10) (opened 0) = .ok ⟨⟨0, [allowance 1 10], [], []⟩, [], []⟩ := by
    decide
  have waited : meterUsage OperatorGrants.noPlans rounding ⟨⟨0, [allowance 1 10], [], []⟩, [], []⟩ (.wait 10) =
      .ok ⟨⟨10, [allowance 1 10], [], []⟩, [], []⟩ := rfl
  have rolled : materializeExpiredRollovers everyItem 10 (fun _ => false) ⟨⟨10, [allowance 1 10], [], []⟩, [], []⟩ =
      .ok rolledOnce := by
    decide
  exact .rollOver (.usage (.grant (.opened 0) _ granted) _ rfl waited) _ _ rolled

/-- What was rolled over once without a hold stays within the maximum. -/
theorem rollover_cap_unheld : unspent monthlyPool rolledOnce ≤ 10 + 0 ∧ (rolledOnce.rollovers.map Rollover.origin).Nodup ∧
    (rolledOnce.ledger.allocations.filter isRollover).map Allocation.id = rolledOnce.rollovers.map Rollover.allocation ∧
    ∀ limit busy next, materializeExpiredRollovers everyItem limit busy rolledOnce = .ok next →
      Rolls monthlyPool 10 (rolloverOrigins everyItem limit busy rolledOnce) rolledOnce next :=
  @rollover_cap OperatorGrants.noPlans rounding everyItem tenAtMost monthlyPool 10 0 rolledOnce rfl rfl rolledOnce_reached

/-- A hold on what was rolled over makes room for another ten, and both stay unspent. -/
theorem held_rollover_exceeds : ∃ most state, Reaches OperatorGrants.noPlans rounding everyItem monthlyPool most state ∧
    tenAtMost.maxQuantity = some 10 ∧ unspent monthlyPool state = 20 := by
  have held : meterUsage OperatorGrants.noPlans rounding rolledOnce (.reserve creditRate none "10".toList 11 true) =
      .ok ⟨⟨10, [allowance 1 10, rolledTen 2 10 10], [holdTen], []⟩, [⟨2, 1, 1⟩], [1]⟩ := by
    decide
  have granted : grantAllocation (allowance 3 20) ⟨⟨10, [allowance 1 10, rolledTen 2 10 10], [holdTen], []⟩, [⟨2, 1, 1⟩], [1]⟩ =
      .ok ⟨⟨10, [allowance 1 10, rolledTen 2 10 10, allowance 3 20], [holdTen], []⟩, [⟨2, 1, 1⟩], [1]⟩ := by
    decide
  have waited : meterUsage OperatorGrants.noPlans rounding ⟨⟨10, [allowance 1 10, rolledTen 2 10 10, allowance 3 20], [holdTen], []⟩,
      [⟨2, 1, 1⟩], [1]⟩ (.wait 20) =
      .ok ⟨⟨20, [allowance 1 10, rolledTen 2 10 10, allowance 3 20], [holdTen], []⟩, [⟨2, 1, 1⟩], [1]⟩ := rfl
  have rolled : materializeExpiredRollovers everyItem 10 (fun _ => false)
      ⟨⟨20, [allowance 1 10, rolledTen 2 10 10, allowance 3 20], [holdTen], []⟩, [⟨2, 1, 1⟩], [1]⟩ = .ok rolledTwice := by
    decide
  exact ⟨_, rolledTwice, .rollOver (.usage (.grant (.usage rolledOnce_reached _ rfl held) _ granted) _ rfl waited) _ _ rolled,
    rfl, by decide⟩

end Example

end Quotum.Rollovers
