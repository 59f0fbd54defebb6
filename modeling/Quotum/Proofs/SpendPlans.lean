import Quotum.SpendPlans
import Quotum.General.Waterfall
import Quotum.General.Table
import Quotum.General.Outcomes
import Quotum.Proofs.Decimal

/-! What a write takes of the rows that it locked: an approved quantity is always covered, and a confirmation settles exactly. -/

namespace Quotum.SpendPlans
open General Decimal

section Reads

structure Reads (column : Text) (scale : Nat) : Prop where
  isDecimal : IsDecimal column
  fine : fractionDigits column ≤ scale

variable {column : Text}

private theorem readUnits_inv {field : String} {scale units : Nat} (read : readUnits column field scale = .ok units) :
    Reads column scale ∧ units = worth column scale := by
  obtain ⟨canonical, parsed, counted⟩ := bind_ok read
  obtain ⟨isDecimal, fine, same⟩ := unboundedDecimal_inv parsed
  obtain ⟨-, -, units⟩ := decimalToUnits_inv counted
  refine ⟨⟨isDecimal, fine⟩, ?_⟩
  rw [units, same, canonical_worth isDecimal]

theorem Reads.units {scale : Nat} (reads : Reads column scale) (field : String) :
    readUnits column field scale = .ok (worth column scale) := by
  have parsed : databaseDecimal column field scale = .ok (canonicalText column) := unboundedDecimal_ok reads.isDecimal reads.fine
  have fine : fractionDigits (canonicalText column) ≤ scale := by
    rw [canonical_fractionDigits reads.isDecimal]
    exact reads.fine
  simp only [readUnits, parsed, ok_bind, decimalToUnits_ok (canonical_isDecimal reads.isDecimal) fine, canonical_worth reads.isDecimal]

theorem Reads.decimal {scale : Nat} (reads : Reads column scale) : decimalToUnits column scale = .ok (worth column scale) :=
  decimalToUnits_ok reads.isDecimal reads.fine

private theorem reads_rendered (units scale : Nat) : Reads (unitsToDecimal units scale) scale := by
  rw [unitsToDecimal_nat]
  exact ⟨magnitude_isDecimal units scale, magnitude_fits units scale⟩

@[simp] theorem worth_rendered (units scale : Nat) : worth (unitsToDecimal units scale) scale = units := by
  rw [unitsToDecimal_nat, magnitude_worth]

end Reads

structure RowReads (scale : Nat) (row : AllocationRow) : Prop where
  quantity : Reads row.quantity scale
  reversed : Reads row.reversedQuantity scale
  consumed : Reads row.consumedQuantity scale
  held : Reads row.heldQuantity scale

/-- What a row can still give, in units. -/
def availability (scale : Nat) (row : AllocationRow) : Int :=
  (worth row.quantity scale : Int) - worth row.reversedQuantity scale - worth row.consumedQuantity scale - worth row.heldQuantity scale

def spendable (scale : Nat) (row : AllocationRow) : Nat := (availability scale row).toNat

section Balance
variable {scale : Nat} {row : AllocationRow} {rows : List AllocationRow}

theorem RowReads.available (reads : RowReads scale row) : rowAvailable scale row = .ok (availability scale row) := by
  simp only [rowAvailable, reads.quantity.units, reads.reversed.units, reads.consumed.units, reads.held.units, ok_bind]
  rfl

theorem RowReads.breakdown (reads : RowReads scale row) : ∃ entry, breakdownRow scale row = .ok entry := by
  simp only [breakdownRow, reads.quantity.units, reads.reversed.units, reads.consumed.units, reads.held.units, ok_bind]
  exact ⟨_, rfl⟩

private theorem breakdown_inv {entry : AllocationBreakdown} (read : breakdownRow scale row = .ok entry) : RowReads scale row := by
  obtain ⟨_, quantity, read⟩ := bind_ok read
  obtain ⟨_, reversed, read⟩ := bind_ok read
  obtain ⟨_, consumed, read⟩ := bind_ok read
  obtain ⟨_, held, -⟩ := bind_ok read
  exact ⟨(readUnits_inv quantity).1, (readUnits_inv reversed).1, (readUnits_inv consumed).1, (readUnits_inv held).1⟩

def BalanceTotals.rest (totals : BalanceTotals) : Int := totals.granted - totals.consumed - totals.held

theorem RowReads.add (reads : RowReads scale row) (unmarked : row.closed = false) (totals : BalanceTotals) :
    ∃ next, addRow scale totals row = .ok next ∧ next.rest = totals.rest + availability scale row := by
  simp only [addRow, reads.quantity.units, reads.reversed.units, reads.consumed.units, reads.held.units, ok_bind, unmarked,
    Bool.false_eq_true, if_false]
  refine ⟨_, rfl, ?_⟩
  simp only [BalanceTotals.rest, availability, Nat.cast_add]
  omega

private theorem totals_rest (reads : ∀ row ∈ rows, RowReads scale row) (unmarked : ∀ row ∈ rows, row.closed = false) :
    ∀ totals, ∃ next, rows.foldlM (addRow scale) totals = .ok next ∧
      next.rest = totals.rest + (rows.map (availability scale)).sum := by
  induction rows with
  | nil => exact fun totals => ⟨totals, rfl, by simp⟩
  | cons row rest ih =>
    intro totals
    obtain ⟨next, added, here⟩ := (reads row List.mem_cons_self).add (unmarked row List.mem_cons_self) totals
    obtain ⟨last, summed, later⟩ := ih (fun other member => reads other (List.mem_cons_of_mem row member))
      (fun other member => unmarked other (List.mem_cons_of_mem row member)) next
    refine ⟨last, ?_, ?_⟩
    · rw [List.foldlM_cons, added, ok_bind, summed]
    · rw [later, here, List.map_cons, List.sum_cons]
      omega

/-- The available balance of readable rows is what they can still give together, and never below zero. -/
private theorem balance_available (feature : FeatureRow) (reads : ∀ row ∈ rows, RowReads feature.creditScale row)
    (unmarked : ∀ row ∈ rows, row.closed = false) :
    ∃ balance, balanceFromRows feature rows = .ok balance ∧ balance.scale = feature.creditScale ∧
      Reads balance.available feature.creditScale ∧
        worth balance.available feature.creditScale = (rows.map (availability feature.creditScale)).sum.toNat := by
  obtain ⟨totals, summed, rest⟩ := totals_rest reads unmarked ⟨0, 0, 0⟩
  obtain ⟨breakdown, rendered⟩ := mapM_succeeds fun row member => (reads row member).breakdown
  have available : (if totals.granted > totals.consumed + totals.held then totals.granted - totals.consumed - totals.held else 0) =
      (((rows.map (availability feature.creditScale)).sum.toNat : Nat) : Int) := by
    simp only [BalanceTotals.rest] at rest
    split <;> omega
  have read : balanceFromRows feature rows = .ok ⟨feature.key, feature.unit, feature.creditScale,
      unitsToDecimal totals.granted feature.creditScale, unitsToDecimal totals.consumed feature.creditScale,
      unitsToDecimal totals.held feature.creditScale,
      unitsToDecimal (((rows.map (availability feature.creditScale)).sum.toNat : Nat) : Int) feature.creditScale, breakdown⟩ := by
    simp only [balanceFromRows, summed, rendered, ok_bind, available]
    rfl
  exact ⟨_, read, rfl, reads_rendered _ _, worth_rendered _ _⟩

private theorem balance_reads {feature : FeatureRow} {balance : FiniteMeteringBalance} (read : balanceFromRows feature rows = .ok balance) :
    ∀ row ∈ rows, RowReads feature.creditScale row := by
  intro row member
  obtain ⟨_, -, read⟩ := bind_ok read
  obtain ⟨_, rendered, -⟩ := bind_ok read
  obtain ⟨entry, here⟩ := mapM_ok_mem rendered row member
  exact breakdown_inv here

end Balance

def takenUnits (scale : Nat) (deductions : List AllocationDeduction) (row : AllocationRow) : Nat :=
  ((takenOf deductions row).map fun quantity => worth quantity scale).getD 0

/-- Deductions that cover a quantity from rows in their order: each row gives all it can before the next one gives anything. -/
structure Covers (scale quantity : Nat) (rows : List AllocationRow) (deductions : List AllocationDeduction) : Prop where
  total : (deductions.map fun deduction => worth deduction.quantity scale).sum = quantity
  ordered : (deductions.map AllocationDeduction.allocationId).Sublist (rows.map AllocationRow.id)
  distinct : (deductions.map AllocationDeduction.allocationId).Nodup
  within : ∀ deduction ∈ deductions, ∃ row ∈ rows, row.id = deduction.allocationId ∧ Reads deduction.quantity scale ∧
    0 < worth deduction.quantity scale ∧ (worth deduction.quantity scale : Int) ≤ availability scale row
  greedy : ∀ front row back, rows = front ++ row :: back →
    takenUnits scale deductions row = min (spendable scale row) (quantity - (front.map (spendable scale)).sum)

section Walk
variable {scale : Nat} {rows : List AllocationRow}

def rendered (scale : Nat) (poured : List (AllocationRow × Nat)) : List AllocationDeduction :=
  (poured.filter fun entry => decide (0 < entry.2)).map fun entry => allocationDeduction entry.1 (unitsToDecimal entry.2 scale)

private theorem rendered_cons (scale : Nat) (row : AllocationRow) (taken : Nat) (poured : List (AllocationRow × Nat)) :
    rendered scale ((row, taken) :: poured) =
      if 0 < taken then allocationDeduction row (unitsToDecimal taken scale) :: rendered scale poured else rendered scale poured := by
  simp only [rendered, List.filter_cons]
  split
  · next positive => rw [if_pos (of_decide_eq_true positive), List.map_cons]
  · next none => rw [if_neg fun positive => none (decide_eq_true positive)]

private theorem rendered_zero (scale : Nat) (rows : List AllocationRow) : rendered scale (pour (spendable scale) 0 rows) = [] := by
  have none : (pour (spendable scale) 0 rows).filter (fun entry => decide (0 < entry.2)) = [] := by
    apply List.filter_eq_nil_iff.mpr
    intro entry member
    simp [pour_zero member]
  simp only [rendered, none, List.map_nil]

private theorem walk_pours (reads : ∀ row ∈ rows, RowReads scale row) : ∀ remaining, takeFromRows scale remaining rows =
    .ok (rendered scale (pour (spendable scale) remaining rows), remaining - (rows.map (spendable scale)).sum) := by
  induction rows with
  | nil => exact fun remaining => rfl
  | cons row rest ih =>
    intro remaining
    have later := ih fun other member => reads other (List.mem_cons_of_mem row member)
    simp only [takeFromRows]
    by_cases done : remaining = 0
    · rw [if_pos done, done, rendered_zero, Nat.zero_sub]
    · have room : spendable scale row = (availability scale row).toNat := rfl
      simp only [if_neg done, (reads row List.mem_cons_self).available, ok_bind, pour, List.map_cons, List.sum_cons]
      rw [rendered_cons]
      by_cases dry : availability scale row ≤ 0
      · have none : (if availability scale row < remaining then availability scale row else (remaining : Int)) ≤ 0 := by
          split <;> omega
        have nothing : spendable scale row = 0 := by omega
        rw [if_pos none, later, nothing, Nat.zero_min, Nat.sub_zero, Nat.zero_add, if_neg (Nat.lt_irrefl 0)]
      · have taken : (if availability scale row < remaining then availability scale row else (remaining : Int)) =
            ((min (spendable scale row) remaining : Nat) : Int) := by
          split <;> omega
        have positive : 0 < min (spendable scale row) remaining := by omega
        have left : remaining - min (spendable scale row) remaining - (rest.map (spendable scale)).sum =
            remaining - (spendable scale row + (rest.map (spendable scale)).sum) := by
          omega
        rw [taken, if_neg (by omega), Int.toNat_natCast, later, if_pos positive, ok_bind, left]
        rfl

private theorem plan_covers (reads : ∀ row ∈ rows, RowReads scale row) {walletQuantity : Text} (wanted : Reads walletQuantity scale)
    (enough : worth walletQuantity scale ≤ (rows.map (spendable scale)).sum) :
    planDeductions rows scale walletQuantity = .ok (rendered scale (pour (spendable scale) (worth walletQuantity scale) rows)) := by
  have left : worth walletQuantity scale - (rows.map (spendable scale)).sum = 0 := by omega
  simp only [planDeductions, wanted.decimal, ok_bind, walk_pours reads, left]
  rfl

private theorem available_le_spendable (scale : Nat) (rows : List AllocationRow) :
    (rows.map (availability scale)).sum ≤ (((rows.map (spendable scale)).sum : Nat) : Int) := by
  induction rows with
  | nil => exact le_refl _
  | cons row rest ih =>
    simp only [List.map_cons, List.sum_cons, Nat.cast_add, spendable] at ih ⊢
    omega

private theorem rendered_ids (scale quantity : Nat) (rows : List AllocationRow) :
    ((rendered scale (pour (spendable scale) quantity rows)).map AllocationDeduction.allocationId).Sublist (rows.map AllocationRow.id) := by
  have sublist := (@List.filter_sublist _ (fun entry : AllocationRow × Nat => decide (0 < entry.2))
    (pour (spendable scale) quantity rows)).map (fun entry => entry.1.id)
  rw [pour_keys AllocationRow.id] at sublist
  simpa only [rendered, List.map_map, Function.comp_def, allocationDeduction] using sublist

private theorem mem_rendered {poured : List (AllocationRow × Nat)} {deduction : AllocationDeduction} :
    deduction ∈ rendered scale poured ↔
      ∃ entry ∈ poured, 0 < entry.2 ∧ allocationDeduction entry.1 (unitsToDecimal entry.2 scale) = deduction := by
  simp only [rendered, List.mem_map, List.mem_filter, decide_eq_true_eq, and_assoc]

section Distinct
variable (distinct : (rows.map AllocationRow.id).Nodup) {quantity : Nat}
include distinct

private theorem rendered_taken {taken : Nat} {row : AllocationRow} (member : (row, taken) ∈ pour (spendable scale) quantity rows) :
    takenOf (rendered scale (pour (spendable scale) quantity rows)) row =
      if 0 < taken then some (unitsToDecimal taken scale) else none := by
  have ids : ((rendered scale (pour (spendable scale) quantity rows)).reverse.map AllocationDeduction.allocationId).Nodup := by
    rw [List.map_reverse, List.nodup_reverse]
    exact (rendered_ids scale quantity rows).nodup distinct
  split
  · next positive =>
    have listed : allocationDeduction row (unitsToDecimal taken scale) ∈
        (rendered scale (pour (spendable scale) quantity rows)).reverse :=
      List.mem_reverse.mpr (mem_rendered.mpr ⟨(row, taken), member, positive, rfl⟩)
    have found := findAt_member ids listed
    simp only [allocationDeduction] at found
    simp only [takenOf, found, Option.map_some]
  · next none =>
    simp only [takenOf, Option.map_eq_none_iff]
    apply findAt_absent
    intro listed
    obtain ⟨deduction, inside, same⟩ := List.mem_map.mp listed
    obtain ⟨entry, poured, positive, rfl⟩ := mem_rendered.mp (List.mem_reverse.mp inside)
    have keys : ((pour (spendable scale) quantity rows).map fun entry => entry.1.id).Nodup := by
      rw [pour_keys AllocationRow.id]
      exact distinct
    have one : entry = (row, taken) := List.inj_on_of_nodup_map keys poured member same
    rw [one] at positive
    exact none positive

private theorem rendered_units {taken : Nat} {row : AllocationRow} (member : (row, taken) ∈ pour (spendable scale) quantity rows) :
    takenUnits scale (rendered scale (pour (spendable scale) quantity rows)) row = taken := by
  rw [takenUnits, rendered_taken distinct member]
  split
  · simp only [Option.map_some, worth_rendered, Option.getD_some]
  · next none => simp only [Option.map_none, Option.getD_none, Nat.eq_zero_of_not_pos none]

private theorem rendered_covers (enough : quantity ≤ (rows.map (spendable scale)).sum) :
    Covers scale quantity rows (rendered scale (pour (spendable scale) quantity rows)) where
  total := by
    have all : given (pour (spendable scale) quantity rows) = quantity := by
      rw [given_pour]
      exact Nat.min_eq_left enough
    refine Eq.trans ?_ all
    simp only [rendered, List.map_map, Function.comp_def, allocationDeduction, worth_rendered]
    apply sum_filter
    intro entry _ none
    exact Nat.eq_zero_of_not_pos (of_decide_eq_false none)
  ordered := rendered_ids scale quantity rows
  distinct := (rendered_ids scale quantity rows).nodup distinct
  within := by
    intro deduction member
    obtain ⟨entry, poured, positive, rfl⟩ := mem_rendered.mp member
    have listed : entry.1 ∈ rows := by
      rw [← pour_rows quantity rows]
      exact List.mem_map_of_mem poured
    have taken : entry.2 ≤ spendable scale entry.1 := pour_le poured
    simp only [spendable] at taken
    refine ⟨entry.1, listed, rfl, reads_rendered _ _, ?_, ?_⟩
    · simpa only [allocationDeduction, worth_rendered] using positive
    · simp only [allocationDeduction, worth_rendered]
      omega
  greedy := by
    intro front row back same
    apply rendered_units distinct
    rw [same, pour_append, pour]
    exact List.mem_append_right _ List.mem_cons_self

end Distinct

end Walk

section After
variable {scale : Nat} {rows : List AllocationRow} {deductions : List AllocationDeduction}

private theorem deducted_row {row : AllocationRow} (reads : RowReads scale row)
    (readable : ∀ quantity, takenOf deductions row = some quantity → Reads quantity scale) (column : SpendColumn) :
    ∃ next, deductedRow deductions scale column row = .ok next ∧ RowReads scale next ∧ next.closed = row.closed ∧
      availability scale next = availability scale row - takenUnits scale deductions row := by
  cases taken : takenOf deductions row with
  | none =>
    refine ⟨row, ?_, reads, rfl, ?_⟩
    · simp only [deductedRow, taken]
    · simp only [takenUnits, taken, Option.map_none, Option.getD_none, Nat.cast_zero, sub_zero]
  | some quantity =>
    have read := readable quantity taken
    cases column with
    | consumed =>
      have text := reads_rendered (worth row.consumedQuantity scale + worth quantity scale) scale
      refine ⟨row.setColumn (unitsToDecimal (worth row.consumedQuantity scale + worth quantity scale : Nat) scale) .consumed, ?_,
        ⟨reads.quantity, reads.reversed, text, reads.held⟩, rfl, ?_⟩
      · simp only [deductedRow, taken, AllocationRow.column, reads.consumed.units, ok_bind, read.decimal]
        rfl
      · simp only [availability, AllocationRow.setColumn, worth_rendered, takenUnits, taken, Option.map_some, Option.getD_some]
        omega
    | held =>
      have text := reads_rendered (worth row.heldQuantity scale + worth quantity scale) scale
      refine ⟨row.setColumn (unitsToDecimal (worth row.heldQuantity scale + worth quantity scale : Nat) scale) .held, ?_,
        ⟨reads.quantity, reads.reversed, reads.consumed, text⟩, rfl, ?_⟩
      · simp only [deductedRow, taken, AllocationRow.column, reads.held.units, ok_bind, read.decimal]
        rfl
      · simp only [availability, AllocationRow.setColumn, worth_rendered, takenUnits, taken, Option.map_some, Option.getD_some]
        omega

/-- The rows after deductions: together they can give less by what was taken of them. -/
private theorem deducted_rows (reads : ∀ row ∈ rows, RowReads scale row) (unmarked : ∀ row ∈ rows, row.closed = false)
    (readable : ∀ row ∈ rows, ∀ quantity, takenOf deductions row = some quantity → Reads quantity scale) (column : SpendColumn) :
    ∃ after, deductedRows rows deductions scale column = .ok after ∧ (∀ row ∈ after, RowReads scale row) ∧
      (∀ row ∈ after, row.closed = false) ∧
        (after.map (availability scale)).sum =
          (rows.map (availability scale)).sum - (((rows.map (takenUnits scale deductions)).sum : Nat) : Int) := by
  induction rows with
  | nil => exact ⟨[], rfl, by simp, by simp, by simp⟩
  | cons row rest ih =>
    obtain ⟨next, here, nextReads, closed, left⟩ :=
      deducted_row (reads row List.mem_cons_self) (readable row List.mem_cons_self) column
    obtain ⟨after, later, afterReads, afterUnmarked, total⟩ := ih (fun other member => reads other (List.mem_cons_of_mem row member))
      (fun other member => unmarked other (List.mem_cons_of_mem row member))
      (fun other member => readable other (List.mem_cons_of_mem row member))
    refine ⟨next :: after, ?_, ?_, ?_, ?_⟩
    · simp only [deductedRows] at later ⊢
      rw [List.mapM_cons, here, ok_bind, later, ok_bind]
      rfl
    · exact List.forall_mem_cons.mpr ⟨nextReads, afterReads⟩
    · exact List.forall_mem_cons.mpr ⟨closed.trans (unmarked row List.mem_cons_self), afterUnmarked⟩
    · simp only [List.map_cons, List.sum_cons, Nat.cast_add, left, total]
      omega

end After

section Approved
variable {requestedQuantity walletQuantity : Text} {balance : FiniteMeteringBalance} {decision : MeteringDecision}

private theorem decision_allows (decided : buildDecision requestedQuantity walletQuantity balance = .ok decision)
    (approved : decision.allowed = true) :
    Reads walletQuantity balance.scale ∧ worth walletQuantity balance.scale ≤ worth balance.available balance.scale := by
  obtain ⟨available, counted, decided⟩ := bind_ok decided
  obtain ⟨wanted, parsed, decided⟩ := bind_ok decided
  obtain rfl := Except.ok.inj decided
  obtain ⟨-, -, shown⟩ := decimalToUnits_inv counted
  obtain ⟨isDecimal, fine, asked⟩ := decimalToUnits_inv parsed
  simp only [decide_eq_true_eq] at approved
  rw [shown, asked] at approved
  exact ⟨⟨isDecimal, fine⟩, approved⟩

/-- Whatever balance the locked rows show: a quantity that the decision on it allows is covered by deductions, and the rows after them
show a balance that is lower by exactly the quantity. -/
theorem approved_is_payable (feature : FeatureRow) (locked : LockedRows) (column : SpendColumn)
    (read : balanceFromRows feature locked.rows = .ok balance)
    (decided : buildDecision requestedQuantity walletQuantity balance = .ok decision) (approved : decision.allowed = true) :
    ∃ deductions after left, planDeductions locked.rows feature.creditScale walletQuantity = .ok deductions ∧
      Covers feature.creditScale (worth walletQuantity feature.creditScale) locked.rows deductions ∧
      deductedRows locked.rows deductions feature.creditScale column = .ok after ∧ balanceFromRows feature after = .ok left ∧
      worth left.available feature.creditScale + worth walletQuantity feature.creditScale = worth balance.available feature.creditScale := by
  have reads := balance_reads read
  obtain ⟨shown, again, scale, -, available⟩ := balance_available feature reads locked.unmarked
  obtain rfl := Except.ok.inj (again.symm.trans read)
  obtain ⟨wanted, allowed⟩ := decision_allows decided approved
  rw [scale] at wanted allowed
  rw [available] at allowed
  have below := available_le_spendable feature.creditScale locked.rows
  have enough : worth walletQuantity feature.creditScale ≤ (locked.rows.map (spendable feature.creditScale)).sum := by omega
  have planned := plan_covers reads wanted enough
  have covers := rendered_covers locked.distinct enough
  have taken : (locked.rows.map (takenUnits feature.creditScale (rendered feature.creditScale
      (pour (spendable feature.creditScale) (worth walletQuantity feature.creditScale) locked.rows)))).sum =
        worth walletQuantity feature.creditScale := by
    rw [given_of fun entry member => rendered_units locked.distinct member, given_pour]
    exact Nat.min_eq_left enough
  generalize rendered feature.creditScale
    (pour (spendable feature.creditScale) (worth walletQuantity feature.creditScale) locked.rows) = deductions at planned covers taken
  have texts : ∀ row ∈ locked.rows, ∀ quantity, takenOf deductions row = some quantity → Reads quantity feature.creditScale := by
    intro row _ quantity found
    obtain ⟨deduction, listed, rfl⟩ := Option.map_eq_some_iff.mp found
    obtain ⟨_, _, _, readable, -⟩ := covers.within deduction (List.mem_reverse.mp (findAt_inv listed).1)
    exact readable
  obtain ⟨after, deducted, afterReads, afterUnmarked, total⟩ := deducted_rows reads locked.unmarked texts column
  obtain ⟨left, shownAfter, -, -, availableAfter⟩ := balance_available feature afterReads afterUnmarked
  refine ⟨deductions, after, left, planned, covers, deducted, shownAfter, ?_⟩
  rw [availableAfter, available, total, taken]
  omega

end Approved

/-- What a confirmation works on: each allocation and each hold once, the holds on the allocations, all quantities of the wallet's scale. -/
structure ReservationRows (scale : Nat) where
  rows : List AllocationRow
  holds : List ReservationAllocationRow
  distinct : (rows.map AllocationRow.id).Nodup
  held : (holds.map ReservationAllocationRow.allocationId).Nodup
  placed : ∀ hold ∈ holds, hold.allocationId ∈ rows.map AllocationRow.id
  rowReads : ∀ row ∈ rows, RowReads scale row
  holdReads : ∀ hold ∈ holds, Reads hold.heldQuantity scale

def heldUnits (scale : Nat) (holds : List ReservationAllocationRow) (id : AllocationId) : Nat :=
  totalAt ReservationAllocationRow.allocationId (fun hold => worth hold.heldQuantity scale) id holds

def freeUnits (scale : Nat) (now : Int) (row : AllocationRow) : Nat := if isLive now row then spendable scale row else 0

def ConfirmationPlan.consumedOn (plan : ConfirmationPlan) (id : AllocationId) : Nat :=
  totalAt ConfirmationChange.allocationId ConfirmationChange.consume id plan.changes

def ConfirmationPlan.releasedOn (plan : ConfirmationPlan) (id : AllocationId) : Nat :=
  totalAt ConfirmationChange.allocationId ConfirmationChange.release id plan.changes

/-- A plan that settles a quantity: every hold is released in full, and no row gives more than it may. -/
structure Settles (scale wanted : Nat) (now : Int) (rows : List AllocationRow) (holds : List ReservationAllocationRow)
    (plan : ConfirmationPlan) : Prop where
  released : ∀ hold ∈ holds, plan.releasedOn hold.allocationId = worth hold.heldQuantity scale
  consumed : (plan.changes.map ConfirmationChange.consume).sum = wanted
  listed : (plan.changes.map ConfirmationChange.allocationId).Sublist (rows.map AllocationRow.id)
  within : ∀ row ∈ rows, plan.consumedOn row.id ≤ heldUnits scale holds row.id + freeUnits scale now row
  own : wanted ≤ (holds.map fun hold => worth hold.heldQuantity scale).sum →
    ∀ row ∈ rows, plan.consumedOn row.id ≤ heldUnits scale holds row.id
  receipt : plan.deductions.map (fun deduction => (deduction.allocationId, deduction.quantity)) =
    (plan.changes.filter fun change => decide (0 < change.consume)).map fun change => (change.allocationId, unitsToDecimal change.consume scale)

section Confirm
variable {scale : Nat} {now : Int} {rows : List AllocationRow} {holds : List ReservationAllocationRow}

private theorem holds_read (reads : ∀ hold ∈ holds, Reads hold.heldQuantity scale) :
    readHolds scale holds = .ok (holds.map fun hold => (hold.allocationId, worth hold.heldQuantity scale)) := by
  apply mapM_eq
  intro hold member
  rw [(reads hold member).units, ok_bind]
  rfl

private theorem holdOn_units (held : (holds.map ReservationAllocationRow.allocationId).Nodup) (id : AllocationId) :
    (holdOn (holds.map fun hold => (hold.allocationId, worth hold.heldQuantity scale)) id).getD 0 = heldUnits scale holds id := by
  have keys : ((holds.map fun hold => (hold.allocationId, worth hold.heldQuantity scale)).reverse.map Prod.fst) =
      (holds.map ReservationAllocationRow.allocationId).reverse := by
    rw [List.map_reverse, List.map_map]
    rfl
  by_cases listed : id ∈ holds.map ReservationAllocationRow.allocationId
  · obtain ⟨hold, member, rfl⟩ := List.mem_map.mp listed
    have pair : (hold.allocationId, worth hold.heldQuantity scale) ∈
        (holds.map fun hold => (hold.allocationId, worth hold.heldQuantity scale)).reverse :=
      List.mem_reverse.mpr (List.mem_map_of_mem member)
    have found := findAt_member (keys ▸ List.nodup_reverse.mpr held) pair
    have one : heldUnits scale holds hold.allocationId = worth hold.heldQuantity scale := totalAt_unique held member
    simp only at found
    simp only [holdOn, found, Option.map_some, Option.getD_some, one]
  · have absent : id ∉ (holds.map fun hold => (hold.allocationId, worth hold.heldQuantity scale)).reverse.map Prod.fst := by
      rw [keys, List.mem_reverse]
      exact listed
    have none : heldUnits scale holds id = 0 := totalAt_absent listed
    simp only [holdOn, findAt_absent absent, Option.map_none, Option.getD_none, none]

/-- The holds give first, in the order of the rows. -/
private theorem settle_pours (holds : List (AllocationId × Nat)) (rows : List AllocationRow) : ∀ remaining, settleHolds holds remaining rows =
    ((pour (fun row => (holdOn holds row.id).getD 0) remaining rows).map fun entry =>
        ⟨entry.1, entry.2, (holdOn holds entry.1.id).getD 0⟩,
      remaining - (rows.map fun row => (holdOn holds row.id).getD 0).sum) := by
  induction rows with
  | nil => exact fun remaining => rfl
  | cons row rest ih =>
    intro remaining
    have taken : (if (holdOn holds row.id).getD 0 < remaining then (holdOn holds row.id).getD 0 else remaining) =
        min ((holdOn holds row.id).getD 0) remaining := by
      split <;> omega
    have left : remaining - min ((holdOn holds row.id).getD 0) remaining - (rest.map fun row => (holdOn holds row.id).getD 0).sum =
        remaining - ((holdOn holds row.id).getD 0 + (rest.map fun row => (holdOn holds row.id).getD 0).sum) := by
      omega
    simp only [settleHolds, taken, ih, pour, List.map_cons, List.sum_cons, left]

def RowChange.spend (extra : Nat) (change : RowChange) : RowChange := { change with consume := change.consume + extra }

private theorem spend_nothing (change : RowChange) : change.spend 0 = change := rfl

private theorem spend_zero (room : RowChange → Nat) (changes : List RowChange) :
    (pour room 0 changes).map (fun entry => entry.1.spend entry.2) = changes := by
  have same : (pour room 0 changes).map (fun entry => entry.1.spend entry.2) = (pour room 0 changes).map Prod.fst := by
    apply List.map_congr_left
    intro entry member
    rw [pour_zero member, spend_nothing]
  rw [same, pour_rows]

private theorem spend_pours {changes : List RowChange} (reads : ∀ change ∈ changes, RowReads scale change.row) : ∀ remaining,
    spendFree scale now remaining changes =
      .ok ((pour (fun change => freeUnits scale now change.row) remaining changes).map fun entry => entry.1.spend entry.2,
        remaining - (changes.map fun change => freeUnits scale now change.row).sum) := by
  induction changes with
  | nil => exact fun remaining => rfl
  | cons change rest ih =>
    intro remaining
    have later := ih fun other member => reads other (List.mem_cons_of_mem change member)
    simp only [spendFree]
    by_cases done : remaining = 0
    · rw [if_pos done, done, spend_zero, Nat.zero_sub]
    · simp only [if_neg done, pour, List.map_cons, List.sum_cons]
      by_cases live : isLive now change.row = true
      · have room : freeUnits scale now change.row = (availability scale change.row).toNat := if_pos live
        simp only [if_pos live, (reads change List.mem_cons_self).available, ok_bind]
        by_cases dry : availability scale change.row ≤ 0
        · have none : (if availability scale change.row < remaining then availability scale change.row else (remaining : Int)) ≤ 0 := by
            split <;> omega
          have nothing : freeUnits scale now change.row = 0 := by omega
          rw [if_pos none, later, nothing, Nat.zero_min, Nat.sub_zero, Nat.zero_add]
          rfl
        · have taken : (if availability scale change.row < remaining then availability scale change.row else (remaining : Int)) =
              ((min (freeUnits scale now change.row) remaining : Nat) : Int) := by
            split <;> omega
          have left : remaining - min (freeUnits scale now change.row) remaining -
              (rest.map fun change => freeUnits scale now change.row).sum =
                remaining - (freeUnits scale now change.row + (rest.map fun change => freeUnits scale now change.row).sum) := by
            omega
          rw [taken, if_neg (by omega), Int.toNat_natCast, later, ok_bind, left]
          rfl
      · have nothing : freeUnits scale now change.row = 0 := if_neg live
        rw [if_neg live, later, nothing, Nat.zero_min, Nat.sub_zero, Nat.zero_add]
        rfl

def plannedChanges (scale : Nat) (now : Int) (holds : List ReservationAllocationRow) (wanted : Nat) (rows : List AllocationRow) :
    List RowChange :=
  (pour (fun change => freeUnits scale now change.row) (wanted - (rows.map fun row => heldUnits scale holds row.id).sum)
    ((pour (fun row => heldUnits scale holds row.id) wanted rows).map fun entry =>
      (⟨entry.1, entry.2, heldUnits scale holds entry.1.id⟩ : RowChange))).map fun entry => entry.1.spend entry.2

section Planned
variable {wanted : Nat}

theorem settled_rows (scale wanted : Nat) (holds : List ReservationAllocationRow) (rows : List AllocationRow) :
    ((pour (fun row => heldUnits scale holds row.id) wanted rows).map fun entry =>
      (⟨entry.1, entry.2, heldUnits scale holds entry.1.id⟩ : RowChange)).map RowChange.row = rows := by
  rw [List.map_map]
  exact pour_rows wanted rows

private theorem planned_rows (scale : Nat) (now : Int) (holds : List ReservationAllocationRow) (wanted : Nat) (rows : List AllocationRow) :
    (plannedChanges scale now holds wanted rows).map RowChange.row = rows := by
  simp only [plannedChanges, List.map_map]
  exact (pour_keys RowChange.row _ _).trans (settled_rows scale wanted holds rows)

private theorem planned_change {change : RowChange} (member : change ∈ plannedChanges scale now holds wanted rows) :
    change.release = heldUnits scale holds change.row.id ∧
      change.consume ≤ heldUnits scale holds change.row.id + freeUnits scale now change.row ∧
      (wanted ≤ (rows.map fun row => heldUnits scale holds row.id).sum → change.consume ≤ heldUnits scale holds change.row.id) := by
  obtain ⟨⟨settled, extra⟩, poured, rfl⟩ := List.mem_map.mp member
  have spent := pour_le poured
  have listed := List.mem_map_of_mem poured (f := Prod.fst)
  rw [pour_rows] at listed
  obtain ⟨⟨row, taken⟩, first, rfl⟩ := List.mem_map.mp listed
  have within := pour_le first
  simp only at spent within
  refine ⟨rfl, Nat.add_le_add within spent, ?_⟩
  intro covered
  rw [Nat.sub_eq_zero_of_le covered] at poured
  have none : extra = 0 := pour_zero poured
  simp only [RowChange.spend, none, Nat.add_zero]
  exact within

private theorem planned_sum (scale : Nat) (now : Int) (holds : List ReservationAllocationRow) (wanted : Nat) (rows : List AllocationRow) :
    ((plannedChanges scale now holds wanted rows).map RowChange.consume).sum =
      min wanted ((rows.map fun row => heldUnits scale holds row.id).sum + (rows.map (freeUnits scale now)).sum) := by
  have split : ((plannedChanges scale now holds wanted rows).map RowChange.consume).sum =
      given (pour (fun row => heldUnits scale holds row.id) wanted rows) +
        given (pour (fun change => freeUnits scale now change.row) (wanted - (rows.map fun row => heldUnits scale holds row.id).sum)
          ((pour (fun row => heldUnits scale holds row.id) wanted rows).map fun entry =>
            (⟨entry.1, entry.2, heldUnits scale holds entry.1.id⟩ : RowChange))) := by
    simp only [plannedChanges, List.map_map, Function.comp_def, RowChange.spend, List.sum_map_add]
    rw [pour_keys RowChange.consume, List.map_map]
    rfl
  have free : (((pour (fun row => heldUnits scale holds row.id) wanted rows).map fun entry =>
      (⟨entry.1, entry.2, heldUnits scale holds entry.1.id⟩ : RowChange)).map fun change => freeUnits scale now change.row).sum =
        (rows.map (freeUnits scale now)).sum := by
    have rowsOf := congrArg (List.map (freeUnits scale now)) (settled_rows scale wanted holds rows)
    rw [List.map_map] at rowsOf
    exact congrArg List.sum rowsOf
  rw [split, given_pour, given_pour, free]
  omega

end Planned

/-- The plan that changes make: those that change nothing are left out. -/
def planOf (scale : Nat) (holds : List (AllocationId × Nat)) (changes : List RowChange) : ConfirmationPlan where
  changes := (changes.filter fun change => !(change.consume = 0 && change.release = 0)).map fun change =>
    ⟨change.row.id, change.consume, change.release, (holdOn holds change.row.id).isSome⟩
  deductions := ((changes.filter fun change => !(change.consume = 0 && change.release = 0)).filter fun change =>
    decide (change.consume > 0)).map fun change => allocationDeduction change.row (unitsToDecimal change.consume scale)

section Plan
variable {changes : List RowChange} (pairs : List (AllocationId × Nat))

private theorem planOf_ids (scale : Nat) (changes : List RowChange) :
    ((planOf scale pairs changes).changes.map ConfirmationChange.allocationId).Sublist
    ((changes.map RowChange.row).map AllocationRow.id) := by
  have sublist := (@List.filter_sublist _ (fun change : RowChange => !(change.consume = 0 && change.release = 0)) changes).map
    fun change => change.row.id
  simpa only [planOf, List.map_map, Function.comp_def] using sublist

private theorem planOf_change (distinct : ((changes.map RowChange.row).map AllocationRow.id).Nodup) {change : RowChange}
    (member : change ∈ changes) :
    (planOf scale pairs changes).consumedOn change.row.id = change.consume ∧
      (planOf scale pairs changes).releasedOn change.row.id = change.release := by
  have ids := (planOf_ids pairs scale changes).nodup distinct
  by_cases idle : change.consume = 0 ∧ change.release = 0
  · have absent : change.row.id ∉ (planOf scale pairs changes).changes.map ConfirmationChange.allocationId := by
      intro listed
      obtain ⟨planned, inside, same⟩ := List.mem_map.mp listed
      obtain ⟨other, kept, rfl⟩ := List.mem_map.mp inside
      obtain ⟨present, moved⟩ := List.mem_filter.mp kept
      have keys : (changes.map fun change => change.row.id).Nodup := by
        rw [List.map_map] at distinct
        exact distinct
      have one : other = change := List.inj_on_of_nodup_map keys present member same
      simp [one, idle.1, idle.2] at moved
    exact ⟨(totalAt_absent absent).trans idle.1.symm, (totalAt_absent absent).trans idle.2.symm⟩
  · have kept : change ∈ changes.filter fun change => !(change.consume = 0 && change.release = 0) :=
      List.mem_filter.mpr ⟨member, by simpa using not_and_or.mp idle⟩
    have planned : (⟨change.row.id, change.consume, change.release, (holdOn pairs change.row.id).isSome⟩ : ConfirmationChange) ∈
        (planOf scale pairs changes).changes := List.mem_map_of_mem kept
    exact ⟨totalAt_unique ids planned, totalAt_unique ids planned⟩

private theorem planOf_sum (scale : Nat) (changes : List RowChange) :
    ((planOf scale pairs changes).changes.map ConfirmationChange.consume).sum = (changes.map RowChange.consume).sum := by
  simp only [planOf, List.map_map, Function.comp_def]
  apply sum_filter
  intro change _ idle
  simp only [Bool.not_eq_false', Bool.and_eq_true, decide_eq_true_eq] at idle
  exact idle.1

private theorem planOf_receipt (scale : Nat) (changes : List RowChange) :
    (planOf scale pairs changes).deductions.map (fun deduction => (deduction.allocationId, deduction.quantity)) =
      ((planOf scale pairs changes).changes.filter fun change => decide (0 < change.consume)).map fun change =>
        (change.allocationId, unitsToDecimal change.consume scale) := by
  simp only [planOf, List.map_map, List.filter_map, Function.comp_def, allocationDeduction, gt_iff_lt]

end Plan

private theorem confirmation_plans (input : ReservationRows scale) {walletQuantity : Text} (wanted : Reads walletQuantity scale) (now : Int) :
    planConfirmation input.rows input.holds scale walletQuantity now =
      if worth walletQuantity scale - (input.rows.map fun row => heldUnits scale input.holds row.id).sum -
          (input.rows.map (freeUnits scale now)).sum > 0 then .error insufficientBalance
      else .ok (planOf scale (input.holds.map fun hold => (hold.allocationId, worth hold.heldQuantity scale))
        (plannedChanges scale now input.holds (worth walletQuantity scale) input.rows)) := by
  have rowsOf := settled_rows scale (worth walletQuantity scale) input.holds input.rows
  have free := congrArg (fun rows => (rows.map (freeUnits scale now)).sum) rowsOf
  simp only [List.map_map, Function.comp_def] at free
  have reads : ∀ change ∈ (pour (fun row => heldUnits scale input.holds row.id) (worth walletQuantity scale) input.rows).map fun entry =>
      (⟨entry.1, entry.2, heldUnits scale input.holds entry.1.id⟩ : RowChange), RowReads scale change.row := by
    intro change member
    apply input.rowReads change.row
    rw [← rowsOf]
    exact List.mem_map_of_mem member
  simp only [planConfirmation, holds_read input.holdReads, wanted.decimal, ok_bind, settle_pours, holdOn_units input.held,
    spend_pours reads, List.map_map, Function.comp_def, free]
  rfl

/-- A confirmation settles exactly the quantity, or is refused because its holds and what live rows have free cannot cover it. -/
theorem confirmation_is_exact (input : ReservationRows scale) {walletQuantity : Text} (wanted : Reads walletQuantity scale) (now : Int) :
    if (input.holds.map fun hold => worth hold.heldQuantity scale).sum + (input.rows.map (freeUnits scale now)).sum <
        worth walletQuantity scale then
      planConfirmation input.rows input.holds scale walletQuantity now = .error insufficientBalance
    else ∃ plan, planConfirmation input.rows input.holds scale walletQuantity now = .ok plan ∧
      Settles scale (worth walletQuantity scale) now input.rows input.holds plan := by
  have total : (input.rows.map fun row => heldUnits scale input.holds row.id).sum =
      (input.holds.map fun hold => worth hold.heldQuantity scale).sum := totalAt_sum input.distinct input.placed
  rw [confirmation_plans input wanted]
  split
  · next short => rw [if_pos (by omega)]
  · next covered =>
    rw [if_neg (by omega)]
    refine ⟨_, rfl, ?_⟩
    have rowsOf := planned_rows scale now input.holds (worth walletQuantity scale) input.rows
    have keys : (((plannedChanges scale now input.holds (worth walletQuantity scale) input.rows).map RowChange.row).map
        AllocationRow.id).Nodup := by
      rw [rowsOf]
      exact input.distinct
    have changeOf : ∀ row ∈ input.rows, ∃ change ∈ plannedChanges scale now input.holds (worth walletQuantity scale) input.rows,
        change.row = row := by
      intro row member
      rw [← rowsOf] at member
      exact List.mem_map.mp member
    constructor
    · intro hold member
      obtain ⟨row, listed, same⟩ := List.mem_map.mp (input.placed hold member)
      obtain ⟨change, planned, rfl⟩ := changeOf row listed
      have one : heldUnits scale input.holds hold.allocationId = worth hold.heldQuantity scale := totalAt_unique input.held member
      rw [← same, (planOf_change _ keys planned).2, (planned_change planned).1, same, one]
    · rw [planOf_sum, planned_sum]
      omega
    · have sublist := planOf_ids (input.holds.map fun hold => (hold.allocationId, worth hold.heldQuantity scale)) scale
        (plannedChanges scale now input.holds (worth walletQuantity scale) input.rows)
      rwa [rowsOf] at sublist
    · intro row member
      obtain ⟨change, planned, rfl⟩ := changeOf row member
      rw [(planOf_change _ keys planned).1]
      exact (planned_change planned).2.1
    · intro enough row member
      obtain ⟨change, planned, rfl⟩ := changeOf row member
      rw [(planOf_change _ keys planned).1]
      exact (planned_change planned).2.2 (total ▸ enough)
    · exact planOf_receipt _ scale _

end Confirm

section Example

def origin : AllocationOrigin := ⟨none, .purchase, "order".toList, none, none, none, none, none, none, 0⟩

def credits : FeatureRow := ⟨"credits".toList, "credit".toList, 2⟩

/-- A purchase that was partly refunded after most of it was spent: it is short of three. -/
def refundedRow : AllocationRow :=
  ⟨1, "10.000000000".toList, "8.000000000".toList, "5.000000000".toList, "0.000000000".toList, none, false, origin⟩

def freshRow : AllocationRow :=
  ⟨2, "20.500000000".toList, "0.000000000".toList, "0.000000000".toList, "4.000000000".toList, none, false, origin⟩

def partlyRefunded : LockedRows := ⟨[refundedRow, freshRow], by decide, by decide⟩

private theorem partlyRefunded_shows : ∃ balance, balanceFromRows credits partlyRefunded.rows = .ok balance ∧
    buildDecision "12".toList "12.25".toList balance = .ok ⟨true, .allowed, "12".toList, "12.25".toList, balance⟩ := by
  refine ⟨⟨"credits".toList, "credit".toList, 2, "22.5".toList, "5".toList, "4".toList, "13.5".toList,
    [⟨1, "10".toList, "8".toList, "5".toList, "0".toList, "0".toList, origin⟩,
      ⟨2, "20.5".toList, "0".toList, "0".toList, "4".toList, "16.5".toList, origin⟩]⟩, ?_, ?_⟩
  · decide
  · decide

theorem approved_is_payable_refunded : ∃ deductions after left,
    planDeductions partlyRefunded.rows 2 "12.25".toList = .ok deductions ∧
      Covers 2 (worth "12.25".toList 2) partlyRefunded.rows deductions ∧
      deductedRows partlyRefunded.rows deductions 2 .consumed = .ok after ∧ balanceFromRows credits after = .ok left := by
  obtain ⟨balance, read, decided⟩ := partlyRefunded_shows
  obtain ⟨deductions, after, left, planned, covers, deducted, shown, -⟩ :=
    approved_is_payable credits partlyRefunded .consumed read decided rfl
  exact ⟨deductions, after, left, planned, covers, deducted, shown⟩

def expiredRow : AllocationRow :=
  ⟨3, "6.000000000".toList, "0.000000000".toList, "1.000000000".toList, "2.000000000".toList, none, false, { origin with expiresAt := some 10 }⟩

def reserved : ReservationRows 2 where
  rows := [freshRow, expiredRow]
  holds := [⟨2, "4.000000000".toList, "0".toList⟩, ⟨3, "2.000000000".toList, "0".toList⟩]
  distinct := by decide
  held := by decide
  placed := by decide
  rowReads := by
    intro row member
    rcases List.mem_pair.mp member with rfl | rfl
    · exact ⟨⟨by decide, by decide⟩, ⟨by decide, by decide⟩, ⟨by decide, by decide⟩,
        ⟨by decide, by decide⟩⟩
    · exact ⟨⟨by decide, by decide⟩, ⟨by decide, by decide⟩, ⟨by decide, by decide⟩,
        ⟨by decide, by decide⟩⟩
  holdReads := by
    intro hold member
    rcases List.mem_pair.mp member with rfl | rfl
    · exact ⟨by decide, by decide⟩
    · exact ⟨by decide, by decide⟩

theorem confirmation_is_exact_expired : ∃ plan, planConfirmation reserved.rows reserved.holds 2 "9.5".toList 20 = .ok plan ∧
    Settles 2 (worth "9.5".toList 2) 20 reserved.rows reserved.holds plan := by
  have wanted : Reads "9.5".toList 2 := ⟨by decide, by decide⟩
  have settles := confirmation_is_exact reserved wanted 20
  rwa [if_neg (by decide)] at settles

end Example

end Quotum.SpendPlans
