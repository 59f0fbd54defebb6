import Mathlib

/-! Rows that split the positive numbers into brackets. Each row ends at its bound, which is still its own, and the last row has none. -/

namespace Quotum.General.Brackets

section Rows
variable {α : Type} (upTo : α → Option Nat)

def placed (lowerBound : Nat) : List α → List (Nat × α)
  | [] => []
  | row :: rest => (lowerBound, row) :: placed ((upTo row).getD lowerBound) rest

def holds (unit : Nat) (entry : Nat × α) : Bool :=
  decide (entry.1 < unit) && (upTo entry.2).all fun bound => decide (unit ≤ bound)

/-- How many of the first units are in a row's bracket. -/
def share (quantity : Nat) (entry : Nat × α) : Nat :=
  (List.range quantity).countP fun index => holds upTo (index + 1) entry

/-- Bounds rise from a previous one, and only the last row has none. -/
def Rising : Nat → List α → Prop
  | _, [] => True
  | previous, row :: rest =>
    match upTo row with
    | none => rest = []
    | some bound => previous < bound ∧ rest ≠ [] ∧ Rising bound rest

def ending (quantity : Nat) (row : α) : Nat :=
  (upTo row).elim quantity fun bound => min bound quantity

def walk (cost : α → Nat → Nat) (quantity lowerBound : Nat) : List α → Nat
  | [] => 0
  | row :: rest => cost row (ending upTo quantity row - lowerBound) +
      if ending upTo quantity row = quantity then 0 else walk cost quantity (ending upTo quantity row) rest

end Rows

section Units
variable {α : Type} {upTo : α → Option Nat} {previous unit lowerBound bound : Nat} {row : α} {rows : List α}

theorem holds_last (ends : upTo row = none) : holds upTo unit (lowerBound, row) = decide (lowerBound < unit) := by
  simp [holds, ends]

theorem holds_bounded (ends : upTo row = some bound) :
    holds upTo unit (lowerBound, row) = (decide (lowerBound < unit) && decide (unit ≤ bound)) := by
  simp [holds, ends]

theorem placed_above (below : unit ≤ previous) (rising : Rising upTo previous rows) :
    (placed upTo previous rows).countP (holds upTo unit) = 0 := by
  induction rows generalizing previous with
  | nil => rfl
  | cons row rest ih =>
    have here : holds upTo unit (previous, row) = false := by
      simp only [holds, Bool.and_eq_false_iff, decide_eq_false_iff_not]
      exact .inl (Nat.not_lt.mpr below)
    rw [placed, List.countP_cons_of_neg (by simp [here])]
    rw [Rising] at rising
    cases ends : upTo row with
    | none =>
      rw [ends] at rising
      rw [rising]
      rfl
    | some bound =>
      rw [ends] at rising
      exact ih (below.trans rising.1.le) rising.2.2

theorem placed_once (above : previous < unit) (rising : Rising upTo previous rows) (some_ : rows ≠ []) :
    (placed upTo previous rows).countP (holds upTo unit) = 1 := by
  induction rows generalizing previous with
  | nil => exact absurd rfl some_
  | cons row rest ih =>
    rw [placed]
    rw [Rising] at rising
    cases ends : upTo row with
    | none =>
      rw [ends] at rising
      rw [rising, List.countP_cons_of_pos (by rw [holds_last ends]; exact decide_eq_true above)]
      rfl
    | some bound =>
      rw [ends] at rising
      obtain ⟨_, more, later⟩ := rising
      rw [Option.getD_some]
      by_cases within : unit ≤ bound
      · rw [List.countP_cons_of_pos (by rw [holds_bounded ends]; simp [above, within]), placed_above within later]
      · rw [List.countP_cons_of_neg (by rw [holds_bounded ends]; simp [within])]
        exact ih (Nat.not_le.mp within) later more

theorem placed_find (above : previous < unit) (rising : Rising upTo previous rows) (some_ : rows ≠ []) :
    ∃ entry ∈ placed upTo previous rows, holds upTo unit entry = true ∧
      (rows.find? fun row => (upTo row).all fun bound => decide (unit ≤ bound)) = some entry.2 := by
  induction rows generalizing previous with
  | nil => exact absurd rfl some_
  | cons row rest ih =>
    by_cases reaches : ((upTo row).all fun bound => decide (unit ≤ bound)) = true
    · refine ⟨(previous, row), List.mem_cons_self, ?_, List.find?_cons_of_pos reaches⟩
      rw [holds, reaches, Bool.and_true]
      exact decide_eq_true above
    · have passed : ((row :: rest).find? fun row => (upTo row).all fun bound => decide (unit ≤ bound)) =
          rest.find? fun row => (upTo row).all fun bound => decide (unit ≤ bound) := List.find?_cons_of_neg reaches
      rw [passed]
      rw [Rising] at rising
      cases ends : upTo row with
      | none => exact absurd (by rw [ends, Option.all_none]) reaches
      | some bound =>
        rw [ends] at rising reaches
        have behind : bound < unit := by simpa using reaches
        obtain ⟨entry, member, held, found⟩ := ih behind rising.2.2 rising.2.1
        refine ⟨entry, List.mem_cons_of_mem _ ?_, held, found⟩
        rw [ends, Option.getD_some]
        exact member

theorem count_above (lowerBound quantity : Nat) :
    (List.range quantity).countP (fun index => decide (lowerBound < index + 1)) = quantity - lowerBound := by
  induction quantity with
  | zero => rw [Nat.zero_sub, List.range_zero, List.countP_nil]
  | succ quantity ih =>
    rw [List.range_succ, List.countP_append, ih, List.countP_singleton]
    simp only [decide_eq_true_eq]
    split <;> omega

theorem count_between (lowerBound bound quantity : Nat) :
    (List.range quantity).countP (fun index => decide (lowerBound < index + 1) && decide (index + 1 ≤ bound)) =
      min bound quantity - lowerBound := by
  induction quantity with
  | zero => rw [Nat.min_zero, Nat.zero_sub, List.range_zero, List.countP_nil]
  | succ quantity ih =>
    rw [List.range_succ, List.countP_append, ih, List.countP_singleton]
    simp only [Bool.and_eq_true, decide_eq_true_eq]
    split <;> omega

theorem share_ending (quantity : Nat) : share upTo quantity (lowerBound, row) = ending upTo quantity row - lowerBound := by
  cases ends : upTo row with
  | none => simp only [share, ending, holds_last ends, count_above, ends, Option.elim_none]
  | some bound => simp only [share, ending, holds_bounded ends, count_between, ends, Option.elim_some]

theorem share_above {quantity : Nat} (below : quantity ≤ previous) (rising : Rising upTo previous rows) :
    ∀ entry ∈ placed upTo previous rows, share upTo quantity entry = 0 := by
  intro entry member
  rw [share, List.countP_eq_zero]
  intro index within
  have unit := List.mem_range.mp within
  have nothing : (placed upTo previous rows).countP (holds upTo (index + 1)) = 0 := placed_above (by omega) rising
  exact List.countP_eq_zero.mp nothing entry member

theorem ending_within {quantity : Nat} (ends : upTo row = some bound) : ending upTo quantity row = min bound quantity := by
  rw [ending, ends, Option.elim_some]

end Units

section Walks
variable {α : Type} {upTo : α → Option Nat} {cost : α → Nat → Nat} {rows : List α}

theorem walk_sum (free : ∀ row, cost row 0 = 0) {quantity previous : Nat} (below : previous ≤ quantity)
    (rising : Rising upTo previous rows) :
    walk upTo cost quantity previous rows =
      ((placed upTo previous rows).map fun entry => cost entry.2 (share upTo quantity entry)).sum := by
  induction rows generalizing previous with
  | nil => rfl
  | cons row rest ih =>
    rw [walk, placed, List.map_cons, List.sum_cons, share_ending]
    rw [Rising] at rising
    cases ends : upTo row with
    | none =>
      rw [ends] at rising
      rw [rising, ending, ends, Option.elim_none, if_pos rfl]
      rfl
    | some bound =>
      rw [ends] at rising
      obtain ⟨above, -, later⟩ := rising
      rw [ending_within ends, Option.getD_some]
      by_cases reached : quantity ≤ bound
      · have nothing : ((placed upTo bound rest).map fun entry => cost entry.2 (share upTo quantity entry)).sum = 0 := by
          apply List.sum_eq_zero
          intro asked member
          obtain ⟨entry, inside, rfl⟩ := List.mem_map.mp member
          rw [share_above reached later entry inside, free]
        rw [if_pos (Nat.min_eq_right reached), nothing]
      · rw [Nat.min_eq_left (Nat.le_of_not_le reached), if_neg (by omega), ih (Nat.le_of_not_le reached) later]

theorem walk_nothing (free : ∀ row, cost row 0 = 0) : walk upTo cost 0 0 rows = 0 := by
  cases rows with
  | nil => rfl
  | cons row rest =>
    have here : ending upTo 0 row = 0 := by
      rw [ending]
      cases upTo row with
      | none => rfl
      | some bound => exact Nat.min_zero bound
    rw [walk, here, if_pos rfl, free]

variable (upTo) in
theorem ending_mono {less more : Nat} (below : less ≤ more) (row : α) :
    ending upTo less row ≤ ending upTo more row ∧ (ending upTo less row ≠ less → ending upTo more row = ending upTo less row) := by
  simp only [ending]
  cases upTo row with
  | none => exact ⟨below, fun short => absurd rfl short⟩
  | some bound =>
    simp only [Option.elim_some]
    omega

theorem walk_mono (rises : ∀ row, Monotone (cost row)) {less more : Nat} (below : less ≤ more) (lowerBound : Nat) (rows : List α) :
    walk upTo cost less lowerBound rows ≤ walk upTo cost more lowerBound rows := by
  induction rows generalizing lowerBound with
  | nil => exact le_rfl
  | cons row rest ih =>
    obtain ⟨wider, same⟩ := ending_mono upTo below row
    have asked := rises row (Nat.sub_le_sub_right wider lowerBound)
    rw [walk, walk]
    by_cases ends : ending upTo less row = less
    · rw [if_pos ends, Nat.add_zero]
      exact asked.trans (Nat.le_add_right _ _)
    · have further : ending upTo more row ≠ more := by
        intro whole
        rw [same ends] at whole
        simp only [ending] at ends whole
        cases bounded : upTo row with
        | none => exact ends (by rw [bounded, Option.elim_none])
        | some bound =>
          rw [bounded, Option.elim_some] at ends whole
          omega
      rw [if_neg ends, if_neg further, same ends]
      exact Nat.add_le_add_left (ih _) _

end Walks

end Quotum.General.Brackets
