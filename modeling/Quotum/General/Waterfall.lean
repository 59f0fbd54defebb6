import Mathlib

/-! Taking an amount from rows in an order: each row gives what it has room for until
the amount is covered. -/

namespace Quotum.General

section Pour
variable {α : Type} (room : α → Nat)

def pour (amount : Nat) : List α → List (α × Nat)
  | [] => []
  | row :: rest => (row, min (room row) amount) :: pour (amount - min (room row) amount) rest

def given (poured : List (α × Nat)) : Nat :=
  (poured.map Prod.snd).sum

variable {room}

theorem pour_rows (amount : Nat) (rows : List α) : (pour room amount rows).map Prod.fst = rows := by
  induction rows generalizing amount with
  | nil => rfl
  | cons row rest ih => rw [pour, List.map_cons, ih]

theorem pour_keys {κ : Type} (key : α → κ) (amount : Nat) (rows : List α) :
    (pour room amount rows).map (fun entry => key entry.1) = rows.map key := by
  rw [← congrArg (List.map key) (pour_rows amount rows), List.map_map]
  rfl

theorem pour_le {amount : Nat} {rows : List α} {row : α} {taken : Nat} (member : (row, taken) ∈ pour room amount rows) :
    taken ≤ room row := by
  induction rows generalizing amount with
  | nil => cases member
  | cons first rest ih =>
    rcases List.mem_cons.mp member with same | later
    · cases same
      exact Nat.min_le_left _ _
    · exact ih later

theorem given_pour (amount : Nat) (rows : List α) : given (pour room amount rows) = min amount (rows.map room).sum := by
  induction rows generalizing amount with
  | nil => simp [pour, given]
  | cons row rest ih =>
    have later := ih (amount - min (room row) amount)
    simp only [given, pour, List.map_cons, List.sum_cons] at later ⊢
    omega

theorem given_of {f : α → Nat} {amount : Nat} {rows : List α} (each : ∀ entry ∈ pour room amount rows, f entry.1 = entry.2) :
    (rows.map f).sum = given (pour room amount rows) := by
  have same : (pour room amount rows).map (fun entry => f entry.1) = rows.map f := pour_keys f amount rows
  rw [← same, given, List.map_congr_left each]

/-- The rows in front give first. -/
theorem pour_append (amount : Nat) (front rows : List α) :
    pour room amount (front ++ rows) = pour room amount front ++ pour room (amount - (front.map room).sum) rows := by
  induction front generalizing amount with
  | nil => rfl
  | cons row rest ih =>
    have left : amount - min (room row) amount - (rest.map room).sum = amount - ((row :: rest).map room).sum := by
      rw [List.map_cons, List.sum_cons]
      omega
    rw [List.cons_append, pour, ih, pour, List.cons_append, left]

theorem given_zero (rows : List α) : given (pour room 0 rows) = 0 := by
  rw [given_pour, Nat.zero_min]

theorem pour_zero {rows : List α} {entry : α × Nat} (member : entry ∈ pour room 0 rows) : entry.2 = 0 := by
  have none : ((pour room 0 rows).map Prod.snd).sum = 0 := given_zero rows
  exact List.sum_eq_zero_iff.mp none entry.2 (List.mem_map_of_mem member)

end Pour

section Window
variable {α κ : Type} [LinearOrder κ] (room : α → Int) (key : α → κ)

/-- The room of the rows that stand before one: the greatest keys give first. -/
def roomBefore (rows : List α) (row : α) : Int :=
  ((rows.filter (fun other => key row < key other)).map room).sum

/-- What one row gives of an amount when the rows before it give first. -/
def windowTaken (amount : Int) (rows : List α) (row : α) : Int :=
  min (room row) (max (amount - roomBefore room key rows row) 0)

variable {room key}

theorem roomBefore_perm {rows others : List α} (same : rows.Perm others) (row : α) :
    roomBefore room key rows row = roomBefore room key others row :=
  List.Perm.sum_eq ((same.filter _).map room)

private theorem windowTaken_sorted {amount : Int} (covered : 0 ≤ amount) {rows : List α}
    (sorted : rows.Pairwise (fun first second => key second < key first)) (nonnegative : ∀ row ∈ rows, 0 ≤ room row) :
    (rows.map (windowTaken room key amount rows)).sum = min amount (rows.map room).sum := by
  induction rows using List.reverseRecOn with
  | nil => simp [covered]
  | append_singleton front last ih =>
    obtain ⟨earlier, -, ordered⟩ := List.pairwise_append.mp sorted
    have above : ∀ row ∈ front, key last < key row := fun row member => ordered row member last (by simp)
    have same : front.map (windowTaken room key amount (front ++ [last])) =
        front.map (windowTaken room key amount front) := by
      apply List.map_congr_left
      intro row member
      simp [windowTaken, roomBefore, not_lt.mpr (above row member).le]
    have own : roomBefore room key (front ++ [last]) last = (front.map room).sum := by
      simp [roomBefore, List.filter_eq_self.mpr fun row member => decide_eq_true (above row member)]
    have before := ih earlier fun row member => nonnegative row (by simp [member])
    have positive := nonnegative last (by simp)
    simp only [List.map_append, List.map_cons, List.map_nil, List.sum_append, List.sum_singleton, same, before,
      windowTaken, own]
    omega

theorem windowTaken_sum {amount : Int} (covered : 0 ≤ amount) {rows : List α} (distinct : (rows.map key).Nodup)
    (nonnegative : ∀ row ∈ rows, 0 ≤ room row) :
    (rows.map (windowTaken room key amount rows)).sum = min amount (rows.map room).sum := by
  have permuted := List.mergeSort_perm rows (fun first second => decide (key second ≤ key first))
  have descending := @List.pairwise_mergeSort _ (fun first second => decide (key second ≤ key first))
    (by simpa using fun a b c below above => above.trans below) (by simpa using fun a b => le_total (key b) (key a)) rows
  generalize rows.mergeSort (fun first second => decide (key second ≤ key first)) = ordered at permuted descending
  have strict : ordered.Pairwise (fun first second => key second < key first) := by
    have different := List.pairwise_map.mp ((permuted.map key).nodup_iff.mpr distinct)
    refine (descending.and different).imp ?_
    rintro first second ⟨below, apart⟩
    exact lt_of_le_of_ne (by simpa using below) (Ne.symm apart)
  have given := windowTaken_sorted covered strict fun row member => nonnegative row (permuted.mem_iff.mp member)
  rw [List.Perm.sum_eq (permuted.map room)] at given
  rw [← given, ← List.Perm.sum_eq (permuted.map (windowTaken room key amount rows))]
  congr 1
  apply List.map_congr_left
  intro row _
  rw [windowTaken, windowTaken, roomBefore_perm permuted]

theorem roomBefore_add {rows : List α} (distinct : (rows.map key).Nodup) {row : α} (member : row ∈ rows) :
    ((rows.filter (fun other => key row ≤ key other)).map room).sum = roomBefore room key rows row + room row := by
  induction rows with
  | nil => cases member
  | cons first rest ih =>
    rw [List.map_cons, List.nodup_cons] at distinct
    rcases List.mem_cons.mp member with rfl | later
    · have same : rest.filter (fun other => decide (key row ≤ key other)) = rest.filter (fun other => decide (key row < key other)) := by
        apply List.filter_congr
        intro other inside
        have apart : key row ≠ key other := fun same => distinct.1 (same ▸ List.mem_map_of_mem inside)
        exact decide_eq_decide.mpr ⟨fun below => lt_of_le_of_ne below apart, le_of_lt⟩
      simp [roomBefore, same, add_comm]
    · have apart : key first ≠ key row := fun same => distinct.1 (same ▸ List.mem_map_of_mem later)
      have step := ih distinct.2 later
      simp only [roomBefore] at step ⊢
      by_cases past : key row < key first
      · rw [List.filter_cons_of_pos (by simpa using past.le), List.filter_cons_of_pos (by simpa using past), List.map_cons,
          List.map_cons, List.sum_cons, List.sum_cons, step, add_assoc]
      · have below : ¬key row ≤ key first := fun le => past (lt_of_le_of_ne le (Ne.symm apart))
        rw [List.filter_cons_of_neg (by simpa using below), List.filter_cons_of_neg (by simpa using past), step]

theorem roomBefore_le {rows : List α} (nonnegative : ∀ row ∈ rows, 0 ≤ room row) {first second : α} (member : first ∈ rows)
    (ahead : key second < key first) : roomBefore room key rows first + room first ≤ roomBefore room key rows second := by
  induction rows with
  | nil => cases member
  | cons row rest ih =>
    have others : ∀ other ∈ rest, 0 ≤ room other := fun other inside => nonnegative other (by simp [inside])
    have own := nonnegative row (by simp)
    have before : roomBefore room key rest first ≤ roomBefore room key rest second := by
      apply List.Sublist.sum_le_sum
      · apply List.Sublist.map
        apply List.monotone_filter_right
        intro other past
        exact decide_eq_true (ahead.trans (of_decide_eq_true past))
      · intro value inside
        obtain ⟨other, kept, rfl⟩ := List.mem_map.mp inside
        exact others other (List.mem_filter.mp kept).1
    have split : ∀ edge : α, roomBefore room key (row :: rest) edge =
        (if key edge < key row then room row else 0) + roomBefore room key rest edge := by
      intro edge
      by_cases past : key edge < key row <;> simp [roomBefore, past]
    rw [split, split]
    rcases List.mem_cons.mp member with rfl | later
    · rw [if_neg (lt_irrefl _), if_pos ahead]
      omega
    · have step := ih others later
      by_cases past : key first < key row
      · rw [if_pos past, if_pos (ahead.trans past)]
        omega
      · rw [if_neg past]
        split <;> omega

theorem windowTaken_full {amount : Int} {rows : List α} (nonnegative : ∀ row ∈ rows, 0 ≤ room row) {first second : α}
    (member : first ∈ rows) (ahead : key second < key first) (gives : 0 < windowTaken room key amount rows second) :
    windowTaken room key amount rows first = room first := by
  have before := roomBefore_le nonnegative member ahead
  have own := nonnegative first member
  simp only [windowTaken] at gives ⊢
  omega

end Window

section Greatest
variable {α κ : Type} [LinearOrder κ] {key : α → κ}

def toGreatest (key : α → κ) (rows : List α) (amount : Nat) (row : α) : Nat :=
  if rows.all (fun other => decide (key other ≤ key row)) then amount else 0

/-- One of several rows with distinct keys is greatest, so an amount given to the greatest is given once. -/
theorem toGreatest_sum {rows : List α} (distinct : (rows.map key).Nodup) (nonempty : rows ≠ []) (amount : Nat) :
    (rows.map (toGreatest key rows amount)).sum = amount := by
  obtain ⟨greatest, maximal⟩ := Option.ne_none_iff_exists'.mp (mt List.argmax_eq_none.mp nonempty : rows.argmax key ≠ none)
  have member : greatest ∈ rows := List.argmax_mem maximal
  have above : ∀ row ∈ rows, key row ≤ key greatest := fun row inside => List.le_of_mem_argmax inside maximal
  have own : toGreatest key rows amount greatest = amount := by
    rw [toGreatest, if_pos (by simpa using above)]
  have lesser : ∀ row ∈ rows, key row ≠ key greatest → toGreatest key rows amount row = 0 := by
    intro row inside different
    rw [toGreatest, if_neg]
    intro all
    have upper := of_decide_eq_true (List.all_eq_true.mp all greatest member)
    exact different (le_antisymm (above row inside) upper)
  generalize toGreatest key rows amount = share at own lesser ⊢
  obtain ⟨front, back, rfl⟩ := List.append_of_mem member
  rw [List.map_append, List.map_cons, List.nodup_append] at distinct
  obtain ⟨-, later, apart⟩ := distinct
  have before : (front.map share).sum = 0 := by
    apply List.sum_eq_zero
    intro value inside
    obtain ⟨row, present, rfl⟩ := List.mem_map.mp inside
    exact lesser row (by simp [present]) (apart _ (List.mem_map_of_mem present) _ (by simp))
  have after : (back.map share).sum = 0 := by
    apply List.sum_eq_zero
    intro value inside
    obtain ⟨row, present, rfl⟩ := List.mem_map.mp inside
    refine lesser row (by simp [present]) fun same => (List.nodup_cons.mp later).1 ?_
    rw [← same]
    exact List.mem_map_of_mem present
  rw [List.map_append, List.map_cons, List.sum_append, List.sum_cons, before, after, own]
  omega

end Greatest

/-- Rows that contribute nothing may be left out of a sum. -/
theorem sum_filter {α : Type} {p : α → Bool} {f : α → Nat} {rows : List α} (none : ∀ row ∈ rows, p row = false → f row = 0) :
    ((rows.filter p).map f).sum = (rows.map f).sum := by
  induction rows with
  | nil => rfl
  | cons row rest ih =>
    have later := ih fun other member => none other (by simp [member])
    cases here : p row with
    | true => rw [List.filter_cons_of_pos here, List.map_cons, List.map_cons, List.sum_cons, List.sum_cons, later]
    | false =>
      rw [List.filter_cons_of_neg (by simp [here]), later, List.map_cons, List.sum_cons, none row (by simp) here]
      omega

end Quotum.General
