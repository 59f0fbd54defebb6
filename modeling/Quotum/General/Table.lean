import Mathlib

/-! Tables: rows of distinct keys, the amounts several rows put on one key, and the update of one row. -/

namespace Quotum.General

section Totals
variable {α κ M : Type} [DecidableEq κ] [AddCommMonoid M] (key : α → κ) (amount : α → M)

def totalAt (k : κ) (rows : List α) : M :=
  ((rows.filter fun row => decide (key row = k)).map amount).sum

variable {key amount}

@[simp] theorem totalAt_nil (k : κ) : totalAt key amount k [] = 0 :=
  rfl

theorem totalAt_cons (k : κ) (row : α) (rows : List α) :
    totalAt key amount k (row :: rows) = (if key row = k then amount row else 0) + totalAt key amount k rows := by
  unfold totalAt
  by_cases same : key row = k
  · rw [List.filter_cons_of_pos (by simpa using same), List.map_cons, List.sum_cons, if_pos same]
  · rw [List.filter_cons_of_neg (by simpa using same), if_neg same, zero_add]

theorem totalAt_append (k : κ) (rows others : List α) :
    totalAt key amount k (rows ++ others) = totalAt key amount k rows + totalAt key amount k others := by
  unfold totalAt
  rw [List.filter_append, List.map_append, List.sum_append]

theorem totalAt_absent {k : κ} {rows : List α} (absent : k ∉ rows.map key) : totalAt key amount k rows = 0 := by
  unfold totalAt
  rw [List.filter_eq_nil_iff.mpr, List.map_nil, List.sum_nil]
  intro row member same
  exact absent (List.mem_map.mpr ⟨row, member, of_decide_eq_true same⟩)

theorem totalAt_unique {rows : List α} (distinct : (rows.map key).Nodup) {row : α} (member : row ∈ rows) :
    totalAt key amount (key row) rows = amount row := by
  induction rows with
  | nil => cases member
  | cons first rest ih =>
    rw [List.map_cons, List.nodup_cons] at distinct
    rw [totalAt_cons]
    rcases List.mem_cons.mp member with rfl | later
    · rw [if_pos rfl, totalAt_absent distinct.1, add_zero]
    · have apart : key first ≠ key row := fun same => distinct.1 (same ▸ List.mem_map_of_mem later)
      rw [if_neg apart, zero_add, ih distinct.2 later]

/-- An amount on one key of a table is there once. -/
theorem spread_sum {β : Type} {tableKey : β → κ} {table : List β} (distinct : (table.map tableKey).Nodup) (k : κ) (value : M) :
    (table.map fun entry => if k = tableKey entry then value else 0).sum =
      if k ∈ table.map tableKey then value else 0 := by
  induction table with
  | nil => simp
  | cons first rest ih =>
    rw [List.map_cons, List.nodup_cons] at distinct
    rw [List.map_cons, List.sum_cons, ih distinct.2]
    by_cases here : k = tableKey first
    · have absent : k ∉ rest.map tableKey := here ▸ distinct.1
      rw [if_pos here, if_neg absent, add_zero, if_pos (by simp [here])]
    · rw [if_neg here, zero_add, List.map_cons]
      simp only [List.mem_cons, here, false_or]

theorem totalAt_sum {β : Type} {tableKey : β → κ} {table : List β} (distinct : (table.map tableKey).Nodup)
    {rows : List α} (covered : ∀ row ∈ rows, key row ∈ table.map tableKey) :
    (table.map fun entry => totalAt key amount (tableKey entry) rows).sum = (rows.map amount).sum := by
  induction rows with
  | nil => simp
  | cons row rest ih =>
    have later := ih fun other member => covered other (by simp [member])
    simp only [totalAt_cons, List.sum_map_add, later, List.map_cons, List.sum_cons]
    rw [spread_sum distinct, if_pos (covered row (by simp))]

theorem totalAt_congr {other : α → M} {k : κ} {rows : List α} (same : ∀ row ∈ rows, key row = k → amount row = other row) :
    totalAt key amount k rows = totalAt key other k rows := by
  unfold totalAt
  congr 1
  apply List.map_congr_left
  intro row member
  obtain ⟨inside, here⟩ := List.mem_filter.mp member
  exact same row inside (of_decide_eq_true here)

theorem totalAt_zero (k : κ) (rows : List α) : totalAt key (fun _ => (0 : M)) k rows = 0 := by
  unfold totalAt
  exact List.sum_eq_zero (by simp)

theorem sum_part {β : Type} (test : β → Bool) (value : β → M) (rows : List β) :
    ((rows.filter test).map value).sum = (rows.map fun row => if test row then value row else 0).sum := by
  induction rows with
  | nil => rfl
  | cons first rest ih =>
    rw [List.map_cons, List.sum_cons, ← ih, List.filter_cons]
    split
    · rw [List.map_cons, List.sum_cons]
    · rw [zero_add]

theorem totalAt_perm {rows others : List α} (perm : rows.Perm others) (k : κ) :
    totalAt key amount k rows = totalAt key amount k others :=
  ((perm.filter _).map amount).sum_eq

theorem totalAt_flatMap {β : Type} (k : κ) (table : List β) (rows : β → List α) :
    totalAt key amount k (table.flatMap rows) = (table.map fun entry => totalAt key amount k (rows entry)).sum := by
  induction table with
  | nil => rfl
  | cons first rest ih => rw [List.flatMap_cons, totalAt_append, ih, List.map_cons, List.sum_cons]

/-- A value that one entry of a table takes at most is taken once, or left. -/
theorem taken_once {β : Type} {table : List β} (different : table.Nodup) {takes : β → Bool} (value : M)
    (once : ∀ entry ∈ table, ∀ other ∈ table, takes entry = true → takes other = true → entry = other) :
    (table.map fun entry => if takes entry = true then value else 0).sum +
      (if (table.all fun entry => !takes entry) = true then value else 0) = value := by
  induction table with
  | nil => simp
  | cons first rest ih =>
    obtain ⟨apart, different⟩ := List.nodup_cons.mp different
    have later := ih different fun entry member other also => once entry (by simp [member]) other (by simp [also])
    rw [List.map_cons, List.sum_cons, List.all_cons]
    by_cases taken : takes first = true
    · have left : ∀ entry ∈ rest, takes entry = false := by
        intro entry member
        by_contra also
        exact apart (once first (by simp) entry (by simp [member]) taken (by simpa using also) ▸ member)
      have none : (rest.map fun entry => if takes entry = true then value else 0).sum = 0 :=
        List.sum_eq_zero (by
          intro amount listed
          obtain ⟨entry, member, rfl⟩ := List.mem_map.mp listed
          rw [left entry member]
          rfl)
      rw [taken, none]
      simp
    · rw [Bool.not_eq_true] at taken
      rw [taken]
      simpa using later

/-- Rows that the entries of a table take, each row by one of them at most, and the rows that are left are all the rows. -/
theorem totalAt_split {β : Type} {table : List β} (different : table.Nodup) {takes : β → α → Bool} {rows : List α} {k : κ}
    (once : ∀ row ∈ rows, key row = k → ∀ entry ∈ table, ∀ other ∈ table, takes entry row = true → takes other row = true →
      entry = other) :
    (table.map fun entry => totalAt key amount k (rows.filter (takes entry))).sum +
      totalAt key amount k (rows.filter fun row => table.all fun entry => !takes entry row) = totalAt key amount k rows := by
  induction rows with
  | nil => simp
  | cons row rest ih =>
    have later := ih fun other member => once other (by simp [member])
    have part : ∀ test : α → Bool, totalAt key amount k ((row :: rest).filter test) =
        (if test row = true then (if key row = k then amount row else 0) else 0) +
          totalAt key amount k (rest.filter test) := by
      intro test
      rw [List.filter_cons]
      split
      · exact totalAt_cons k row _
      · rw [zero_add]
    have here : (table.map fun entry => if takes entry row = true then (if key row = k then amount row else 0) else 0).sum +
        (if (table.all fun entry => !takes entry row) = true then (if key row = k then amount row else 0) else 0) =
          if key row = k then amount row else 0 := by
      by_cases same : key row = k
      · exact taken_once different _ (once row (by simp) same)
      · simp [same]
    simp only [part, List.sum_map_add, totalAt_cons]
    rw [add_add_add_comm, here, later]

theorem totalAt_part {β : Type} {tableKey : β → κ} {table : List β} (distinct : (table.map tableKey).Nodup) {rows : List α}
    (covered : ∀ row ∈ rows, key row ∈ table.map tableKey) {inside : β → Bool} {belongs : α → Bool}
    (part : ∀ entry ∈ table, ∀ row ∈ rows, key row = tableKey entry → amount row ≠ 0 → inside entry = belongs row) :
    ((table.filter inside).map fun entry => totalAt key amount (tableKey entry) rows).sum = ((rows.filter belongs).map amount).sum := by
  rw [sum_part, sum_part, ← totalAt_sum distinct covered]
  congr 1
  apply List.map_congr_left
  intro entry member
  split
  · next chosen =>
    apply totalAt_congr
    intro row there here
    by_cases nothing : amount row = 0
    · rw [nothing, ite_self]
    · rw [if_pos ((part entry member row there here nothing).symm.trans chosen)]
  · next left =>
    refine ((totalAt_congr ?_).trans (totalAt_zero (tableKey entry) rows)).symm
    intro row there here
    by_cases nothing : amount row = 0
    · rw [nothing, ite_self]
    · rw [if_neg]
      exact fun belonging => left ((part entry member row there here nothing).trans belonging)

theorem totalAt_sum_le {β : Type} {tableKey : β → κ} {table : List β} (distinct : (table.map tableKey).Nodup)
    {amount : α → Nat} (rows : List α) :
    (table.map fun entry => totalAt key amount (tableKey entry) rows).sum ≤ (rows.map amount).sum := by
  induction rows with
  | nil => simp
  | cons row rest ih =>
    simp only [totalAt_cons, List.sum_map_add, List.map_cons, List.sum_cons]
    rw [spread_sum distinct]
    split <;> omega

end Totals

section Update
variable {α κ : Type} [DecidableEq κ] (key : α → κ)

def updateAt (k : κ) (change : α → α) (rows : List α) : List α :=
  rows.map fun row => if key row = k then change row else row

def findAt (k : κ) (rows : List α) : Option α :=
  rows.find? fun row => decide (key row = k)

variable {key}

theorem findAt_inv {k : κ} {rows : List α} {row : α} (found : findAt key k rows = some row) : row ∈ rows ∧ key row = k := by
  unfold findAt at found
  have same := List.find?_some found
  exact ⟨List.mem_of_find?_eq_some found, by simpa using same⟩

theorem findAt_absent {k : κ} {rows : List α} (absent : k ∉ rows.map key) : findAt key k rows = none := by
  simp only [findAt, List.find?_eq_none, decide_eq_true_eq]
  intro row member same
  exact absent (List.mem_map.mpr ⟨row, member, same⟩)

theorem findAt_member {rows : List α} (distinct : (rows.map key).Nodup) {row : α} (member : row ∈ rows) :
    findAt key (key row) rows = some row := by
  induction rows with
  | nil => cases member
  | cons first rest ih =>
    rw [List.map_cons, List.nodup_cons] at distinct
    unfold findAt
    rcases List.mem_cons.mp member with rfl | later
    · rw [List.find?_cons_of_pos (by simp)]
    · have apart : key first ≠ key row := fun same => distinct.1 (same ▸ List.mem_map_of_mem later)
      rw [List.find?_cons_of_neg (by simpa using apart)]
      exact ih distinct.2 later

theorem updateAt_keys {k : κ} {change : α → α} (kept : ∀ row, key (change row) = key row) (rows : List α) :
    (updateAt key k change rows).map key = rows.map key := by
  unfold updateAt
  rw [List.map_map]
  apply List.map_congr_left
  intro row _
  rw [Function.comp]
  split
  · exact kept row
  · rfl

theorem mem_updateAt {k : κ} {change : α → α} {rows : List α} {row : α} :
    row ∈ updateAt key k change rows ↔ ∃ old ∈ rows, (key old = k ∧ row = change old) ∨ (key old ≠ k ∧ row = old) := by
  unfold updateAt
  rw [List.mem_map]
  constructor
  · rintro ⟨old, member, rfl⟩
    refine ⟨old, member, ?_⟩
    by_cases same : key old = k
    · exact .inl ⟨same, if_pos same⟩
    · exact .inr ⟨same, if_neg same⟩
  · rintro ⟨old, member, ⟨same, rfl⟩ | ⟨apart, rfl⟩⟩
    · exact ⟨old, member, if_pos same⟩
    · exact ⟨row, member, if_neg apart⟩

theorem updateAt_sum {M : Type} [AddCommMonoid M] {rows : List α} (distinct : (rows.map key).Nodup) {row : α}
    (member : row ∈ rows) (change : α → α) (amount : α → M) :
    ((updateAt key (key row) change rows).map amount).sum + amount row = (rows.map amount).sum + amount (change row) := by
  unfold updateAt
  rw [List.map_map]
  induction rows with
  | nil => cases member
  | cons first rest ih =>
    rw [List.map_cons, List.nodup_cons] at distinct
    simp only [List.map_cons, List.sum_cons, Function.comp]
    rcases List.mem_cons.mp member with rfl | later
    · have same : rest.map (amount ∘ fun other => if key other = key row then change other else other) = rest.map amount := by
        apply List.map_congr_left
        intro other inside
        rw [Function.comp, if_neg]
        intro again
        exact distinct.1 (again ▸ List.mem_map_of_mem inside)
      rw [if_pos rfl, same]
      abel
    · have apart : key first ≠ key row := fun same => distinct.1 (same ▸ List.mem_map_of_mem later)
      rw [if_neg apart, add_assoc, ih distinct.2 later, add_assoc]

theorem updateAt_countP {rows : List α} (distinct : (rows.map key).Nodup) {row : α} (member : row ∈ rows) (change : α → α)
    (p : α → Bool) :
    (updateAt key (key row) change rows).countP p + [row].countP p = rows.countP p + [change row].countP p := by
  have counts (list : List α) : list.countP p = (list.map fun other => if p other then 1 else 0).sum := by
    induction list with
    | nil => rfl
    | cons first rest ih => rw [List.countP_cons, ih, List.map_cons, List.sum_cons, Nat.add_comm]
  have moved := updateAt_sum distinct member change fun other => if p other then 1 else 0
  simpa only [counts, List.map_cons, List.map_nil, List.sum_cons, List.sum_nil, Nat.add_zero] using moved

theorem updateAt_congr {k : κ} {change other : α → α} {rows : List α}
    (same : ∀ row ∈ rows, key row = k → change row = other row) : updateAt key k change rows = updateAt key k other rows := by
  unfold updateAt
  apply List.map_congr_left
  intro row member
  split
  · next here => exact same row member here
  · rfl

theorem findAt_update {rows : List α} (distinct : (rows.map key).Nodup) {row : α} (member : row ∈ rows) {change : α → α}
    (kept : ∀ row, key (change row) = key row) : findAt key (key row) (updateAt key (key row) change rows) = some (change row) := by
  have changed : change row ∈ updateAt key (key row) change rows := mem_updateAt.mpr ⟨row, member, .inl ⟨rfl, rfl⟩⟩
  have found := findAt_member (by rw [updateAt_keys kept]; exact distinct) changed
  rwa [kept] at found

theorem updateAt_fixed {k : κ} {change : α → α} {rows : List α} (fixed : ∀ row ∈ rows, key row = k → change row = row) :
    updateAt key k change rows = rows := by
  unfold updateAt
  rw [List.map_congr_left (g := id), List.map_id]
  intro row member
  split
  · next here => exact fixed row member here
  · rfl

theorem updateAt_absent {k : κ} {change : α → α} {rows : List α} (absent : k ∉ rows.map key) :
    updateAt key k change rows = rows := by
  apply updateAt_fixed
  rintro row member rfl
  exact absurd (List.mem_map_of_mem member) absent

theorem totalAt_update_apart {M : Type} [AddCommMonoid M] {amount : α → M} {k other : κ} (apart : other ≠ k)
    {change : α → α} (kept : ∀ row, key (change row) = key row) (rows : List α) :
    totalAt key amount other (updateAt key k change rows) = totalAt key amount other rows := by
  induction rows with
  | nil => rfl
  | cons row rest ih =>
    have step : updateAt key k change (row :: rest) = (if key row = k then change row else row) :: updateAt key k change rest := rfl
    rw [step, totalAt_cons, totalAt_cons, ih]
    by_cases here : key row = k
    · have elsewhere : key row ≠ other := fun same => apart (same.symm.trans here)
      rw [if_pos here, kept, if_neg elsewhere, if_neg elsewhere]
    · rw [if_neg here]

theorem totalAt_update_here {M : Type} [AddCommMonoid M] {amount : α → M} {k : κ} {rows : List α}
    (distinct : (rows.map key).Nodup) (present : k ∈ rows.map key) {change : α → α}
    (kept : ∀ row, key (change row) = key row) {f : M → M} (effect : ∀ row, amount (change row) = f (amount row)) :
    totalAt key amount k (updateAt key k change rows) = f (totalAt key amount k rows) := by
  obtain ⟨row, member, rfl⟩ := List.mem_map.mp present
  have changed : change row ∈ updateAt key (key row) change rows :=
    mem_updateAt.mpr ⟨row, member, .inl ⟨rfl, rfl⟩⟩
  have unique : totalAt key amount (key (change row)) (updateAt key (key row) change rows) = amount (change row) :=
    totalAt_unique (by rw [updateAt_keys kept]; exact distinct) changed
  rw [kept] at unique
  rw [unique, effect, totalAt_unique distinct member]

theorem totalAt_change {κ' M : Type} [DecidableEq κ'] [AddCommMonoid M] {other : α → κ'} {amount : α → M} {rows : List α}
    (distinct : (rows.map key).Nodup) {row : α} (member : row ∈ rows) (change : α → α) (k : κ') :
    totalAt other amount k (updateAt key (key row) change rows) + (if other row = k then amount row else 0) =
      totalAt other amount k rows + if other (change row) = k then amount (change row) else 0 := by
  have moved := updateAt_sum distinct member change fun entry => if other entry = k then amount entry else 0
  simpa only [totalAt, sum_part, decide_eq_true_eq] using moved

end Update

section Distinct
variable {α κ : Type} {rows : List α}

theorem nodup_fresh {key : α → Nat} {created : α} {counter : Nat} (distinct : (rows.map key).Nodup)
    (known : ∀ row ∈ rows, key row < counter) (fresh : key created = counter) : ((rows ++ [created]).map key).Nodup := by
  rw [List.map_append, List.nodup_append]
  refine ⟨distinct, List.nodup_singleton _, ?_⟩
  intro old inside new created
  obtain ⟨row, member, rfl⟩ := List.mem_map.mp inside
  obtain rfl := List.mem_singleton.mp created
  exact (fresh ▸ known row member).ne

theorem known_fresh {key : α → Nat} {created : α} {counter : Nat}
    (known : ∀ row ∈ rows, key row < counter) (fresh : key created = counter) :
    ∀ row ∈ rows ++ [created], key row < counter + 1 := by
  intro row member
  rcases List.mem_append.mp member with old | new
  · exact Nat.lt_succ_of_lt (known row old)
  · obtain rfl := List.mem_singleton.mp new
    exact fresh ▸ Nat.lt_succ_self _

/-- Rows that all equal one another and are apart are one row at most. -/
theorem alone_of_equal (distinct : rows.Nodup) (equal : ∀ first ∈ rows, ∀ second ∈ rows, first = second) :
    rows = [] ∨ ∃ row, rows = [row] := by
  match rows with
  | [] => exact .inl rfl
  | [row] => exact .inr ⟨row, rfl⟩
  | first :: second :: rest =>
    have same := equal first (by simp) second (by simp)
    rw [List.nodup_cons] at distinct
    exact absurd (by simp [same]) distinct.1

theorem length_le_one (distinct : rows.Nodup) (equal : ∀ first ∈ rows, ∀ second ∈ rows, first = second) : rows.length ≤ 1 := by
  rcases alone_of_equal distinct equal with rfl | ⟨row, rfl⟩
  · exact Nat.zero_le _
  · exact le_rfl

theorem countP_key [DecidableEq κ] {key : α → κ} (distinct : (rows.map key).Nodup) {p : α → Bool} {k : κ}
    (named : ∀ row, p row = true → key row = k) : rows.countP p ≤ 1 := by
  have counted : rows.countP p ≤ (rows.map key).count k := by
    rw [List.count_eq_countP, List.countP_map]
    apply List.countP_mono_left
    intro row _ holds
    rw [Function.comp, beq_iff_eq]
    exact named row holds
  exact counted.trans (List.nodup_iff_count_le_one.mp distinct k)

end Distinct

section Continues
variable {α : Type}

/-- Every row of a table is still there, as a row that stands in a relation to it. -/
def Continues (relation : α → α → Prop) (before after : List α) : Prop :=
  ∀ row ∈ before, ∃ next ∈ after, relation row next

theorem Continues.refl {relation : α → α → Prop} (same : ∀ row, relation row row) (rows : List α) : Continues relation rows rows :=
  fun row member => ⟨row, member, same row⟩

theorem Continues.trans {first second both : α → α → Prop} (compose : ∀ a b c, first a b → second b c → both a c)
    {before middle after : List α} (left : Continues first before middle) (right : Continues second middle after) :
    Continues both before after := by
  intro row member
  obtain ⟨mid, inside, here⟩ := left row member
  obtain ⟨last, still, later⟩ := right mid inside
  exact ⟨last, still, compose row mid last here later⟩

theorem Continues.append {relation : α → α → Prop} (same : ∀ row, relation row row) (rows more : List α) :
    Continues relation rows (rows ++ more) :=
  fun row member => ⟨row, List.mem_append_left more member, same row⟩

theorem Continues.map {relation : α → α → Prop} {rows : List α} {change : α → α} (each : ∀ row ∈ rows, relation row (change row)) :
    Continues relation rows (rows.map change) :=
  fun row member => ⟨change row, List.mem_map_of_mem member, each row member⟩

theorem map_kept {β : Type} {change : α → α} {g : α → β} (kept : ∀ row, g (change row) = g row) (rows : List α) :
    (rows.map change).map g = rows.map g := by
  rw [List.map_map]
  exact List.map_congr_left fun row _ => kept row

end Continues

end Quotum.General
