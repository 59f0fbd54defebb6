import Quotum.General.Table

/-! Tables with one row a key, read by the key and listed in its order. -/

namespace Quotum.General

section Lookup
variable {α β κ : Type} [DecidableEq κ] {key : α → κ} {other : β → κ} {k : κ} {rows : List α}

theorem findAt_none : findAt key k rows = none ↔ k ∉ rows.map key := by
  unfold findAt
  rw [List.find?_eq_none]
  simp only [decide_eq_true_eq, List.mem_map, not_exists, not_and]

theorem findAt_append (more : List α) : findAt key k (rows ++ more) = (findAt key k rows).or (findAt key k more) := by
  unfold findAt
  exact List.find?_append

theorem findAt_append_some {row : α} (found : findAt key k rows = some row) (more : List α) :
    findAt key k (rows ++ more) = some row := by
  rw [findAt_append, found, Option.some_or]

theorem findAt_map {change : α → β} (kept : ∀ row ∈ rows, other (change row) = key row) :
    findAt other k (rows.map change) = (findAt key k rows).map change := by
  unfold findAt
  rw [List.find?_map]
  congr 1
  apply List.find?_congr
  intro row member
  rw [Function.comp, kept row member]

theorem findAt_mem (distinct : (rows.map key).Nodup) {row : α} : findAt key k rows = some row ↔ row ∈ rows ∧ key row = k := by
  constructor
  · exact findAt_inv
  · rintro ⟨member, rfl⟩
    exact findAt_member distinct member

theorem findAt_perm {others : List α} (distinct : (rows.map key).Nodup) (same : rows.Perm others) :
    findAt key k rows = findAt key k others := by
  have distinctToo : (others.map key).Nodup := (same.map key).nodup_iff.mp distinct
  apply Option.ext
  intro row
  rw [findAt_mem distinct, findAt_mem distinctToo, same.mem_iff]

theorem findAt_filterMap {keys : List κ} {of : κ → Option α} (kept : ∀ k row, of k = some row → key row = k) :
    findAt key k (keys.filterMap of) = if k ∈ keys then of k else none := by
  induction keys with
  | nil => rfl
  | cons first rest ih =>
    rw [List.filterMap_cons]
    cases row : of first with
    | none =>
      rw [ih]
      by_cases same : k = first
      · subst same
        simp only [row, List.mem_cons, true_or, ite_self]
      · simp only [List.mem_cons, same, false_or]
    | some found =>
      have under := kept first found row
      unfold findAt at ih ⊢
      by_cases same : k = first
      · subst same
        rw [List.find?_cons_of_pos (by simpa using under)]
        simp only [List.mem_cons, true_or, if_true, row]
      · rw [List.find?_cons_of_neg (by simpa [under] using fun equal => same equal.symm), ih]
        simp only [List.mem_cons, same, false_or]

theorem findAt_filter (distinct : (rows.map key).Nodup) (p : α → Bool) :
    findAt key k (rows.filter p) = (findAt key k rows).filter p := by
  have distinctToo : ((rows.filter p).map key).Nodup := distinct.sublist (List.filter_sublist.map _)
  apply Option.ext
  intro row
  rw [findAt_mem distinctToo, List.mem_filter, Option.filter_eq_some_iff, findAt_mem distinct]
  tauto

theorem filter_findAt (distinct : (rows.map key).Nodup) (k : κ) :
    rows.filter (fun row => decide (key row = k)) = (findAt key k rows).toList := by
  induction rows with
  | nil => rfl
  | cons row rest ih =>
    rw [List.map_cons, List.nodup_cons] at distinct
    by_cases here : key row = k
    · have absent : k ∉ rest.map key := here ▸ distinct.1
      have found : findAt key k (row :: rest) = some row := List.find?_cons_of_pos (by simpa using here)
      rw [List.filter_cons_of_pos (by simpa using here), ih distinct.2, findAt_absent absent, found]
      rfl
    · have passed : findAt key k (row :: rest) = findAt key k rest := List.find?_cons_of_neg (by simpa using here)
      rw [List.filter_cons_of_neg (by simpa using here), ih distinct.2, passed]

theorem filter_key_and (distinct : (rows.map key).Nodup) {row : α} (member : row ∈ rows) (q : α → Bool) :
    rows.filter (fun other => decide (key other = key row) && q other) = if q row then [row] else [] := by
  have first : rows.filter (fun other => decide (key other = key row)) = [row] := by
    rw [filter_findAt distinct, findAt_member distinct member]
    rfl
  rw [show (fun other => decide (key other = key row) && q other) = fun other => q other && decide (key other = key row) from
    funext fun other => Bool.and_comm _ _, ← List.filter_filter, first]
  cases passed : q row <;> simp [passed]

theorem findAt_replace {k : κ} (rows : List α) {row : α} (under : key row = k) (other : κ) :
    findAt key other (updateAt key k (fun _ => row) rows) =
      (findAt key other rows).map fun old => if key old = k then row else old := by
  apply findAt_map
  intro old _
  split
  · next same => rw [under, same]
  · rfl

omit [DecidableEq κ] in
theorem filterMap_keys {keys : List κ} {of : κ → Option α} (kept : ∀ k row, of k = some row → key row = k) :
    (keys.filterMap of).map key = keys.filter fun k => (of k).isSome := by
  induction keys with
  | nil => rfl
  | cons first rest ih =>
    cases row : of first with
    | none => rw [List.filterMap_cons_none row, List.filter_cons_of_neg (by simp [row]), ih]
    | some found =>
      rw [List.filterMap_cons_some row, List.filter_cons_of_pos (by simp [row]), List.map_cons, ih, kept first found row]

end Lookup

section Listing
variable {α β κ : Type} [LinearOrder κ] {key : α → κ} {other : β → κ}

def listing (key : α → κ) (rows : List α) : List α :=
  rows.insertionSort fun first second => key first ≤ key second

theorem listing_perm (rows : List α) : (listing key rows).Perm rows := List.perm_insertionSort _ _

theorem listing_sorted (rows : List α) : (listing key rows).Pairwise fun first second => key first ≤ key second := by
  have total : Std.Total fun first second : α => key first ≤ key second := ⟨fun first second => le_total _ _⟩
  have trans : IsTrans α fun first second => key first ≤ key second := ⟨fun _ _ _ => le_trans⟩
  exact List.pairwise_insertionSort _ rows

theorem listing_congr {rows others : List α} {outline : α → β} (kept : ∀ row, other (outline row) = key row)
    (distinct : (rows.map key).Nodup) (distinctToo : (others.map key).Nodup)
    (same : ∀ k, (findAt key k rows).map outline = (findAt key k others).map outline) :
    (listing key rows).map outline = (listing key others).map outline := by
  have inside {table : List α} (once : (table.map key).Nodup) {row : β} :
      row ∈ table.map outline ↔ (findAt key (other row) table).map outline = some row := by
    rw [List.mem_map, Option.map_eq_some_iff]
    constructor
    · rintro ⟨old, member, rfl⟩
      exact ⟨old, by rw [kept]; exact findAt_member once member, rfl⟩
    · rintro ⟨old, found, rfl⟩
      exact ⟨old, (findAt_inv found).1, rfl⟩
  have keysOnce {table : List α} (once : (table.map key).Nodup) : ((table.map outline).map other).Nodup := by
    rw [List.map_map, show other ∘ outline = key from funext kept]
    exact once
  have perm : (rows.map outline).Perm (others.map outline) := by
    rw [List.perm_ext_iff_of_nodup (List.Nodup.of_map other (keysOnce distinct)) (List.Nodup.of_map other (keysOnce distinctToo))]
    intro row
    rw [inside distinct, inside distinctToo, same]
  have sorted (table : List α) : ((listing key table).map outline).Pairwise fun first second => other first ≤ other second := by
    rw [List.pairwise_map]
    exact (listing_sorted table).imp fun {first second} ordered => by rw [kept, kept]; exact ordered
  have listed (table : List α) : ((listing key table).map outline).Perm (table.map outline) := (listing_perm table).map outline
  apply List.Perm.eq_of_pairwise _ (sorted rows) (sorted others) ((listed rows).trans (perm.trans (listed others).symm))
  intro first second firstMember secondMember low high
  have equal : other first = other second := le_antisymm low high
  have firstInside := (listed rows).mem_iff.mp firstMember
  have secondInside := perm.mem_iff.mpr ((listed others).mem_iff.mp secondMember)
  exact List.inj_on_of_nodup_map (keysOnce distinct) firstInside secondInside equal

end Listing

end Quotum.General
