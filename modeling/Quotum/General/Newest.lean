import Mathlib

/-! The newest of the stamped rows of a table, where the key decides between equal stamps. -/

namespace Quotum.General

section Newest
variable {α : Type} (stamp : α → Option Int) (key : α → Nat)

/-- Whether one row has a later stamp than another, or the same stamp and a larger key. -/
def overtakes (row other : α) : Bool :=
  match stamp row, stamp other with
  | some later, some earlier => decide (earlier < later ∨ earlier = later ∧ key other < key row)
  | _, _ => false

def newest : List α → Option α
  | [] => none
  | row :: rest =>
    match newest rest with
    | none => if (stamp row).isSome then some row else none
    | some best => if overtakes stamp key row best then some row else some best

variable {stamp key}

theorem overtakes_inv {row other : α} (passed : overtakes stamp key row other = true) :
    ∃ later earlier, stamp row = some later ∧ stamp other = some earlier ∧
      (earlier < later ∨ earlier = later ∧ key other < key row) := by
  unfold overtakes at passed
  cases laterStamp : stamp row with
  | none => simp [laterStamp] at passed
  | some later =>
    cases earlierStamp : stamp other with
    | none => simp [laterStamp, earlierStamp] at passed
    | some earlier => exact ⟨later, earlier, rfl, rfl, by simpa [laterStamp, earlierStamp] using passed⟩

theorem overtakes_trans {row middle other : α} (first : overtakes stamp key row middle = true)
    (second : overtakes stamp key middle other = true) : overtakes stamp key row other = true := by
  obtain ⟨later, stamped, isLater, isStamped, order⟩ := overtakes_inv first
  obtain ⟨same, earlier, isSame, isEarlier, below⟩ := overtakes_inv second
  obtain rfl : stamped = same := Option.some.inj (isStamped.symm.trans isSame)
  unfold overtakes
  simp only [isLater, isEarlier, decide_eq_true_eq]
  omega

theorem overtakes_total {row other : α} (stamped : (stamp row).isSome) (also : (stamp other).isSome)
    (apart : key row ≠ key other) : overtakes stamp key row other = true ∨ overtakes stamp key other row = true := by
  obtain ⟨later, isLater⟩ := Option.isSome_iff_exists.mp stamped
  obtain ⟨earlier, isEarlier⟩ := Option.isSome_iff_exists.mp also
  unfold overtakes
  simp only [isLater, isEarlier, decide_eq_true_eq]
  omega

theorem newest_none {rows : List α} (absent : newest stamp key rows = none) : ∀ row ∈ rows, stamp row = none := by
  induction rows with
  | nil => simp
  | cons first rest ih =>
    unfold newest at absent
    cases best : newest stamp key rest with
    | some row =>
      simp only [best] at absent
      split at absent <;> cases absent
    | none =>
      simp only [best] at absent
      intro row member
      rcases List.mem_cons.mp member with rfl | later
      · cases stamped : stamp row with
        | none => rfl
        | some _ => simp [stamped] at absent
      · exact ih best row later

theorem newest_stamped {rows : List α} {best : α} (found : newest stamp key rows = some best) :
    best ∈ rows ∧ (stamp best).isSome := by
  induction rows generalizing best with
  | nil => cases found
  | cons first rest ih =>
    unfold newest at found
    cases later : newest stamp key rest with
    | none =>
      simp only [later] at found
      split at found
      · next stamped =>
        cases found
        exact ⟨by simp, stamped⟩
      · cases found
    | some row =>
      simp only [later] at found
      split at found
      · next passed =>
        cases found
        obtain ⟨at_, _, stamped, -⟩ := overtakes_inv passed
        exact ⟨by simp, by simp [stamped]⟩
      · cases found
        obtain ⟨member, stamped⟩ := ih later
        exact ⟨by simp [member], stamped⟩

theorem newest_last {rows : List α} {best : α} (found : newest stamp key rows = some best) :
    ∀ row ∈ rows, overtakes stamp key row best = false := by
  induction rows generalizing best with
  | nil => simp
  | cons first rest ih =>
    intro row member
    apply Bool.eq_false_iff.mpr
    intro passed
    unfold newest at found
    cases later : newest stamp key rest with
    | none =>
      simp only [later] at found
      obtain ⟨at_, other, stamped, isOther, order⟩ := overtakes_inv passed
      rcases List.mem_cons.mp member with rfl | inside
      · split at found
        · cases found
          rw [stamped] at isOther
          cases isOther
          omega
        · cases found
      · rw [newest_none later row inside] at stamped
        cases stamped
    | some candidate =>
      simp only [later] at found
      have below := ih later
      split at found
      · next ahead =>
        cases found
        rcases List.mem_cons.mp member with rfl | inside
        · obtain ⟨at_, other, stamped, isOther, order⟩ := overtakes_inv passed
          rw [stamped] at isOther
          cases isOther
          omega
        · exact absurd (overtakes_trans passed ahead) (by simp [below row inside])
      · next behind =>
        cases found
        rcases List.mem_cons.mp member with rfl | inside
        · exact behind passed
        · exact absurd passed (by simp [below row inside])

theorem newest_eq {rows : List α} (distinct : (rows.map key).Nodup) {row : α} (member : row ∈ rows)
    (stamped : (stamp row).isSome) (last : ∀ other ∈ rows, overtakes stamp key other row = false) :
    newest stamp key rows = some row := by
  cases found : newest stamp key rows with
  | none =>
    rw [newest_none found row member] at stamped
    cases stamped
  | some best =>
    obtain ⟨inside, also⟩ := newest_stamped found
    by_cases same : key row = key best
    · exact congrArg some (List.inj_on_of_nodup_map distinct inside member same.symm)
    · rcases overtakes_total stamped also same with passed | passed
      · exact absurd passed (by simp [newest_last found row member])
      · exact absurd passed (by simp [last best inside])

end Newest

end Quotum.General
