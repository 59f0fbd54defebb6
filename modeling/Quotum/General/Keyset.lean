import Quotum.General.Lookup

/-! Pages of a table read by key: the first keys after a cursor, and the cursor moved to the last key that was taken. -/

namespace Quotum.General.Keyset

section Pages
variable {κ : Type} [LinearOrder κ]

/-- Whether a key comes after a cursor, before the first of which every key comes. -/
def beyond (cursor : Option κ) (k : κ) : Bool :=
  cursor.all fun last => decide (last < k)

/-- The first keys after a cursor, in order. -/
def page (size : Nat) (cursor : Option κ) (keys : List κ) : List κ :=
  (listing id (keys.filter (beyond cursor))).take size

def covered (cursor : Option κ) (keys : List κ) : List κ :=
  keys.filter fun k => !beyond cursor k

variable {size : Nat} {cursor : Option κ} {keys : List κ} {k last : κ}

theorem page_mem (member : k ∈ page size cursor keys) : k ∈ keys ∧ beyond cursor k = true :=
  List.mem_filter.mp ((listing_perm _).mem_iff.mp (List.mem_of_mem_take member))

theorem page_nodup (distinct : keys.Nodup) : (page size cursor keys).Nodup :=
  ((listing_perm _).nodup_iff.mpr (distinct.filter _)).sublist (List.take_sublist _ _)

theorem page_sorted (size : Nat) (cursor : Option κ) (keys : List κ) : (page size cursor keys).Pairwise (· ≤ ·) := by
  have sorted : (listing id (keys.filter (beyond cursor))).Pairwise (· ≤ ·) := listing_sorted _
  exact sorted.sublist (List.take_sublist _ _)

/-- Nothing in an ordered list comes after its last element. -/
theorem le_last {keys : List κ} (sorted : keys.Pairwise (· ≤ ·)) (ends : keys.getLast? = some last) : ∀ k ∈ keys, k ≤ last := by
  intro k member
  obtain ⟨front, rfl⟩ := List.getLast?_eq_some_iff.mp ends
  rcases List.mem_append.mp member with before | here
  · exact (List.pairwise_append.mp sorted).2.2 k before last (List.mem_singleton_self last)
  · exact (List.mem_singleton.mp here).le

/-- A page leaves out no key up to one of its own. -/
theorem page_earlier (member : k ∈ keys) (after : beyond cursor k = true) {other : κ} (inside : other ∈ page size cursor keys)
    (upTo : k ≤ other) : k ∈ page size cursor keys := by
  have listed : k ∈ listing id (keys.filter (beyond cursor)) := (listing_perm _).mem_iff.mpr (List.mem_filter.mpr ⟨member, after⟩)
  have sorted : (listing id (keys.filter (beyond cursor))).Pairwise (· ≤ ·) := listing_sorted _
  rw [← List.take_append_drop size (listing id _)] at listed sorted
  rcases List.mem_append.mp listed with taken | dropped
  · exact taken
  · have same := le_antisymm upTo ((List.pairwise_append.mp sorted).2.2 other inside k dropped)
    exact same ▸ inside

/-- A page that is not full is all that comes after the cursor. -/
theorem page_short (short : (page size cursor keys).length < size) (member : k ∈ keys) (after : beyond cursor k = true) :
    k ∈ page size cursor keys := by
  have whole : page size cursor keys = listing id (keys.filter (beyond cursor)) := by
    rw [page, List.length_take] at short
    exact List.take_of_length_le (by omega)
  rw [whole]
  exact (listing_perm _).mem_iff.mpr (List.mem_filter.mpr ⟨member, after⟩)

theorem beyond_some : beyond (some last) k = decide (last < k) :=
  rfl

theorem beyond_trans (after : beyond cursor last = true) (later : beyond (some last) k = true) : beyond cursor k = true := by
  cases cursor with
  | none => rfl
  | some previous => exact decide_eq_true ((of_decide_eq_true after).trans (of_decide_eq_true later))

theorem covered_moved (distinct : keys.Nodup) (inside : last ∈ page size cursor keys) :
    (covered (some last) keys).length =
      (covered cursor keys).length + ((page size cursor keys).filter fun k => decide (k ≤ last)).length := by
  have after := (page_mem inside).2
  have parts : (covered (some last) keys).Perm (covered cursor keys ++ (page size cursor keys).filter fun k => decide (k ≤ last)) := by
    apply (List.perm_ext_iff_of_nodup (distinct.filter _) _).mpr
    · intro k
      simp only [covered, List.mem_append, List.mem_filter, Bool.not_eq_true', beyond_some, decide_eq_false_iff_not, not_lt, decide_eq_true_eq]
      constructor
      · rintro ⟨member, upTo⟩
        cases passed : beyond cursor k with
        | false => exact .inl ⟨member, rfl⟩
        | true => exact .inr ⟨page_earlier member passed inside upTo, upTo⟩
      · rintro (⟨member, passed⟩ | ⟨paged, upTo⟩)
        · refine ⟨member, ?_⟩
          by_contra beyondLast
          rw [beyond_trans after (decide_eq_true (not_le.mp beyondLast))] at passed
          cases passed
        · exact ⟨(page_mem paged).1, upTo⟩
    · apply List.nodup_append.mpr ⟨distinct.filter _, (page_nodup distinct).filter _, ?_⟩
      rintro k old other new rfl
      have behind := (List.mem_filter.mp old).2
      rw [(page_mem (List.mem_filter.mp new).1).2] at behind
      cases behind
  rw [parts.length_eq, List.length_append]

end Pages

end Quotum.General.Keyset
