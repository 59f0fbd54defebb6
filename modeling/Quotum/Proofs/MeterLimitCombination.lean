import Quotum.General.Outcomes
import Quotum.MeterLimitCombination
import Quotum.Proofs.Decimal

/-! Combined meter limits. The anchor is the newest paid row of the strongest plan kind, which says nothing of the order of the rows, and
an add-on that joins the anchor's window joins whatever window the others join. -/

namespace Quotum.MeterLimitCombination
open General Decimal MeterLimitSources

/-- A row that no paid row comes before: a base plan before an add-on, and the newest of its kind. -/
structure Anchors (paid : List MeterLimitRow) (anchor : MeterLimitRow) : Prop where
  member : anchor ∈ paid
  base : ∀ other ∈ paid, other.planKind = .base → anchor.planKind = .base
  newest : ∀ other ∈ paid, other.planKind = anchor.planKind → other.sortAt ≤ anchor.sortAt

section Anchor
variable {paid others : List MeterLimitRow} {anchor row : MeterLimitRow}

private theorem newestFirst_sorted (paid : List MeterLimitRow) :
    (paid.insertionSort fun left right => right.sortAt ≤ left.sortAt).Pairwise fun left right => right.sortAt ≤ left.sortAt := by
  have total : Std.Total fun left right : MeterLimitRow => right.sortAt ≤ left.sortAt := ⟨fun left right => le_total _ _⟩
  have trans : IsTrans MeterLimitRow fun left right => right.sortAt ≤ left.sortAt := ⟨fun _ _ _ first second => le_trans second first⟩
  exact List.pairwise_insertionSort _ paid

private theorem find_newest {rows : List MeterLimitRow} (sorted : rows.Pairwise fun left right => right.sortAt ≤ left.sortAt)
    {test : MeterLimitRow → Bool} (found : rows.find? test = some row) : ∀ other ∈ rows, test other = true → other.sortAt ≤ row.sortAt := by
  obtain ⟨-, front, back, rfl, earlier⟩ := List.find?_eq_some_iff_append.mp found
  intro other member passes
  rcases List.mem_append.mp member with before | after
  · have refused := earlier other before
    rw [passes] at refused
    cases refused
  · rcases List.mem_cons.mp after with rfl | later
    · exact le_rfl
    · exact (List.pairwise_cons.mp (List.pairwise_append.mp sorted).2.1).1 other later

private theorem anchorOf_spec (found : anchorOf paid = some anchor) : Anchors paid anchor := by
  have sorted := newestFirst_sorted paid
  have listed : ∀ other, other ∈ paid.insertionSort (fun left right => right.sortAt ≤ left.sortAt) ↔ other ∈ paid :=
    fun other => List.mem_insertionSort _
  rw [anchorOf] at found
  rcases Option.or_eq_some_iff.mp found with base | ⟨none_, first⟩
  · have passes := List.find?_some base
    have kind : anchor.planKind = .base := eq_of_beq passes
    refine ⟨(listed anchor).mp (List.mem_of_find?_eq_some base), fun _ _ _ => kind, fun other member same => ?_⟩
    exact find_newest sorted base other ((listed other).mpr member) (beq_iff_eq.mpr (same.trans kind))
  · have addons : ∀ other ∈ paid, other.planKind ≠ .base := fun other member base =>
      List.find?_eq_none.mp none_ other ((listed other).mpr member) (beq_iff_eq.mpr base)
    have all : (paid.insertionSort fun left right => right.sortAt ≤ left.sortAt).find? (fun _ => true) = some anchor := by
      obtain ⟨rest, whole⟩ := List.head?_eq_some_iff.mp first
      rw [whole]
      rfl
    refine ⟨(listed anchor).mp (List.mem_of_head? first), fun other inside base => absurd base (addons other inside), ?_⟩
    exact fun other inside _ => find_newest sorted all other ((listed other).mpr inside) rfl

private theorem anchorOf_some (some_ : paid ≠ []) : ∃ anchor, anchorOf paid = some anchor := by
  cases found : anchorOf paid with
  | some anchor => exact ⟨anchor, rfl⟩
  | none =>
    rw [anchorOf, Option.or_eq_none_iff, List.head?_eq_none_iff] at found
    have empty := List.perm_insertionSort (fun left right : MeterLimitRow => right.sortAt ≤ left.sortAt) paid
    rw [found.2] at empty
    exact absurd empty.nil_eq.symm some_

theorem Anchors.unique (distinct : (paid.map MeterLimitRow.sortAt).Nodup) (first : Anchors paid anchor) (second : Anchors paid row) :
    anchor = row := by
  have kinds : anchor.planKind = row.planKind := by
    cases kind : anchor.planKind with
    | base => exact (second.base anchor first.member kind).symm
    | addon =>
      cases other : row.planKind with
      | base => exact (kind.symm.trans (first.base row second.member other))
      | addon => rfl
  apply List.inj_on_of_nodup_map distinct first.member second.member
  exact le_antisymm (second.newest anchor first.member kinds) (first.newest row second.member kinds.symm)

private theorem anchorOf_eq (distinct : (paid.map MeterLimitRow.sortAt).Nodup) (anchors : Anchors paid anchor) : anchorOf paid = some anchor := by
  obtain ⟨found, same⟩ := anchorOf_some (List.ne_nil_of_mem anchors.member)
  rw [same, (anchorOf_spec same).unique distinct anchors]

theorem Anchors.perm (same : paid.Perm others) (anchors : Anchors paid anchor) : Anchors others anchor where
  member := same.mem_iff.mp anchors.member
  base other member := anchors.base other (same.mem_iff.mpr member)
  newest other member := anchors.newest other (same.mem_iff.mpr member)

end Anchor

section Joins
variable {left right other : MeterLimitRow}

private theorem sameReset_iff {left right : Option Cadences.Cadence} : sameReset left right = true ↔
    ∃ first second, left = some first ∧ right = some second ∧ Cadences.cadenceKey first = Cadences.cadenceKey second := by
  cases left with
  | none => exact ⟨by rintro ⟨⟩, by rintro ⟨_, _, ⟨⟩, _⟩⟩
  | some first =>
    cases right with
    | none => exact ⟨by rintro ⟨⟩, by rintro ⟨_, _, _, ⟨⟩, _⟩⟩
    | some second => simp [sameReset]

private theorem joins_iff : meterLimitsJoin left right = true ↔ left.overagePolicy = .blocked ∧ right.overagePolicy = .blocked ∧
    sameReset left.reset right.reset = true ∧ left.allocationScope = right.allocationScope := by
  simp only [meterLimitsJoin, Bool.and_eq_true, beq_iff_eq, and_assoc]

private theorem sameReset_comm (left right : Option Cadences.Cadence) : sameReset left right = sameReset right left := by
  rw [Bool.eq_iff_iff, sameReset_iff, sameReset_iff]
  constructor
  · rintro ⟨first, second, here, there, same⟩
    exact ⟨second, first, there, here, same.symm⟩
  · rintro ⟨first, second, here, there, same⟩
    exact ⟨second, first, there, here, same.symm⟩

private theorem joins_comm (left right : MeterLimitRow) : meterLimitsJoin left right = meterLimitsJoin right left := by
  rw [Bool.eq_iff_iff, joins_iff, joins_iff, sameReset_comm left.reset right.reset]
  constructor
  · rintro ⟨first, second, reset, scope⟩
    exact ⟨second, first, reset, scope.symm⟩
  · rintro ⟨first, second, reset, scope⟩
    exact ⟨second, first, reset, scope.symm⟩

private theorem joins_trans (first : meterLimitsJoin left right = true) (second : meterLimitsJoin right other = true) :
    meterLimitsJoin left other = true := by
  obtain ⟨blocked, -, reset, scope⟩ := joins_iff.mp first
  obtain ⟨-, blockedToo, resetToo, scopeToo⟩ := joins_iff.mp second
  obtain ⟨start, middle, startIs, middleIs, same⟩ := sameReset_iff.mp reset
  obtain ⟨middle', final, middleToo, finalIs, alike⟩ := sameReset_iff.mp resetToo
  obtain rfl := Option.some.inj (middleIs.symm.trans middleToo)
  exact joins_iff.mpr ⟨blocked, blockedToo, sameReset_iff.mpr ⟨start, final, startIs, finalIs, same.trans alike⟩, scope.trans scopeToo⟩

/-- Joined limits count the same add-ons. -/
private theorem joins_same (joined : meterLimitsJoin left right = true) : meterLimitsJoin left other = meterLimitsJoin right other := by
  rw [Bool.eq_iff_iff]
  constructor
  · intro here
    rw [joins_comm] at joined
    exact joins_trans joined here
  · exact joins_trans joined

end Joins

section Sum
variable {scale : Nat} {rows others : List MeterLimitRow} {row : MeterLimitRow}

def Readable (scale : Nat) (row : MeterLimitRow) : Prop :=
  fractionDigits (columnText row.quantity) ≤ scale

def units (scale : Nat) (row : MeterLimitRow) : Nat :=
  worth (columnText row.quantity) scale

def tooFine (scale : Nat) : Failure :=
  .invalidRequest s!"meter limit supports at most {scale} decimal places"

private theorem readQuantity_ok (readable : Readable scale row) :
    readQuantity scale row = .ok (canonicalText (columnText row.quantity)) :=
  unboundedDecimal_ok (column_isDecimal _) readable

private theorem readQuantity_error (unreadable : ¬ Readable scale row) : readQuantity scale row = .error (tooFine scale) :=
  unboundedDecimal_fine (column_isDecimal _) (Nat.not_le.mp unreadable)

private theorem read_units (readable : Readable scale row) :
    decimalToUnits (canonicalText (columnText row.quantity)) scale = .ok (units scale row) := by
  have valid := column_isDecimal row.quantity
  rw [decimalToUnits_ok (canonical_isDecimal valid) ((canonical_fractionDigits valid).trans_le readable), canonical_worth valid, units]

private theorem addQuantity_ok (readable : Readable scale row) (total : Nat) :
    addQuantity scale total row = .ok (total + units scale row) := by
  rw [addQuantity, readQuantity_ok readable, ok_bind, read_units readable, ok_bind]
  rfl

private theorem addQuantity_error (unreadable : ¬ Readable scale row) (total : Nat) :
    addQuantity scale total row = .error (tooFine scale) := by
  rw [addQuantity, readQuantity_error unreadable]
  rfl

/-- The sum of rows that the scale holds; any other row fails it with one error, wherever it stands. -/
private theorem sum_ok (readable : ∀ row ∈ rows, Readable scale row) (total : Nat) :
    rows.foldlM (addQuantity scale) total = .ok (total + (rows.map (units scale)).sum) := by
  induction rows generalizing total with
  | nil => rfl
  | cons row rest ih =>
    rw [List.foldlM_cons, addQuantity_ok (readable row List.mem_cons_self), ok_bind,
      ih (fun other member => readable other (List.mem_cons_of_mem _ member)), List.map_cons, List.sum_cons, Nat.add_assoc]

private theorem sum_error (member : row ∈ rows) (unreadable : ¬ Readable scale row) (total : Nat) :
    rows.foldlM (addQuantity scale) total = .error (tooFine scale) := by
  induction rows generalizing total with
  | nil => cases member
  | cons first rest ih =>
    rw [List.foldlM_cons]
    by_cases readable : Readable scale first
    · rw [addQuantity_ok readable, ok_bind]
      rcases List.mem_cons.mp member with rfl | later
      · exact absurd readable unreadable
      · exact ih later _
    · rw [addQuantity_error readable]
      rfl

private theorem summed_readable {total summed : Nat} (done : rows.foldlM (addQuantity scale) total = .ok summed) :
    ∀ row ∈ rows, Readable scale row := by
  intro row member
  by_contra unreadable
  rw [sum_error member unreadable] at done
  cases done

private theorem sum_perm (same : rows.Perm others) (total : Nat) :
    rows.foldlM (addQuantity scale) total = others.foldlM (addQuantity scale) total := by
  by_cases readable : ∀ row ∈ rows, Readable scale row
  · rw [sum_ok readable, sum_ok (fun row member => readable row (same.mem_iff.mpr member)), (same.map (units scale)).sum_eq]
  · obtain ⟨row, member, unreadable⟩ := not_forall₂.mp readable
    rw [sum_error member unreadable, sum_error (same.mem_iff.mp member) unreadable]

end Sum

section Combine
variable {sources others paid : List MeterLimitRow} {anchor row : MeterLimitRow} {scale : Nat} {quantity : Text}

private theorem mem_paidLimits : row ∈ paidLimits sources ↔ row ∈ sources ∧ row.itemKind = .meterLimit ∧ row.subscriptionId.isSome = true := by
  rw [paidLimits, List.mem_filter, List.mem_filter, beq_iff_eq, and_assoc]

private theorem paidLimits_perm (same : sources.Perm others) : (paidLimits sources).Perm (paidLimits others) :=
  (same.filter _).filter _

private theorem paidLimits_distinct (distinct : (sources.map MeterLimitRow.sortAt).Nodup) :
    ((paidLimits sources).map MeterLimitRow.sortAt).Nodup :=
  distinct.sublist ((List.filter_sublist.trans List.filter_sublist).map _)

private theorem combine_paid (distinct : (sources.map MeterLimitRow.sortAt).Nodup) (anchors : Anchors (paidLimits sources) anchor) (scale : Nat) :
    combineMeterLimits sources scale = (do
      let units ← ((paidLimits sources).filter (counts anchor)).foldlM (addQuantity scale) 0
      return some (anchor, unitsToDecimal units scale)) := by
  rw [combineMeterLimits]
  rw [if_neg (List.ne_nil_of_mem anchors.member), anchorOf_eq (paidLimits_distinct distinct) anchors]

theorem combine_inv (combined : combineMeterLimits sources scale = .ok (some (anchor, quantity)))
    (paidFor : anchor.subscriptionId.isSome = true) : Anchors (paidLimits sources) anchor ∧
      (∀ row ∈ (paidLimits sources).filter (counts anchor), Readable scale row) ∧
      quantity = unitsToDecimal (((paidLimits sources).filter (counts anchor)).map (units scale)).sum scale := by
  rw [combineMeterLimits] at combined
  split at combined
  · next unpaid =>
    split at combined
    · cases combined
    · next first here =>
      obtain ⟨text, -, same⟩ := bind_ok combined
      cases same
      obtain ⟨member, kind⟩ := List.mem_filter.mp (List.mem_of_head? here)
      have inside := mem_paidLimits.mpr ⟨member, eq_of_beq kind, paidFor⟩
      rw [unpaid] at inside
      cases inside
  · split at combined
    · cases combined
    · next found here =>
      obtain ⟨total, summed, same⟩ := bind_ok combined
      cases same
      have readable := summed_readable summed
      rw [sum_ok readable, Nat.zero_add] at summed
      cases summed
      exact ⟨anchorOf_spec here, readable, rfl⟩

/-- The rows in another order combine to the same limit, unless it is the first unpaid one's. -/
private theorem combine_perm (distinct : (sources.map MeterLimitRow.sortAt).Nodup) (same : sources.Perm others)
    (first : paidLimits sources = [] → (sources.filter fun row => row.itemKind == .meterLimit).head? =
      (others.filter fun row => row.itemKind == .meterLimit).head?) (scale : Nat) :
    combineMeterLimits sources scale = combineMeterLimits others scale := by
  by_cases unpaid : paidLimits sources = []
  · have unpaidToo : paidLimits others = [] := by
      have alike := paidLimits_perm same
      rw [unpaid] at alike
      exact alike.nil_eq.symm
    rw [combineMeterLimits, combineMeterLimits]
    rw [if_pos unpaid, if_pos unpaidToo, first unpaid]
  · obtain ⟨anchor, found⟩ := anchorOf_some unpaid
    have anchors := anchorOf_spec found
    have alike := paidLimits_perm same
    have distinctToo : (others.map MeterLimitRow.sortAt).Nodup := (same.map _).nodup_iff.mp distinct
    rw [combine_paid distinct anchors, combine_paid distinctToo (anchors.perm alike), sum_perm (alike.filter _)]

/-- An add-on beside the paid rows leaves their anchor, or comes before an anchor that is an add-on itself. -/
private theorem added_anchor (anchors : Anchors paid anchor) (addon : row.planKind = .addon) :
    Anchors (row :: paid) anchor ∨ anchor.planKind = .addon ∧ Anchors (row :: paid) row := by
  have stays : (anchor.planKind = .addon → row.sortAt ≤ anchor.sortAt) → Anchors (row :: paid) anchor := by
    intro older
    refine ⟨List.mem_cons_of_mem _ anchors.member, fun other member base => ?_, fun other member kind => ?_⟩
    · rcases List.mem_cons.mp member with rfl | inside
      · cases addon.symm.trans base
      · exact anchors.base other inside base
    · rcases List.mem_cons.mp member with rfl | inside
      · exact older (kind.symm.trans addon)
      · exact anchors.newest other inside kind
  cases kind : anchor.planKind with
  | base => exact .inl (stays fun other => by cases kind.symm.trans other)
  | addon =>
    rcases le_total row.sortAt anchor.sortAt with older | newer
    · exact .inl (stays fun _ => older)
    · refine .inr ⟨rfl, List.mem_cons_self, fun other member base => ?_, fun other member same => ?_⟩
      · rcases List.mem_cons.mp member with rfl | inside
        · exact base
        · cases kind.symm.trans (anchors.base other inside base)
      · rcases List.mem_cons.mp member with rfl | inside
        · exact le_rfl
        · exact (anchors.newest other inside (same.trans (addon.trans kind.symm))).trans newer

private theorem counts_joined (addon : row.planKind = .addon) (joined : meterLimitsJoin anchor row = true) : counts anchor row = true := by
  rw [counts, addon, joined]
  exact Bool.or_true _

/-- Whichever anchors, the add-on counts besides what counted before. -/
private theorem added_counted (anchors : Anchors paid anchor) (fresh : row ∉ paid) (addon : row.planKind = .addon)
    (joined : meterLimitsJoin anchor row = true) : ∃ found, Anchors (row :: paid) found ∧ (found = anchor ∨ found = row) ∧
      (row :: paid).filter (counts found) = row :: paid.filter (counts anchor) := by
  rcases added_anchor anchors addon with stays | ⟨kind, moves⟩
  · exact ⟨anchor, stays, .inl rfl, List.filter_cons_of_pos (counts_joined addon joined)⟩
  · have itself : counts row row = true := by
      rw [counts, decide_eq_true rfl]
      rfl
    refine ⟨row, moves, .inr rfl, ?_⟩
    rw [List.filter_cons_of_pos itself]
    congr 1
    apply List.filter_congr
    intro other member
    have apart : other ≠ row := fun same => fresh (same ▸ member)
    rw [joins_comm] at joined
    by_cases anchored : other = anchor
    · subst anchored
      rw [counts_joined kind joined, counts, decide_eq_true rfl]
      rfl
    · rw [counts, counts, decide_eq_false apart, decide_eq_false anchored, joins_same joined]

end Combine

section Lifts
variable {sources others : List MeterLimitRow} {row : MeterLimitRow}

private theorem lifts_iff (sources : List MeterLimitRow) (anchor : Option MeterLimitRow) : unlimitedLiftsCap sources anchor = true ↔
    (∃ row ∈ sources, row.itemKind = .unlimitedUsage ∧ (∀ found ∈ anchor, row.allocationScope = found.allocationScope) ∧
      ((∃ paid ∈ sources, paid.subscriptionId.isSome = true) → row.subscriptionId.isSome = true)) ∧
    ∀ found ∈ anchor, found.overagePolicy = .blocked := by
  have unlimited : ∀ row : MeterLimitRow, (row.itemKind == .unlimitedUsage &&
      anchor.all fun anchor => row.allocationScope == anchor.allocationScope) = true ↔
        row.itemKind = .unlimitedUsage ∧ ∀ found ∈ anchor, row.allocationScope = found.allocationScope := by
    intro row
    rw [Bool.and_eq_true, beq_iff_eq, Option.all_eq_true]
    simp only [beq_iff_eq]
    rfl
  rw [unlimitedLiftsCap, Bool.and_eq_true, Bool.not_eq_true', List.isEmpty_eq_false_iff_exists_mem, Option.all_eq_true]
  simp only [beq_iff_eq]
  refine and_congr ?_ Iff.rfl
  by_cases paying : (sources.any fun row => row.subscriptionId.isSome) = true
  · have paid : ∃ paid ∈ sources, paid.subscriptionId.isSome = true := List.any_eq_true.mp paying
    rw [if_pos paying]
    simp only [List.mem_filter, unlimited, and_assoc, paid, true_imp_iff]
  · have unpaid : ¬ ∃ paid ∈ sources, paid.subscriptionId.isSome = true := fun some_ => paying (List.any_eq_true.mpr some_)
    rw [if_neg paying]
    simp only [List.mem_filter, unlimited, unpaid, false_imp_iff, and_true]

private theorem lifts_perm (same : sources.Perm others) (anchor : Option MeterLimitRow) :
    unlimitedLiftsCap sources anchor = unlimitedLiftsCap others anchor := by
  rw [Bool.eq_iff_iff, lifts_iff, lifts_iff]
  simp only [same.mem_iff]

/-- A paid limit that joins the anchor lifts nothing and keeps nothing from being lifted. -/
private theorem lifts_added {anchor found : MeterLimitRow} (limit : row.itemKind = .meterLimit) (joined : meterLimitsJoin anchor row = true)
    (paid : anchor ∈ sources ∧ anchor.subscriptionId.isSome = true) (either : found = anchor ∨ found = row) :
    unlimitedLiftsCap (row :: sources) (some found) = unlimitedLiftsCap sources (some anchor) := by
  obtain ⟨blocked, blockedToo, -, scope⟩ := joins_iff.mp joined
  have alike : found.allocationScope = anchor.allocationScope ∧ found.overagePolicy = anchor.overagePolicy := by
    rcases either with rfl | rfl
    · exact ⟨rfl, rfl⟩
    · exact ⟨scope.symm, blockedToo.trans blocked.symm⟩
  have paying : ∃ other ∈ sources, other.subscriptionId.isSome = true := ⟨anchor, paid⟩
  have payingToo : ∃ other ∈ row :: sources, other.subscriptionId.isSome = true := ⟨anchor, List.mem_cons_of_mem _ paid.1, paid.2⟩
  rw [Bool.eq_iff_iff, lifts_iff, lifts_iff]
  simp only [Option.mem_some_iff, forall_eq', alike.1, alike.2, paying, payingToo, true_imp_iff, List.exists_mem_cons_iff, limit]
  refine and_congr_left fun _ => ⟨?_, .inr⟩
  rintro (⟨⟨⟩, -⟩ | other)
  exact other

end Lifts

/-- The rows of a feature combine to the same limit in every order, except that limits nobody pays for leave it to the first of them.
A paid add-on that joins the window of a paid anchor adds its quantity to the limit, whichever of them anchors it then, and lifts or
restores no cap; the limit fails only if the feature's scale does not hold the add-on's quantity. -/
theorem meter_limits_combine {sources : List MeterLimitRow} (distinct : (sources.map MeterLimitRow.sortAt).Nodup) (scale : Nat) :
    (∀ others, sources.Perm others → (paidLimits sources = [] → (sources.filter fun row => row.itemKind == .meterLimit).head? =
        (others.filter fun row => row.itemKind == .meterLimit).head?) →
      combineMeterLimits others scale = combineMeterLimits sources scale ∧
        ∀ anchor, unlimitedLiftsCap others anchor = unlimitedLiftsCap sources anchor) ∧
    ∀ anchor quantity, combineMeterLimits sources scale = .ok (some (anchor, quantity)) → anchor.subscriptionId.isSome = true →
      ∀ row others, row.itemKind = .meterLimit → row.subscriptionId.isSome = true → row.planKind = .addon →
        meterLimitsJoin anchor row = true → others.Perm (row :: sources) → (others.map MeterLimitRow.sortAt).Nodup →
        ∃ found, (found = anchor ∨ found = row) ∧ unlimitedLiftsCap others (some found) = unlimitedLiftsCap sources (some anchor) ∧
          ∃ units, decimalToUnits quantity scale = .ok units ∧
            ((∃ failure, readQuantity scale row = .error failure ∧ combineMeterLimits others scale = .error failure) ∨
              ∃ added cap total, (readQuantity scale row >>= fun text => decimalToUnits text scale) = .ok added ∧
                combineMeterLimits others scale = .ok (some (found, cap)) ∧ decimalToUnits cap scale = .ok total ∧
                total = units + added ∧ units ≤ total) := by
  refine ⟨fun others same first => ⟨(combine_perm distinct same first scale).symm, fun anchor => (lifts_perm same anchor).symm⟩, ?_⟩
  intro anchor quantity combined paidFor row others limit paid addon joined same distinctToo
  obtain ⟨anchors, readable, rfl⟩ := combine_inv combined paidFor
  have beside : (paidLimits others).Perm (row :: paidLimits sources) := by
    have kept : row :: paidLimits sources = paidLimits (row :: sources) := by
      have isLimit : (row.itemKind == .meterLimit) = true := beq_iff_eq.mpr limit
      simp only [paidLimits, List.filter_cons, isLimit, paid, if_true]
    rw [kept]
    exact paidLimits_perm same
  have fresh : row ∉ paidLimits sources := by
    intro inside
    have apart := (same.map MeterLimitRow.sortAt).nodup_iff.mp distinctToo
    exact (List.nodup_cons.mp apart).1 (List.mem_map_of_mem (mem_paidLimits.mp inside).1)
  obtain ⟨found, foundAnchors, either, counted⟩ := added_counted anchors fresh addon joined
  have sum := combine_paid distinctToo (foundAnchors.perm beside.symm) scale
  rw [sum_perm (beside.filter _), counted, List.foldlM_cons] at sum
  refine ⟨found, either, ?_, _, units_round_trip _ scale, ?_⟩
  · rw [lifts_perm same]
    exact lifts_added limit joined ⟨(mem_paidLimits.mp anchors.member).1, paidFor⟩ either
  · by_cases fits : Readable scale row
    · rw [addQuantity_ok fits, ok_bind, sum_ok readable, Nat.zero_add] at sum
      refine .inr ⟨units scale row, _, _, ?_, sum, units_round_trip _ scale, Nat.add_comm _ _, Nat.le_add_left _ _⟩
      rw [readQuantity_ok fits, ok_bind, read_units fits]
    · rw [addQuantity_error fits] at sum
      exact .inl ⟨_, readQuantity_error fits, sum⟩

def monthlyLimit (subscriptionId : Option Nat) (planKind : DefaultEntitlements.PlanKind) (quantity : Nat) (sortAt : Time) :
    MeterLimitRow :=
  ⟨.meterLimit, subscriptionId, quantity * 10 ^ columnScale, .blocked, some ⟨.month, 1, Nat.one_pos⟩, planKind, .account, "pro", 1, sortAt⟩

theorem meter_limits_combine_addon : ∃ total, decimalToUnits "150".toList 0 = .ok total ∧ 100 ≤ total := by
  have base : combineMeterLimits [monthlyLimit (some 1) .base 100 0] 0 = .ok (some (monthlyLimit (some 1) .base 100 0, "100".toList)) := by
    decide
  have both : combineMeterLimits [monthlyLimit (some 2) .addon 50 1, monthlyLimit (some 1) .base 100 0] 0 =
      .ok (some (monthlyLimit (some 1) .base 100 0, "150".toList)) := by
    decide
  obtain ⟨found, -, -, units, own, ⟨failure, -, failed⟩ | ⟨added, cap, total, -, combined, read, -, above⟩⟩ :=
    (@meter_limits_combine [monthlyLimit (some 1) .base 100 0] (List.nodup_singleton _) 0).2 _ _ base rfl
      (monthlyLimit (some 2) .addon 50 1) _ rfl rfl rfl rfl (List.Perm.refl _) (by decide)
  · rw [both] at failed
    cases failed
  · rw [both] at combined
    cases combined
    have hundred : decimalToUnits "100".toList 0 = .ok 100 := rfl
    rw [hundred] at own
    cases own
    exact ⟨total, read, above⟩

/-- Two grants combine to the first of them in either order, and an add-on bought beside a larger grant takes its place. -/
theorem meter_limits_combine_grants :
    (¬ ∀ sources others : List MeterLimitRow, ∀ scale, (sources.map MeterLimitRow.sortAt).Nodup → sources.Perm others →
      combineMeterLimits sources scale = combineMeterLimits others scale) ∧
    ¬ ∀ (sources : List MeterLimitRow) (row anchor found : MeterLimitRow) (scale : Nat) (before after : Text) (units total : Nat),
      ((row :: sources).map MeterLimitRow.sortAt).Nodup → row.planKind = .addon → meterLimitsJoin anchor row = true →
      combineMeterLimits sources scale = .ok (some (anchor, before)) → combineMeterLimits (row :: sources) scale = .ok (some (found, after)) →
      decimalToUnits before scale = .ok units → decimalToUnits after scale = .ok total → units ≤ total := by
  refine ⟨fun always => ?_, fun always => ?_⟩
  · have same := always [monthlyLimit none .base 10 0, monthlyLimit none .base 20 1] [monthlyLimit none .base 20 1, monthlyLimit none .base 10 0]
      0 (by decide) (List.Perm.swap _ _ _)
    revert same
    decide
  · have grant : combineMeterLimits [monthlyLimit none .base 100 0] 0 = .ok (some (monthlyLimit none .base 100 0, "100".toList)) := by
      decide
    have both : combineMeterLimits [monthlyLimit (some 1) .addon 10 1, monthlyLimit none .base 100 0] 0 =
        .ok (some (monthlyLimit (some 1) .addon 10 1, "10".toList)) := by
      decide
    have above := always _ (monthlyLimit (some 1) .addon 10 1) _ _ 0 _ _ 100 10 (by decide) rfl rfl grant both rfl rfl
    omega

end Quotum.MeterLimitCombination
