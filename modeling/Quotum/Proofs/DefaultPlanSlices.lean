import Quotum.DefaultPlanPasses
import Quotum.Proofs.DefaultEntitlements

/-! The slices of a default-plan pass. The cursor moves to the last handled customer when the probe finds one more to handle, and to the
end of the scan otherwise, so in both cases it covers what was handled and nothing out of date besides. -/

namespace Quotum.DefaultPlanPasses
open General DefaultPlans DefaultEntitlements

section Candidates
variable {versions : Nat → PlanVersion} {input : SliceInput} {cursor : Option Nat} {customer last : Nat}

private theorem probe_full (more : input.exhausts versions cursor = false) :
    (input.handled versions cursor).length = input.limit ∧
      input.handled versions cursor = ((input.scanned cursor).filter (input.view.outOfDate versions)).take input.limit := by
  have long := of_decide_eq_false more
  have candidates : (input.candidates versions cursor).take input.limit =
      ((input.scanned cursor).filter (input.view.outOfDate versions)).take input.limit := by
    rw [SliceInput.candidates, List.take_take, Nat.min_eq_left (Nat.le_succ _)]
  refine ⟨?_, candidates⟩
  rw [SliceInput.handled, List.length_take]
  omega

private theorem probe_short (exhausts : input.exhausts versions cursor = true) :
    input.handled versions cursor = (input.scanned cursor).filter (input.view.outOfDate versions) := by
  have short := of_decide_eq_true exhausts
  have whole : input.candidates versions cursor = (input.scanned cursor).filter (input.view.outOfDate versions) := by
    rw [SliceInput.candidates, List.length_take] at short
    exact List.take_of_length_le (by omega)
  rw [SliceInput.handled, List.take_of_length_le short, whole]

private theorem handled_scanned (member : customer ∈ input.handled versions cursor) :
    customer ∈ input.scanned cursor ∧ input.view.outOfDate versions customer = true := by
  have candidate : customer ∈ input.candidates versions cursor := List.mem_of_mem_take member
  exact List.mem_filter.mp (List.mem_of_mem_take candidate)

private theorem handled_nodup (distinct : input.view.customers.Nodup) : (input.handled versions cursor).Nodup := by
  have scanned : ((input.scanned cursor).filter (input.view.outOfDate versions)).Nodup := (Keyset.page_nodup distinct).filter _
  exact (scanned.sublist (List.take_sublist _ _)).sublist (List.take_sublist _ _)

private theorem handled_sorted : (input.handled versions cursor).Pairwise (· ≤ ·) := by
  have scanned : ((input.scanned cursor).filter (input.view.outOfDate versions)).Pairwise (· ≤ ·) :=
    (Keyset.page_sorted input.scanSize cursor input.view.customers).filter _
  exact (scanned.sublist (List.take_sublist _ _)).sublist (List.take_sublist _ _)

variable (versions cursor) in
/-- The cursor of a slice is a customer that it scanned, and it stays only when there was none. -/
private theorem nextCursor_cases (some_ : 0 < input.limit) :
    (input.scanned cursor = [] ∧ input.exhausts versions cursor = true ∧ input.nextCursor versions cursor = none) ∨
      ∃ last ∈ input.scanned cursor, input.nextCursor versions cursor = some last := by
  rw [SliceInput.nextCursor]
  cases exhausts : input.exhausts versions cursor with
  | true =>
    rw [if_pos rfl]
    cases ends : (input.scanned cursor).getLast? with
    | none => exact .inl ⟨List.getLast?_eq_none_iff.mp ends, rfl, rfl⟩
    | some last => exact .inr ⟨last, List.mem_of_getLast? ends, rfl⟩
  | false =>
    rw [if_neg (by rintro ⟨⟩)]
    cases ends : (input.handled versions cursor).getLast? with
    | none =>
      have empty := (probe_full exhausts).1
      rw [List.getLast?_eq_none_iff.mp ends, List.length_nil] at empty
      omega
    | some last => exact .inr ⟨last, (handled_scanned (List.mem_of_getLast? ends)).1, rfl⟩

private theorem handled_iff (moved : input.nextCursor versions cursor = some last) (present : customer ∈ input.view.customers)
    (after : Keyset.beyond cursor customer = true) (stale : input.view.outOfDate versions customer = true) :
    customer ∈ input.handled versions cursor ↔ customer ≤ last := by
  rw [SliceInput.nextCursor] at moved
  cases exhausts : input.exhausts versions cursor with
  | true =>
    rw [exhausts, if_pos rfl] at moved
    rw [probe_short exhausts, List.mem_filter]
    have sorted := Keyset.page_sorted input.scanSize cursor input.view.customers
    constructor
    · exact fun scanned => Keyset.le_last sorted moved customer scanned.1
    · exact fun upTo => ⟨Keyset.page_earlier present after (List.mem_of_getLast? moved) upTo, stale⟩
  | false =>
    rw [exhausts, if_neg (by rintro ⟨⟩)] at moved
    constructor
    · exact Keyset.le_last handled_sorted moved customer
    · intro upTo
      have ended := List.mem_of_getLast? moved
      have listed : customer ∈ (input.scanned cursor).filter (input.view.outOfDate versions) :=
        List.mem_filter.mpr ⟨Keyset.page_earlier present after (handled_scanned ended).1 upTo, stale⟩
      have sorted : ((input.scanned cursor).filter (input.view.outOfDate versions)).Pairwise (· ≤ ·) :=
        (Keyset.page_sorted input.scanSize cursor input.view.customers).filter _
      rw [(probe_full exhausts).2] at ended ⊢
      rw [← List.take_append_drop input.limit (List.filter _ _)] at listed sorted
      rcases List.mem_append.mp listed with taken | dropped
      · exact taken
      · have same := le_antisymm upTo ((List.pairwise_append.mp sorted).2.2 last ended customer dropped)
        exact same ▸ ended

end Candidates

structure SliceInput.Fits (input : SliceInput) : Prop where
  limit : 0 < input.limit
  scanSize : 0 < input.scanSize
  distinct : input.view.customers.Nodup

section Advance
variable {versions : Nat → PlanVersion} {pass : DefaultPlanReconciliation} {input : SliceInput} {customer : Nat}

variable (versions pass) in
/-- The cursor after a slice: it moves to a scanned customer, or there was none left and the slice completes the pass. -/
private theorem advance_cursor (fits : input.Fits) :
    (input.scanned pass.afterCustomerId = [] ∧ (pass.advance versions input).afterCustomerId = pass.afterCustomerId ∧
      (pass.advance versions input).status = .completed ∧ input.checked versions pass.afterCustomerId = 0) ∨
    ∃ last ∈ input.scanned pass.afterCustomerId, input.nextCursor versions pass.afterCustomerId = some last ∧
      (pass.advance versions input).afterCustomerId = some last := by
  rcases nextCursor_cases versions pass.afterCustomerId fits.limit with ⟨empty, exhausts, stays⟩ | ⟨last, member, moved⟩
  · refine .inl ⟨empty, ?_, ?_, ?_⟩
    · simp only [DefaultPlanReconciliation.advance, stays, Option.none_or]
    · have completes : input.completes versions pass.afterCustomerId = true := by
        rw [SliceInput.completes, exhausts, Bool.true_and, empty]
        exact decide_eq_true fits.scanSize
      simp only [DefaultPlanReconciliation.advance, completes, if_true]
    · rw [SliceInput.checked, exhausts, if_pos rfl, empty, List.length_nil]
  · refine .inr ⟨last, member, moved, ?_⟩
    simp only [DefaultPlanReconciliation.advance, moved, Option.some_or]

variable (versions pass) in
private theorem advance_progress (fits : input.Fits) : (pass.advance versions input).status = .completed ∨
    ∃ last ∈ input.view.customers, (pass.advance versions input).afterCustomerId = some last ∧
      Keyset.beyond pass.afterCustomerId last = true := by
  rcases advance_cursor versions pass fits with ⟨-, -, completed, -⟩ | ⟨last, member, -, moved⟩
  · exact .inl completed
  · obtain ⟨present, after⟩ := Keyset.page_mem member
    exact .inr ⟨last, present, moved, after⟩

private theorem advance_later (fits : input.Fits) (after : Keyset.beyond (pass.advance versions input).afterCustomerId customer = true) :
    Keyset.beyond pass.afterCustomerId customer = true := by
  rcases advance_cursor versions pass fits with ⟨-, stays, -, -⟩ | ⟨last, member, -, moved⟩
  · rwa [stays] at after
  · rw [moved] at after
    exact Keyset.beyond_trans (Keyset.page_mem member).2 after

private theorem advance_handled (fits : input.Fits) (present : customer ∈ input.view.customers)
    (after : Keyset.beyond pass.afterCustomerId customer = true) (stale : input.view.outOfDate versions customer = true) :
    customer ∈ input.handled versions pass.afterCustomerId ↔
      Keyset.beyond (pass.advance versions input).afterCustomerId customer = false := by
  rcases advance_cursor versions pass fits with ⟨empty, stays, -, -⟩ | ⟨last, member, next, moved⟩
  · have scanned : customer ∉ input.scanned pass.afterCustomerId := by
      rw [empty]
      exact List.not_mem_nil
    rw [stays, after]
    exact ⟨fun held => absurd (handled_scanned held).1 scanned, fun never => by cases never⟩
  · rw [handled_iff next present after stale, moved, Keyset.beyond_some, decide_eq_false_iff_not, not_lt]

/-- A completed pass left nothing out of date behind the scan. -/
private theorem completed_covers (fits : input.Fits) (open_ : pass.status ≠ .completed)
    (completed : (pass.advance versions input).status = .completed) (present : customer ∈ input.view.customers) :
    Keyset.beyond (pass.advance versions input).afterCustomerId customer = false := by
  have completes : input.completes versions pass.afterCustomerId = true := by
    by_contra ongoing
    simp only [DefaultPlanReconciliation.advance, if_neg ongoing] at completed
    exact open_ completed
  obtain ⟨exhausts, short⟩ := Bool.and_eq_true_iff.mp completes
  by_contra ahead
  have ahead : Keyset.beyond (pass.advance versions input).afterCustomerId customer = true := by simpa using ahead
  have scanned : customer ∈ input.scanned pass.afterCustomerId :=
    Keyset.page_short (of_decide_eq_true short) present (advance_later fits ahead)
  rcases advance_cursor versions pass fits with ⟨empty, -, -, -⟩ | ⟨last, -, next, moved⟩
  · rw [empty] at scanned
    cases scanned
  · rw [SliceInput.nextCursor, exhausts, if_pos rfl] at next
    have upTo := Keyset.le_last (Keyset.page_sorted input.scanSize pass.afterCustomerId input.view.customers) next customer scanned
    rw [moved, Keyset.beyond_some, decide_eq_true_eq] at ahead
    omega

private theorem advance_checked (fits : input.Fits) :
    (Keyset.covered (pass.advance versions input).afterCustomerId input.view.customers).length =
      (Keyset.covered pass.afterCustomerId input.view.customers).length + input.checked versions pass.afterCustomerId := by
  rcases advance_cursor versions pass fits with ⟨-, stays, -, nothing⟩ | ⟨last, member, next, moved⟩
  · rw [stays, nothing, Nat.add_zero]
  · have passed : (input.scanned pass.afterCustomerId).filter (fun customer => decide (customer ≤ last)) =
        if input.exhausts versions pass.afterCustomerId then input.scanned pass.afterCustomerId
        else (input.scanned pass.afterCustomerId).filter fun customer => decide (customer ≤ last) := by
      split
      · next exhausts =>
        rw [SliceInput.nextCursor, exhausts, if_pos rfl] at next
        have upTo := Keyset.le_last (Keyset.page_sorted input.scanSize pass.afterCustomerId input.view.customers) next
        exact List.filter_eq_self.mpr fun customer scanned => decide_eq_true (upTo customer scanned)
      · rfl
    rw [moved, Keyset.covered_moved fits.distinct member, SliceInput.checked, next]
    congr 1
    rw [← SliceInput.scanned, passed]
    split
    · rfl
    · rfl

end Advance

section Runs
variable (versions : Nat → PlanVersion)

/-- A slice of a pass that is still open. -/
def DefaultPlanReconciliation.step (pass : DefaultPlanReconciliation) (input : SliceInput) : DefaultPlanReconciliation :=
  if pass.status = .pending then pass.advance versions input else pass

/-- The pass after slices one after the other. -/
def DefaultPlanReconciliation.run (pass : DefaultPlanReconciliation) (inputs : List SliceInput) : DefaultPlanReconciliation :=
  inputs.foldl (DefaultPlanReconciliation.step versions) pass

def DefaultPlanReconciliation.handledIn (pass : DefaultPlanReconciliation) : List SliceInput → List (Nat × SliceView)
  | [] => []
  | input :: rest =>
    (if pass.status = .pending then (input.handled versions pass.afterCustomerId).map fun customer => (customer, input.view) else []) ++
      (pass.step versions input).handledIn rest

def SameBehind (cursor : Option Nat) (customers others : List Nat) : Prop :=
  ∀ customer, Keyset.beyond cursor customer = false → (customer ∈ customers ↔ customer ∈ others)

/-- A run during which, and up to whose end, no customer appears or goes up to the cursor of the pass. -/
def DefaultPlanReconciliation.Unmoved (pass : DefaultPlanReconciliation) (customers : List Nat) : List SliceInput → List Nat → Prop
  | [], final => SameBehind pass.afterCustomerId customers final
  | input :: rest, final => SameBehind pass.afterCustomerId customers input.view.customers ∧
      (pass.step versions input).Unmoved input.view.customers rest final

/-- A customer is there and out of date in every slice that finds it ahead of the cursor. -/
def DefaultPlanReconciliation.Awaits (pass : DefaultPlanReconciliation) (customer : Nat) : List SliceInput → Prop
  | [] => True
  | input :: rest => (Keyset.beyond pass.afterCustomerId customer = true →
      customer ∈ input.view.customers ∧ input.view.outOfDate versions customer = true) ∧
        (pass.step versions input).Awaits customer rest

variable {versions} {pass : DefaultPlanReconciliation} {customer : Nat} {customers : List Nat}

private theorem step_closed (closed : pass.status ≠ .pending) (input : SliceInput) : pass.step versions input = pass :=
  if_neg closed

private theorem run_closed (closed : pass.status ≠ .pending) (inputs : List SliceInput) : pass.run versions inputs = pass := by
  induction inputs with
  | nil => rfl
  | cons input rest ih =>
    rw [DefaultPlanReconciliation.run, List.foldl_cons, step_closed closed]
    exact ih

private theorem run_finished (completed : pass.status = .completed) (inputs : List SliceInput) : pass.run versions inputs = pass := by
  apply run_closed
  rw [completed]
  rintro ⟨⟩

private theorem handledIn_closed (closed : pass.status ≠ .pending) (inputs : List SliceInput) : pass.handledIn versions inputs = [] := by
  induction inputs with
  | nil => rfl
  | cons input rest ih => rw [DefaultPlanReconciliation.handledIn, if_neg closed, step_closed closed, List.nil_append, ih]

variable (versions) in
private theorem advance_status (pass : DefaultPlanReconciliation) (input : SliceInput) :
    (pass.advance versions input).status = .completed ∨ (pass.advance versions input).status = pass.status := by
  simp only [DefaultPlanReconciliation.advance]
  split
  · exact .inl rfl
  · exact .inr rfl

private theorem run_later (inputs : List SliceInput) (fits : ∀ input ∈ inputs, input.Fits)
    (after : Keyset.beyond (pass.run versions inputs).afterCustomerId customer = true) :
    Keyset.beyond pass.afterCustomerId customer = true := by
  induction inputs generalizing pass with
  | nil => exact after
  | cons input rest ih =>
    have moved := ih (fun other member => fits other (List.mem_cons_of_mem _ member)) after
    rw [DefaultPlanReconciliation.step] at moved
    split at moved
    · exact advance_later (fits input List.mem_cons_self) moved
    · exact moved

/-- Nothing up to the cursor is handled again. -/
private theorem handledIn_behind (inputs : List SliceInput) (fits : ∀ input ∈ inputs, input.Fits)
    (behind : Keyset.beyond pass.afterCustomerId customer = false) :
    customer ∉ (pass.handledIn versions inputs).map Prod.fst := by
  induction inputs generalizing pass with
  | nil => exact List.not_mem_nil
  | cons input rest ih =>
    have later := fun other member => fits other (List.mem_cons_of_mem input member)
    by_cases open_ : pass.status = .pending
    · have step : pass.step versions input = pass.advance versions input := if_pos open_
      have stays : Keyset.beyond (pass.advance versions input).afterCustomerId customer = false := by
        by_contra ahead
        rw [advance_later (fits input List.mem_cons_self) (by simpa using ahead)] at behind
        cases behind
      rw [DefaultPlanReconciliation.handledIn, if_pos open_, step, List.map_append, List.mem_append, not_or]
      refine ⟨?_, ih later stays⟩
      intro listed
      obtain ⟨entry, member, rfl⟩ := List.mem_map.mp listed
      obtain ⟨handled, inside, rfl⟩ := List.mem_map.mp member
      rw [(Keyset.page_mem (handled_scanned inside).1).2] at behind
      cases behind
    · rw [handledIn_closed open_]
      exact List.not_mem_nil

/-- A customer out of date up to its slice is handled once if the run's cursor passes it, and not otherwise. -/
private theorem handled_once (inputs : List SliceInput) (fits : ∀ input ∈ inputs, input.Fits) (stale : pass.Awaits versions customer inputs)
    (ahead : Keyset.beyond pass.afterCustomerId customer = true) :
    ((pass.handledIn versions inputs).map Prod.fst).count customer =
      if Keyset.beyond (pass.run versions inputs).afterCustomerId customer then 0 else 1 := by
  induction inputs generalizing pass with
  | nil => rw [DefaultPlanReconciliation.run, List.foldl_nil, if_pos ahead, DefaultPlanReconciliation.handledIn, List.map_nil, List.count_nil]
  | cons input rest ih =>
    have first := fits input List.mem_cons_self
    have later := fun other member => fits other (List.mem_cons_of_mem input member)
    by_cases open_ : pass.status = .pending
    · obtain ⟨present, dated⟩ := stale.1 ahead
      have step : pass.step versions input = pass.advance versions input := if_pos open_
      have handled := advance_handled first present ahead dated
      have mapped : (((input.handled versions pass.afterCustomerId).map fun customer => (customer, input.view)).map Prod.fst) =
          input.handled versions pass.afterCustomerId := by
        rw [List.map_map]
        exact List.map_id _
      rw [DefaultPlanReconciliation.run, List.foldl_cons, DefaultPlanReconciliation.handledIn, if_pos open_, List.map_append, mapped,
        List.count_append, step]
      cases passed : Keyset.beyond (pass.advance versions input).afterCustomerId customer with
      | true =>
        have unhandled : customer ∉ input.handled versions pass.afterCustomerId := by
          rw [handled, passed]
          rintro ⟨⟩
        rw [List.count_eq_zero_of_not_mem unhandled, Nat.zero_add]
        exact ih later (step ▸ stale.2) passed
      | false =>
        have none_ : customer ∉ ((pass.advance versions input).handledIn versions rest).map Prod.fst :=
          handledIn_behind rest later passed
        have stays : Keyset.beyond ((pass.advance versions input).run versions rest).afterCustomerId customer = false := by
          by_contra ahead
          rw [run_later rest later (by simpa using ahead)] at passed
          cases passed
        rw [List.count_eq_one_of_mem (handled_nodup first.distinct) (handled.mpr passed), List.count_eq_zero_of_not_mem none_]
        exact (if_neg (by rw [DefaultPlanReconciliation.run] at stays; rw [stays]; rintro ⟨⟩)).symm
    · rw [run_closed open_, if_pos ahead, handledIn_closed open_, List.map_nil, List.count_nil]

private theorem behind_length {cursor : Option Nat} {others : List Nat} (same : SameBehind cursor customers others)
    (distinct : customers.Nodup) (distinctToo : others.Nodup) :
    (Keyset.covered cursor customers).length = (Keyset.covered cursor others).length := by
  apply List.Perm.length_eq
  apply (List.perm_ext_iff_of_nodup (distinct.filter _) (distinctToo.filter _)).mpr
  intro customer
  simp only [List.mem_filter, Bool.not_eq_true']
  constructor
  · exact fun inside => ⟨(same customer inside.2).mp inside.1, inside.2⟩
  · exact fun inside => ⟨(same customer inside.2).mpr inside.1, inside.2⟩

private theorem checked_run (inputs : List SliceInput) (fits : ∀ input ∈ inputs, input.Fits) {final : List Nat}
    (distinct : customers.Nodup) (distinctToo : final.Nodup) (unmoved : pass.Unmoved versions customers inputs final)
    (counted : pass.customersChecked = (Keyset.covered pass.afterCustomerId customers).length) :
    (pass.run versions inputs).customersChecked = (Keyset.covered (pass.run versions inputs).afterCustomerId final).length := by
  induction inputs generalizing pass customers with
  | nil => exact counted.trans (behind_length unmoved distinct distinctToo)
  | cons input rest ih =>
    obtain ⟨same, later⟩ := unmoved
    have first := fits input List.mem_cons_self
    have here := counted.trans (behind_length same distinct first.distinct)
    apply ih (fun other member => fits other (List.mem_cons_of_mem _ member)) first.distinct later
    rw [DefaultPlanReconciliation.step]
    split
    · rw [advance_checked first, ← here]
      rfl
    · exact here

private theorem run_completed (inputs : List SliceInput) (fits : ∀ input ∈ inputs, input.Fits) (open_ : pass.status = .pending)
    (completed : (pass.run versions inputs).status = .completed) (stale : pass.Awaits versions customer inputs) :
    Keyset.beyond (pass.run versions inputs).afterCustomerId customer = false := by
  by_contra ahead
  rw [Bool.not_eq_false] at ahead
  induction inputs generalizing pass with
  | nil =>
    rw [DefaultPlanReconciliation.run, List.foldl_nil, open_] at completed
    cases completed
  | cons input rest ih =>
    obtain ⟨present, -⟩ := stale.1 (run_later _ fits ahead)
    have step : pass.step versions input = pass.advance versions input := if_pos open_
    rw [DefaultPlanReconciliation.run, List.foldl_cons, step] at completed ahead
    rcases advance_status versions pass input with done | ongoing
    · have stays := @run_finished versions _ done rest
      rw [DefaultPlanReconciliation.run] at stays
      rw [stays, completed_covers (fits input List.mem_cons_self) (by rw [open_]; rintro ⟨⟩) done present] at ahead
      cases ahead
    · exact ih (fun other member => fits other (List.mem_cons_of_mem _ member)) (ongoing.trans open_) completed (step ▸ stale.2) ahead

/-- Over customers that stay the same, a pass completes within one slice more than there are customers ahead of it. -/
private theorem run_completes (inputs : List SliceInput) (fits : ∀ input ∈ inputs, input.Fits)
    (steady : ∀ input ∈ inputs, ∀ customer, customer ∈ input.view.customers ↔ customer ∈ customers) (open_ : pass.status = .pending)
    (enough : (customers.filter (Keyset.beyond pass.afterCustomerId)).length < inputs.length) :
    (pass.run versions inputs).status = .completed := by
  induction inputs generalizing pass with
  | nil => exact absurd enough (Nat.not_lt_zero _)
  | cons input rest ih =>
    have first := fits input List.mem_cons_self
    have step : pass.step versions input = pass.advance versions input := if_pos open_
    rw [DefaultPlanReconciliation.run, List.foldl_cons, step]
    rcases advance_status versions pass input with done | ongoing
    · have stays := @run_finished versions _ done rest
      rw [DefaultPlanReconciliation.run] at stays
      rw [stays, done]
    · apply ih (fun other member => fits other (List.mem_cons_of_mem _ member))
        (fun other member => steady other (List.mem_cons_of_mem _ member)) (ongoing.trans open_)
      rcases advance_progress versions pass first with done | ⟨last, member, moved, after⟩
      · rw [ongoing.trans open_] at done
        cases done
      · have nested : customers.filter (Keyset.beyond (pass.advance versions input).afterCustomerId) =
            (customers.filter (Keyset.beyond pass.afterCustomerId)).filter
              (Keyset.beyond (pass.advance versions input).afterCustomerId) := by
          rw [List.filter_filter]
          apply List.filter_congr
          intro customer _
          rw [Bool.eq_iff_iff, Bool.and_eq_true]
          exact ⟨fun ahead => ⟨ahead, advance_later first ahead⟩, And.left⟩
        have shorter : (customers.filter (Keyset.beyond (pass.advance versions input).afterCustomerId)).length <
            (customers.filter (Keyset.beyond pass.afterCustomerId)).length := by
          rw [nested]
          apply List.length_filter_lt_length_iff_exists.mpr
          refine ⟨last, List.mem_filter.mpr ⟨(steady input List.mem_cons_self last).mp member, after⟩, ?_⟩
          rw [moved, Keyset.beyond_some, decide_eq_true_eq]
          exact lt_irrefl last
        rw [List.length_cons] at enough
        omega

private theorem skipped_length (input : SliceInput) (cursor : Option Nat) : (input.skipped versions cursor).length =
    (input.handled versions cursor).countP fun customer => (input.view.raises customer).isSome := by
  unfold SliceInput.skipped
  induction input.handled versions cursor with
  | nil => rfl
  | cons customer rest ih =>
    cases raised : input.view.raises customer with
    | some error =>
      have outcome : input.view.handle versions customer = .skipped error := by
        simp only [SliceView.handle, raised]
      rw [List.filterMap_cons_some (by rw [outcome]), List.length_cons, ih, List.countP_cons_of_pos (by rw [raised]; rfl)]
    | none =>
      have outcome : input.view.handle versions customer = .changed ∨ input.view.handle versions customer = .unchanged := by
        simp only [SliceView.handle, raised]
        split
        · exact .inl rfl
        · exact .inr rfl
      rw [List.filterMap_cons_none (by rcases outcome with kind | kind <;> rw [kind]), ih,
        List.countP_cons_of_neg (by rw [raised]; rintro ⟨⟩)]

private theorem counted_run (inputs : List SliceInput) :
    (pass.run versions inputs).grantsChanged = pass.grantsChanged +
      (pass.handledIn versions inputs).countP (fun entry => entry.2.handle versions entry.1 == .changed) ∧
    (pass.run versions inputs).customersSkipped = pass.customersSkipped +
      (pass.handledIn versions inputs).countP (fun entry => (entry.2.raises entry.1).isSome) := by
  induction inputs generalizing pass with
  | nil => exact ⟨rfl, rfl⟩
  | cons input rest ih =>
    obtain ⟨changed, skipped⟩ := @ih (pass.step versions input)
    rw [DefaultPlanReconciliation.run] at changed skipped ⊢
    rw [List.foldl_cons, changed, skipped, DefaultPlanReconciliation.handledIn]
    by_cases open_ : pass.status = .pending
    · have step : pass.step versions input = pass.advance versions input := if_pos open_
      have changedHere : (pass.advance versions input).grantsChanged = pass.grantsChanged +
          (input.handled versions pass.afterCustomerId).countP (fun customer => input.view.handle versions customer == .changed) :=
        congrArg (pass.grantsChanged + ·) List.countP_eq_length_filter.symm
      have skippedHere : (pass.advance versions input).customersSkipped = pass.customersSkipped +
          (input.handled versions pass.afterCustomerId).countP (fun customer => (input.view.raises customer).isSome) :=
        congrArg (pass.customersSkipped + ·) (skipped_length input pass.afterCustomerId)
      rw [if_pos open_, List.countP_append, List.countP_append, List.countP_map, List.countP_map, step, changedHere, skippedHere,
        Nat.add_assoc, Nat.add_assoc]
      exact ⟨rfl, rfl⟩
    · rw [if_neg open_, List.nil_append, step_closed open_]
      exact ⟨rfl, rfl⟩

section Accounts
variable {account : EntitledAccount}

private theorem reconcile_unchanged {items : Nat → Option GrantItem} {account : DefaultAccount}
    (unchanged : (DefaultAccount.reconcileDefaultPlanGrant items account).2 = none) :
    (DefaultAccount.reconcileDefaultPlanGrant items account).1 = account := by
  simp only [DefaultAccount.reconcileDefaultPlanGrant] at unchanged ⊢
  repeat' split
  all_goals first | rfl | simp_all

/-- An account out of date is changed, unless a base grant past its end still holds its place. -/
private theorem outOfDate_changes (recorded : account.elapsedBaseGrant = false)
    (one : ∀ first ∈ account.defaultGrants, ∀ second ∈ account.defaultGrants, first.status = .active → second.status = .active →
      first = second) (stale : account.defaultPlanOutOfDate versions = true) : (applyDefaultPlan versions account).2.isSome = true := by
  by_contra unchanged
  have settled : Settled ((account.reconcileDefaultPlanGrant versions).1.defaultAccount versions) := reconciled_settled recorded one
  have outcome : (account.reconcileDefaultPlanGrant versions).2 = none := by
    rw [applyDefaultPlan] at unchanged
    cases reconciled : account.reconcileDefaultPlanGrant versions with
    | mk next change =>
      rw [reconciled] at unchanged
      cases change with
      | none => rfl
      | some change => exact absurd rfl unchanged
  have same : (account.reconcileDefaultPlanGrant versions).1 = account := by
    have grants := reconcile_unchanged outcome
    simp only [EntitledAccount.reconcileDefaultPlanGrant]
    rw [grants]
    rfl
  rw [same] at settled
  rw [(settled_current settled).1] at stale
  cases stale

end Accounts

/-- Whether a change that an account asks for is not held up by a base grant past its end. -/
def Free (account : EntitledAccount) : Prop :=
  account.elapsedBaseGrant = false ∧ ∀ first ∈ account.defaultGrants, ∀ second ∈ account.defaultGrants,
    first.status = .active → second.status = .active → first = second

/-- A run of slices of an open pass. Each slice moves the cursor on or completes the pass, and over customers that stay the same the
pass completes. A customer ahead of the cursor that is out of date up to its slice is handled once, as soon as the cursor passes it, and
when it is still out of date under its lock it is changed or counted as skipped, unless a base grant past its end is not recorded yet.
The checked customers are those up to the cursor, as long as none appears there. -/
theorem default_plan_pass (inputs : List SliceInput) (fits : ∀ input ∈ inputs, input.Fits) (open_ : pass.status = .pending) :
    (∀ before input rest, inputs = before ++ input :: rest → (pass.run versions before).status = .pending →
      (pass.run versions (before ++ [input])).status = .completed ∨ ∃ last,
        (pass.run versions (before ++ [input])).afterCustomerId = some last ∧
          Keyset.beyond (pass.run versions before).afterCustomerId last = true) ∧
    (∀ customer, Keyset.beyond pass.afterCustomerId customer = true →
      pass.Awaits versions customer inputs →
        ((pass.handledIn versions inputs).map Prod.fst).count customer =
          (if Keyset.beyond (pass.run versions inputs).afterCustomerId customer then 0 else 1) ∧
        ((pass.run versions inputs).status = .completed → ((pass.handledIn versions inputs).map Prod.fst).count customer = 1)) ∧
    (∀ entry ∈ pass.handledIn versions inputs, (entry.2.locked entry.1).defaultPlanOutOfDate versions = true →
      Free (entry.2.locked entry.1) →
        entry.2.handle versions entry.1 = .changed ∨ ∃ error, entry.2.handle versions entry.1 = .skipped error) ∧
    ((pass.run versions inputs).grantsChanged = pass.grantsChanged +
      (pass.handledIn versions inputs).countP (fun entry => entry.2.handle versions entry.1 == .changed) ∧
    (pass.run versions inputs).customersSkipped = pass.customersSkipped +
      (pass.handledIn versions inputs).countP (fun entry => (entry.2.raises entry.1).isSome)) ∧
    (∀ customers final, customers.Nodup → final.Nodup → pass.Unmoved versions customers inputs final →
      pass.customersChecked = (Keyset.covered pass.afterCustomerId customers).length →
        (pass.run versions inputs).customersChecked = (Keyset.covered (pass.run versions inputs).afterCustomerId final).length) ∧
    ∀ customers : List Nat, (∀ input ∈ inputs, ∀ customer, customer ∈ input.view.customers ↔ customer ∈ customers) →
      (customers.filter (Keyset.beyond pass.afterCustomerId)).length < inputs.length →
        (pass.run versions inputs).status = .completed := by
  refine ⟨?_, ?_, ?_, counted_run inputs, ?_, ?_⟩
  · rintro before input rest rfl still
    have first := fits input (List.mem_append_right _ List.mem_cons_self)
    have last : pass.run versions (before ++ [input]) = (pass.run versions before).advance versions input := by
      rw [DefaultPlanReconciliation.run, List.foldl_append]
      exact if_pos still
    rw [last]
    exact (advance_progress versions _ first).imp_right fun ⟨last, _, moved, after⟩ => ⟨last, moved, after⟩
  · intro customer ahead stale
    have once := handled_once inputs fits stale ahead
    refine ⟨once, fun completed => ?_⟩
    rw [once, run_completed inputs fits open_ completed stale]
    rfl
  · intro entry _ stale free
    simp only [SliceView.handle]
    cases entry.2.raises entry.1 with
    | some error => exact .inr ⟨error, rfl⟩
    | none => exact .inl (if_pos (outOfDate_changes free.1 free.2 stale))
  · intro customers final distinct distinctToo unmoved counted
    exact checked_run inputs fits distinct distinctToo unmoved counted
  · intro customers steady enough
    exact run_completes inputs fits steady open_ enough

end Runs

section Samples

def basePlans : Nat → PlanVersion :=
  fun _ => ⟨['f'], .base, none⟩

/-- An account whose trial is past its end and not recorded as expired. -/
def elapsedTrial : EntitledAccount where
  clock := 5
  target := some ⟨1, [['f']]⟩
  subscriptions := []
  purchases := []
  planGrants := [⟨1, 2, .base, false, .active, 5, [['t']]⟩]
  defaultGrants := []
  allowances := []
  entitlements := []

def freshPass : DefaultPlanReconciliation :=
  ⟨1, 1, .pending, none, 0, 0, 0, none, none, 0, 0, none, none⟩

def sliceOver (limit scanSize : Nat) (account : EntitledAccount) (customers : List Nat) : SliceInput :=
  ⟨limit, scanSize, 0, customers, fun _ => ⟨false, account⟩, fun _ => account, fun _ => none⟩

/-- A pass leaves an account behind a trial past its end as it is and counts it nowhere, and it misses a customer that appears behind
its cursor. -/
theorem default_plan_pass_gaps :
    ((sliceOver 1 2 elapsedTrial [7]).view.outOfDate basePlans 7 = true ∧
      (freshPass.run basePlans [sliceOver 1 2 elapsedTrial [7]]).status = .completed ∧
      (freshPass.run basePlans [sliceOver 1 2 elapsedTrial [7]]).grantsChanged = 0 ∧
      (freshPass.run basePlans [sliceOver 1 2 elapsedTrial [7]]).customersSkipped = 0) ∧
    (freshPass.run basePlans [sliceOver 1 1 elapsedTrial [10], sliceOver 1 1 elapsedTrial [5, 10]]).status = .completed ∧
    (freshPass.run basePlans [sliceOver 1 1 elapsedTrial [10], sliceOver 1 1 elapsedTrial [5, 10]]).customersChecked ≠
      (Keyset.covered (freshPass.run basePlans [sliceOver 1 1 elapsedTrial [10], sliceOver 1 1 elapsedTrial [5, 10]]).afterCustomerId
        [5, 10]).length := by
  decide

def unstarted : EntitledAccount :=
  { elapsedTrial with planGrants := [] }

def twoSlices : List SliceInput :=
  List.replicate 3 (sliceOver 1 2 unstarted [4, 6])

private theorem twoSlices_fit : ∀ input ∈ twoSlices, input.Fits := by
  intro input member
  rw [List.eq_of_mem_replicate member]
  exact ⟨Nat.one_pos, Nat.two_pos, by decide⟩

theorem default_plan_pass_two : (freshPass.run basePlans twoSlices).status = .completed ∧
    ((freshPass.handledIn basePlans twoSlices).map Prod.fst).count 4 = 1 := by
  obtain ⟨-, once, -, -, -, finish⟩ := @default_plan_pass basePlans freshPass twoSlices twoSlices_fit rfl
  have completed : (freshPass.run basePlans twoSlices).status = .completed := by
    apply finish [4, 6]
    · intro input member customer
      rw [List.eq_of_mem_replicate member]
      exact Iff.rfl
    · exact Nat.lt_succ_self 2
  have stale : 4 ∈ [4, 6] ∧ (sliceOver 1 2 unstarted [4, 6]).view.outOfDate basePlans 4 = true := by decide
  exact ⟨completed, (once 4 rfl ⟨fun _ => stale, fun _ => stale, fun _ => stale, trivial⟩).2 completed⟩

end Samples

end Quotum.DefaultPlanPasses
