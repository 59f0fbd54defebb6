import Quotum.StripeRefunds

/-! Each refund of a payment is counted once, as long as no recorded refund is recorded again while the store events
of it show no trace of the first recording. -/

namespace Quotum.StripeRefunds
open General

/-- Whether an event was recorded against its payment: a skipped event names no customer. -/
def StoreEvent.recorded (row : StoreEvent) : Bool :=
  row.customerId.isSome

def refundedIds (events : List StoreEvent) : Finset Text :=
  ((events.filter StoreEvent.recorded).map StoreEvent.transactionId).toFinset

def refundedAmount (refunds : Text → StripeRefund) (events : List StoreEvent) : Nat :=
  ∑ id ∈ refundedIds events, (refunds id).amount

def refundedIn (currency : Text) (refunds : Text → StripeRefund) (events : List StoreEvent) : Nat :=
  ∑ id ∈ (refundedIds events).filter fun id => toLowerCase currency = toLowerCase (refunds id).currency, (refunds id).amount

/-- What is reversed of a payment is what its distinct refunds add up to, no more than was paid. -/
def CountedOnce (refunds : Text → StripeRefund) (store : RefundStore) : Prop :=
  match store.payment with
  | none => refundedIds store.events = ∅
  | some (.purchase purchase) =>
    purchase.reversedAmount = min (purchase.priceAmount.getD 0) (refundedAmount refunds store.events) ∧
      purchase.reversedCreditAmount =
        proratedReversedCreditAmount purchase.creditAmount (purchase.priceAmount.getD 0) purchase.reversedAmount
  | some (.invoice invoice) =>
    invoice.reversedAmount = min invoice.amountPaid (refundedIn invoice.currency refunds store.events)

/-- A refund that is recorded already shows it: another event of it is processed, or the event's own row is taken and not
the one being replayed. -/
def Settled (events : List StoreEvent) (event : RefundEvent) (replayStoreEventId : Option Nat) : Prop :=
  (∃ row ∈ events, row.transactionId = event.reversalId ∧ row.recorded = true) →
    findProcessedStripeReversal event events = true ∨
      ∃ row ∈ events, row.externalEventId = event.externalEventId ∧ row.takes replayStoreEventId = false

section Events
variable {events after : List StoreEvent} {row : StoreEvent} {result : StoreEventResult} {now : Int} {replay : Option Nat}

/-- What every run keeps of the stored events. -/
structure Tidy (events : List StoreEvent) : Prop where
  externalIds : (events.map StoreEvent.externalEventId).Nodup
  ids : (events.map StoreEvent.id).Nodup
  fresh : ∀ row ∈ events, row.id < events.length
  processed : ∀ row ∈ events, row.processingStatus = .processed → row.recorded = true

/-- Every row is still there, and still recorded if it was. -/
def Grows (events after : List StoreEvent) : Prop :=
  ∀ row ∈ events, ∃ next ∈ after, next.id = row.id ∧ next.externalEventId = row.externalEventId ∧
    (row.recorded = true → next.recorded = true)

theorem Grows.refl (events : List StoreEvent) : Grows events events :=
  fun row member => ⟨row, member, rfl, rfl, id⟩

private theorem mem_refundedIds {id : Text} :
    id ∈ refundedIds events ↔ ∃ row ∈ events, row.transactionId = id ∧ row.recorded = true := by
  unfold refundedIds
  rw [List.mem_toFinset, List.mem_map]
  constructor
  · intro ⟨row, member, same⟩
    obtain ⟨inside, recorded⟩ := List.mem_filter.mp member
    exact ⟨row, inside, same, recorded⟩
  · intro ⟨row, inside, same, recorded⟩
    exact ⟨row, List.mem_filter.mpr ⟨inside, recorded⟩, same⟩

structure Keeps (change : StoreEvent → StoreEvent) (row : StoreEvent) : Prop where
  id : (change row).id = row.id
  externalEventId : (change row).externalEventId = row.externalEventId
  transactionId : (change row).transactionId = row.transactionId
  recorded : row.recorded = true → (change row).recorded = true
  processed : (change row).processingStatus = .processed → (change row).recorded = true

section Update
variable {κ : Type} [DecidableEq κ] {key : StoreEvent → κ} {k : κ} {change : StoreEvent → StoreEvent}

private theorem updated_map {β : Type} (field : StoreEvent → β)
    (kept : ∀ row ∈ events, key row = k → field (change row) = field row) :
    (updateAt key k change events).map field = events.map field := by
  unfold updateAt
  rw [List.map_map]
  apply List.map_congr_left
  intro row member
  rw [Function.comp]
  split
  · next here => exact kept row member here
  · rfl

private theorem updated_tidy (tidy : Tidy events) (keeps : ∀ row ∈ events, key row = k → Keeps change row) :
    Tidy (updateAt key k change events) := by
  refine ⟨?_, ?_, ?_, ?_⟩
  · rw [updated_map _ fun row member here => (keeps row member here).externalEventId]
    exact tidy.externalIds
  · rw [updated_map _ fun row member here => (keeps row member here).id]
    exact tidy.ids
  · intro next member
    unfold updateAt
    rw [List.length_map]
    obtain ⟨row, inside, ⟨here, rfl⟩ | ⟨-, rfl⟩⟩ := mem_updateAt.mp member
    · rw [(keeps row inside here).id]
      exact tidy.fresh row inside
    · exact tidy.fresh _ inside
  · intro next member processed
    obtain ⟨row, inside, ⟨here, rfl⟩ | ⟨-, rfl⟩⟩ := mem_updateAt.mp member
    · exact (keeps row inside here).processed processed
    · exact tidy.processed _ inside processed

private theorem updated_grows (keeps : ∀ row ∈ events, key row = k → Keeps change row) :
    Grows events (updateAt key k change events) := by
  intro row inside
  by_cases here : key row = k
  · have kept := keeps row inside here
    exact ⟨change row, mem_updateAt.mpr ⟨row, inside, .inl ⟨here, rfl⟩⟩, kept.id, kept.externalEventId, kept.recorded⟩
  · exact ⟨row, mem_updateAt.mpr ⟨row, inside, .inr ⟨here, rfl⟩⟩, rfl, rfl, id⟩

private theorem updated_same (keeps : ∀ row ∈ events, key row = k → Keeps change row)
    (same : ∀ row ∈ events, key row = k → (change row).recorded = true → row.recorded = true) :
    refundedIds (updateAt key k change events) = refundedIds events := by
  ext id
  rw [mem_refundedIds, mem_refundedIds]
  constructor
  · intro ⟨next, member, named, recorded⟩
    obtain ⟨row, inside, ⟨here, rfl⟩ | ⟨-, rfl⟩⟩ := mem_updateAt.mp member
    · exact ⟨row, inside, (keeps row inside here).transactionId ▸ named, same row inside here recorded⟩
    · exact ⟨_, inside, named, recorded⟩
  · intro ⟨row, inside, named, recorded⟩
    by_cases here : key row = k
    · have kept := keeps row inside here
      exact ⟨change row, mem_updateAt.mpr ⟨row, inside, .inl ⟨here, rfl⟩⟩, kept.transactionId ▸ named, kept.recorded recorded⟩
    · exact ⟨row, mem_updateAt.mpr ⟨row, inside, .inr ⟨here, rfl⟩⟩, named, recorded⟩

end Update

private theorem appended_tidy (tidy : Tidy events) (absent : ∀ row ∈ events, row.externalEventId ≠ result.event.externalEventId)
    (sound : result.processingStatus = .processed → result.customerId.isSome = true) :
    Tidy (events ++ [result.row events.length now]) := by
  refine ⟨?_, ?_, ?_, ?_⟩
  · rw [List.map_append, List.nodup_append]
    refine ⟨tidy.externalIds, List.nodup_singleton _, ?_⟩
    intro name listed other single
    obtain ⟨row, member, rfl⟩ := List.mem_map.mp listed
    rw [List.map_cons, List.map_nil, List.mem_singleton] at single
    rw [single]
    exact absent row member
  · rw [List.map_append, List.nodup_append]
    refine ⟨tidy.ids, List.nodup_singleton _, ?_⟩
    intro id listed other single
    obtain ⟨row, member, rfl⟩ := List.mem_map.mp listed
    rw [List.map_cons, List.map_nil, List.mem_singleton] at single
    rw [single]
    exact (tidy.fresh row member).ne
  · intro row member
    rw [List.length_append, List.length_singleton]
    rcases List.mem_append.mp member with old | new
    · exact (tidy.fresh row old).trans (Nat.lt_succ_self _)
    · rw [List.mem_singleton.mp new]
      exact Nat.lt_succ_self _
  · intro row member processed
    rcases List.mem_append.mp member with old | new
    · exact tidy.processed row old processed
    · rw [List.mem_singleton.mp new] at processed ⊢
      exact sound processed

private theorem appended_grows (row : StoreEvent) : Grows events (events ++ [row]) :=
  fun old member => ⟨old, List.mem_append_left _ member, rfl, rfl, id⟩

private theorem identifies_inv (same : row.identifies result = true) :
    row.transactionId = result.event.reversalId ∧ (row.recorded = true → result.customerId.isSome = true) := by
  unfold StoreEvent.identifies at same
  simp only [Bool.and_eq_true, Bool.or_eq_true, beq_iff_eq] at same
  obtain ⟨⟨⟨⟨customer, -⟩, transaction⟩, -⟩, -⟩ := same
  refine ⟨transaction, ?_⟩
  intro recorded
  rcases customer with unknown | known
  · rw [StoreEvent.recorded, Option.isSome_iff_ne_none] at recorded
    exact absurd (Option.isNone_iff_eq_none.mp unknown) recorded
  · exact known ▸ recorded

private theorem overwrite_keeps (same : row.identifies result = true)
    (sound : result.processingStatus = .processed → result.customerId.isSome = true) : Keeps (StoreEvent.overwrite result) row := by
  refine ⟨rfl, rfl, rfl, (identifies_inv same).2, ?_⟩
  intro processed
  apply sound
  simp only [StoreEvent.overwrite] at processed
  split at processed
  · cases processed
  · exact processed

structure Stored (events after : List StoreEvent) (result : StoreEventResult) (applied : Bool) : Prop where
  tidy : Tidy after
  grows : Grows events after
  ids : refundedIds after = if applied = true ∧ result.customerId.isSome = true
    then insert result.event.reversalId (refundedIds events) else refundedIds events
  own : applied = true → ∀ row ∈ after, row.externalEventId = result.event.externalEventId →
    row.recorded = result.customerId.isSome

variable (tidy : Tidy events) {event : RefundEvent} {purchaseKind : PurchaseKind}
include tidy

private theorem appended_stored (absent : findAt StoreEvent.externalEventId result.event.externalEventId events = none)
    (sound : result.processingStatus = .processed → result.customerId.isSome = true) :
    Stored events (events ++ [result.row events.length now]) result true := by
  have apart : ∀ row ∈ events, row.externalEventId ≠ result.event.externalEventId := by
    intro row member same
    rw [← same, findAt_member tidy.externalIds member] at absent
    cases absent
  refine ⟨appended_tidy tidy apart sound, appended_grows _, ?_, ?_⟩
  · ext id
    by_cases named : result.customerId.isSome = true
    · rw [if_pos ⟨rfl, named⟩, Finset.mem_insert, mem_refundedIds, mem_refundedIds]
      constructor
      · intro ⟨row, member, same, recorded⟩
        rcases List.mem_append.mp member with old | new
        · exact .inr ⟨row, old, same, recorded⟩
        · rw [List.mem_singleton.mp new] at same
          exact .inl same.symm
      · intro listed
        rcases listed with same | ⟨row, old, same, recorded⟩
        · exact ⟨_, List.mem_append_right _ (List.mem_singleton.mpr rfl), same.symm, named⟩
        · exact ⟨row, List.mem_append_left _ old, same, recorded⟩
    · rw [if_neg fun both => named both.2, mem_refundedIds, mem_refundedIds]
      constructor
      · intro ⟨row, member, same, recorded⟩
        rcases List.mem_append.mp member with old | new
        · exact ⟨row, old, same, recorded⟩
        · rw [List.mem_singleton.mp new] at recorded
          exact absurd recorded named
      · intro ⟨row, old, same, recorded⟩
        exact ⟨row, List.mem_append_left _ old, same, recorded⟩
  · intro _ row member same
    rcases List.mem_append.mp member with old | new
    · exact absurd same (apart row old)
    · rw [List.mem_singleton.mp new]
      rfl

private theorem overwritten_stored (member : row ∈ events) (own : row.externalEventId = result.event.externalEventId)
    (same : row.identifies result = true) (sound : result.processingStatus = .processed → result.customerId.isSome = true) :
    Stored events (updateAt StoreEvent.externalEventId row.externalEventId (StoreEvent.overwrite result) events) result true := by
  have one : ∀ other ∈ events, other.externalEventId = row.externalEventId → other = row :=
    fun other inside here => List.inj_on_of_nodup_map tidy.externalIds inside member here
  have keeps : ∀ other ∈ events, other.externalEventId = row.externalEventId → Keeps (StoreEvent.overwrite result) other := by
    intro other inside here
    rw [one other inside here]
    exact overwrite_keeps same sound
  refine ⟨updated_tidy tidy keeps, updated_grows keeps, ?_, ?_⟩
  · by_cases named : result.customerId.isSome = true
    · rw [if_pos ⟨rfl, named⟩]
      ext id
      rw [Finset.mem_insert, mem_refundedIds, mem_refundedIds]
      constructor
      · intro ⟨next, inside, transaction, recorded⟩
        obtain ⟨old, known, ⟨here, rfl⟩ | ⟨-, rfl⟩⟩ := mem_updateAt.mp inside
        · rw [one old known here] at transaction
          exact .inl (transaction.symm.trans (identifies_inv same).1)
        · exact .inr ⟨_, known, transaction, recorded⟩
      · intro listed
        rcases listed with transaction | ⟨old, known, transaction, recorded⟩
        · exact ⟨row.overwrite result, mem_updateAt.mpr ⟨row, member, .inl ⟨rfl, rfl⟩⟩,
            (identifies_inv same).1.trans transaction.symm, named⟩
        · by_cases here : old.externalEventId = row.externalEventId
          · exact ⟨old.overwrite result, mem_updateAt.mpr ⟨old, known, .inl ⟨here, rfl⟩⟩, transaction, named⟩
          · exact ⟨old, mem_updateAt.mpr ⟨old, known, .inr ⟨here, rfl⟩⟩, transaction, recorded⟩
    · rw [if_neg fun both => named both.2]
      apply updated_same keeps
      exact fun other _ _ recorded => absurd recorded named
  · intro _ next inside here
    obtain ⟨old, known, ⟨-, rfl⟩ | ⟨apart, rfl⟩⟩ := mem_updateAt.mp inside
    · rfl
    · exact absurd (here.trans own.symm) apart

private theorem record_stored {applied : Bool}
    (sound : result.processingStatus = .processed → result.customerId.isSome = true)
    (done : recordStoreEventProcessingResult now result replay events = .ok (after, applied)) :
    Stored events after result applied ∧ (applied = false → after = events) ∧
      (applied = false ↔ ∃ row ∈ events, row.externalEventId = result.event.externalEventId ∧ row.takes replay = false) := by
  unfold recordStoreEventProcessingResult at done
  split at done
  · next absent =>
    cases done
    refine ⟨appended_stored tidy absent sound, (by rintro ⟨⟩), (by rintro ⟨⟩), ?_⟩
    rintro ⟨row, member, own, _⟩
    rw [← own, findAt_member tidy.externalIds member] at absent
    cases absent
  · next row found =>
    obtain ⟨member, own⟩ := findAt_inv found
    split at done
    · cases done
    · next same =>
      rw [Bool.not_eq_false] at same
      split at done
      · next takes =>
        cases done
        refine ⟨overwritten_stored tidy member own same sound, (by rintro ⟨⟩), (by rintro ⟨⟩), ?_⟩
        rintro ⟨other, inside, here, taken⟩
        have one : other = row := List.inj_on_of_nodup_map tidy.externalIds inside member (here.trans own.symm)
        rw [one, takes] at taken
        cases taken
      · next taken =>
        cases done
        rw [Bool.not_eq_true] at taken
        exact ⟨⟨tidy, Grows.refl _, (if_neg fun both => by cases both.1).symm, (by rintro ⟨⟩)⟩, fun _ => rfl,
          fun _ => ⟨row, member, own, taken⟩, fun _ => rfl⟩

/-- An event kept as skipped records nothing. -/
private theorem skipped_stored {purchaseKind : Option PurchaseKind} :
    Tidy (recordStripeSkippedEvent now event purchaseKind replay events) ∧
      Grows events (recordStripeSkippedEvent now event purchaseKind replay events) ∧
        refundedIds (recordStripeSkippedEvent now event purchaseKind replay events) = refundedIds events := by
  unfold recordStripeSkippedEvent
  split
  · next after applied done =>
    have stored := (record_stored tidy (fun processed => by cases processed) done).1
    refine ⟨stored.tidy, stored.grows, ?_⟩
    rw [stored.ids, if_neg]
    exact fun both => by cases both.2
  · exact ⟨tidy, Grows.refl _, rfl⟩

private theorem counts_new {customerId storeProductId : Nat} {applied : Bool} (settled : Settled events event replay)
    (done : recordStoreEventProcessingResult now
      ⟨event, some customerId, some storeProductId, some purchaseKind, .processed⟩ replay events = .ok (after, applied)) :
    if (!applied || findProcessedStripeReversal event events) = true then refundedIds after = refundedIds events
    else event.reversalId ∉ refundedIds events ∧ refundedIds after = insert event.reversalId (refundedIds events) := by
  obtain ⟨stored, refused, taken⟩ := record_stored tidy (fun _ => rfl) done
  have ids := stored.ids
  cases applied with
  | false => exact congrArg refundedIds (refused rfl)
  | true =>
    rw [if_pos ⟨rfl, rfl⟩] at ids
    simp only [Bool.not_true, Bool.false_or]
    split
    · next duplicate =>
      obtain ⟨row, member, same⟩ := List.any_eq_true.mp duplicate
      simp only [Bool.and_eq_true, beq_iff_eq] at same
      rw [ids]
      apply Finset.insert_eq_of_mem
      exact mem_refundedIds.mpr ⟨row, member, same.1.1, tidy.processed row member same.1.2⟩
    · next first =>
      refine ⟨?_, ids⟩
      intro known
      rcases settled (mem_refundedIds.mp known) with duplicate | own
      · exact first duplicate
      · cases taken.mpr own

private theorem replay_recorded {customerId storeProductId : Nat} {applied : Bool} (done : recordStoreEventProcessingResult now
      ⟨event, some customerId, some storeProductId, some purchaseKind, .processed⟩ replay events = .ok (after, applied))
    (member : row ∈ events) (own : row.externalEventId = event.externalEventId) (replayed : replay = some row.id) :
    ∃ next ∈ after, next.id = row.id ∧ next.externalEventId = row.externalEventId ∧ next.recorded = true := by
  obtain ⟨stored, -, refused⟩ := record_stored tidy (fun _ => rfl) done
  cases applied with
  | false =>
    obtain ⟨other, inside, here, taken⟩ := refused.mp rfl
    have one : other = row := List.inj_on_of_nodup_map tidy.externalIds inside member (here.trans own.symm)
    rw [one] at taken
    unfold StoreEvent.takes at taken
    rw [replayed, beq_self_eq_true, Bool.or_true] at taken
    cases taken
  | true =>
    obtain ⟨next, inside, id, same, -⟩ := stored.grows row member
    exact ⟨next, inside, id, same, stored.own rfl next inside (same.trans own)⟩

end Events

section Store
variable {refunds : Text → StripeRefund} {store : RefundStore} {now : Int} {event : RefundEvent} {replay : Option Nat}

private theorem counted_same {payment : Option Payment} {events after : List StoreEvent} (same : refundedIds after = refundedIds events)
    (counted : CountedOnce refunds ⟨payment, events⟩) : CountedOnce refunds ⟨payment, after⟩ := by
  unfold CountedOnce refundedAmount refundedIn at *
  simp only at counted ⊢
  rw [same]
  exact counted

structure Kept (refunds : Text → StripeRefund) (event : RefundEvent) (replay : Option Nat) (store : RefundStore)
    (after : RefundStore × Recording) : Prop where
  tidy : Tidy after.1.events
  grows : Grows store.events after.1.events
  counted : CountedOnce refunds after.1
  recorded : after.2 = .processed → ∀ row ∈ store.events, row.externalEventId = event.externalEventId → replay = some row.id →
    ∃ next ∈ after.1.events, next.id = row.id ∧ next.externalEventId = row.externalEventId ∧ next.recorded = true

private theorem skip_kept (tidy : Tidy store.events) (counted : CountedOnce refunds store) (purchaseKind : Option PurchaseKind)
    {recording : Recording} (other : recording ≠ .processed) :
    Kept refunds event replay store (skipEvent now event replay purchaseKind store, recording) := by
  obtain ⟨kept, grows, same⟩ := @skipped_stored store.events now replay tidy event purchaseKind
  exact ⟨kept, grows, counted_same same counted, fun processed => absurd processed other⟩

private theorem conflict_kept (tidy : Tidy store.events) (counted : CountedOnce refunds store)
    {recorded : Except Failure (RefundStore × Recording)} (kept : ∀ result, recorded = .ok result → Kept refunds event replay store result) :
    Kept refunds event replay store (skipOnIdentityConflict now event replay recorded store) := by
  unfold skipOnIdentityConflict
  split
  · next result => exact kept result rfl
  · exact skip_kept tidy counted none nofun

private theorem refundedAmount_insert {events after : List StoreEvent} (first : event.reversalId ∉ refundedIds events)
    (ids : refundedIds after = insert event.reversalId (refundedIds events)) :
    refundedAmount refunds after = (refunds event.reversalId).amount + refundedAmount refunds events := by
  unfold refundedAmount
  rw [ids, Finset.sum_insert first]

private theorem refundedIn_insert {currency : Text} {events after : List StoreEvent} (first : event.reversalId ∉ refundedIds events)
    (ids : refundedIds after = insert event.reversalId (refundedIds events)) :
    refundedIn currency refunds after = refundedIn currency refunds events +
      if toLowerCase currency = toLowerCase (refunds event.reversalId).currency then (refunds event.reversalId).amount else 0 := by
  unfold refundedIn
  rw [ids, Finset.filter_insert]
  split
  · rw [Finset.sum_insert fun member => first (Finset.mem_filter.mp member).1, add_comm]
  · rfl

private theorem credit_kept (tidy : Tidy store.events) (counted : CountedOnce refunds store) (settled : Settled store.events event replay) :
    Kept refunds event replay store (recordStripeCreditReversal refunds now event replay store) := by
  apply conflict_kept tidy counted
  intro result done
  unfold applyStripeCreditReversal at done
  split at done
  · next purchase paid =>
    simp only at done
    split at done
    · cases done
      exact skip_kept tidy counted _ nofun
    · next price priced =>
      split at done
      · cases done
        exact skip_kept tidy counted _ nofun
      · obtain ⟨⟨events, applied⟩, written, done⟩ := bind_ok done
        have stored := (record_stored tidy (fun _ => rfl) written).1
        have effect := counts_new tidy settled written
        have replayed := fun row member own id => @replay_recorded store.events events row now replay tidy event _ _ _ applied
          written member own id
        unfold CountedOnce at counted
        rw [paid] at counted
        simp only [priced, Option.getD_some] at counted
        simp only at done
        split at done
        · next repeated =>
          cases done
          rw [if_pos repeated] at effect
          refine ⟨stored.tidy, stored.grows, ?_, fun _ => replayed⟩
          apply counted_same effect
          unfold CountedOnce
          rw [paid]
          simpa only [priced, Option.getD_some] using counted
        · next once =>
          cases done
          rw [if_neg once] at effect
          refine ⟨stored.tidy, stored.grows, ?_, fun _ => replayed⟩
          have total := @refundedAmount_insert refunds event store.events events effect.1 effect.2
          unfold CountedOnce Purchase.reverse
          simp only [priced, Option.getD_some]
          rw [total]
          refine ⟨?_, trivial⟩
          have before := counted.1
          omega
  · cases done
    exact skip_kept tidy counted _ nofun

private theorem invoiceRefund_currency (refund : StripeRefund) (invoice : Invoice) :
    (applyInvoiceRefund refund invoice).currency = invoice.currency := by
  unfold applyInvoiceRefund
  split
  · rfl
  · split
    · rfl
    · split <;> rfl

private theorem invoiceRefund_reversed (refund : StripeRefund) {invoice : Invoice} {total : Nat}
    (before : invoice.reversedAmount = min invoice.amountPaid total) :
    (applyInvoiceRefund refund invoice).reversedAmount = min (applyInvoiceRefund refund invoice).amountPaid
      (total + if toLowerCase invoice.currency = toLowerCase refund.currency then refund.amount else 0) := by
  unfold applyInvoiceRefund
  split
  · split <;> omega
  · split
    · next apart =>
      rw [add_zero]
      exact before
    · next same =>
      rw [not_not] at same
      rw [if_pos same]
      split
      · simp only
        omega
      · omega

private theorem invoice_kept (tidy : Tidy store.events) (counted : CountedOnce refunds store) (settled : Settled store.events event replay)
    (invoiceId : Text) : Kept refunds event replay store (recordStripeInvoiceReversal refunds now event replay invoiceId store) := by
  apply conflict_kept tidy counted
  intro result done
  unfold applyStripeInvoiceReversal at done
  split at done
  · next invoice paid =>
    split at done
    · cases done
      exact skip_kept tidy counted _ nofun
    · obtain ⟨⟨events, applied⟩, written, done⟩ := bind_ok done
      have stored := (record_stored tidy (fun _ => rfl) written).1
      have effect := counts_new tidy settled written
      have replayed := fun row member own id => @replay_recorded store.events events row now replay tidy event _ _ _ applied
        written member own id
      simp only at done
      split at done
      · next repeated =>
        cases done
        rw [if_pos repeated] at effect
        exact ⟨stored.tidy, stored.grows, counted_same effect counted, fun _ => replayed⟩
      · next once =>
        cases done
        rw [if_neg once] at effect
        refine ⟨stored.tidy, stored.grows, ?_, fun _ => replayed⟩
        have total := @refundedIn_insert refunds event invoice.currency store.events events effect.1 effect.2
        unfold CountedOnce at counted ⊢
        rw [paid] at counted
        simp only at counted ⊢
        rw [invoiceRefund_currency, total]
        exact invoiceRefund_reversed (refunds event.reversalId) counted
  · cases done
    exact skip_kept tidy counted _ nofun

end Store

/-- A step that records an event of a refund only when a recorded refund shows it. -/
def Guarded (system : RefundSystem) : RefundStep → Prop
  | .recordCredit id _ => ∀ handler ∈ system.handlers, handler.id = id →
      Settled system.store.events handler.event handler.replayStoreEventId
  | .recordInvoice id _ _ => ∀ handler ∈ system.handlers, handler.id = id →
      Settled system.store.events handler.event handler.replayStoreEventId
  | _ => True

inductive RefundReaches (refunds : Text → StripeRefund) (may : RefundSystem → RefundStep → Prop) : RefundSystem → Prop where
  | opened : RefundReaches refunds may ⟨⟨none, []⟩, []⟩
  | step {system next : RefundSystem} {step : RefundStep} (reached : RefundReaches refunds may system)
      (allowed : may system step) (done : step.apply refunds system = .ok next) : RefundReaches refunds may next

/-- The stored event a handler replays: it is there, and recorded once the handler has recorded it. -/
def Attached (events : List StoreEvent) (handler : Handler) : Prop :=
  ∀ job, handler.job = some job → ∃ row ∈ events, row.id = job.storeEventId ∧
    row.externalEventId = handler.event.externalEventId ∧ (handler.phase = .recorded → row.recorded = true)

/-- What every guarded run keeps. -/
structure Sound (refunds : Text → StripeRefund) (system : RefundSystem) : Prop where
  tidy : Tidy system.store.events
  counted : CountedOnce refunds system.store
  handlerIds : (system.handlers.map Handler.id).Nodup
  freshHandler : ∀ handler ∈ system.handlers, handler.id < system.handlers.length
  attached : ∀ handler ∈ system.handlers, Attached system.store.events handler

section Steps
variable {refunds : Text → StripeRefund} {system next : RefundSystem} {events after : List StoreEvent} {handler : Handler}

theorem Attached.grows (attached : Attached events handler) (grows : Grows events after) : Attached after handler := by
  intro job has
  obtain ⟨row, member, id, external, recorded⟩ := attached job has
  obtain ⟨later, inside, sameId, sameExternal, still⟩ := grows row member
  exact ⟨later, inside, sameId.trans id, sameExternal.trans external, fun phase => still (recorded phase)⟩

section
variable (sound : Sound refunds system) {change : StoreEvent → StoreEvent}
include sound

/-- A change of stored events that keeps them tidy and records nothing. -/
theorem Sound.changed (tidy : Tidy after) (grows : Grows system.store.events after)
    (same : refundedIds after = refundedIds system.store.events) :
    Sound refunds { system with store := { system.store with events := after } } :=
  ⟨tidy, counted_same same sound.counted, sound.handlerIds, sound.freshHandler,
    fun handler member => (sound.attached handler member).grows grows⟩

private theorem changeEvent_sound {id : Nat} (keeps : ∀ row ∈ system.store.events, row.id = id → Keeps change row)
    (same : ∀ row, (change row).recorded = row.recorded) : Sound refunds (changeEvent id change system) := by
  apply sound.changed (updated_tidy sound.tidy keeps) (updated_grows keeps)
  exact updated_same keeps fun row _ _ recorded => same row ▸ recorded

omit sound in
/-- A change of a row that leaves its identity and does not mark it processed. -/
private theorem keeps_open {row : StoreEvent} (id : (change row).id = row.id)
    (externalEventId : (change row).externalEventId = row.externalEventId)
    (transactionId : (change row).transactionId = row.transactionId) (recorded : (change row).recorded = row.recorded)
    (open_ : (change row).processingStatus ≠ .processed) : Keeps change row :=
  ⟨id, externalEventId, transactionId, fun known => recorded ▸ known, fun processed => absurd processed open_⟩

private theorem addHandler_sound (event : RefundEvent) {job : Option ReplayJob}
    (attached : ∀ replay, job = some replay → ∃ row ∈ system.store.events, row.id = replay.storeEventId ∧
      row.externalEventId = event.externalEventId) : Sound refunds (addHandler event job system) := by
  refine ⟨sound.tidy, sound.counted, ?_, ?_, ?_⟩
  · unfold addHandler
    rw [List.map_append, List.nodup_append]
    refine ⟨sound.handlerIds, List.nodup_singleton _, ?_⟩
    intro id listed other single
    obtain ⟨handler, member, rfl⟩ := List.mem_map.mp listed
    rw [List.map_cons, List.map_nil, List.mem_singleton] at single
    rw [single]
    exact (sound.freshHandler handler member).ne
  · intro handler member
    unfold addHandler
    rw [List.length_append, List.length_singleton]
    rcases List.mem_append.mp member with old | new
    · exact (sound.freshHandler handler old).trans (Nat.lt_succ_self _)
    · rw [List.mem_singleton.mp new]
      exact Nat.lt_succ_self _
  · intro handler member
    rcases List.mem_append.mp member with old | new
    · exact sound.attached handler old
    · rw [List.mem_singleton.mp new]
      intro replay has
      obtain ⟨row, inside, id, external⟩ := attached replay has
      exact ⟨row, inside, id, external, nofun⟩

private theorem enterPhase_sound (member : handler ∈ system.handlers) {phase : HandlerPhase}
    {store : RefundStore} (tidy : Tidy store.events) (counted : CountedOnce refunds store)
    (grows : Grows system.store.events store.events) (attached : Attached store.events (handler.enter phase)) :
    Sound refunds (enterPhase handler.id phase store system) := by
  refine ⟨tidy, counted, ?_, ?_, ?_⟩
  · have same : (updateAt Handler.id handler.id (Handler.enter phase) system.handlers).map Handler.id =
        system.handlers.map Handler.id := by
      apply updateAt_keys
      exact fun _ => rfl
    exact same ▸ sound.handlerIds
  · intro other listed
    unfold enterPhase updateAt
    rw [List.length_map]
    obtain ⟨old, inside, ⟨-, rfl⟩ | ⟨-, rfl⟩⟩ := mem_updateAt.mp listed
    · exact sound.freshHandler old inside
    · exact sound.freshHandler _ inside
  · intro other listed
    obtain ⟨old, inside, ⟨same, rfl⟩ | ⟨-, rfl⟩⟩ := mem_updateAt.mp listed
    · rw [List.inj_on_of_nodup_map sound.handlerIds inside member same]
      exact attached
    · exact (sound.attached _ inside).grows grows

private theorem kept_sound (member : handler ∈ system.handlers) {recording : RefundStore × Recording}
    (kept : Kept refunds handler.event handler.replayStoreEventId system.store recording) {phase : HandlerPhase}
    (recorded : phase = .recorded → recording.2 = .processed) : Sound refunds (enterPhase handler.id phase recording.1 system) := by
  apply enterPhase_sound sound member kept.tidy kept.counted kept.grows
  intro job (has : handler.job = some job)
  obtain ⟨row, inside, id, external, -⟩ := sound.attached handler member job has
  by_cases entered : phase = .recorded
  · obtain ⟨later, there, sameId, sameExternal, known⟩ := kept.recorded (recorded entered) row inside external (by
      unfold Handler.replayStoreEventId
      rw [has, id]
      rfl)
    exact ⟨later, there, sameId.trans id, sameExternal.trans external, fun _ => known⟩
  · obtain ⟨later, there, sameId, sameExternal, -⟩ := kept.grows row inside
    exact ⟨later, there, sameId.trans id, sameExternal.trans external, fun phase => absurd phase entered⟩

theorem idle_sound (member : handler ∈ system.handlers) {phase : HandlerPhase}
    (unrecorded : phase ≠ .recorded) : Sound refunds (enterPhase handler.id phase system.store system) := by
  apply enterPhase_sound sound member sound.tidy sound.counted (Grows.refl _)
  intro job has
  obtain ⟨row, inside, id, external, -⟩ := sound.attached handler member job has
  exact ⟨row, inside, id, external, fun recorded => absurd recorded unrecorded⟩

private theorem endHandler_sound (member : handler ∈ system.handlers) :
    Sound refunds (endHandler handler.id system) :=
  @idle_sound refunds system handler sound member .ended nofun

omit sound in
private theorem withHandler_inv {id : Nat} {phases : HandlerPhase → Bool} {act : Handler → Except Failure RefundSystem}
    (done : withHandler id phases system act = .ok next) :
    ∃ handler ∈ system.handlers, handler.id = id ∧ phases handler.phase = true ∧ act handler = .ok next := by
  unfold withHandler at done
  split at done
  · cases done
  · next handler found =>
    split at done
    · next phase => exact ⟨handler, (findAt_inv found).1, (findAt_inv found).2, phase, done⟩
    · cases done

omit sound in
private theorem withJob_inv {act : ReplayJob → Except Failure RefundSystem} (done : withJob handler act = .ok next) :
    ∃ job, handler.job = some job ∧ act job = .ok next := by
  unfold withJob at done
  split at done
  · cases done
  · next job has => exact ⟨job, has, done⟩

omit sound in
private theorem markJob_inv {job : ReplayJob} (done : markJob job change system = .ok next) :
    next = changeEvent job.storeEventId change system := by
  unfold markJob at done
  split at done
  · cases done
    rfl
  · cases done

theorem claim_sound {may : StoreEvent → Bool} {worker : Text} {id : Nat} {now : Int}
    (done : claimStoreEvent may worker id now system = .ok next) : Sound refunds next := by
  unfold claimStoreEvent at done
  split at done
  · cases done
  · next row found =>
    split at done
    · cases done
      obtain ⟨member, same⟩ := findAt_inv found
      have keeps : ∀ row ∈ system.store.events, row.id = id → Keeps (StoreEvent.claim worker now) row :=
        fun row _ _ => keeps_open rfl rfl rfl rfl nofun
      apply addHandler_sound (changeEvent_sound sound keeps fun _ => rfl)
      intro replay has
      cases has
      exact ⟨row.claim worker now, mem_updateAt.mpr ⟨row, member, .inl ⟨same, rfl⟩⟩, same, rfl⟩
    · cases done

private theorem pay_sound {payment : Payment} (unpaid : system.store.payment = none)
    (fresh : payment.fresh = true) : Sound refunds { system with store := { system.store with payment := some payment } } := by
  have counted := sound.counted
  unfold CountedOnce at counted
  rw [unpaid] at counted
  refine ⟨sound.tidy, ?_, sound.handlerIds, sound.freshHandler, sound.attached⟩
  unfold CountedOnce
  cases payment with
  | purchase purchase =>
    simp only [Payment.fresh, Bool.and_eq_true, beq_iff_eq] at fresh
    obtain ⟨⟨reversed, credit⟩, -⟩ := fresh
    simp only [refundedAmount]
    rw [counted, Finset.sum_empty, reversed, credit, Nat.min_zero]
    exact ⟨rfl, (if_pos (.inr (le_refl _))).symm⟩
  | invoice invoice =>
    simp only [Payment.fresh, beq_iff_eq] at fresh
    simp only [refundedIn]
    rw [counted, Finset.filter_empty, Finset.sum_empty, fresh, Nat.min_zero]

private theorem succeed_sound (member : handler ∈ system.handlers) (recorded : handler.phase = .recorded)
    {job : ReplayJob} (has : handler.job = some job) :
    Sound refunds (changeEvent job.storeEventId StoreEvent.succeed (endHandler handler.id system)) := by
  apply changeEvent_sound (endHandler_sound sound member)
  · intro row inside same
    obtain ⟨own, there, id, -, known⟩ := sound.attached handler member job has
    have one : row = own := List.inj_on_of_nodup_map sound.tidy.ids inside there (same.trans id.symm)
    exact ⟨rfl, rfl, rfl, fun kept => kept, fun _ => one ▸ known recorded⟩
  · exact fun _ => rfl

/-- A guarded step keeps every refund counted once. -/
private theorem guarded_step {step : RefundStep} (guarded : Guarded system step)
    (done : step.apply refunds system = .ok next) : Sound refunds next := by
  cases step with
  | pay payment =>
    simp only [RefundStep.apply] at done
    split at done
    · next fresh =>
      cases done
      exact pay_sound sound (Option.isNone_iff_eq_none.mp fresh.1) fresh.2
    · cases done
  | deliver event =>
    cases done
    exact addHandler_sound sound event nofun
  | claimDue worker id now => exact claim_sound sound done
  | claimById worker id now => exact claim_sound sound done
  | recordCredit id now =>
    simp only [RefundStep.apply] at done
    obtain ⟨handler, member, rfl, -, done⟩ := withHandler_inv done
    cases done
    apply kept_sound sound member (credit_kept sound.tidy sound.counted (guarded handler member rfl))
    intro entered
    generalize (recordStripeCreditReversal refunds now handler.event handler.replayStoreEventId system.store).2 = recording
      at entered ⊢
    cases recording with
    | processed => rfl
    | _ => cases entered
  | recordInvoice id lookup now =>
    simp only [RefundStep.apply] at done
    obtain ⟨handler, member, rfl, -, done⟩ := withHandler_inv done
    cases done
    have settled := guarded handler member rfl
    unfold recordInvoice
    cases lookup with
    | failed =>
      have kept : Kept refunds handler.event handler.replayStoreEventId system.store
          (skipEvent now handler.event handler.replayStoreEventId none system.store, .skipped) :=
        skip_kept sound.tidy sound.counted none nofun
      exact @kept_sound refunds system handler sound member _ kept .skipped nofun
    | none => exact idle_sound sound member nofun
    | found invoiceId =>
      apply kept_sound sound member (invoice_kept sound.tidy sound.counted settled invoiceId)
      intro entered
      generalize (recordStripeInvoiceReversal refunds now handler.event handler.replayStoreEventId invoiceId system.store).2 =
        recording at entered ⊢
      cases recording with
      | processed => rfl
      | _ => cases entered
  | succeed id =>
    simp only [RefundStep.apply] at done
    obtain ⟨handler, member, rfl, phase, done⟩ := withHandler_inv done
    obtain ⟨job, has, done⟩ := withJob_inv done
    rw [markJob_inv done]
    exact succeed_sound sound member (beq_iff_eq.mp phase) has
  | fail id retryAt =>
    simp only [RefundStep.apply] at done
    obtain ⟨handler, member, rfl, -, done⟩ := withHandler_inv done
    obtain ⟨job, has, done⟩ := withJob_inv done
    rw [markJob_inv done]
    apply changeEvent_sound (endHandler_sound sound member)
    · intro row _ _
      apply keeps_open rfl rfl rfl rfl
      unfold StoreEvent.fail
      simp only
      split <;> nofun
    · exact fun _ => rfl
  | renew id now =>
    simp only [RefundStep.apply] at done
    obtain ⟨handler, member, rfl, -, done⟩ := withHandler_inv done
    obtain ⟨job, has, done⟩ := withJob_inv done
    cases done
    split
    · apply changeEvent_sound sound
      · exact fun row inside _ => ⟨rfl, rfl, rfl, fun kept => kept, sound.tidy.processed row inside⟩
      · exact fun _ => rfl
    · exact sound
  | crash id =>
    simp only [RefundStep.apply] at done
    obtain ⟨handler, member, rfl, -, done⟩ := withHandler_inv done
    cases done
    exact endHandler_sound sound member

end

end Steps

theorem reaches_sound {refunds : Text → StripeRefund} {system : RefundSystem} (reached : RefundReaches refunds Guarded system) :
    Sound refunds system := by
  induction reached with
  | opened =>
    refine ⟨⟨List.nodup_nil, List.nodup_nil, ?_, ?_⟩, rfl, List.nodup_nil, ?_, ?_⟩
    · exact fun row member => absurd member List.not_mem_nil
    · exact fun row member => absurd member List.not_mem_nil
    · exact fun handler member => absurd member List.not_mem_nil
    · exact fun handler member => absurd member List.not_mem_nil
  | step _ guarded done ih => exact guarded_step ih guarded done

/-- In every run of deliveries, claims, recordings, markers and crashes whose recordings are guarded, each refund of the
payment is counted once. -/
theorem refunds_counted_once {refunds : Text → StripeRefund} {system : RefundSystem}
    (reached : RefundReaches refunds Guarded system) : CountedOnce refunds system.store :=
  (reaches_sound reached).counted

section Example

def fiveDollars : Text → StripeRefund :=
  fun _ => ⟨500, ['u', 's', 'd']⟩

def hundredDollars : Payment :=
  .purchase ⟨1, 1, .consumable, 1000, some 10000, some ['u', 's', 'd'], 0, 0, false⟩

def refundCreated : RefundEvent := ⟨['e', '1'], .refundCreated, ['r', '1']⟩

def refundUpdated : RefundEvent := ⟨['e', '2'], .refundUpdated, ['r', '1']⟩

/-- A refund that arrives before its purchase, is replayed by a worker that then crashes, and replayed by another one. -/
def crashedReplay : List RefundStep :=
  [.deliver refundCreated, .recordCredit 0 0, .pay hundredDollars, .claimDue ['a'] 0 1000, .recordCredit 1 2000, .crash 1,
    .claimDue ['b'] 0 400000, .recordCredit 2 401000, .succeed 2]

def countedTwice : RefundSystem where
  store := ⟨some (.purchase ⟨1, 1, .consumable, 1000, some 10000, some ['u', 's', 'd'], 1000, 100, false⟩),
    [⟨0, ['e', '1'], .refundCreated, some 1, some 1, ['r', '1'], some .consumable, .processed, 0, some 0, none, none⟩]⟩
  handlers := [⟨0, refundCreated, none, .unmatched⟩, ⟨1, refundCreated, some ⟨0, ['a']⟩, .ended⟩,
    ⟨2, refundCreated, some ⟨0, ['b']⟩, .ended⟩]

theorem run_reaches {refunds : Text → StripeRefund} {system next : RefundSystem} {steps : List RefundStep}
    (reached : RefundReaches refunds (fun _ _ => True) system)
    (done : steps.foldlM (RefundStep.apply refunds) system = .ok next) : RefundReaches refunds (fun _ _ => True) next := by
  induction steps generalizing system with
  | nil =>
    cases done
    exact reached
  | cons step rest ih =>
    rw [List.foldlM_cons] at done
    obtain ⟨middle, first, later⟩ := bind_ok done
    exact ih (.step reached trivial first) later

/-- A worker that crashes after it recorded a refund leaves its event to be replayed, and the refund is counted twice. -/
theorem refund_counted_twice : ∃ system, RefundReaches fiveDollars (fun _ _ => True) system ∧
    ¬ CountedOnce fiveDollars system.store := by
  refine ⟨countedTwice, @run_reaches _ _ _ crashedReplay .opened ?_, ?_⟩
  · decide
  · intro counted
    have amount : 1000 = min 10000 (refundedAmount fiveDollars countedTwice.store.events) := counted.1
    revert amount
    decide

def refundPaid : RefundSystem := ⟨⟨some hundredDollars, []⟩, [⟨0, refundCreated, none, .received⟩]⟩

def refundRecorded : RefundSystem where
  store := ⟨some (.purchase ⟨1, 1, .consumable, 1000, some 10000, some ['u', 's', 'd'], 500, 50, false⟩),
    [⟨0, ['e', '1'], .refundCreated, some 1, some 1, ['r', '1'], some .consumable, .processed, 0, some 0, none, none⟩]⟩
  handlers := [⟨0, refundCreated, none, .recorded⟩]

private theorem refundPaid_reached : RefundReaches fiveDollars Guarded refundPaid := by
  have paid : RefundReaches fiveDollars Guarded ⟨⟨some hundredDollars, []⟩, []⟩ := by
    apply @RefundReaches.step _ _ _ _ (.pay hundredDollars) .opened trivial
    decide
  apply @RefundReaches.step _ _ _ _ (.deliver refundCreated) paid trivial
  decide

private theorem refundRecorded_reached : RefundReaches fiveDollars Guarded refundRecorded := by
  have guarded : Guarded refundPaid (.recordCredit 0 0) := by
    intro handler member same recorded
    obtain ⟨row, listed, -⟩ := recorded
    exact absurd listed List.not_mem_nil
  apply RefundReaches.step refundPaid_reached guarded
  decide

theorem refunds_counted_once_five : CountedOnce fiveDollars refundRecorded.store :=
  refunds_counted_once refundRecorded_reached

end Example

end Quotum.StripeRefunds
