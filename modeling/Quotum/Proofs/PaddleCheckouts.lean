import Quotum.PaddleCheckouts
import Quotum.Proofs.ProviderOperations

/-! One open reservation, dispatches only under it, and no reservation that nobody can pay or resume, as long as no release strands one. -/

namespace Quotum.PaddleCheckouts
open General ProviderOperations

variable {operation : OperationRow PaddleRequest} {admitted : Prop} {stage : WriteStage} {request : CheckoutRequest}

section Ledger
variable {before after : OperationStore PaddleRequest}

structure Turns (row next : OperationRow PaddleRequest) : Prop where
  id : next.id = row.id
  intent : next.intent = row.intent
  prepared : next.status = .prepared → row.status = .prepared
  failed : row.status = .failed → next.status = .failed

theorem Turns.refl (row : OperationRow PaddleRequest) : Turns row row :=
  ⟨rfl, rfl, fun prepared => prepared, fun failed => failed⟩

structure Turn (before after : OperationStore PaddleRequest) : Prop where
  sound : Sound after
  later : ∀ row ∈ before.rows, ∃ next ∈ after.rows, Turns row next
  earlier : ∀ next ∈ after.rows, ∃ row ∈ before.rows, Turns row next
  past : ∀ id ∈ before.dispatched, id ∈ after.dispatched
  sent : ∀ id ∈ after.dispatched, id ∉ before.dispatched → ∃ row ∈ before.rows, row.id = id ∧ row.status = .prepared
  flown : ∀ row ∈ before.rows, ∀ next ∈ after.rows, next.id = row.id → row.status = .prepared → next.status ≠ .prepared →
    next.status ≠ .failed → next.id ∈ after.dispatched

def Fails (before after : OperationStore PaddleRequest) : Prop :=
  ∀ row ∈ before.rows, ∀ next ∈ after.rows, next.id = row.id → next.status = .failed → row.status = .failed ∨ row.status.leased = true

theorem Turn.refl (sound : Sound before) : Turn before before where
  sound := sound
  later := fun row member => ⟨row, member, Turns.refl row⟩
  earlier := fun row member => ⟨row, member, Turns.refl row⟩
  past := fun _ dispatched => dispatched
  sent := fun _ dispatched unsent => absurd dispatched unsent
  flown := by
    intro row member next nextMember same prepared moved _
    rw [sound.unique nextMember member same] at moved
    exact absurd prepared moved

theorem Fails.refl (sound : Sound before) : Fails before before := by
  intro row member next nextMember same failed
  rw [sound.unique nextMember member same] at failed
  exact .inl failed

section Moved
variable {row moved : OperationRow PaddleRequest}

private theorem moved_turn (sound : Sound before) (moves : Moved before after row moved)
    (once : row.status = .prepared → row.id ∈ after.dispatched) : Turn before after where
  sound := sound.advanced moves
  later := by
    intro other member
    by_cases same : other.id = row.id
    · obtain rfl := sound.unique member moves.inside same
      refine ⟨moved, moves.member, moves.id, moves.intent, fun prepared => absurd prepared moves.dispatched, ?_⟩
      intro failed
      have open_ := moves.unresolved
      rw [failed] at open_
      cases open_
    · exact ⟨other, moves.stays member same, Turns.refl other⟩
  earlier := by
    intro next member
    rcases moves.old next member with rfl | ⟨inside, -⟩
    · refine ⟨row, moves.inside, moves.id, moves.intent, fun prepared => absurd prepared moves.dispatched, ?_⟩
      intro failed
      have open_ := moves.unresolved
      rw [failed] at open_
      cases open_
    · exact ⟨next, inside, Turns.refl next⟩
  past := by
    intro id member
    rcases moves.once with same | ⟨-, appended⟩
    · rwa [same]
    · rw [appended]
      exact List.mem_append_left _ member
  sent := by
    intro id member unsent
    rcases moves.once with same | ⟨prepared, appended⟩
    · rw [same] at member
      exact absurd member unsent
    · rw [appended, List.mem_append, List.mem_singleton] at member
      exact ⟨row, moves.inside, (member.resolve_left unsent).symm, prepared⟩
  flown := by
    intro earlier member next nextMember same prepared left _
    rcases moves.old next nextMember with rfl | ⟨inside, -⟩
    · rw [moves.id] at same ⊢
      obtain rfl := sound.unique member moves.inside same.symm
      exact once prepared
    · rw [sound.unique inside member same] at left
      exact absurd prepared left

private theorem moved_fails (sound : Sound before) (moves : Moved before after row moved)
    (fails : moved.status = .failed → row.status.leased = true) : Fails before after := by
  intro earlier member next nextMember same failed
  rcases moves.old next nextMember with rfl | ⟨inside, -⟩
  · rw [moves.id] at same
    obtain rfl := sound.unique member moves.inside same.symm
    exact .inr (fails failed)
  · rw [sound.unique inside member same] at failed
    exact .inl failed

end Moved

private theorem leased_left {status : ProviderOperationStatus} (leased : status.leased = true) : status ≠ .prepared := by
  rintro rfl
  cases leased

private theorem claimDispatch_turn (sound : Sound before) (projectId : Nat) (billingAccountId : Text) (id : Nat) :
    Turn before (before.claimDispatch projectId billingAccountId id) ∧ Fails before (before.claimDispatch projectId billingAccountId id) := by
  rcases sound.claimDispatch_moved projectId billingAccountId id with same | ⟨row, moved, moves, -, -, flying, dispatched⟩
  · rw [same]
    exact ⟨Turn.refl sound, Fails.refl sound⟩
  · refine ⟨moved_turn sound moves ?_, moved_fails sound moves ?_⟩
    · intro _
      rw [dispatched]
      exact List.mem_append_right _ (List.mem_singleton_self _)
    · intro failed
      rw [flying] at failed
      cases failed

private theorem moved_undispatched {row moved : OperationRow PaddleRequest} (moves : Moved before after row moved) (left : row.status ≠ .prepared) :
    after.dispatched = before.dispatched :=
  moves.once.resolve_right fun appended => left appended.1

section
variable (sound : Sound before) {change : OperationRow PaddleRequest → OperationRow PaddleRequest} {lease : ProviderOperationLease}
include sound

private theorem claimReconciliation_turn (projectId : Nat) (billingAccountId : Text) (id : Nat) :
    Turn before (before.claimReconciliation projectId billingAccountId id) ∧
      Fails before (before.claimReconciliation projectId billingAccountId id) ∧
        (before.claimReconciliation projectId billingAccountId id).dispatched = before.dispatched := by
  rcases sound.claimReconciliation_moved projectId billingAccountId id with same | ⟨row, moved, moves, left, reconciling⟩
  · rw [same]
    exact ⟨Turn.refl sound, Fails.refl sound, rfl⟩
  · refine ⟨moved_turn sound moves fun prepared => absurd prepared left, moved_fails sound moves ?_, moved_undispatched moves left⟩
    intro failed
    rw [reconciling] at failed
    cases failed

private theorem renew_turn (member : lease ∈ before.leases) :
    Turn before (before.renew lease) ∧ Fails before (before.renew lease) ∧ (before.renew lease).dispatched = before.dispatched := by
  rcases sound.renew_moved member with same | ⟨row, moved, moves, leased, -⟩
  · rw [same]
    exact ⟨Turn.refl sound, Fails.refl sound, rfl⟩
  · exact ⟨moved_turn sound moves fun prepared => absurd prepared (leased_left leased), moved_fails sound moves fun _ => leased,
      moved_undispatched moves (leased_left leased)⟩

private theorem settle_turn (member : lease ∈ before.leases) (outcome : ProviderOperationOutcome PaddleRequest) :
    Turn before (before.settle lease outcome) ∧ Fails before (before.settle lease outcome) ∧
      (before.settle lease outcome).dispatched = before.dispatched := by
  rcases sound.settle_moved member outcome with same | ⟨row, moved, moves, -, leased⟩
  · rw [same]
    exact ⟨Turn.refl sound, Fails.refl sound, rfl⟩
  · exact ⟨moved_turn sound moves fun prepared => absurd prepared (leased_left leased), moved_fails sound moves fun _ => leased,
      moved_undispatched moves (leased_left leased)⟩

/-- A statement that changes rows in place, and of their statuses at most that a prepared one is given up. -/
private theorem mapped_turn (valid : Sound after)
    (rows : after.rows = before.rows.map change) (dispatched : after.dispatched = before.dispatched)
    (kept : ∀ row, (change row).id = row.id ∧ (change row).intent = row.intent ∧ ((change row).status = row.status ∨
      row.status = .prepared ∧ (change row).status = .failed)) : Turn before after := by
  have turns (row : OperationRow PaddleRequest) : Turns row (change row) := by
    obtain ⟨id, intent, same | ⟨prepared, failed⟩⟩ := kept row
    · exact ⟨id, intent, fun now => same ▸ now, fun now => same.trans now⟩
    · refine ⟨id, intent, fun _ => prepared, fun now => ?_⟩
      rw [prepared] at now
      cases now
  refine ⟨valid, ?_, ?_, ?_, ?_, ?_⟩
  · intro row member
    exact ⟨change row, rows ▸ List.mem_map_of_mem member, turns row⟩
  · intro next member
    rw [rows] at member
    obtain ⟨row, inside, rfl⟩ := List.mem_map.mp member
    exact ⟨row, inside, turns row⟩
  · intro id member
    rwa [dispatched]
  · intro id member unsent
    rw [dispatched] at member
    exact absurd member unsent
  · intro row member next nextMember same prepared left unfailed
    rw [rows] at nextMember
    obtain ⟨other, inside, rfl⟩ := List.mem_map.mp nextMember
    obtain ⟨id, -, status | ⟨-, failed⟩⟩ := kept other
    · rw [sound.unique inside member (id.symm.trans same)] at status left
      exact absurd (status.trans prepared) left
    · exact absurd failed unfailed

/-- A statement that leaves every status fails nothing. -/
private theorem mapped_fails (rows : after.rows = before.rows.map change)
    (kept : ∀ row, (change row).id = row.id ∧ (change row).status = row.status) : Fails before after := by
  intro row member next nextMember same failed
  rw [rows] at nextMember
  obtain ⟨other, inside, rfl⟩ := List.mem_map.mp nextMember
  rw [sound.unique inside member ((kept other).1.symm.trans same), (kept row).2] at failed
  exact .inl failed

private theorem edited_turn (valid : Sound after) {id : Nat} {edit : OperationRow PaddleRequest → OperationRow PaddleRequest}
    (rows : after.rows = updateAt OperationRow.id id edit before.rows) (dispatched : after.dispatched = before.dispatched)
    (kept : ∀ row, (edit row).id = row.id ∧ (edit row).intent = row.intent ∧ (edit row).status = row.status) :
    Turn before after ∧ Fails before after := by
  have same (row : OperationRow PaddleRequest) : (if row.id = id then edit row else row).id = row.id ∧
      (if row.id = id then edit row else row).intent = row.intent ∧ (if row.id = id then edit row else row).status = row.status := by
    split
    · exact kept row
    · exact ⟨rfl, rfl, rfl⟩
  exact ⟨mapped_turn sound valid rows dispatched fun row => ⟨(same row).1, (same row).2.1, .inl (same row).2.2⟩,
    mapped_fails sound rows fun row => ⟨(same row).1, (same row).2.2⟩⟩

private theorem deferRecovery_turn (projectId id : Nat) :
    Turn before (before.deferRecovery projectId id) ∧ Fails before (before.deferRecovery projectId id) := by
  have effect : Effect (fun _ => 0) (fun _ => True) (fun _ => True) before _ := sound.deferRecovery _ projectId id
  refine edited_turn sound effect.sound rfl rfl fun row => ?_
  split <;> exact ⟨rfl, rfl, rfl⟩

private theorem requestReview_turn (projectId : Nat) (billingAccountId : Text) (id : Nat) (actor : Text) :
    Turn before (before.requestReview projectId billingAccountId id actor) ∧
      Fails before (before.requestReview projectId billingAccountId id actor) := by
  have effect : Effect (fun _ => 0) (fun _ => True) (fun _ => True) before _ := sound.requestReview _ projectId billingAccountId id actor
  refine edited_turn sound effect.sound rfl rfl fun row => ?_
  split <;> exact ⟨rfl, rfl, rfl⟩

private theorem waits_turn (elapsed : Nat) :
    Turn before { before with clock := before.clock + elapsed } ∧ Fails before { before with clock := before.clock + elapsed } := by
  have effect : Effect (fun _ => 0) (fun _ => True) (fun _ => True) before _ := sound.waits _ elapsed
  have rows : ({ before with clock := before.clock + elapsed } : OperationStore PaddleRequest).rows = before.rows.map id :=
    (List.map_id _).symm
  exact ⟨mapped_turn sound effect.sound rows rfl fun row => ⟨rfl, rfl, .inl rfl⟩, mapped_fails sound rows fun row => ⟨rfl, rfl⟩⟩

end

abbrev CheckoutStore.recording (store : CheckoutStore) (intent : PrepareProviderOperation PaddleRequest) : CheckoutStore :=
  { store with ledger.rows := store.ledger.rows ++ [OperationStore.operationOf store.ledger.rows.length intent store.ledger.clock] }

private theorem prepare_cases (store : CheckoutStore) (intent : PrepareProviderOperation PaddleRequest) :
    ((store.prepare intent).1 = store ∧ ∀ id, (store.prepare intent).2 = .answered (.operation id) →
        ∃ row ∈ store.ledger.rows, row.id = id ∧ row.intent.sameKey intent = true ∧ row.intent.repeats intent = true) ∨
      intent.accepted = true ∧ (∀ row ∈ store.ledger.rows, row.intent.sameKey intent = false) ∧
        (∀ row ∈ store.ledger.rows, row.intent.sameResource intent = true → row.status.unresolved = false) ∧
        (store.prepare intent).1 = store.recording intent ∧
        (store.prepare intent).2 = .answered (.operation store.ledger.rows.length) := by
  cases accepted : intent.accepted with
  | false =>
    refine .inl ⟨?_, ?_⟩ <;> simp [CheckoutStore.prepare, accepted]
  | true =>
    cases found : store.ledger.rows.find? fun row => row.intent.sameKey intent with
    | some existing =>
      left
      simp only [CheckoutStore.prepare, accepted, if_true, prepareStatement, found]
      refine ⟨trivial, ?_⟩
      intro id answered
      have keyed : existing.intent.sameKey intent = true :=
        List.find?_some (p := fun row : OperationRow PaddleRequest => row.intent.sameKey intent) found
      split at answered
      · next repeats =>
        cases answered
        exact ⟨existing, List.mem_of_find?_eq_some found, rfl, keyed, repeats⟩
      · cases answered
    | none =>
      have unrecorded : ∀ row ∈ store.ledger.rows, row.intent.sameKey intent = false := by
        intro row member
        exact Bool.eq_false_iff.mpr (List.find?_eq_none.mp found row member)
      cases pending : store.ledger.rows.any fun row => row.intent.sameResource intent && row.status.unresolved with
      | true =>
        left
        simp [CheckoutStore.prepare, accepted, prepareStatement, found, pending]
      | false =>
        right
        have free : ∀ row ∈ store.ledger.rows, row.intent.sameResource intent = true → row.status.unresolved = false := by
          intro row member same
          have := List.any_eq_false.mp pending row member
          simpa [same] using this
        have clear : (store.ledger.rows.any fun row =>
            row.intent.sameKey intent || row.intent.sameResource intent && row.status.unresolved) = false := by
          apply List.any_eq_false.mpr
          intro row member
          have := List.any_eq_false.mp pending row member
          simpa [unrecorded row member] using this
        refine ⟨rfl, unrecorded, free, ?_, ?_⟩ <;>
          simp [CheckoutStore.prepare, accepted, prepareStatement, found, pending, clear]

end Ledger

variable (account : PaddleAccount) (previewed : Text → Bool)

def Owned (intent : PrepareProviderOperation PaddleRequest) : Prop :=
  intent.projectId = account.projectId ∧ intent.billingAccountId = account.billingAccountId ∧ intent.provider = .paddle

def Hosted (row : OperationRow PaddleRequest) : Prop := row.intent.operation = checkoutHosted

/-- What holds of the ledger and the reservations in any run that asks for previews under the keys that are said to be theirs. -/
structure Held (store : CheckoutStore) : Prop where
  ledger : Sound store.ledger
  own : ∀ row ∈ store.ledger.rows, Owned account row.intent
  ids : store.reservations.map ReservationRow.id = List.range store.reservations.length
  exclusive : store.Exclusive
  keyed : ∀ row ∈ store.reservations, row.previewToken.isSome = previewed row.idempotencyKey
  single : ∀ first ∈ store.reservations, ∀ second ∈ store.reservations, first.idempotencyKey = second.idempotencyKey → first = second
  bound : ∀ row ∈ store.reservations, ∀ id ∈ row.operationId, ∃ operation ∈ store.ledger.rows, operation.id = id ∧
    (Hosted operation → operation.intent.idempotencyKey = row.idempotencyKey)
  reserved : ∀ operation ∈ store.ledger.rows, Hosted operation → ∃ row ∈ store.reservations,
    row.idempotencyKey = operation.intent.idempotencyKey
  sent : ∀ operation ∈ store.ledger.rows, Hosted operation → operation.id ∈ store.ledger.dispatched → ∃ row ∈ store.reservations,
    row.idempotencyKey = operation.intent.idempotencyKey ∧ row.operationId = some operation.id
  flown : ∀ operation ∈ store.ledger.rows, operation.status ≠ .prepared → operation.status ≠ .failed →
    operation.id ∈ store.ledger.dispatched
  unsent : store.RejectedUnsent

def Alive (store : CheckoutStore) : Prop :=
  ∀ row ∈ store.reservations, row.isOpen = true → store.isStuck row = true → store.boundFailed row = true

/-- What a request relies on of an operation before its dispatch: while it is prepared, an open reservation is bound to it. -/
def Ready (store : CheckoutStore) (id : Nat) : Prop :=
  ∀ operation ∈ store.ledger.rows, operation.id = id → operation.status = .prepared → ∃ row ∈ store.reservations,
    row.isOpen = true ∧ row.operationId = some id

/-- What any statement keeps of the rows that others have read. -/
structure Onward (before after : CheckoutStore) : Prop where
  operations : ∀ row ∈ before.ledger.rows, ∃ next ∈ after.ledger.rows, next.id = row.id ∧ next.intent = row.intent
  reservations : ∀ row ∈ before.reservations, ∃ next ∈ after.reservations, next.id = row.id ∧ next.idempotencyKey = row.idempotencyKey
  ready : ∀ operation ∈ before.ledger.rows, Hosted operation → Ready before operation.id → Ready after operation.id

private theorem customerIntent_owned (connection : PaddleConfig) (idempotencyKey email : Text) :
    Owned account (account.customerIntent connection idempotencyKey email) :=
  ⟨rfl, rfl, rfl⟩

private theorem checkoutIntent_owned (input : CheckoutInput) (customerId : Text) : Owned account (account.checkoutIntent input customerId) :=
  ⟨rfl, rfl, rfl⟩

section Stores
variable {account previewed} {store before middle after : CheckoutStore} {row : ReservationRow}

theorem Onward.refl (store : CheckoutStore) : Onward store store :=
  ⟨fun row member => ⟨row, member, rfl, rfl⟩, fun row member => ⟨row, member, rfl, rfl⟩, fun _ _ _ ready => ready⟩

theorem Onward.trans (first : Onward before middle) (second : Onward middle after) : Onward before after where
  operations := by
    intro row member
    obtain ⟨next, there, id, intent⟩ := first.operations row member
    obtain ⟨last, still, lastId, lastIntent⟩ := second.operations next there
    exact ⟨last, still, lastId.trans id, lastIntent.trans intent⟩
  reservations := by
    intro row member
    obtain ⟨next, there, id, key⟩ := first.reservations row member
    obtain ⟨last, still, lastId, lastKey⟩ := second.reservations next there
    exact ⟨last, still, lastId.trans id, lastKey.trans key⟩
  ready := by
    intro operation member hosted ready
    obtain ⟨next, there, id, intent⟩ := first.operations operation member
    rw [← id]
    exact second.ready next there (by rwa [Hosted, intent]) (id ▸ first.ready operation member hosted ready)

private theorem isCheckoutOf_iff {key : Text} {row : OperationRow PaddleRequest} :
    isCheckoutOf key row = true ↔ Hosted row ∧ row.intent.idempotencyKey = key := by
  simp only [isCheckoutOf, Bool.and_eq_true, beq_iff_eq, Hosted]

private theorem boundTo_iff {test : OperationRow PaddleRequest → Bool} :
    store.boundTo test row = true ↔ ∃ operation ∈ store.ledger.rows, row.operationId = some operation.id ∧ test operation = true := by
  simp only [CheckoutStore.boundTo, List.any_eq_true, Bool.and_eq_true, beq_iff_eq]

private theorem boundFailed_iff : store.boundFailed row = true ↔ ∃ operation ∈ store.ledger.rows,
    row.operationId = some operation.id ∧ operation.status = .failed := by
  simp only [CheckoutStore.boundFailed, boundTo_iff, beq_iff_eq]

private theorem isStuck_iff : store.isStuck row = true ↔ ∃ operation ∈ store.ledger.rows,
    Hosted operation ∧ operation.intent.idempotencyKey = row.idempotencyKey ∧ operation.status = .failed := by
  simp only [CheckoutStore.isStuck, List.any_eq_true, Bool.and_eq_true, isCheckoutOf_iff, beq_iff_eq, and_assoc]

private theorem reachedPaddle_iff : store.reachedPaddle operation = true ↔
    Hosted operation ∧ operation.id ∈ store.ledger.dispatched ∧ operation.status ≠ .failed := by
  simp only [CheckoutStore.reachedPaddle, Bool.and_eq_true, beq_iff_eq, List.contains_iff_mem, bne_iff_ne, Hosted, and_assoc]

theorem Held.sameKey (held : Held account previewed store) {first second : OperationRow PaddleRequest} (firstMember : first ∈ store.ledger.rows)
    (secondMember : second ∈ store.ledger.rows) (same : first.intent.idempotencyKey = second.intent.idempotencyKey) : first = second := by
  obtain ⟨project, billing, provider⟩ := held.own first firstMember
  obtain ⟨projects, billings, providers⟩ := held.own second secondMember
  apply held.ledger.unique firstMember secondMember
  exact held.ledger.keys first firstMember second secondMember
    (sameKey_iff.mpr ⟨project.trans projects.symm, billing.trans billings.symm, provider.trans providers.symm, same⟩)

theorem Held.boundOwn (held : Held account previewed store) (member : operation ∈ store.ledger.rows)
    (hosted : Hosted operation) (dispatched : operation.id ∈ store.ledger.dispatched) (inside : row ∈ store.reservations)
    (own : operation.intent.idempotencyKey = row.idempotencyKey) : row.operationId = some operation.id := by
  obtain ⟨other, otherInside, key, bound⟩ := held.sent operation member hosted dispatched
  rw [← held.single other otherInside row inside (key.trans own)]
  exact bound

section Turns
variable {ledger : OperationStore PaddleRequest}

/-- A statement of the ledger keeps what holds, when it dispatches no checkout but a bound one. -/
theorem Held.turned (held : Held account previewed store) (turn : Turn store.ledger ledger)
    (ready : ∀ operation ∈ store.ledger.rows, Hosted operation → operation.id ∈ ledger.dispatched →
      operation.id ∉ store.ledger.dispatched → ∃ row ∈ store.reservations, row.isOpen = true ∧ row.operationId = some operation.id) :
    Held account previewed { store with ledger := ledger } where
  ledger := turn.sound
  own := by
    intro next member
    obtain ⟨row, inside, turns⟩ := turn.earlier next member
    rw [turns.intent]
    exact held.own row inside
  ids := held.ids
  exclusive := held.exclusive
  keyed := held.keyed
  single := held.single
  bound := by
    intro row member id isBound
    obtain ⟨operation, inside, same, key⟩ := held.bound row member id isBound
    obtain ⟨next, there, turns⟩ := turn.later operation inside
    refine ⟨next, there, turns.id.trans same, ?_⟩
    simpa only [Hosted, turns.intent] using key
  reserved := by
    intro next member hosted
    obtain ⟨operation, inside, turns⟩ := turn.earlier next member
    rw [Hosted, turns.intent] at hosted
    rw [turns.intent]
    exact held.reserved operation inside hosted
  sent := by
    intro next member hosted dispatched
    obtain ⟨operation, inside, turns⟩ := turn.earlier next member
    rw [Hosted, turns.intent] at hosted
    rw [turns.id] at dispatched
    rw [turns.intent, turns.id]
    by_cases earlier : operation.id ∈ store.ledger.dispatched
    · exact held.sent operation inside hosted earlier
    · obtain ⟨row, reserved, -, isBound⟩ := ready operation inside hosted dispatched earlier
      obtain ⟨other, otherInside, same, key⟩ := held.bound row reserved operation.id isBound
      rw [held.ledger.unique otherInside inside same] at key
      exact ⟨row, reserved, (key hosted).symm, isBound⟩
  flown := by
    intro next member left unfailed
    obtain ⟨operation, inside, turns⟩ := turn.earlier next member
    by_cases prepared : operation.status = .prepared
    · exact turn.flown operation inside next member turns.id prepared left unfailed
    · rw [turns.id]
      exact turn.past _ (held.flown operation inside prepared fun failed => unfailed (turns.failed failed))
  unsent := by
    intro row member rejected next nextMember own
    obtain ⟨operation, inside, turns⟩ := turn.earlier next nextMember
    obtain ⟨hosted, key⟩ := isCheckoutOf_iff.mp own
    rw [Hosted, turns.intent] at hosted
    rw [turns.intent] at key
    have unsent := held.unsent row member rejected operation inside (isCheckoutOf_iff.mpr ⟨hosted, key⟩)
    apply Bool.eq_false_iff.mpr
    intro reached
    obtain ⟨-, dispatched, unfailed⟩ := reachedPaddle_iff.mp reached
    rw [turns.id] at dispatched
    by_cases earlier : operation.id ∈ store.ledger.dispatched
    · exact Bool.eq_false_iff.mp unsent
        (reachedPaddle_iff.mpr ⟨hosted, earlier, fun failed => unfailed (turns.failed failed)⟩)
    · obtain ⟨other, reserved, isOpen, isBound⟩ := ready operation inside hosted dispatched earlier
      obtain ⟨same, there, isSame, bound⟩ := held.bound other reserved operation.id isBound
      rw [held.ledger.unique there inside isSame] at bound
      rw [held.single other reserved row member ((bound hosted).symm.trans key), ReservationRow.isOpen, rejected] at isOpen
      cases isOpen

theorem Turn.onward (turn : Turn store.ledger ledger) : Onward store { store with ledger := ledger } where
  operations := by
    intro row member
    obtain ⟨next, there, turns⟩ := turn.later row member
    exact ⟨next, there, turns.id, turns.intent⟩
  reservations := fun row member => ⟨row, member, rfl, rfl⟩
  ready := by
    intro operation _ _ ready next member same prepared
    obtain ⟨row, inside, turns⟩ := turn.earlier next member
    exact ready row inside (turns.id.symm.trans same) (turns.prepared prepared)

theorem Turn.boundFailed (turn : Turn store.ledger ledger) (failed : store.boundFailed row = true) :
    CheckoutStore.boundFailed { store with ledger := ledger } row = true := by
  obtain ⟨operation, inside, isBound, failed⟩ := boundFailed_iff.mp failed
  obtain ⟨next, there, turns⟩ := turn.later operation inside
  exact boundFailed_iff.mpr ⟨next, there, by rw [turns.id]; exact isBound, turns.failed failed⟩

/-- An operation that fails under a lease was dispatched, so the reservation of its key is bound to it. -/
theorem Alive.turned (alive : Alive store) (held : Held account previewed store) (turn : Turn store.ledger ledger) (fails : Fails store.ledger ledger) :
    Alive { store with ledger := ledger } := by
  intro row member isOpen stuck
  obtain ⟨next, there, hosted, key, failed⟩ := isStuck_iff.mp stuck
  obtain ⟨operation, inside, turns⟩ := turn.earlier next there
  rw [Hosted, turns.intent] at hosted
  rw [turns.intent] at key
  rcases fails operation inside next there turns.id failed with before | leased
  · exact turn.boundFailed (alive row member isOpen (isStuck_iff.mpr ⟨operation, inside, hosted, key, before⟩))
  · have dispatched : operation.id ∈ store.ledger.dispatched := by
      apply held.flown operation inside (leased_left leased)
      intro failed
      rw [failed] at leased
      cases leased
    refine boundFailed_iff.mpr ⟨next, there, ?_, failed⟩
    rw [turns.id]
    exact held.boundOwn inside hosted dispatched member key

end Turns

section Recorded
variable {intent : PrepareProviderOperation PaddleRequest}

theorem Held.recorded (held : Held account previewed store) (accepted : intent.accepted = true)
    (unrecorded : ∀ row ∈ store.ledger.rows, row.intent.sameKey intent = false)
    (free : ∀ row ∈ store.ledger.rows, row.intent.sameResource intent = true → row.status.unresolved = false)
    (own : Owned account intent)
    (reserved : intent.operation = checkoutHosted → ∃ row ∈ store.reservations, row.idempotencyKey = intent.idempotencyKey) :
    Held account previewed (store.recording intent) := by
  have effect : Effect (fun _ => 0) (fun _ => True) (fun _ => True) store.ledger _ :=
    held.ledger.recordedUnder _ accepted unrecorded free trivial trivial
  have either {row : OperationRow PaddleRequest}
      (member : row ∈ store.ledger.rows ++ [OperationStore.operationOf store.ledger.rows.length intent store.ledger.clock]) :
      row ∈ store.ledger.rows ∨ row = OperationStore.operationOf store.ledger.rows.length intent store.ledger.clock := by
    rwa [List.mem_append, List.mem_singleton] at member
  have undispatched : store.ledger.rows.length ∉ store.ledger.dispatched := fun dispatched =>
    absurd (held.ledger.known _ dispatched) (lt_irrefl _)
  refine ⟨effect.sound, ?_, held.ids, held.exclusive, held.keyed, held.single, ?_, ?_, ?_, ?_, ?_⟩
  · intro row member
    rcases either member with old | rfl
    · exact held.own row old
    · exact own
  · intro row member id isBound
    obtain ⟨operation, inside, rest⟩ := held.bound row member id isBound
    exact ⟨operation, List.mem_append_left _ inside, rest⟩
  · intro operation member hosted
    rcases either member with old | rfl
    · exact held.reserved operation old hosted
    · exact reserved hosted
  · intro operation member hosted dispatched
    rcases either member with old | rfl
    · exact held.sent operation old hosted dispatched
    · exact absurd dispatched undispatched
  · intro operation member left unfailed
    rcases either member with old | rfl
    · exact held.flown operation old left unfailed
    · exact absurd rfl left
  · intro row member rejected operation there checkout
    rcases either there with old | rfl
    · exact held.unsent row member rejected operation old checkout
    · apply Bool.eq_false_iff.mpr
      intro reached
      exact absurd (reachedPaddle_iff.mp reached).2.1 undispatched

private theorem recorded_onward (held : Held account previewed store) : Onward store (store.recording intent) where
  operations := fun row member => ⟨row, List.mem_append_left _ member, rfl, rfl⟩
  reservations := fun row member => ⟨row, member, rfl, rfl⟩
  ready := by
    intro operation inside _ ready next member same prepared
    rcases List.mem_append.mp member with old | new
    · exact ready next old same prepared
    · rw [List.mem_singleton.mp new] at same
      have := held.ledger.inside inside
      rw [← same] at this
      exact absurd this (lt_irrefl _)

theorem Alive.recorded (alive : Alive store) : Alive (store.recording intent) := by
  intro row member isOpen stuck
  obtain ⟨operation, there, hosted, key, failed⟩ := isStuck_iff.mp stuck
  rcases List.mem_append.mp there with old | new
  · obtain ⟨bound, inside, rest⟩ := boundFailed_iff.mp (alive row member isOpen (isStuck_iff.mpr ⟨operation, old, hosted, key, failed⟩))
    exact boundFailed_iff.mpr ⟨bound, List.mem_append_left _ inside, rest⟩
  · rw [List.mem_singleton.mp new] at failed
    cases failed

end Recorded

section Rewritten
variable {change : ReservationRow → ReservationRow}

/-- What a statement may do to a reservation. It never opens one, nor takes the checkout from one that is bound to it; it leaves one open
whose checkout may still be dispatched, and rejects none whose checkout may have reached Paddle. -/
structure Rewrites (store : CheckoutStore) (row next : ReservationRow) : Prop where
  id : next.id = row.id
  key : next.idempotencyKey = row.idempotencyKey
  token : next.previewToken = row.previewToken
  opens : next.isOpen = true → row.isOpen = true
  bound : next.operationId = row.operationId ∨ ∃ operation ∈ store.ledger.rows, next.operationId = some operation.id ∧
    (Hosted operation → operation.intent.idempotencyKey = row.idempotencyKey)
  stays : ∀ operation ∈ store.ledger.rows, Hosted operation → row.operationId = some operation.id →
    next.operationId = some operation.id ∧ (row.isOpen = true → operation.status = .prepared → next.isOpen = true)
  unsent : next.closureReason = some .rejected → row.closureReason = some .rejected ∨ ∀ operation ∈ store.ledger.rows,
    isCheckoutOf row.idempotencyKey operation = true → store.reachedPaddle operation = false
  alive : next.isOpen = true → store.isStuck row = true → store.boundFailed row = true → store.boundFailed next = true

theorem Rewrites.refl (row : ReservationRow) : Rewrites store row row :=
  ⟨rfl, rfl, rfl, fun isOpen => isOpen, .inl rfl, fun _ _ _ isBound => ⟨isBound, fun isOpen _ => isOpen⟩, .inl, fun _ _ failed => failed⟩

theorem Held.rewritten (held : Held account previewed store) (rewrites : ∀ row ∈ store.reservations, Rewrites store row (change row)) :
    Held account previewed { store with reservations := store.reservations.map change } where
  ledger := held.ledger
  own := held.own
  ids := by
    rw [List.map_map, List.length_map, ← held.ids]
    exact List.map_congr_left fun row member => (rewrites row member).id
  exclusive := by
    intro first firstMember second secondMember firstOpen secondOpen
    obtain ⟨one, oneInside, rfl⟩ := List.mem_map.mp firstMember
    obtain ⟨other, otherInside, rfl⟩ := List.mem_map.mp secondMember
    rw [held.exclusive one oneInside other otherInside ((rewrites one oneInside).opens firstOpen)
      ((rewrites other otherInside).opens secondOpen)]
  keyed := by
    intro next member
    obtain ⟨row, inside, rfl⟩ := List.mem_map.mp member
    rw [(rewrites row inside).token, (rewrites row inside).key]
    exact held.keyed row inside
  single := by
    intro first firstMember second secondMember same
    obtain ⟨one, oneInside, rfl⟩ := List.mem_map.mp firstMember
    obtain ⟨other, otherInside, rfl⟩ := List.mem_map.mp secondMember
    rw [(rewrites one oneInside).key, (rewrites other otherInside).key] at same
    rw [held.single one oneInside other otherInside same]
  bound := by
    intro next member id isBound
    obtain ⟨row, inside, rfl⟩ := List.mem_map.mp member
    rw [(rewrites row inside).key]
    rcases (rewrites row inside).bound with same | ⟨operation, there, isNew, key⟩
    · rw [same] at isBound
      exact held.bound row inside id isBound
    · rw [isNew] at isBound
      cases isBound
      exact ⟨operation, there, rfl, key⟩
  reserved := by
    intro operation member hosted
    obtain ⟨row, inside, key⟩ := held.reserved operation member hosted
    exact ⟨change row, List.mem_map_of_mem inside, (rewrites row inside).key.trans key⟩
  sent := by
    intro operation member hosted dispatched
    obtain ⟨row, inside, key, isBound⟩ := held.sent operation member hosted dispatched
    exact ⟨change row, List.mem_map_of_mem inside, (rewrites row inside).key.trans key,
      ((rewrites row inside).stays operation member hosted isBound).1⟩
  flown := held.flown
  unsent := by
    intro next member rejected operation there own
    obtain ⟨row, inside, rfl⟩ := List.mem_map.mp member
    rw [(rewrites row inside).key] at own
    rcases (rewrites row inside).unsent rejected with before | unsent
    · exact held.unsent row inside before operation there own
    · exact unsent operation there own

theorem Held.rewritten_onward (held : Held account previewed store) (rewrites : ∀ row ∈ store.reservations, Rewrites store row (change row)) :
    Onward store { store with reservations := store.reservations.map change } where
  operations := fun row member => ⟨row, member, rfl, rfl⟩
  reservations := fun row member => ⟨change row, List.mem_map_of_mem member, (rewrites row member).id, (rewrites row member).key⟩
  ready := by
    intro operation inside hosted ready next member same prepared
    obtain ⟨row, reserved, isOpen, isBound⟩ := ready next member same prepared
    rw [held.ledger.unique member inside same] at prepared
    obtain ⟨stays, opens⟩ := (rewrites row reserved).stays operation inside hosted isBound
    exact ⟨change row, List.mem_map_of_mem reserved, opens isOpen prepared, stays⟩

theorem Alive.rewritten (alive : Alive store) (rewrites : ∀ row ∈ store.reservations, Rewrites store row (change row)) :
    Alive { store with reservations := store.reservations.map change } := by
  intro next member isOpen stuck
  obtain ⟨row, inside, rfl⟩ := List.mem_map.mp member
  have before : store.isStuck row = true := by
    simpa only [CheckoutStore.isStuck, (rewrites row inside).key] using stuck
  exact (rewrites row inside).alive isOpen before (alive row inside ((rewrites row inside).opens isOpen) before)

end Rewritten

/-- What a statement keeps: what holds, what others have read, and, if it is admitted, that no open reservation is dead. It dispatches
no checkout but a bound one. -/
structure Keeps (account : PaddleAccount) (previewed : Text → Bool) (admitted : Prop) (before after : CheckoutStore) : Prop where
  held : Held account previewed after
  onward : Onward before after
  dispatches : before.DispatchesBound after
  alive : admitted → Alive before → Alive after

theorem undispatched (same : after.ledger.dispatched = before.ledger.dispatched) : before.DispatchesBound after := by
  intro operation _ _ dispatched unsent
  rw [same] at dispatched
  exact absurd dispatched unsent

theorem Held.same (held : Held account previewed store) : Keeps account previewed admitted store store :=
  ⟨held, Onward.refl store, undispatched rfl, fun _ alive => alive⟩

theorem Held.rewrites (held : Held account previewed store) {change : ReservationRow → ReservationRow}
    (rewrites : ∀ row ∈ store.reservations, Rewrites store row (change row)) :
    Keeps account previewed admitted store { store with reservations := store.reservations.map change } :=
  ⟨held.rewritten rewrites, held.rewritten_onward rewrites, undispatched rfl, fun _ alive => alive.rewritten rewrites⟩

theorem Held.turns (held : Held account previewed store) {ledger : OperationStore PaddleRequest} (turn : Turn store.ledger ledger)
    (fails : Fails store.ledger ledger)
    (ready : ∀ operation ∈ store.ledger.rows, Hosted operation → operation.id ∈ ledger.dispatched →
      operation.id ∉ store.ledger.dispatched → ∃ row ∈ store.reservations, row.isOpen = true ∧ row.operationId = some operation.id) :
    Keeps account previewed admitted store { store with ledger := ledger } := by
  refine ⟨held.turned turn ready, turn.onward, ?_, fun _ alive => alive.turned held turn fails⟩
  intro next member hosted dispatched unsent
  obtain ⟨operation, inside, turns⟩ := turn.earlier next member
  rw [turns.intent] at hosted
  rw [turns.id] at dispatched unsent ⊢
  exact ready operation inside hosted dispatched unsent

/-- A statement of the ledger that dispatches nothing. -/
theorem Held.quiet (held : Held account previewed store) {ledger : OperationStore PaddleRequest} (turn : Turn store.ledger ledger)
    (fails : Fails store.ledger ledger) (same : ledger.dispatched = store.ledger.dispatched) :
    Keeps account previewed admitted store { store with ledger := ledger } := by
  apply held.turns turn fails
  intro operation _ _ dispatched unsent
  rw [same] at dispatched
  exact absurd dispatched unsent

section Closed
variable {test : ReservationRow → Bool} {reason : ClosureReason} {now : Int}

/-- Closing reservations whose checkouts are not to be dispatched any more. -/
theorem Held.closes (held : Held account previewed store)
    (settled : ∀ row ∈ store.reservations, row.isOpen = true → test row = true → ∀ operation ∈ store.ledger.rows, Hosted operation →
      row.operationId = some operation.id → operation.status ≠ .prepared)
    (unsent : reason = .rejected → ∀ row ∈ store.reservations, row.isOpen = true → test row = true → ∀ operation ∈ store.ledger.rows,
      isCheckoutOf row.idempotencyKey operation = true → store.reachedPaddle operation = false) :
    Keeps account previewed admitted store (store.closeWhere test reason now) := by
  apply held.rewrites
  intro row member
  split
  · next closes =>
    obtain ⟨isOpen, tested⟩ := Bool.and_eq_true_iff.mp closes
    refine ⟨rfl, rfl, rfl, fun _ => isOpen, .inl rfl, ?_, ?_, ?_⟩
    · intro operation inside hosted isBound
      exact ⟨isBound, fun _ prepared => absurd prepared (settled row member isOpen tested operation inside hosted isBound)⟩
    · intro rejected
      exact .inr (unsent (Option.some.inj rejected) row member isOpen tested)
    · intro _ _ failed
      exact failed
  · exact Rewrites.refl row

theorem Held.rejects (held : Held account previewed store)
    (failed : ∀ row ∈ store.reservations, test row = true → ∀ operation ∈ store.ledger.rows, Hosted operation →
      row.operationId = some operation.id → operation.status = .failed) :
    Keeps account previewed admitted store (store.closeWhere test .rejected now) := by
  apply held.closes
  · intro row member _ tested operation inside hosted isBound prepared
    have := failed row member tested operation inside hosted isBound
    rw [prepared] at this
    cases this
  · intro _ row member _ tested operation inside own
    obtain ⟨hosted, key⟩ := isCheckoutOf_iff.mp own
    apply Bool.eq_false_iff.mpr
    intro reached
    obtain ⟨-, dispatched, unfailed⟩ := reachedPaddle_iff.mp reached
    exact unfailed (failed row member tested operation inside hosted (held.boundOwn inside hosted dispatched member key))

private theorem closeWhere_open {next : ReservationRow} (member : next ∈ (store.closeWhere test reason now).reservations)
    (isOpen : next.isOpen = true) : next ∈ store.reservations ∧ test next = false := by
  obtain ⟨row, inside, rfl⟩ := List.mem_map.mp member
  by_cases closes : (row.isOpen && test row) = true
  · rw [if_pos closes] at isOpen
    cases isOpen
  · rw [if_neg closes] at isOpen ⊢
    rw [isOpen, Bool.true_and] at closes
    exact ⟨inside, Bool.eq_false_iff.mpr closes⟩

end Closed

section
variable (held : Held account previewed store)
include held

theorem Held.boundTest {test : OperationRow PaddleRequest → Bool}
    (tested : store.boundTo test row = true) (inside : operation ∈ store.ledger.rows)
    (isBound : row.operationId = some operation.id) : test operation = true := by
  obtain ⟨other, there, otherBound, holds⟩ := boundTo_iff.mp tested
  rw [isBound] at otherBound
  rw [held.ledger.unique inside there (Option.some.inj otherBound)]
  exact holds

theorem Held.rejectUnbound (owner : CheckoutOwner) :
    Keeps account previewed admitted store (store.rejectUnbound owner) := by
  apply held.rejects
  intro row _ tested operation _ _ isBound
  rw [Bool.and_eq_true, isBound] at tested
  exact absurd tested.2 Bool.false_ne_true

theorem Held.repair (now : Int) : Keeps account previewed admitted store (store.repair now) := by
  apply held.rejects
  intro row _ tested operation inside _ isBound
  exact beq_iff_eq.mp (held.boundTest tested inside isBound)

theorem Held.concluded {operation : Nat} {reason : ClosureReason} (accepts : reason ≠ .rejected)
    (evidence : ∃ row ∈ store.ledger.rows, row.id = operation ∧ store.reachedPaddle row = true) :
    Keeps account previewed admitted store (store.closePaddleCheckout operation reason) := by
  obtain ⟨row, inside, same, reached⟩ := evidence
  apply held.closes
  · intro reservation _ _ tested other there _ isBound prepared
    rw [isBound, beq_iff_eq, Option.some.injEq, ← same] at tested
    rw [held.ledger.unique there inside tested] at prepared
    exact (held.ledger.fresh row inside prepared).1 (reachedPaddle_iff.mp reached).2.1
  · intro rejected
    exact absurd rejected accepts

theorem Held.bindOperation {reservation : Nat} {current : OperationRow PaddleRequest}
    (inside : current ∈ store.ledger.rows) (same : current.id = operation.id) (intent : current.intent = operation.intent)
    (after : CheckoutStore) (binds : store.bindOperation reservation operation = some after) : Keeps account previewed admitted store after := by
  simp only [CheckoutStore.bindOperation] at binds
  split at binds
  · cases binds
    apply held.rewrites
    intro row member
    split
    · next bindable =>
      simp only [CheckoutStore.canBind, Bool.and_eq_true, Bool.or_eq_true, beq_iff_eq] at bindable
      obtain ⟨⟨⟨⟨-, isOpen⟩, -⟩, -⟩, fits⟩ := bindable
      by_cases keeps : operation.intent.operation = customerCreate ∧ row.operationId.isSome = true
      · rw [if_pos keeps]
        exact ⟨rfl, rfl, rfl, fun _ => isOpen, .inl rfl, fun _ _ _ isBound => ⟨isBound, fun isOpen _ => isOpen⟩, .inl, fun _ _ failed => failed⟩
      · rw [if_neg keeps]
        have own (hosted : Hosted current) : current.intent.idempotencyKey = row.idempotencyKey := by
          rw [Hosted, intent] at hosted
          rw [intent]
          refine (fits.resolve_left ?_).symm
          rw [hosted]
          decide
        -- A reservation that is bound already is bound anew only to the operation of its own key.
        have again {id : Nat} (isBound : row.operationId = some id) : row.idempotencyKey = current.intent.idempotencyKey := by
          rw [intent]
          exact fits.resolve_left fun creates => keeps ⟨creates, by rw [isBound]; rfl⟩
        refine ⟨rfl, rfl, rfl, fun _ => isOpen, .inr ⟨current, inside, by rw [same], own⟩, ?_, .inl, ?_⟩
        · intro bound there hosted isBound
          refine ⟨?_, fun isOpen _ => isOpen⟩
          obtain ⟨other, otherThere, isOther, key⟩ := held.bound row member bound.id isBound
          rw [held.ledger.unique otherThere there isOther] at key
          rw [held.sameKey there inside ((key hosted).trans (again isBound)), same]
        · intro _ stuck failed
          obtain ⟨bound, -, isBound, -⟩ := boundFailed_iff.mp failed
          obtain ⟨checkout, there, -, key, failed⟩ := isStuck_iff.mp stuck
          rw [held.sameKey there inside (key.trans (again isBound))] at failed
          exact boundFailed_iff.mpr ⟨current, inside, by rw [same], failed⟩
    · exact Rewrites.refl row
  · cases binds

end

private theorem bindOperation_binds {reservation : Nat}
    (binds : store.bindOperation reservation operation = some after) (other : operation.intent.operation ≠ customerCreate) :
    ∃ row ∈ after.reservations, row.isOpen = true ∧ row.operationId = some operation.id := by
  simp only [CheckoutStore.bindOperation] at binds
  split at binds
  · next any =>
    obtain ⟨row, inside, bindable⟩ := List.any_eq_true.mp any
    cases binds
    refine ⟨_, List.mem_map_of_mem inside, ?_⟩
    rw [if_pos bindable, if_neg fun both => other both.1]
    simp only [CheckoutStore.canBind, Bool.and_eq_true] at bindable
    exact ⟨bindable.1.1.1.2, rfl⟩
  · cases binds

theorem Held.rejected (held : Held account previewed store) (reservation operation : Nat) :
    Keeps account previewed admitted store (store.rejected reservation operation) := by
  simp only [CheckoutStore.rejected]
  split
  · exact held.same
  · next failed found =>
    have inside := List.mem_of_find?_eq_some found
    have both := List.find?_some found
    simp only [Bool.and_eq_true, beq_iff_eq] at both
    obtain ⟨same, status⟩ := both
    apply held.rewrites
    intro row member
    split
    · next rejects =>
      simp only [Bool.and_eq_true, Bool.or_eq_true, beq_iff_eq, Option.isNone_iff_eq_none] at rejects
      obtain ⟨⟨⟨-, isOpen⟩, fits⟩, -⟩ := rejects
      have bound {other : OperationRow PaddleRequest} (there : other ∈ store.ledger.rows) (isBound : row.operationId = some other.id) :
          other = failed := by
        rcases fits with bound | ⟨unbound, -⟩
        · rw [bound, ← same] at isBound
          exact held.ledger.unique there inside (Option.some.inj isBound).symm
        · rw [unbound] at isBound
          cases isBound
      refine ⟨rfl, rfl, rfl, fun _ => isOpen, .inr ⟨failed, inside, by rw [same], ?_⟩, ?_, ?_, ?_⟩
      · intro hosted
        rcases fits with isBound | ⟨-, creates⟩
        · obtain ⟨other, there, isOther, key⟩ := held.bound row member operation isBound
          rw [held.ledger.unique there inside (isOther.trans same.symm)] at key
          exact key hosted
        · rw [Hosted, creates] at hosted
          exact absurd hosted (by decide)
      · intro other there _ isBound
        obtain rfl := bound there isBound
        refine ⟨by rw [same], fun _ prepared => ?_⟩
        rw [status] at prepared
        cases prepared
      · intro _
        refine .inr fun checkout there own => Bool.eq_false_iff.mpr fun reached => ?_
        obtain ⟨hosted, key⟩ := isCheckoutOf_iff.mp own
        obtain ⟨-, dispatched, unfailed⟩ := reachedPaddle_iff.mp reached
        exact unfailed (bound there (held.boundOwn there hosted dispatched member key) ▸ status)
      · intro isOpen
        cases isOpen
    · exact Rewrites.refl row

section Releases
variable {release : Release}

private theorem marked_turn (held : Held account previewed store) : Turn store.ledger (store.markNeverSent account release).ledger := by
  let mark (row : OperationRow PaddleRequest) : OperationRow PaddleRequest :=
    if release.givesUp account store.ledger.clock row then
      { row with status := .failed, errorCode := some neverSent, updatedAt := store.ledger.clock }
    else row
  have kept (row : OperationRow PaddleRequest) : (mark row).id = row.id ∧ (mark row).intent = row.intent ∧
      ((mark row).status = row.status ∨ row.status = .prepared ∧ (mark row).status = .failed) ∧
        (mark row).leaseToken = row.leaseToken ∧ (mark row).leaseUntil = row.leaseUntil := by
    by_cases given : release.givesUp account store.ledger.clock row = true
    · have prepared : row.status = .prepared := by
        simp only [Release.givesUp, Bool.and_eq_true, beq_iff_eq] at given
        exact given.1.2
      have marked : mark row = { row with status := .failed, errorCode := some neverSent, updatedAt := store.ledger.clock } := if_pos given
      rw [marked]
      exact ⟨rfl, rfl, .inr ⟨prepared, rfl⟩, rfl, rfl⟩
    · have left : mark row = row := if_neg given
      rw [left]
      exact ⟨rfl, rfl, .inl rfl, rfl, rfl⟩
  have valid : Sound (store.markNeverSent account release).ledger := by
    have rows : (store.markNeverSent account release).ledger.rows = store.ledger.rows.map mark := rfl
    refine held.ledger.edited rows rfl rfl le_rfl fun row => ?_
    obtain ⟨id, intent, status, token, ending⟩ := kept row
    exact ⟨id, intent, status.imp_right fun given => by rw [given.2]; rfl, token, ending⟩
  have rows : (store.markNeverSent account release).ledger.rows = store.ledger.rows.map mark := rfl
  exact mapped_turn held.ledger valid rows rfl fun row => ⟨(kept row).1, (kept row).2.1, (kept row).2.2.1⟩

/-- A release keeps what holds; if it strands no reservation, it leaves none dead. -/
theorem Held.releaseNeverSent (held : Held account previewed store) (release : Release) :
    Keeps account previewed (store.strands account release = false) store (store.releaseNeverSent account release) := by
  have turn : Turn store.ledger (store.markNeverSent account release).ledger := marked_turn held
  have marked : Held account previewed (store.markNeverSent account release) := by
    apply held.turned turn
    intro operation _ _ dispatched unsent
    exact absurd dispatched unsent
  have released : Keeps account previewed True (store.markNeverSent account release) (store.releaseNeverSent account release) := by
    apply marked.rejects
    intro row _ tested operation inside _ isBound
    rcases Bool.or_eq_true_iff.mp tested with bound | unbound
    · have both := marked.boundTest bound inside isBound
      rw [Bool.and_eq_true, beq_iff_eq] at both
      exact both.1
    · rw [isBound, Bool.and_eq_true] at unbound
      exact absurd unbound.1 Bool.false_ne_true
  refine ⟨released.held, turn.onward.trans released.onward, undispatched rfl, ?_⟩
  intro admitted alive row member isOpen stuck
  obtain ⟨inside, left⟩ := closeWhere_open member isOpen
  obtain ⟨checkout, there, hosted, key, failed⟩ := isStuck_iff.mp stuck
  obtain ⟨before, earlier, rfl⟩ := List.mem_map.mp there
  by_cases given : release.givesUp account store.ledger.clock before = true
  · -- The call gives up the checkout, so it also gives up or closes what the reservation is bound to.
    rw [if_pos given] at hosted key
    have own : (store.ledger.rows.any fun operation => isCheckoutOf row.idempotencyKey operation &&
        release.givesUp account store.ledger.clock operation) = true :=
      List.any_eq_true.mpr ⟨before, earlier, Bool.and_eq_true_iff.mpr ⟨isCheckoutOf_iff.mpr ⟨hosted, key⟩, given⟩⟩
    have unstranded := List.any_eq_false.mp admitted row inside
    simp only [isOpen, own, Bool.true_and, Bool.and_eq_true, Bool.not_eq_true', not_and, Bool.not_eq_false] at unstranded
    cases bound : store.boundTo (fun operation => operation.status == .failed || release.givesUp account store.ledger.clock operation) row with
    | true =>
      obtain ⟨operation, boundThere, isBound, lost⟩ := boundTo_iff.mp bound
      refine boundFailed_iff.mpr ⟨_, List.mem_map_of_mem boundThere, ?_, ?_⟩
      · rw [isBound]
        split <;> rfl
      · split
        · rfl
        · next kept =>
          rw [Bool.or_eq_true, beq_iff_eq] at lost
          exact lost.resolve_right kept
    | false =>
      have lapsed := unstranded bound
      rw [Bool.or_eq_false_iff] at left
      exact absurd (Bool.and_eq_true_iff.mpr lapsed) (Bool.eq_false_iff.mp left.2)
  · rw [if_neg given] at hosted key failed
    exact turn.boundFailed (alive row inside isOpen (isStuck_iff.mpr ⟨before, earlier, hosted, key, failed⟩))

end Releases

section Reserves
variable {input : CheckoutInput} {active : Bool} {waited id : Nat}

def AsksAs (input : CheckoutInput) (row : ReservationRow) : Prop :=
  row.idempotencyKey = input.owner.idempotencyKey ∧ row.previewToken.isSome = input.owner.previewToken.isSome

/-- A reserve that goes through finds the reservation of its key, or makes one when none is open. -/
theorem reserve_inv (goes : store.reserve input active waited = .ok (after, id)) :
    (after = store.repair (store.ledger.clock - waited) ∧ ∃ row ∈ after.reservations, row.id = id ∧ AsksAs input row) ∨
      (∀ row ∈ (store.repair (store.ledger.clock - waited)).reservations, row.isOpen = false ∧ ¬ AsksAs input row) ∧
        id = (store.repair (store.ledger.clock - waited)).reservations.length ∧
        after = { store.repair (store.ledger.clock - waited) with reservations := (store.repair (store.ledger.clock - waited)).reservations ++
          [CheckoutStore.reservationOf input id (store.ledger.clock - waited)] } := by
  simp only [CheckoutStore.reserve] at goes
  generalize store.repair (store.ledger.clock - waited) = repaired at goes ⊢
  split at goes
  · next existing found =>
    have inside := List.mem_of_find?_eq_some found
    have asks := List.find?_some found
    simp only [Bool.and_eq_true, beq_iff_eq] at asks
    split at goes
    · cases goes
    split at goes
    · cases goes
    split at goes
    · cases goes
    cases goes
    exact .inl ⟨rfl, existing, inside, rfl, asks⟩
  · next none =>
    split at goes
    · cases goes
    next closed =>
    split at goes
    · cases goes
    split at goes
    · cases goes
    cases goes
    refine .inr ⟨?_, rfl, rfl⟩
    intro row member
    refine ⟨Bool.eq_false_iff.mpr (List.find?_eq_none.mp closed row member), ?_⟩
    have apart := List.find?_eq_none.mp none row member
    simpa only [Bool.and_eq_true, beq_iff_eq, AsksAs] using apart

theorem Held.appended (held : Held account previewed store) (asked : input.owner.previewToken.isSome = previewed input.owner.idempotencyKey)
    (none : ∀ row ∈ store.reservations, row.isOpen = false ∧ ¬ AsksAs input row) (now : Int) :
    Keeps account previewed admitted store { store with reservations := store.reservations ++
      [CheckoutStore.reservationOf input store.reservations.length now] } := by
  have either {row : ReservationRow} (member : row ∈ store.reservations ++ [CheckoutStore.reservationOf input store.reservations.length now]) :
      row ∈ store.reservations ∨ row = CheckoutStore.reservationOf input store.reservations.length now := by
    rwa [List.mem_append, List.mem_singleton] at member
  have apart {row : ReservationRow} (member : row ∈ store.reservations) : row.idempotencyKey ≠ input.owner.idempotencyKey :=
    fun same => (none row member).2 ⟨same, by rw [held.keyed row member, same, asked]⟩
  refine ⟨⟨held.ledger, held.own, ?_, ?_, ?_, ?_, ?_, ?_, ?_, held.flown, ?_⟩, ⟨?_, ?_, ?_⟩, undispatched rfl, ?_⟩
  · rw [List.map_append, held.ids, List.length_append, List.length_singleton, List.range_succ]
    rfl
  · intro first firstMember second secondMember firstOpen secondOpen
    rcases either firstMember with one | rfl
    · rw [(none first one).1] at firstOpen
      cases firstOpen
    · rcases either secondMember with other | rfl
      · rw [(none second other).1] at secondOpen
        cases secondOpen
      · rfl
  · intro row member
    rcases either member with old | rfl
    · exact held.keyed row old
    · exact asked
  · intro first firstMember second secondMember same
    rcases either firstMember with one | rfl <;> rcases either secondMember with other | rfl
    · exact held.single first one second other same
    · exact absurd same (apart one)
    · exact absurd same.symm (apart other)
    · rfl
  · intro row member id isBound
    rcases either member with old | rfl
    · exact held.bound row old id isBound
    · cases isBound
  · intro operation member hosted
    obtain ⟨row, inside, key⟩ := held.reserved operation member hosted
    exact ⟨row, List.mem_append_left _ inside, key⟩
  · intro operation member hosted dispatched
    obtain ⟨row, inside, rest⟩ := held.sent operation member hosted dispatched
    exact ⟨row, List.mem_append_left _ inside, rest⟩
  · intro row member rejected
    rcases either member with old | rfl
    · exact held.unsent row old rejected
    · cases rejected
  · exact fun row member => ⟨row, member, rfl, rfl⟩
  · exact fun row member => ⟨row, List.mem_append_left _ member, rfl, rfl⟩
  · intro operation _ _ ready next member same prepared
    obtain ⟨row, inside, rest⟩ := ready next member same prepared
    exact ⟨row, List.mem_append_left _ inside, rest⟩
  · intro _ alive row member isOpen stuck
    rcases either member with old | rfl
    · exact alive row old isOpen stuck
    · obtain ⟨operation, there, hosted, key, -⟩ := isStuck_iff.mp stuck
      obtain ⟨other, inside, same⟩ := held.reserved operation there hosted
      exact absurd (same.trans key) (apart inside)

theorem Held.reserves (held : Held account previewed store) (asked : input.owner.previewToken.isSome = previewed input.owner.idempotencyKey)
    (goes : store.reserve input active waited = .ok (after, id)) : Keeps account previewed admitted store after := by
  have repaired : Keeps account previewed admitted store (store.repair (store.ledger.clock - waited)) := held.repair _
  rcases reserve_inv goes with ⟨rfl, -⟩ | ⟨none, rfl, rfl⟩
  · exact repaired
  · have appended : Keeps account previewed admitted _ _ := repaired.held.appended asked none (store.ledger.clock - waited)
    exact ⟨appended.held, repaired.onward.trans appended.onward, undispatched rfl,
      fun isAdmitted alive => appended.alive isAdmitted (repaired.alive isAdmitted alive)⟩

private theorem reserve_returns (goes : store.reserve input active waited = .ok (after, id)) :
    ∃ row ∈ after.reservations, row.id = id ∧ row.idempotencyKey = input.owner.idempotencyKey := by
  rcases reserve_inv goes with ⟨-, row, member, same, asks⟩ | ⟨-, rfl, rfl⟩
  · exact ⟨row, member, same, asks.1⟩
  · exact ⟨_, List.mem_append_right _ (List.mem_singleton_self _), rfl, rfl⟩

/-- A repair leaves no reservation open whose own checkout has failed. -/
private theorem repair_clears (alive : Alive store) (now : Int) (member : row ∈ (store.repair now).reservations)
    (isOpen : row.isOpen = true) : row ∈ store.reservations ∧ store.isStuck row = false := by
  obtain ⟨inside, left⟩ := closeWhere_open member isOpen
  refine ⟨inside, Bool.eq_false_iff.mpr fun stuck => ?_⟩
  rw [alive row inside isOpen stuck] at left
  cases left

private theorem reserve_pending {pending : Nat} (refused : store.reserve input active waited = .error (.checkoutPending pending)) :
    ∃ row ∈ (store.repair (store.ledger.clock - waited)).reservations, row.isOpen = true ∧ row.id = pending := by
  simp only [CheckoutStore.reserve] at refused
  split at refused
  · split at refused
    · cases refused
    split at refused
    · cases refused
    split at refused
    · cases refused
    cases refused
  · split at refused
    · next row found =>
      cases refused
      exact ⟨row, List.mem_of_find?_eq_some found, List.find?_some found, rfl⟩
    split at refused
    · cases refused
    split at refused
    · cases refused
    cases refused

theorem Held.unblocked (held : Held account previewed store) (alive : Alive store) (asked : input.owner.previewToken.isSome = previewed input.owner.idempotencyKey) :
    match store.reserve input active waited with
    | .ok (after, _) => ∀ row ∈ after.reservations, row.isOpen = true → after.isStuck row = false
    | .error (.checkoutPending id) => ∀ row ∈ store.reservations, row.id = id → store.isStuck row = false
    | .error _ => True := by
  split
  · next after id goes =>
    intro row member isOpen
    have kept : Keeps account previewed True store after := held.reserves asked goes
    rcases reserve_inv goes with ⟨rfl, -⟩ | ⟨none, rfl, rfl⟩
    · exact (repair_clears alive _ member isOpen).2
    · rcases List.mem_append.mp member with old | new
      · rw [(none row old).1] at isOpen
        cases isOpen
      · refine Bool.eq_false_iff.mpr fun stuck => ?_
        obtain ⟨operation, -, isBound, -⟩ := boundFailed_iff.mp (kept.alive trivial alive row member isOpen stuck)
        rw [List.mem_singleton.mp new] at isBound
        cases isBound
  · next id refused =>
    intro row member same
    obtain ⟨pending, inside, isOpen, isPending⟩ := reserve_pending refused
    obtain ⟨earlier, clear⟩ := repair_clears alive _ inside isOpen
    rw [List.inj_on_of_nodup_map (by rw [held.ids]; exact List.nodup_range) member earlier (same.trans isPending.symm)]
    exact clear
  · trivial

end Reserves

end Stores

def Running (store : CheckoutStore) : WriteStage → Prop
  | .preparing => True
  | .claiming operation => (∃ current ∈ store.ledger.rows, current.id = operation.id ∧ current.intent = operation.intent) ∧
      (Hosted operation → Ready store operation.id)
  | .binding operation | .reading operation | .sending _ operation | .settling _ operation _ | .answered operation =>
      ∃ current ∈ store.ledger.rows, current.id = operation.id ∧ current.intent = operation.intent

def Knows (store : CheckoutStore) (request : CheckoutRequest) : Prop :=
  request.input.owner.previewToken.isSome = previewed request.input.owner.idempotencyKey ∧
    match request.stage with
    | .customer reservation _ stage | .checkout reservation _ stage => (∃ row ∈ store.reservations, row.id = reservation ∧
        row.idempotencyKey = request.input.owner.idempotencyKey) ∧ Running store stage
    | .linking reservation _ => ∃ row ∈ store.reservations, row.id = reservation ∧
        row.idempotencyKey = request.input.owner.idempotencyKey
    | _ => True

section Requests
variable {account previewed} {store before after : CheckoutStore}

theorem Running.onward (running : Running before stage) (onward : Onward before after) : Running after stage := by
  have still {operation : OperationRow PaddleRequest}
      (known : ∃ current ∈ before.ledger.rows, current.id = operation.id ∧ current.intent = operation.intent) :
      ∃ current ∈ after.ledger.rows, current.id = operation.id ∧ current.intent = operation.intent := by
    obtain ⟨current, inside, id, intent⟩ := known
    obtain ⟨next, there, nextId, nextIntent⟩ := onward.operations current inside
    exact ⟨next, there, nextId.trans id, nextIntent.trans intent⟩
  cases stage with
  | preparing => trivial
  | claiming operation =>
    obtain ⟨known, ready⟩ := running
    refine ⟨still known, fun hosted => ?_⟩
    obtain ⟨current, inside, id, intent⟩ := known
    rw [← id]
    exact onward.ready current inside (by rw [Hosted, intent]; exact hosted) (id ▸ ready hosted)
  | binding operation => exact still running
  | reading operation => exact still running
  | sending lease operation => exact still running
  | settling lease operation outcome => exact still running
  | answered operation => exact still running

theorem Onward.reserved (onward : Onward before after) {reservation : Nat} {key : Text}
    (known : ∃ row ∈ before.reservations, row.id = reservation ∧ row.idempotencyKey = key) :
    ∃ row ∈ after.reservations, row.id = reservation ∧ row.idempotencyKey = key := by
  obtain ⟨row, inside, id, sameKey⟩ := known
  obtain ⟨next, there, nextId, nextKey⟩ := onward.reservations row inside
  exact ⟨next, there, nextId.trans id, nextKey.trans sameKey⟩

theorem Knows.onward (knows : Knows previewed before request) (onward : Onward before after) : Knows previewed after request := by
  obtain ⟨input, stage⟩ := request
  refine ⟨knows.1, ?_⟩
  cases stage with
  | customer reservation key stage => exact ⟨onward.reserved knows.2.1, knows.2.2.onward onward⟩
  | checkout reservation customerId stage => exact ⟨onward.reserved knows.2.1, knows.2.2.onward onward⟩
  | linking reservation customerId => exact onward.reserved knows.2
  | begun | executing | writing | searching | checking | returned | crashed => trivial
  | reserving customerId customerKey => trivial
  | failing handlers => trivial

/-- An error takes a request to its handlers, which know nothing. -/
theorem Knows.thrown {input : CheckoutInput} (asked : input.owner.previewToken.isSome = previewed input.owner.idempotencyKey) (stage : CheckoutStage) (store : CheckoutStore) :
    Knows previewed store ⟨input, CheckoutRequest.thrown ⟨input, stage⟩⟩ := by
  refine ⟨asked, ?_⟩
  cases stage with
  | failing handlers => cases handlers <;> trivial
  | _ => trivial

private theorem claimDispatch_sent {ledger : OperationStore PaddleRequest} (sound : Sound ledger) {projectId id sent : Nat}
    {billingAccountId : Text}
    (member : sent ∈ (ledger.claimDispatch projectId billingAccountId id).dispatched) (unsent : sent ∉ ledger.dispatched) : sent = id := by
  rcases sound.claimDispatch_moved projectId billingAccountId id with same | ⟨row, moved, -, isRow, -, -, dispatched⟩
  · rw [same] at member
    exact absurd member unsent
  · rw [dispatched, List.mem_append, List.mem_singleton] at member
    exact (member.resolve_left unsent).trans isRow

/-- The claim of a run, which dispatches a checkout only while it is bound. -/
theorem Held.claims (held : Held account previewed store)
    (running : Running store (.claiming operation)) : Keeps account previewed admitted store
      { store with ledger := store.ledger.claimDispatch account.projectId account.billingAccountId operation.id } := by
  have turn := claimDispatch_turn held.ledger account.projectId account.billingAccountId operation.id
  apply held.turns turn.1 turn.2
  intro other inside hosted dispatched unsent
  obtain ⟨⟨current, there, same, intent⟩, ready⟩ := running
  have isCurrent : other = current :=
    held.ledger.unique inside there ((claimDispatch_sent held.ledger dispatched unsent).trans same.symm)
  obtain ⟨prepared, thereToo, isPrepared, status⟩ := turn.1.sent other.id dispatched unsent
  rw [held.ledger.unique thereToo inside isPrepared, isCurrent] at status
  rw [isCurrent, same]
  exact ready (by rw [Hosted, ← intent, ← isCurrent]; exact hosted) current there same status

section Runs
variable {intent : PrepareProviderOperation PaddleRequest}

/-- The first statement of a run: it finds or records the operation of the intent. -/
theorem Held.prepares (held : Held account previewed store)
    (own : Owned account intent)
    (reserved : intent.operation = checkoutHosted → ∃ row ∈ store.reservations, row.idempotencyKey = intent.idempotencyKey) :
    Keeps account previewed admitted store (store.prepare intent).1 := by
  rcases prepare_cases store intent with ⟨same, -⟩ | ⟨accepted, unrecorded, free, recorded, -⟩
  · rw [same]
    exact held.same
  · rw [recorded]
    exact ⟨held.recorded accepted unrecorded free own reserved, recorded_onward held, undispatched rfl, fun _ alive => alive.recorded⟩

private theorem executeStatement_keeps (held : Held account previewed store) (admitted : Prop) (connection : PaddleConfig)
    (reservation : Nat) (reply : Reply)
    (running : Running store stage)
    (own : Owned account intent)
    (reserved : intent.operation = checkoutHosted → ∃ row ∈ store.reservations, row.idempotencyKey = intent.idempotencyKey) :
    Keeps account previewed admitted store (executeStatement account connection intent reservation reply store stage).1 ∧
      ∀ next ∈ (executeStatement account connection intent reservation reply store stage).2,
        Running (executeStatement account connection intent reservation reply store stage).1 next := by
  cases stage with
  | preparing =>
    have prepared : Keeps account previewed admitted store (store.prepare intent).1 := held.prepares own reserved
    simp only [executeStatement]
    split
    · next id answered =>
      refine ⟨prepared, ?_⟩
      intro next isNext
      obtain ⟨row, found, rfl⟩ := Option.map_eq_some_iff.mp (Option.mem_def.mp isNext)
      have inside := List.mem_of_find?_eq_some found
      split
      · exact ⟨row, inside, rfl, rfl⟩
      · next left =>
        refine ⟨⟨row, inside, rfl, rfl⟩, fun _ other there same status => ?_⟩
        rw [prepared.held.ledger.unique there inside same] at status
        exact absurd status left
    · exact ⟨prepared, fun next isNext => by cases isNext⟩
  | binding operation =>
    obtain ⟨current, inside, same, intent⟩ := running
    simp only [executeStatement]
    split
    · next bound binds =>
      have kept : Keeps account previewed admitted store bound := held.bindOperation inside same intent bound binds
      refine ⟨kept, ?_⟩
      intro next isNext
      cases isNext
      have known : Running store (.reading operation) := ⟨current, inside, same, intent⟩
      refine ⟨known.onward kept.onward, ?_⟩
      intro hosted _ _ _ _
      apply bindOperation_binds binds
      rw [hosted]
      decide
    · exact ⟨held.same, fun next isNext => by cases isNext⟩
  | claiming operation =>
    have claims : Keeps account previewed admitted store _ := held.claims running
    refine ⟨claims, ?_⟩
    intro next isNext
    have known : Running store (.reading operation) := running.1
    have still := known.onward claims.onward
    simp only [executeStatement, Option.mem_def, Option.some.injEq] at isNext
    rw [← isNext]
    split <;> exact still
  | reading operation =>
    refine ⟨held.same, ?_⟩
    intro next isNext
    obtain ⟨row, found, rfl⟩ := Option.map_eq_some_iff.mp (Option.mem_def.mp isNext)
    exact ⟨row, List.mem_of_find?_eq_some found, rfl, rfl⟩
  | sending lease operation =>
    refine ⟨held.same, ?_⟩
    intro next isNext
    cases isNext
    exact running
  | settling lease operation outcome =>
    simp only [executeStatement]
    split
    · exact ⟨held.same, fun next isNext => by cases isNext⟩
    next lent isLease =>
    split
    · exact ⟨held.same, fun next isNext => by cases isNext⟩
    obtain ⟨turn, fails, quiet⟩ := settle_turn held.ledger (List.mem_of_getElem? isLease) outcome
    refine ⟨held.quiet turn fails quiet, ?_⟩
    intro next isNext
    obtain ⟨row, found, rfl⟩ := Option.map_eq_some_iff.mp (Option.mem_def.mp isNext)
    exact ⟨row, List.mem_of_find?_eq_some found, rfl, rfl⟩
  | answered operation =>
    refine ⟨held.same, ?_⟩
    intro next isNext
    cases isNext
    exact running

end Runs

private theorem receive_keeps (held : Held account previewed store) {reservation : Nat}
    {next : Text → CheckoutStage} (asked : request.input.owner.previewToken.isSome = previewed request.input.owner.idempotencyKey)
    (goesOn : ∀ providerObjectId, Knows previewed store { request with stage := next providerObjectId }) :
    Keeps account previewed admitted store (receive request reservation operation next store).1 ∧
      Knows previewed (receive request reservation operation next store).1
        { request with stage := (receive request reservation operation next store).2 } := by
  simp only [receive]
  split
  · exact ⟨held.rejected reservation operation.id, Knows.thrown asked request.stage _⟩
  · exact ⟨held.same, goesOn _⟩
  · exact ⟨held.same, Knows.thrown asked request.stage _⟩

/-- A request's release is admitted when it strands no reservation. Its other statements are. -/
def Admitted (account : PaddleAccount) (store : CheckoutStore) (request : CheckoutRequest) (reply : Reply) : Prop :=
  match request.stage with
  | .begun | .writing => store.strands account (request.releaseOf account reply.waited) = false
  | _ => True

section Stages
variable {input : CheckoutInput} {reply : Reply} {reservation : Nat}

variable (runs : ∀ operation, stage ≠ .answered operation)
include runs

private theorem statement_customer {customerKey : Text} (email : Text)
    (given : input.email = some email) :
    let ran := executeStatement account input.connection (account.customerIntent input.connection customerKey email) reservation reply
      store stage
    statement account ⟨input, .customer reservation customerKey stage⟩ reply store =
      (ran.1, ran.2.elim (CheckoutRequest.thrown ⟨input, .customer reservation customerKey stage⟩) fun next =>
        .customer reservation customerKey next) := by
  cases stage with
  | answered operation => exact absurd rfl (runs operation)
  | _ => simp only [statement, given]

private theorem statement_checkout {customerId : Text} :
    let ran := executeStatement account input.connection (account.checkoutIntent input customerId) reservation reply store stage
    statement account ⟨input, .checkout reservation customerId stage⟩ reply store =
      (ran.1, ran.2.elim (CheckoutRequest.thrown ⟨input, .checkout reservation customerId stage⟩) fun next =>
        .checkout reservation customerId next) := by
  cases stage with
  | answered operation => exact absurd rfl (runs operation)
  | _ => rfl

private theorem statement_emailless {customerKey : Text}
    (none : input.email = none) :
    statement account ⟨input, .customer reservation customerKey stage⟩ reply store =
      (store, CheckoutRequest.thrown ⟨input, .customer reservation customerKey stage⟩) := by
  cases stage with
  | answered operation => exact absurd rfl (runs operation)
  | _ => simp only [statement, none]

end Stages

theorem Knows.elim {input : CheckoutInput} {ran : Option WriteStage} {thrown : CheckoutStage} {goesOn : WriteStage → CheckoutStage}
    (fails : Knows previewed store ⟨input, thrown⟩) (goes : ∀ next ∈ ran, Knows previewed store ⟨input, goesOn next⟩) :
    Knows previewed store ⟨input, ran.elim thrown goesOn⟩ := by
  cases ran with
  | none => exact fails
  | some next => exact goes next rfl

private theorem answered_or (stage : WriteStage) : (∃ operation, stage = .answered operation) ∨ ∀ operation, stage ≠ .answered operation := by
  cases stage with
  | answered operation => exact .inl ⟨operation, rfl⟩
  | _ => exact .inr fun operation => WriteStage.noConfusion

theorem statement_keeps (held : Held account previewed store) (reply : Reply) (knows : Knows previewed store request) :
    Keeps account previewed (Admitted account store request reply) store (statement account request reply store).1 ∧
      Knows previewed (statement account request reply store).1 { request with stage := (statement account request reply store).2 } := by
  obtain ⟨input, stage⟩ := request
  obtain ⟨asked, known⟩ := knows
  have fails (stage : CheckoutStage) {admitted : Prop} : Keeps account previewed admitted store store ∧
      Knows previewed store ⟨input, CheckoutRequest.thrown ⟨input, stage⟩⟩ := ⟨held.same, Knows.thrown asked stage store⟩
  cases stage with
  | begun | writing => exact ⟨held.releaseNeverSent _, asked, trivial⟩
  | executing =>
    simp only [statement]
    split
    · exact ⟨held.same, asked, trivial⟩
    split
    · next reserved id goes => exact ⟨held.reserves asked goes, asked, trivial⟩
    · exact fails .executing
  | searching =>
    simp only [statement]
    split
    · exact ⟨held.same, asked, trivial⟩
    split
    · exact fails .searching
    split
    · exact fails .searching
    split
    · exact ⟨held.same, asked, trivial⟩
    split
    · exact ⟨held.same, asked, trivial⟩
    · exact fails .searching
  | checking =>
    simp only [statement]
    split
    · exact ⟨held.same, asked, trivial⟩
    · exact ⟨held.same, asked, trivial⟩
    · exact fails .checking
  | reserving customerId customerKey =>
    simp only [statement]
    split
    · exact fails (.reserving customerId customerKey)
    · next reserved id goes =>
      refine ⟨held.reserves asked goes, asked, ?_⟩
      cases customerId <;> exact ⟨reserve_returns goes, trivial⟩
  | customer reservation customerKey stage =>
    rcases answered_or stage with ⟨operation, rfl⟩ | runs
    · exact receive_keeps held asked fun providerObjectId => ⟨asked, known.1⟩
    cases given : input.email with
    | none =>
      rw [statement_emailless runs given]
      exact fails (.customer reservation customerKey stage)
    | some email =>
      have ran := executeStatement_keeps held (Admitted account store ⟨input, .customer reservation customerKey stage⟩ reply)
        input.connection reservation reply known.2
        (customerIntent_owned account input.connection customerKey email)
        fun hosted => absurd hosted (by decide : customerCreate ≠ checkoutHosted)
      rw [statement_customer runs email given]
      exact ⟨ran.1, Knows.elim (Knows.thrown asked (.customer reservation customerKey stage) _)
        fun next isNext => ⟨asked, ran.1.onward.reserved known.1, ran.2 next isNext⟩⟩
  | linking reservation customerId => exact ⟨held.same, asked, known, trivial⟩
  | checkout reservation customerId stage =>
    rcases answered_or stage with ⟨operation, rfl⟩ | runs
    · exact receive_keeps held asked fun _ => ⟨asked, trivial⟩
    obtain ⟨row, inside, -, key⟩ := known.1
    have ran := executeStatement_keeps held (Admitted account store ⟨input, .checkout reservation customerId stage⟩ reply)
      input.connection reservation reply known.2
      (checkoutIntent_owned account input customerId)
      fun _ => ⟨row, inside, key⟩
    rw [statement_checkout runs]
    exact ⟨ran.1, Knows.elim (Knows.thrown asked (.checkout reservation customerId stage) _)
      fun next isNext => ⟨asked, ran.1.onward.reserved known.1, ran.2 next isNext⟩⟩
  | returned | crashed => exact ⟨held.same, asked, trivial⟩
  | failing handlers =>
    cases handlers with
    | zero => exact ⟨held.same, asked, trivial⟩
    | succ handlers => exact ⟨held.rejectUnbound input.owner, asked, trivial⟩

end Requests

/-- What holds in every state of an orderly run. -/
structure Reached (served : ServedCheckouts) : Prop where
  held : Held account previewed served.store
  knows : ∀ request ∈ served.sessions, Knows previewed served.store request

section Runs
variable {account previewed} {served : ServedCheckouts}

private theorem lease_recovers {ledger : OperationStore PaddleRequest} (sound : Sound ledger) (lease : Nat)
    {write : ProviderOperationLease → OperationStore PaddleRequest} (effect : ∀ held ∈ ledger.leases, Turn ledger (write held) ∧
      Fails ledger (write held) ∧ (write held).dispatched = ledger.dispatched) :
    Turn ledger ((ledger.leases[lease]?).elim ledger write) ∧ Fails ledger ((ledger.leases[lease]?).elim ledger write) ∧
      ((ledger.leases[lease]?).elim ledger write).dispatched = ledger.dispatched := by
  cases found : ledger.leases[lease]? with
  | none => exact ⟨Turn.refl sound, Fails.refl sound, rfl⟩
  | some held => exact effect held (List.mem_of_getElem? found)

private theorem admitted_of_admits {index : Nat} (found : served.sessions[index]? = some request) {reply : Reply}
    (admitted : admits account served (.advance index reply) = true) : Admitted account served.store request reply := by
  obtain ⟨input, stage⟩ := request
  simp only [admits, found] at admitted
  cases stage with
  | begun | writing => exact Bool.not_eq_true' _ |>.mp admitted
  | _ => trivial

theorem perform_keeps (reached : Reached account previewed served) (step : CheckoutStep) :
    Keeps account previewed (admits account served step = true) served.store (perform account served step).store := by
  have held := reached.held
  cases step with
  | wait elapsed =>
    have effect := waits_turn held.ledger elapsed
    exact held.quiet effect.1 effect.2 rfl
  | ask input => exact held.same
  | preview connection waited =>
    have kept := held.releaseNeverSent ⟨connection.versionId, [], waited⟩
    exact ⟨kept.held, kept.onward, kept.dispatches, fun admitted => kept.alive (Bool.not_eq_true' _ |>.mp admitted)⟩
  | advance index reply =>
    simp only [perform]
    split
    · exact held.same
    next request found =>
    have kept := (statement_keeps held reply (reached.knows request (List.mem_of_getElem? found))).1
    have weaker : Keeps account previewed (admits account served (.advance index reply) = true) served.store
        (statement account request reply served.store).1 :=
      ⟨kept.held, kept.onward, kept.dispatches, fun admitted => kept.alive (admitted_of_admits found admitted)⟩
    split
    · exact weaker
    · exact held.same
    · exact weaker
  | crash index =>
    simp only [perform]
    split <;> exact held.same
  | conclude operation reason =>
    simp only [perform]
    split
    · next concludes =>
      obtain ⟨row, inside, evidence⟩ := List.any_eq_true.mp concludes.2
      obtain ⟨same, reached⟩ := Bool.and_eq_true_iff.mp evidence
      exact held.concluded concludes.1 ⟨row, inside, beq_iff_eq.mp same, reached⟩
    · exact held.same
  | claimReconciliation id =>
    obtain ⟨turn, fails, quiet⟩ := claimReconciliation_turn held.ledger account.projectId account.billingAccountId id
    exact held.quiet turn fails quiet
  | renew lease =>
    obtain ⟨turn, fails, quiet⟩ := lease_recovers held.ledger lease fun lent member => renew_turn held.ledger member
    exact held.quiet turn fails quiet
  | observe lease outcome =>
    simp only [perform]
    split
    · obtain ⟨turn, fails, quiet⟩ := lease_recovers held.ledger lease fun lent member => settle_turn held.ledger member outcome
      exact held.quiet turn fails quiet
    · exact held.same
  | deferRecovery id =>
    have effect := deferRecovery_turn held.ledger account.projectId id
    exact held.quiet effect.1 effect.2 rfl
  | requestReview id actor =>
    have effect := requestReview_turn held.ledger account.projectId account.billingAccountId id actor
    exact held.quiet effect.1 effect.2 rfl

private theorem startOf_cases (owner : CheckoutOwner) : startOf owner = .failing 0 ∨ startOf owner = .begun ∨ startOf owner = .writing := by
  simp only [startOf]
  split
  · exact .inl rfl
  split
  · exact .inr (.inl rfl)
  · exact .inr (.inr rfl)

private theorem knows_set {store : CheckoutStore} {sessions : List CheckoutRequest} (knows : ∀ request ∈ sessions, Knows previewed store request)
    {next : CheckoutRequest} (known : Knows previewed store next) (index : Nat) : ∀ request ∈ sessions.set index next, Knows previewed store request := by
  intro request member
  rcases List.mem_or_eq_of_mem_set member with old | rfl
  · exact knows request old
  · exact known

private theorem perform_knows (reached : Reached account previewed served) {step : CheckoutStep}
    (asked : ∀ owner ∈ step.owner, owner.previewToken.isSome = previewed owner.idempotencyKey) :
    ∀ request ∈ (perform account served step).sessions, Knows previewed (perform account served step).store request := by
  have still : ∀ request ∈ served.sessions, Knows previewed (perform account served step).store request := fun request member =>
    (reached.knows request member).onward (perform_keeps reached step).onward
  cases step with
  | ask input =>
    intro request member
    rcases List.mem_append.mp member with old | new
    · exact still request old
    · rw [List.mem_singleton.mp new]
      refine ⟨asked input.owner rfl, ?_⟩
      rcases startOf_cases input.owner with start | start | start <;> rw [start] <;> trivial
  | advance index reply =>
    simp only [perform] at still ⊢
    split
    · exact reached.knows
    next request found =>
    have known := reached.knows request (List.mem_of_getElem? found)
    simp only [found] at still
    cases ending : reply.ending with
    | done =>
      simp only [ending] at still ⊢
      exact knows_set still (statement_keeps reached.held reply known).2 index
    | refused | lost =>
      simp only [ending] at still ⊢
      exact knows_set still (Knows.thrown known.1 request.stage _) index
  | crash index =>
    simp only [perform]
    split
    · exact reached.knows
    next request found =>
    have known : Knows previewed served.store { request with stage := .crashed } := ⟨(reached.knows request (List.mem_of_getElem? found)).1, trivial⟩
    exact knows_set reached.knows known index
  | conclude operation reason =>
    have same : (perform account served (.conclude operation reason)).sessions = served.sessions := by
      simp only [perform]
      split <;> rfl
    rw [same]
    exact still
  | observe lease outcome =>
    have same : (perform account served (.observe lease outcome)).sessions = served.sessions := by
      simp only [perform]
      split <;> rfl
    rw [same]
    exact still
  | wait elapsed => exact still
  | preview connection waited => exact still
  | claimReconciliation id => exact still
  | renew lease => exact still
  | deferRecovery id => exact still
  | requestReview id actor => exact still

private theorem noCheckouts_reached (account : PaddleAccount) (clock : Int) : Reached account previewed (noCheckouts clock) where
  knows := fun request member => by cases member
  held := by
    have sound : Sound (noCheckouts clock).store.ledger := (emptyLedger_kept (fun _ => 0) clock).valid
    refine ⟨sound, ?_, rfl, ?_, ?_, ?_, ?_, ?_, ?_, ?_, ?_⟩ <;> intro row member <;> cases member

theorem run_keeps (steps : List CheckoutStep) (reached : Reached account previewed served) (alive : Alive served.store)
    (kept : orderly account served steps = true)
    (asked : ∀ step ∈ steps, ∀ owner ∈ step.owner, owner.previewToken.isSome = previewed owner.idempotencyKey) :
    Reached account previewed (run account served steps) ∧ Alive (run account served steps).store := by
  induction steps generalizing served with
  | nil => exact ⟨reached, alive⟩
  | cons step rest ih =>
    obtain ⟨admitted, later⟩ := Bool.and_eq_true_iff.mp kept
    have keeps := perform_keeps reached step
    obtain ⟨first, others⟩ := List.forall_mem_cons.mp asked
    exact ih ⟨keeps.held, perform_knows reached first⟩ (keeps.alive admitted alive) later others

theorem Reached.safe (reached : Reached account previewed served) (alive : Alive served.store) : Safe account served where
  exclusive := reached.held.exclusive
  dispatches := fun step => (perform_keeps reached step).dispatches
  unsent := reached.held.unsent
  unblocked := fun request member _ _ => reached.held.unblocked alive (reached.knows request member).1

theorem Safe.pending (safe : Safe account served) (member : request ∈ served.sessions) {active : Bool}
    {waited id : Nat} (refused : served.store.reserve request.input active waited = .error (.checkoutPending id)) :
    ∀ row ∈ served.store.reservations, row.id = id → served.store.isStuck row = false := by
  have unblocked := safe.unblocked request member active waited
  rw [refused] at unblocked
  exact unblocked

/-- In a run that strands no reservation and shares no key between a direct checkout and a preview, the checkouts of an account stay
exclusive, none is dispatched or rejected against what is bound, and none blocks the account for good. -/
theorem checkouts_exclusive (account : PaddleAccount) (clock : Int) (steps : List CheckoutStep)
    (kept : orderly account (noCheckouts clock) steps = true) (apart : keysApart steps = true) :
    Safe account (run account (noCheckouts clock) steps) := by
  let previewed (key : Text) : Bool :=
    (steps.filterMap CheckoutStep.owner).any fun owner => owner.idempotencyKey == key && owner.previewToken.isSome
  have asked : ∀ step ∈ steps, ∀ owner ∈ step.owner, owner.previewToken.isSome = previewed owner.idempotencyKey := by
    intro step member owner owns
    have listed : owner ∈ steps.filterMap CheckoutStep.owner := List.mem_filterMap.mpr ⟨step, member, owns⟩
    rw [Bool.eq_iff_iff, List.any_eq_true]
    constructor
    · exact fun some => ⟨owner, listed, by rw [beq_self_eq_true, some]; rfl⟩
    · rintro ⟨other, inside, shares⟩
      obtain ⟨same, some⟩ := Bool.and_eq_true_iff.mp shares
      have free := List.all_eq_true.mp (List.all_eq_true.mp apart owner listed) other inside
      simpa [beq_iff_eq.mp same, some] using free
  obtain ⟨reached, alive⟩ := run_keeps steps (noCheckouts_reached account clock) (fun row member => by cases member) kept asked
  exact reached.safe alive

end Runs

section Examples

/-- An account whose hash is the last character of a text and zeros. -/
def payer : PaddleAccount where
  projectId := 0
  billingAccountId := ['p']
  sha256Hex text := text.drop (text.length - 1) ++ List.replicate 63 '0'
  stableJson _ := ['0']

def monthly (key : Char) : CheckoutInput where
  connection := ⟨['s'], 1, []⟩
  owner := .direct [key]
  email := some ['e']
  target := ['m']

/-- A statement that ends as it should, at a Paddle that makes the customer, or the checkout, it is asked for. -/
def made (customerId : Option Text) : Reply := ⟨.done, 0, customerId, false, false, .succeeded (.customer []) ['c']⟩

def preparedCheckout : List CheckoutStep := .ask (monthly 'a') :: List.replicate 12 (.advance 0 (made none))

/-- The request dies before it binds the checkout, and another asks six minutes later. -/
def abandonedCheckout : List CheckoutStep :=
  preparedCheckout ++ [.crash 0, .wait 360000, .ask (monthly 'b'), .advance 1 (made (some ['c']))]

/-- The request goes on, and so does its checkout after its fulfilment. -/
def fulfilledCheckout : List CheckoutStep :=
  preparedCheckout ++ List.replicate 5 (.advance 0 (made none)) ++ [.conclude 1 .fulfilled, .ask (monthly 'b'), .advance 1 (made (some ['c']))]

set_option maxRecDepth 2000 in
theorem checkouts_exclusive_fulfilled : Safe payer (run payer (noCheckouts 0) fulfilledCheckout) :=
  checkouts_exclusive payer 0 fulfilledCheckout (by decide) (by decide)

set_option maxRecDepth 2000 in
/-- The reservation stays open for a checkout that was given up, and refuses every other. -/
theorem abandoned_checkout_blocks : ¬ ∀ (account : PaddleAccount) (clock : Int) (steps : List CheckoutStep),
    Safe account (run account (noCheckouts clock) steps) := by
  intro safe
  have asks : ⟨monthly 'b', .searching⟩ ∈ (run payer (noCheckouts 0) abandonedCheckout).sessions := by
    decide
  have refused : (run payer (noCheckouts 0) abandonedCheckout).store.reserve (monthly 'b') false 0 = .error (.checkoutPending 0) := by
    decide
  have unblocked := (safe payer 0 abandonedCheckout).pending asks refused
  have stuck : ∃ row ∈ (run payer (noCheckouts 0) abandonedCheckout).store.reservations, row.id = 0 ∧
      (run payer (noCheckouts 0) abandonedCheckout).store.isStuck row = true := by
    decide
  obtain ⟨row, member, same, isStuck⟩ := stuck
  rw [unblocked row member same] at isStuck
  cases isStuck

end Examples

end Quotum.PaddleCheckouts
