import Quotum.Proofs.StripeSubscriptions

/-! Invoice and subscription events of one subscription. Two orders cross: the newest snapshot gives the lifecycle and the items,
and the newest invoice, where it is newer than that snapshot, moves the status. -/

namespace Quotum.StripeSubscriptions
open General Mutations SubscriptionChanges

structure Payment where
  order : Nat
  paid : Bool
  deriving DecidableEq

/-- What decides the stored subscription: the newest snapshot and the newest payment. -/
structure Standing where
  order : Nat
  lifecycle : LifecycleState
  items : List StripeItem
  payment : Option Payment

def settledStatus (order : Nat) (payment : Option Payment) (status : SubscriptionStatus) : SubscriptionStatus :=
  match payment with
  | none => status
  | some payment =>
    if order < payment.order ∧ invoiceAdjustable status = true then
      if payment.paid = true then .active else .billingRetry
    else status

def StripeCommand.payment (command : StripeCommand) : Option Payment :=
  command.invoice.map fun fact => ⟨command.providerEventCreated, decide (fact.status = paidStatus)⟩

def laterPayment (stored : Option Payment) (payment : Payment) : Option Payment :=
  if stored.all fun before => decide (before.order < payment.order) then some payment else stored

/-- The standing after one more event, of which only a newer one counts. -/
def Standing.merge (standing : Standing) (command : StripeCommand) : Standing :=
  match command.payment with
  | some payment => { standing with payment := laterPayment standing.payment payment }
  | none =>
    if standing.order < command.providerEventCreated then
      { standing with order := command.providerEventCreated, lifecycle := command.lifecycle, items := command.items }
    else standing

/-- The payment is that of the newest invoice fact. -/
def PaysLast (invoices : List BillingInvoice) : Option Payment → Prop
  | none => invoices = []
  | some payment =>
    (∃ invoice ∈ invoices, invoice.lastProviderEventCreated = payment.order) ∧
    ∀ invoice ∈ invoices, invoice.lastProviderEventCreated ≤ payment.order ∧
      (invoice.lastProviderEventCreated = payment.order → decide (invoice.status = paidStatus) = payment.paid)

private theorem latest_paysLast {invoices : List BillingInvoice} {payment : Option Payment} (last : PaysLast invoices payment) :
    (latestSubscriptionInvoice invoices).map (fun invoice => (⟨invoice.lastProviderEventCreated, decide (invoice.status = paidStatus)⟩ : Payment)) =
      payment := by
  cases payment with
  | none =>
    obtain rfl : invoices = [] := last
    rfl
  | some payment =>
    obtain ⟨⟨invoice, member, order⟩, every⟩ := last
    cases found : latestSubscriptionInvoice invoices with
    | none =>
      have absent := newest_none found invoice member
      cases absent
    | some best =>
      obtain ⟨inside, -⟩ := newest_stamped found
      have behind := newest_last found invoice member
      obtain ⟨below, same⟩ := every best inside
      have above : payment.order ≤ best.lastProviderEventCreated := by
        by_contra older
        have passes : overtakes (fun invoice : BillingInvoice => some (invoice.lastProviderEventCreated : Int)) BillingInvoice.id invoice best =
            true := by
          simp only [overtakes, decide_eq_true_eq]
          omega
        rw [passes] at behind
        cases behind
      have equal := le_antisymm below above
      rw [Option.map_some, same equal, equal]

section Facts
variable {command : StripeCommand} {fact : InvoiceFact} {invoices : List BillingInvoice}

private theorem upsert_member (names : command.invoice = some fact) {invoice : BillingInvoice}
    (member : invoice ∈ upsertSubscriptionInvoiceFact command invoices) :
    invoice ∈ invoices ∨ invoice.lastProviderEventCreated = command.providerEventCreated ∧ invoice.status = fact.status := by
  unfold upsertSubscriptionInvoiceFact at member
  rw [names] at member
  simp only at member
  split at member
  · obtain ⟨stored, inside, ⟨here, rfl⟩ | ⟨apart, rfl⟩⟩ := mem_updateAt.mp member
    · split
      · exact .inr ⟨rfl, rfl⟩
      · exact .inl inside
    · exact .inl inside
  · rcases List.mem_append.mp member with inside | added
    · exact .inl inside
    · rw [List.mem_singleton.mp added]
      exact .inr ⟨rfl, rfl⟩

private theorem upsert_keeps (names : command.invoice = some fact) {invoice : BillingInvoice} (member : invoice ∈ invoices)
    (newer : command.providerEventCreated < invoice.lastProviderEventCreated) :
    invoice ∈ upsertSubscriptionInvoiceFact command invoices := by
  unfold upsertSubscriptionInvoiceFact
  rw [names]
  simp only
  split
  · apply mem_updateAt.mpr
    refine ⟨invoice, member, ?_⟩
    by_cases here : invoice.externalInvoiceId = fact.externalInvoiceId
    · exact .inl ⟨here, (if_neg (not_le.mpr newer)).symm⟩
    · exact .inr ⟨here, rfl⟩
  · exact List.mem_append_left _ member

private theorem upsert_reached (names : command.invoice = some fact)
    (newer : ∀ invoice ∈ invoices, invoice.lastProviderEventCreated ≤ command.providerEventCreated) :
    ∃ invoice ∈ upsertSubscriptionInvoiceFact command invoices, invoice.lastProviderEventCreated = command.providerEventCreated := by
  unfold upsertSubscriptionInvoiceFact
  rw [names]
  simp only
  split
  · next present =>
    obtain ⟨invoice, member, here⟩ := List.any_eq_true.mp present
    refine ⟨_, mem_updateAt.mpr ⟨invoice, member, .inl ⟨beq_iff_eq.mp here, rfl⟩⟩, ?_⟩
    rw [if_pos (newer invoice member)]
  · exact ⟨_, List.mem_append_right _ (List.mem_singleton.mpr rfl), rfl⟩

private theorem upsert_paysLast {payment : Payment} (carries : command.payment = some payment) {stored : Option Payment}
    (last : PaysLast invoices stored)
    (apart : ∀ before ∈ stored, before.order ≠ payment.order) :
    PaysLast (upsertSubscriptionInvoiceFact command invoices) (laterPayment stored payment) := by
  obtain ⟨fact, names, rfl⟩ := Option.map_eq_some_iff.mp carries
  by_cases newer : ∀ before ∈ stored, before.order < command.providerEventCreated
  · have taken : laterPayment stored ⟨command.providerEventCreated, decide (fact.status = paidStatus)⟩ =
        some ⟨command.providerEventCreated, decide (fact.status = paidStatus)⟩ := by
      unfold laterPayment
      rw [if_pos]
      cases stored with
      | none => rfl
      | some before => exact decide_eq_true (newer before rfl)
    have below : ∀ invoice ∈ invoices, invoice.lastProviderEventCreated < command.providerEventCreated := by
      intro invoice member
      cases stored with
      | none =>
        obtain rfl : invoices = [] := last
        cases member
      | some before => exact (last.2 invoice member).1.trans_lt (newer before rfl)
    rw [taken]
    refine ⟨upsert_reached names fun invoice member => (below invoice member).le, ?_⟩
    intro invoice member
    rcases upsert_member names member with inside | ⟨order, status⟩
    · exact ⟨(below invoice inside).le, fun equal => absurd equal (below invoice inside).ne⟩
    · exact ⟨order.le, fun _ => by rw [status]⟩
  · obtain ⟨before, rfl, older⟩ : ∃ before, stored = some before ∧ ¬ before.order < command.providerEventCreated := by
      by_contra none
      exact newer fun before there => by_contra fun older => none ⟨before, there, older⟩
    have later : command.providerEventCreated < before.order := lt_of_le_of_ne (not_lt.mp older) (apart before rfl).symm
    have kept : laterPayment (some before) ⟨command.providerEventCreated, decide (fact.status = paidStatus)⟩ = some before := by
      unfold laterPayment
      rw [if_neg (by simpa using later.le)]
    rw [kept]
    obtain ⟨⟨invoice, member, order⟩, every⟩ := last
    refine ⟨⟨invoice, upsert_keeps names member (later.trans_eq order.symm), order⟩, ?_⟩
    intro other inside
    rcases upsert_member names inside with there | ⟨same, -⟩
    · exact every other there
    · rw [same]
      exact ⟨later.le, fun equal => absurd equal later.ne⟩

end Facts

/-! The status -/

private theorem pay_status {outcome : SubscriptionStatus} (outcomes : outcome = .active ∨ outcome = .billingRetry) (providerStatus : Text)
    (lifecycle : LifecycleState) :
    (lifecycle.pay outcome providerStatus).status = if invoiceAdjustable lifecycle.status = true then outcome else lifecycle.status := by
  unfold LifecycleState.pay
  rcases outcomes with rfl | rfl
  · cases status : lifecycle.status <;> simp [invoiceAdjustable, invoiceRecoverable, status]
  · cases status : lifecycle.status <;> simp [invoiceAdjustable, status]

variable {order : Nat}

private theorem paidLifecycle_status {invoices : List BillingInvoice} {payment : Option Payment}
    (last : PaysLast invoices payment) (lifecycle : LifecycleState) :
    (paidLifecycle order invoices lifecycle).status = settledStatus order payment lifecycle.status := by
  have latest := latest_paysLast last
  unfold paidLifecycle
  cases found : latestSubscriptionInvoice invoices with
  | none =>
    rw [found] at latest
    subst latest
    rfl
  | some invoice =>
    rw [found] at latest
    subst latest
    simp only [Option.map_some, settledStatus, decide_eq_true_eq]
    by_cases newer : order < invoice.lastProviderEventCreated
    · by_cases paid : invoice.status = paidStatus
      · simp only [newer, paid, if_true, true_and]
        exact pay_status (.inl rfl) _ _
      · simp only [newer, paid, if_true, if_false, true_and]
        exact pay_status (.inr rfl) _ _
    · simp only [newer, if_false, false_and]

/-- Two lifecycles that may differ in their status only. -/
def SameRest (first second : LifecycleState) : Prop :=
  first.autoRenew = second.autoRenew ∧ first.cancelAtPeriodEnd = second.cancelAtPeriodEnd ∧
    first.trialStart = second.trialStart ∧ first.trialEnd = second.trialEnd

private theorem pay_rest (outcome : SubscriptionStatus) (providerStatus : Text) (lifecycle : LifecycleState) :
    SameRest (lifecycle.pay outcome providerStatus) lifecycle := by
  unfold LifecycleState.pay
  split <;> exact ⟨rfl, rfl, rfl, rfl⟩

private theorem paidLifecycle_rest (order : Nat) (invoices : List BillingInvoice) (lifecycle : LifecycleState) :
    SameRest (paidLifecycle order invoices lifecycle) lifecycle := by
  unfold paidLifecycle
  split
  · exact ⟨rfl, rfl, rfl, rfl⟩
  · split
    · split <;> exact pay_rest _ _ _
    · exact ⟨rfl, rfl, rfl, rfl⟩

/-! The items -/

def Bound (target : StripeTarget) (items : List StripeItem) : Prop :=
  items ≠ [] ∧ target.configured = true ∧ ∀ item ∈ items, (target.component item.externalPriceId).isSome

def AgreeOn (components : List Nat) (rows others : List SubscriptionItem) : Prop :=
  ∀ row : SubscriptionItem, row.priceComponentId ∈ components → (row ∈ rows ↔ row ∈ others)

private theorem detach_component (providerSubscriptionItemId priceComponentId : Nat) (row : SubscriptionItem) :
    (row.detach providerSubscriptionItemId priceComponentId).priceComponentId = row.priceComponentId := by
  unfold SubscriptionItem.detach
  split <;> rfl

section Items
variable {target : StripeTarget} {items : List StripeItem} {components : List Nat} {rows others : List SubscriptionItem}

theorem AgreeOn.map (agree : AgreeOn components rows others)
    {edit : SubscriptionItem → SubscriptionItem} (kept : ∀ row, (edit row).priceComponentId = row.priceComponentId) :
    AgreeOn components (rows.map edit) (others.map edit) := by
  intro row member
  rw [List.mem_map, List.mem_map]
  constructor
  · rintro ⟨old, inside, rfl⟩
    rw [kept] at member
    exact ⟨old, (agree old member).mp inside, rfl⟩
  · rintro ⟨old, inside, rfl⟩
    rw [kept] at member
    exact ⟨old, (agree old member).mpr inside, rfl⟩

private theorem mem_upsertItem {priceComponentId : Nat} {item : StripeItem} {row : SubscriptionItem} :
    row ∈ upsertItem priceComponentId item rows ↔
      row = ⟨priceComponentId, some item.providerSubscriptionItemId, item.quantity, true⟩ ∨
      row.priceComponentId ≠ priceComponentId ∧ row ∈ rows := by
  unfold upsertItem
  simp only
  split
  · next present =>
    obtain ⟨first, inside, here⟩ := List.any_eq_true.mp present
    have same := beq_iff_eq.mp here
    rw [mem_updateAt]
    constructor
    · rintro ⟨old, member, ⟨-, rfl⟩ | ⟨apart, rfl⟩⟩
      · exact .inl rfl
      · exact .inr ⟨apart, member⟩
    · rintro (rfl | ⟨apart, member⟩)
      · exact ⟨first, inside, .inl ⟨same, rfl⟩⟩
      · exact ⟨row, member, .inr ⟨apart, rfl⟩⟩
  · next absent =>
    rw [List.mem_append, List.mem_singleton]
    constructor
    · rintro (member | rfl)
      · refine .inr ⟨?_, member⟩
        intro here
        exact absent (List.any_eq_true.mpr ⟨row, member, by simpa using here⟩)
      · exact .inl rfl
    · rintro (rfl | ⟨apart, member⟩)
      · exact .inr rfl
      · exact .inl member

theorem AgreeOn.upsert (agree : AgreeOn components rows others) (priceComponentId : Nat) (item : StripeItem) :
    AgreeOn (components ++ [priceComponentId]) (upsertItem priceComponentId item rows) (upsertItem priceComponentId item others) := by
  intro row member
  rw [mem_upsertItem, mem_upsertItem]
  rcases List.mem_append.mp member with inside | here
  · rw [agree row inside]
  · have same := List.mem_singleton.mp here
    simp [same]

private theorem syncItems_agree (bound : ∀ item ∈ items, (target.component item.externalPriceId).isSome) (agree : AgreeOn components rows others) :
    ∃ synced after other, items.foldl (fun state item => syncItem target state.1 state.2 item) (rows, components) = (after, synced) ∧
      items.foldl (fun state item => syncItem target state.1 state.2 item) (others, components) = (other, synced) ∧
      AgreeOn synced after other := by
  induction items generalizing rows others components with
  | nil => exact ⟨components, rows, others, rfl, rfl, agree⟩
  | cons item rest ih =>
    obtain ⟨priceComponentId, binds⟩ := Option.isSome_iff_exists.mp (bound item (by simp))
    have here (table : List SubscriptionItem) : syncItem target table components item =
        (upsertItem priceComponentId item (table.map (SubscriptionItem.detach item.providerSubscriptionItemId priceComponentId)),
          components ++ [priceComponentId]) := by
      unfold syncItem
      rw [binds]
    rw [List.foldl_cons, List.foldl_cons, here, here]
    exact ih (fun other inside => bound other (by simp [inside]))
      ((agree.map (detach_component _ _)).upsert priceComponentId item)

/-- Bound items leave the active items that they name, whatever the table had. -/
private theorem sync_active (bound : Bound target items) (rows others : List SubscriptionItem) (row : SubscriptionItem)
    (active : row.active = true) :
    row ∈ syncSubscriptionPriceItems target items rows ↔ row ∈ syncSubscriptionPriceItems target items others := by
  obtain ⟨named, configured, binds⟩ := bound
  have starts : AgreeOn [] rows others := by
    intro row member
    cases member
  obtain ⟨synced, after, other, first, second, agree⟩ := syncItems_agree binds starts
  have full : (items.isEmpty || !target.configured) = false := by simp [named, configured]
  have members (table ended : List SubscriptionItem)
      (folds : items.foldl (fun state item => syncItem target state.1 state.2 item) (table, []) = (ended, synced)) :
      row ∈ syncSubscriptionPriceItems target items table ↔ row ∈ ended ∧ row.priceComponentId ∈ synced := by
    unfold syncSubscriptionPriceItems
    rw [full, folds]
    simp only [Bool.false_eq_true, if_false, List.mem_map]
    constructor
    · rintro ⟨old, inside, rfl⟩
      by_cases dropped : (old.active && !synced.contains old.priceComponentId) = true
      · rw [if_pos dropped] at active
        cases active
      · rw [if_neg dropped] at active ⊢
        refine ⟨inside, ?_⟩
        simpa [active] using dropped
    · rintro ⟨inside, listed⟩
      exact ⟨row, inside, by simp [listed]⟩
  rw [members rows after first, members others other second]
  constructor
  · rintro ⟨inside, listed⟩
    exact ⟨(agree row listed).mp inside, listed⟩
  · rintro ⟨inside, listed⟩
    exact ⟨(agree row listed).mpr inside, listed⟩

end Items

/-! The standing of a run -/

/-- Invoice and subscription events of one subscription: the second of its creation names an event. -/
structure StripeEvents (commands : List StripeCommand) : Prop where
  kinds : ∀ command ∈ commands, command.invoice = none ∨ ∃ invoice, command = normalizeStripeInvoice invoice
  seconds : ∀ command ∈ commands, ∀ other ∈ commands, command.providerEventCreated = other.providerEventCreated → command = other
  ids : ∀ command ∈ commands, ∀ other ∈ commands, command.eventId = other.eventId → command = other

structure Tracks (target : StripeTarget) (standing : Standing) (subscription : StripeSubscription) : Prop where
  identified : subscription.Identified target
  order : subscription.row.lastProviderEventCreated = standing.order
  rest : SameRest subscription.lifecycle standing.lifecycle
  status : subscription.row.status = settledStatus standing.order standing.payment standing.lifecycle.status
  payment : PaysLast subscription.invoices standing.payment
  items : Bound target standing.items → ∀ row : SubscriptionItem, row.active = true →
    (row ∈ subscription.items ↔ row ∈ syncSubscriptionPriceItems target standing.items [])

def Standing.Covers (standing : Standing) (command : StripeCommand) : Prop :=
  match command.payment with
  | some payment => ∃ before, standing.payment = some before ∧ payment.order ≤ before.order
  | none => command.providerEventCreated ≤ standing.order

section Merge
variable {standing : Standing} {command other : StripeCommand} {payment : Payment}

private theorem merge_payment (carries : command.payment = some payment) :
    standing.merge command = { standing with payment := laterPayment standing.payment payment } := by
  unfold Standing.merge
  rw [carries]

private theorem merge_snapshot (snapshot : command.payment = none) (newer : standing.order < command.providerEventCreated) :
    standing.merge command =
      { standing with order := command.providerEventCreated, lifecycle := command.lifecycle, items := command.items } := by
  unfold Standing.merge
  rw [snapshot]
  exact if_pos newer

private theorem merge_older (snapshot : command.payment = none) (older : command.providerEventCreated ≤ standing.order) :
    standing.merge command = standing := by
  unfold Standing.merge
  rw [snapshot]
  exact if_neg (not_lt.mpr older)

private theorem laterPayment_ge (stored : Option Payment) (payment : Payment) :
    ∃ before, laterPayment stored payment = some before ∧ payment.order ≤ before.order ∧
      ∀ earlier ∈ stored, earlier.order ≤ before.order := by
  unfold laterPayment
  split
  · next newer =>
    refine ⟨payment, rfl, le_refl _, ?_⟩
    rintro earlier ⟨⟩
    exact (of_decide_eq_true newer).le
  · next older =>
    cases stored with
    | none => exact absurd rfl older
    | some before =>
      refine ⟨before, rfl, by simpa using older, ?_⟩
      rintro earlier ⟨⟩
      exact le_refl _

theorem Standing.Covers.same (covers : standing.Covers command) : standing.merge command = standing := by
  unfold Standing.Covers at covers
  cases carries : command.payment with
  | none =>
    rw [carries] at covers
    exact merge_older carries covers
  | some payment =>
    rw [carries] at covers
    obtain ⟨before, stored, older⟩ := covers
    have kept : laterPayment standing.payment payment = standing.payment := by
      unfold laterPayment
      rw [stored]
      exact if_neg (by simpa using older)
    rw [merge_payment carries, kept]

private theorem merge_covers (standing : Standing) (command : StripeCommand) : (standing.merge command).Covers command := by
  unfold Standing.Covers
  cases carries : command.payment with
  | none =>
    simp only
    by_cases newer : standing.order < command.providerEventCreated
    · rw [merge_snapshot carries newer]
    · rw [merge_older carries (not_lt.mp newer)]
      exact not_lt.mp newer
  | some payment =>
    obtain ⟨before, taken, above, -⟩ := laterPayment_ge standing.payment payment
    rw [merge_payment carries]
    exact ⟨before, taken, above⟩

private theorem merge_order (standing : Standing) (command : StripeCommand) : standing.order ≤ (standing.merge command).order := by
  cases carries : command.payment with
  | none =>
    by_cases newer : standing.order < command.providerEventCreated
    · rw [merge_snapshot carries newer]
      exact newer.le
    · rw [merge_older carries (not_lt.mp newer)]
  | some payment => rw [merge_payment carries]

theorem Standing.Covers.merge (covers : standing.Covers other) (command : StripeCommand) : (standing.merge command).Covers other := by
  unfold Standing.Covers at covers ⊢
  cases carried : other.payment with
  | none =>
    rw [carried] at covers
    exact covers.trans (merge_order standing command)
  | some earlier =>
    rw [carried] at covers
    obtain ⟨before, stored, older⟩ := covers
    cases carries : command.payment with
    | none =>
      refine ⟨before, ?_, older⟩
      by_cases newer : standing.order < command.providerEventCreated
      · rw [merge_snapshot carries newer]
        exact stored
      · rw [merge_older carries (not_lt.mp newer)]
        exact stored
    | some payment =>
      obtain ⟨later, taken, -, above⟩ := laterPayment_ge standing.payment payment
      rw [merge_payment carries]
      exact ⟨later, taken, older.trans (above before stored)⟩

end Merge

/-- The state after some of the events: what is processed is covered, and what is not is of another second. -/
structure Follows (target : StripeTarget) (first : StripeCommand) (commands : List StripeCommand) (standing : Standing)
    (state : StripeState) : Prop where
  tracks : ∃ subscription, state.subscription = some subscription ∧ Tracks target standing subscription
  covered : ∀ command ∈ commands, command.eventId ∈ state.processed → standing.Covers command
  source : ∃ command ∈ commands, (command.payment = none ∨ command = first) ∧ standing.order = command.providerEventCreated ∧
    standing.lifecycle = command.lifecycle ∧ standing.items = command.items ∧ command.eventId ∈ state.processed
  payment : ∀ payment ∈ standing.payment, ∃ command ∈ commands, command.payment = some payment ∧ command.eventId ∈ state.processed

private theorem payment_order {command : StripeCommand} {payment : Payment} (carries : command.payment = some payment) :
    payment.order = command.providerEventCreated := by
  obtain ⟨fact, -, rfl⟩ := Option.map_eq_some_iff.mp carries
  rfl

private theorem payment_none {command : StripeCommand} : command.payment = none ↔ command.invoice = none :=
  Option.map_eq_none_iff

section Follows
variable {target : StripeTarget} {commands : List StripeCommand} {standing : Standing} {state : StripeState} {first command : StripeCommand}
  {subscription : StripeSubscription}

private theorem pay_settled {payment : Payment} {stored : Option Payment} {status outcome : SubscriptionStatus}
    (outcomes : outcome = if payment.paid = true then .active else .billingRetry) (newer : order < payment.order) :
    (if invoiceAdjustable (settledStatus order stored status) = true then outcome else settledStatus order stored status) =
      settledStatus order (some payment) status := by
  have moved : ∀ paid : Bool, invoiceAdjustable (if paid = true then SubscriptionStatus.active else .billingRetry) = true := by decide
  have same : invoiceAdjustable (settledStatus order stored status) = invoiceAdjustable status := by
    unfold settledStatus
    cases stored with
    | none => rfl
    | some before =>
      simp only
      split
      · next there => rw [moved, there.2]
      · rfl
  rw [same, outcomes]
  by_cases adjustable : invoiceAdjustable status = true
  · simp [settledStatus, adjustable, newer]
  · unfold settledStatus
    cases stored <;> simp [adjustable]

private theorem settledStatus_older {payment : Option Payment} (older : ∀ before ∈ payment, before.order ≤ order)
    (status : SubscriptionStatus) : settledStatus order payment status = status := by
  unfold settledStatus
  cases payment with
  | none => rfl
  | some before => exact if_neg fun newer => absurd newer.1 (not_lt.mpr (older before rfl))

theorem Tracks.invoice {invoice : StripeInvoice} (tracks : Tracks target standing subscription)
    (apart : invoice.eventCreated ≠ standing.order ∧ ∀ before ∈ standing.payment, before.order ≠ invoice.eventCreated) :
    Tracks target (standing.merge (normalizeStripeInvoice invoice))
      (recordExistingSubscriptionInvoice (normalizeStripeInvoice invoice) subscription) := by
  have carries : (normalizeStripeInvoice invoice).payment = some ⟨invoice.eventCreated, decide (invoice.status = paidStatus)⟩ := rfl
  have outcome : (normalizeStripeInvoice invoice).subscriptionStatus =
      if decide (invoice.status = paidStatus) = true then SubscriptionStatus.active else .billingRetry := by
    simp only [decide_eq_true_eq]
    rfl
  have outcomes : (normalizeStripeInvoice invoice).subscriptionStatus = .active ∨
      (normalizeStripeInvoice invoice).subscriptionStatus = .billingRetry := by
    rw [outcome]
    split
    · exact .inl rfl
    · exact .inr rfl
  have pays := upsert_paysLast carries tracks.payment apart.2
  have latest := latest_paysLast tracks.payment
  have previous : ((latestSubscriptionInvoice subscription.invoices).map BillingInvoice.lastProviderEventCreated).getD 0 =
      (standing.payment.map Payment.order).getD 0 := by
    rw [← latest]
    cases latestSubscriptionInvoice subscription.invoices <;> rfl
  rw [merge_payment carries]
  unfold recordExistingSubscriptionInvoice
  simp only
  by_cases current : max subscription.row.lastProviderEventCreated
      (((latestSubscriptionInvoice subscription.invoices).map BillingInvoice.lastProviderEventCreated).getD 0) ≤
        (normalizeStripeInvoice invoice).providerEventCreated
  · rw [if_pos current]
    obtain ⟨after, above⟩ := max_le_iff.mp current
    have newer : standing.order < invoice.eventCreated := lt_of_le_of_ne (tracks.order ▸ after) apart.1.symm
    have taken : laterPayment standing.payment ⟨invoice.eventCreated, decide (invoice.status = paidStatus)⟩ =
        some ⟨invoice.eventCreated, decide (invoice.status = paidStatus)⟩ := by
      rw [previous] at above
      unfold laterPayment
      rw [if_pos]
      cases stored : standing.payment with
      | none => rfl
      | some before =>
        rw [stored] at above
        exact decide_eq_true (lt_of_le_of_ne above (apart.2 before stored))
    have lifecycle : stripeSubscriptionLifecycleState (normalizeStripeInvoice invoice) (some subscription.lifecycle) =
        subscription.lifecycle.pay (normalizeStripeInvoice invoice).subscriptionStatus (normalizeStripeInvoice invoice).providerStatus :=
      rfl
    refine ⟨tracks.identified, tracks.order, tracks.rest, ?_, pays, tracks.items⟩
    have moved := pay_status outcomes (normalizeStripeInvoice invoice).providerStatus subscription.lifecycle
    have status : subscription.lifecycle.status = settledStatus standing.order standing.payment standing.lifecycle.status := tracks.status
    rw [status] at moved
    simp only [lifecycle, taken]
    rw [moved]
    exact pay_settled outcome newer
  · rw [if_neg current]
    refine ⟨tracks.identified, tracks.order, tracks.rest, ?_, pays, tracks.items⟩
    rw [tracks.status]
    simp only [laterPayment]
    split
    · next newer =>
      have below : ∀ before ∈ standing.payment, before.order < invoice.eventCreated := by
        intro before stored
        rw [stored] at newer
        exact of_decide_eq_true newer
      have older : invoice.eventCreated < standing.order := by
        rw [previous, tracks.order] at current
        rcases lt_max_iff.mp (not_le.mp current) with older | older
        · exact older
        · cases stored : standing.payment with
          | none =>
            rw [stored] at older
            exact absurd older (Nat.not_lt_zero _)
          | some before =>
            rw [stored] at older
            exact absurd older (below before stored).asymm
      rw [settledStatus_older fun before stored => ((below before stored).trans older).le, settledStatus_older]
      rintro before ⟨⟩
      exact older.le
    · rfl

theorem Tracks.snapshot {recorded : StripeSubscription} (tracks : Tracks target standing subscription)
    (snapshot : command.payment = none) (newer : standing.order < command.providerEventCreated)
    (write : Written target command (some subscription) recorded) : Tracks target (standing.merge command) recorded := by
  rw [merge_snapshot snapshot newer]
  have invoices : recorded.invoices = subscription.invoices := write.invoices
  refine ⟨write.identified, write.order, ?_, ?_, ?_, ?_⟩
  · rw [write.lifecycle]
    exact paidLifecycle_rest _ _ _
  · have status : recorded.row.status = recorded.lifecycle.status := rfl
    rw [status, write.lifecycle]
    exact paidLifecycle_status tracks.payment command.lifecycle
  · rw [invoices]
    exact tracks.payment
  · intro bound row active
    rw [write.items]
    exact sync_active bound _ _ row active

/-- The first event that an unrecorded subscription is recorded by. -/
theorem Tracks.begun (command : StripeCommand) : ∃ recorded, recordSubscription target command none = .ok recorded ∧
    Tracks target ⟨command.providerEventCreated, command.lifecycle, command.items, command.payment⟩ recorded := by
  refine ⟨_, rfl, ⟨rfl, rfl⟩, rfl, ⟨rfl, rfl, rfl, rfl⟩, ?_, ?_, fun _ _ _ => Iff.rfl⟩
  · symm
    apply settledStatus_older
    exact fun before carries => (payment_order carries).le
  · cases carries : command.payment with
    | none =>
      simp only [upsertSubscriptionInvoiceFact, payment_none.mp carries]
      rfl
    | some payment => exact @upsert_paysLast _ [] _ carries none rfl (by simp)

variable (follows : Follows target first commands standing state) (events : StripeEvents commands)
include follows events

theorem Follows.apart (member : command ∈ commands) (fresh : command.eventId ∉ state.processed) :
    command.providerEventCreated ≠ standing.order ∧ ∀ before ∈ standing.payment, before.order ≠ command.providerEventCreated := by
  obtain ⟨newest, inside, -, order, -, -, done⟩ := follows.source
  constructor
  · intro same
    rw [events.seconds command member newest inside (same.trans order)] at fresh
    exact fresh done
  · intro before stored same
    obtain ⟨payer, there, carries, paid⟩ := follows.payment before stored
    rw [events.seconds command member payer there (same.symm.trans (payment_order carries))] at fresh
    exact fresh paid

theorem Follows.next (member : command ∈ commands) (tracks : Tracks target (standing.merge command) subscription) :
    Follows target first commands (standing.merge command) ⟨some subscription, command.eventId :: state.processed⟩ where
  tracks := ⟨subscription, rfl, tracks⟩
  covered := by
    intro other inside done
    rcases List.mem_cons.mp done with same | earlier
    · rw [events.ids other inside command member same]
      exact merge_covers standing command
    · exact (follows.covered other inside earlier).merge command
  source := by
    obtain ⟨newest, inside, snapshot, order, lifecycle, items, done⟩ := follows.source
    have kept : newest.eventId ∈ command.eventId :: state.processed := by simp [done]
    cases carries : command.payment with
    | none =>
      by_cases newer : standing.order < command.providerEventCreated
      · rw [merge_snapshot carries newer]
        exact ⟨command, member, .inl carries, rfl, rfl, rfl, by simp⟩
      · rw [merge_older carries (not_lt.mp newer)]
        exact ⟨newest, inside, snapshot, order, lifecycle, items, kept⟩
    | some payment =>
      rw [merge_payment carries]
      exact ⟨newest, inside, snapshot, order, lifecycle, items, kept⟩
  payment := by
    intro payment stored
    have before (there : payment ∈ standing.payment) :
        ∃ payer ∈ commands, payer.payment = some payment ∧ payer.eventId ∈ command.eventId :: state.processed := by
      obtain ⟨payer, inside, carries, done⟩ := follows.payment payment there
      exact ⟨payer, inside, carries, by simp [done]⟩
    cases carries : command.payment with
    | none =>
      by_cases newer : standing.order < command.providerEventCreated
      · rw [merge_snapshot carries newer] at stored
        exact before stored
      · rw [merge_older carries (not_lt.mp newer)] at stored
        exact before stored
    | some new =>
      rw [merge_payment carries] at stored
      simp only [laterPayment] at stored
      split at stored
      · cases stored
        exact ⟨command, member, carries, by simp⟩
      · exact before stored

theorem Follows.step (member : command ∈ commands) :
    ∃ next, applyStripeSubscription target command state = .ok next ∧
      Follows target first commands (standing.merge command) next ∧ command.eventId ∈ next.processed ∧
      ∀ id ∈ state.processed, id ∈ next.processed := by
  obtain ⟨subscription, stored, tracks⟩ := follows.tracks
  by_cases done : command.eventId ∈ state.processed
  · refine ⟨state, ?_, ?_, done, fun _ inside => inside⟩
    · unfold applyStripeSubscription
      rw [stored]
      exact if_pos done
    · rw [(follows.covered command member done).same]
      exact follows
  · have apart := follows.apart events member done
    rcases events.kinds command member with snapshot | ⟨invoice, rfl⟩
    · have identified : ∀ other ∈ state.subscription, other.Identified target := by
        intro other same
        rw [stored] at same
        cases same
        exact tracks.identified
      obtain ⟨next, applied, step⟩ := apply_snapshot snapshot identified
      refine ⟨next, applied, ?_⟩
      cases step with
      | repeated again => exact absurd again done
      | skipped unrecorded failing =>
        rw [stored] at unrecorded
        cases unrecorded
      | stale found older =>
        rw [stored] at found
        cases found
        have order : command.providerEventCreated ≤ standing.order := tracks.order ▸ stale_order older
        have same := merge_older (payment_none.mpr snapshot) order
        refine ⟨follows.next events member ?_, by simp, fun _ inside => List.mem_cons_of_mem _ inside⟩
        rw [same]
        exact tracks
      | written fresh current write =>
        rw [stored] at write
        have order : standing.order ≤ command.providerEventCreated := tracks.order ▸ fresh_order (current subscription stored)
        have newer := lt_of_le_of_ne order apart.1.symm
        exact ⟨follows.next events member (tracks.snapshot (payment_none.mpr snapshot) newer write), by simp,
          fun _ inside => List.mem_cons_of_mem _ inside⟩
    · refine ⟨⟨some (recordExistingSubscriptionInvoice (normalizeStripeInvoice invoice) subscription),
        (normalizeStripeInvoice invoice).eventId :: state.processed⟩, ?_,
        follows.next events member (tracks.invoice apart), by simp, fun _ inside => List.mem_cons_of_mem _ inside⟩
      have account := tracks.identified.1
      have carries : (normalizeStripeInvoice invoice).invoice.isSome = true := rfl
      unfold applyStripeSubscription
      rw [stored]
      simp only [done, if_false, carries, if_true, account, ne_eq, not_true_eq_false]

theorem Follows.run {part : List StripeCommand} (inside : ∀ command ∈ part, command ∈ commands) :
    ∃ final reached, deliver target part state = .ok final ∧ Follows target first commands reached final ∧
      (∀ command ∈ part, command.eventId ∈ final.processed) ∧ ∀ id ∈ state.processed, id ∈ final.processed := by
  induction part generalizing standing state with
  | nil => exact ⟨state, standing, rfl, follows, by simp, fun _ there => there⟩
  | cons command rest ih =>
    obtain ⟨next, applied, stepped, done, kept⟩ := follows.step events (inside command (by simp))
    obtain ⟨final, reached, delivered, last, processed, grows⟩ := ih stepped fun other there => inside other (by simp [there])
    refine ⟨final, reached, (deliver_cons applied).trans delivered, last, ?_, fun id there => grows id (kept id there)⟩
    intro other there
    rcases List.mem_cons.mp there with rfl | later
    · exact grows _ done
    · exact processed other later

end Follows

/-- Failed payments of a subscription that is not recorded are skipped. -/
private theorem skipped_run {target : StripeTarget} {early rest : List StripeCommand}
    (skipped : ∀ command ∈ early, command.subscriptionStatus = .billingRetry) {processed : List Nat} : deliver target (early ++ rest) ⟨none, processed⟩ = deliver target rest ⟨none, processed⟩ := by
  induction early with
  | nil => rfl
  | cons command others ih =>
    have here : applyStripeSubscription target command ⟨none, processed⟩ = .ok ⟨none, processed⟩ :=
      if_pos (.inl (skipped command (by simp)))
    rw [List.cons_append, deliver_cons here]
    exact ih fun other inside => skipped other (by simp [inside])

/-- The first event that is not a failed payment records the subscription. -/
private theorem first_follows {target : StripeTarget} {commands : List StripeCommand} {first : StripeCommand} (member : first ∈ commands)
    (events : StripeEvents commands) (live : first.subscriptionStatus ≠ .billingRetry) :
    ∃ next, applyStripeSubscription target first unrecorded = .ok next ∧
      Follows target first commands ⟨first.providerEventCreated, first.lifecycle, first.items, first.payment⟩ next ∧
        first.eventId ∈ next.processed := by
  obtain ⟨recorded, succeeded, tracks⟩ := @Tracks.begun target first
  refine ⟨⟨some recorded, [first.eventId]⟩, ?_, ⟨⟨recorded, rfl, tracks⟩, ?_, ⟨first, member, .inr rfl, rfl, rfl, rfl, by simp⟩, ?_⟩,
    by simp⟩
  · simp [applyStripeSubscription, unrecorded, live, succeeded, pure, Except.pure]
  · intro other inside done
    rw [events.ids other inside first member (List.mem_singleton.mp done)]
    unfold Standing.Covers
    cases carries : first.payment with
    | none => exact le_rfl
    | some payment => exact ⟨payment, rfl, le_rfl⟩
  · exact fun payment carries => ⟨first, member, carries, by simp⟩

/-- Where a subscription event, or a payment older than the newest of them, records the subscription, the events delivered from
then on leave, in any order and any number of times, the flags and the trial of the newest subscription event, the status it gives
as the newest later invoice moves it, and the active items it names if the plan version binds them all. -/
theorem payments_and_snapshots_converge {target : StripeTarget} {early rest : List StripeCommand} {first newest : StripeCommand}
    (skipped : ∀ command ∈ early, command.subscriptionStatus = .billingRetry)
    (records : first.subscriptionStatus ≠ .billingRetry ∧ first.providerEventCreated ≤ newest.providerEventCreated)
    (events : StripeEvents (first :: rest)) (member : newest ∈ first :: rest) (snapshot : newest.invoice = none)
    (latest : ∀ command ∈ first :: rest, command.invoice = none → command.providerEventCreated ≤ newest.providerEventCreated) :
    ∃ final ended, deliver target (early ++ first :: rest) unrecorded = .ok final ∧ final.subscription = some ended ∧
      ended.row.autoRenew = newest.autoRenew ∧ ended.row.cancelAtPeriodEnd = newest.cancelAtPeriodEnd ∧
      ended.trialStart = newest.trialStart ∧ ended.trialEnd = newest.trialEnd ∧
      ((∀ command ∈ first :: rest, ∀ payment ∈ command.payment, payment.order < newest.providerEventCreated) →
        ended.row.status = newest.subscriptionStatus) ∧
      (∀ payer ∈ first :: rest, ∀ payment ∈ payer.payment, newest.providerEventCreated < payment.order →
        (∀ command ∈ first :: rest, ∀ other ∈ command.payment, other.order ≤ payment.order) →
        ended.row.status =
          if invoiceAdjustable newest.subscriptionStatus = true then if payment.paid = true then .active else .billingRetry
          else newest.subscriptionStatus) ∧
      (Bound target newest.items → ∀ row : SubscriptionItem, row.active = true →
        (row ∈ ended.items ↔ row ∈ syncSubscriptionPriceItems target newest.items [])) := by
  obtain ⟨next, applied, follows, recorded⟩ := @first_follows target (first :: rest) first (by simp) events records.1
  obtain ⟨final, standing, delivered, last, processed, grows⟩ := follows.run events fun _ inside => List.mem_cons_of_mem first inside
  obtain ⟨ended, stored, tracks⟩ := last.tracks
  have covers : ∀ command ∈ first :: rest, standing.Covers command := by
    intro command inside
    apply last.covered command inside
    rcases List.mem_cons.mp inside with rfl | later
    · exact grows _ recorded
    · exact processed command later
  obtain ⟨source, inside, plain, order, lifecycle, items, -⟩ := last.source
  have newestCovered := covers newest member
  unfold Standing.Covers at newestCovered
  rw [payment_none.mpr snapshot] at newestCovered
  have behind : source.providerEventCreated ≤ newest.providerEventCreated := by
    rcases plain with plain | rfl
    · exact latest source inside (payment_none.mp plain)
    · exact records.2
  have same : source = newest := events.seconds source inside newest member (le_antisymm behind (order ▸ newestCovered))
  subst same
  have rest_ := tracks.rest
  rw [lifecycle] at rest_
  refine ⟨final, ended, ?_, stored, rest_.1, rest_.2.1, rest_.2.2.1, rest_.2.2.2, ?_, ?_, ?_⟩
  · have skips := @skipped_run target early (first :: rest) skipped []
    exact skips.trans ((deliver_cons applied).trans delivered)
  · intro older
    rw [tracks.status, lifecycle, order]
    apply settledStatus_older
    intro before there
    obtain ⟨payer, among, carries, -⟩ := last.payment before there
    exact (older payer among before carries).le
  · intro payer among payment carries newer greatest_
    have covered := covers payer among
    unfold Standing.Covers at covered
    rw [Option.mem_def.mp carries] at covered
    obtain ⟨before, there, above⟩ := covered
    obtain ⟨other, others, carried, -⟩ := last.payment before there
    have equal : before.order = payment.order := le_antisymm (greatest_ other others before carried) above
    have one : other = payer := events.seconds other others payer among
      ((payment_order carried).symm.trans (equal.trans (payment_order carries)))
    subst one
    rw [Option.mem_def.mp carries] at carried
    cases carried
    rw [tracks.status, there, lifecycle, order]
    unfold settledStatus
    simp only [newer, true_and]
    rfl
  · intro bound row active
    rw [← items] at bound ⊢
    exact tracks.items bound row active

def invoiceEvent (eventId : Nat) (status : String) : StripeCommand :=
  normalizeStripeInvoice ⟨eventId, eventId, "in_1".toList, status.toList, 0, some 0, some 60⟩

private theorem invoiceEvent_normal (eventId : Nat) (status : String) : ∃ invoice, invoiceEvent eventId status = normalizeStripeInvoice invoice :=
  ⟨_, rfl⟩

/-- A failed payment that arrives first, is skipped, and is delivered again after the subscription is recorded. -/
theorem payments_and_snapshots_converge_again :
    ∃ final ended,
      deliver soleTarget [invoiceEvent 3 "open", snapshotEvent 2 .active (some (0, 60)), invoiceEvent 3 "open",
        snapshotEvent 1 .trialing (some (0, 60))] unrecorded = .ok final ∧
      final.subscription = some ended ∧ ended.row.status = .billingRetry := by
  have events : StripeEvents [snapshotEvent 2 .active (some (0, 60)), invoiceEvent 3 "open", snapshotEvent 1 .trialing (some (0, 60))] := by
    refine ⟨?_, by decide, by decide⟩
    intro command member
    rcases List.mem_cons.mp member with rfl | member
    · exact .inl rfl
    · rcases List.mem_cons.mp member with rfl | member
      · exact .inr (invoiceEvent_normal 3 "open")
      · rw [List.mem_singleton.mp member]
        exact .inl rfl
  obtain ⟨final, ended, delivered, stored, -, -, -, -, -, paid, -⟩ :=
    @payments_and_snapshots_converge soleTarget [invoiceEvent 3 "open"] [invoiceEvent 3 "open", snapshotEvent 1 .trialing (some (0, 60))]
      (snapshotEvent 2 .active (some (0, 60))) (snapshotEvent 2 .active (some (0, 60))) (by decide) (by decide) events (by decide) rfl
      (by decide)
  have moved := paid (invoiceEvent 3 "open") (by decide) ⟨3, false⟩ (by decide) (by decide) (by decide)
  exact ⟨final, ended, delivered, stored, moved⟩

/-- The components of the active items that deliveries leave, where the plan version binds one price only. -/
def deliveredComponents (commands : List StripeCommand) : List Nat :=
  match deliver { soleTarget with component := fun price => if price = 1 then some 1 else none } commands unrecorded with
  | .ok final => (final.subscription.map fun ended => (ended.items.filter SubscriptionItem.active).map SubscriptionItem.priceComponentId).getD []
  | .error _ => []

def itemEvent (eventId externalPriceId : Nat) : StripeCommand :=
  normalizeStripeSubscription 5 { stripeSnapshot eventId .active (some (0, 60)) with items := [⟨1, externalPriceId, 1, none, none⟩] }

def cancellingEvent (eventId : Nat) : StripeCommand :=
  normalizeStripeSubscription 5 { stripeSnapshot eventId .active (some (0, 60)) with cancelAtPeriodEnd := true }

/-- A paid invoice that records the subscription hides the older snapshot, a failed one is skipped, and an item whose price is
not bound keeps the component it was tracked under. -/
theorem first_event_shows :
    (deliveredRow [invoiceEvent 2 "paid", cancellingEvent 1]).map SubscriptionRow.cancelAtPeriodEnd ≠
        (deliveredRow [cancellingEvent 1, invoiceEvent 2 "paid"]).map SubscriptionRow.cancelAtPeriodEnd ∧
      (deliveredRow [invoiceEvent 2 "open", cancellingEvent 1]).map SubscriptionRow.status ≠
        (deliveredRow [cancellingEvent 1, invoiceEvent 2 "open"]).map SubscriptionRow.status ∧
      deliveredComponents [itemEvent 2 9, itemEvent 1 1] ≠ deliveredComponents [itemEvent 1 1, itemEvent 2 9] := by
  decide

end Quotum.StripeSubscriptions
