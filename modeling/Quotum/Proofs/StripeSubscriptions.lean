import Quotum.StripeSubscriptions

/-! The events of a Stripe subscription, delivered in any order and any number of times. The newest subscription event decides
the lifecycle, adjusted by the invoices newer than it. -/

namespace Quotum.StripeSubscriptions
open General Mutations SubscriptionChanges

def StripeSubscription.Identified (target : StripeTarget) (subscription : StripeSubscription) : Prop :=
  subscription.row.customerId = target.customerId ∧ subscription.row.channel = .web

def storedInvoices (existing : Option StripeSubscription) : List BillingInvoice :=
  (existing.map StripeSubscription.invoices).getD []

def paidLifecycle (order : Nat) (invoices : List BillingInvoice) (lifecycle : LifecycleState) : LifecycleState :=
  match latestSubscriptionInvoice invoices with
  | none => lifecycle
  | some payment =>
    if order < payment.lastProviderEventCreated then
      if payment.status = paidStatus then lifecycle.pay .active "active".toList
      else lifecycle.pay .billingRetry "past_due".toList
    else lifecycle

theorem adjustedLifecycle_snapshot {command : StripeCommand} (snapshot : command.invoice = none) (existing : Option StripeSubscription) :
    adjustedLifecycle command existing = paidLifecycle command.providerEventCreated (storedInvoices existing) command.lifecycle := by
  cases existing with
  | none => rfl
  | some subscription =>
    unfold adjustedLifecycle stripeSubscriptionLifecycleState
    simp only [snapshot, Option.isNone_none, if_true, Option.map_some]
    rfl

theorem pay_ended (outcome : SubscriptionStatus) (live : isEndedSubscriptionStatus outcome = false) (providerStatus : Text)
    (lifecycle : LifecycleState) :
    isEndedSubscriptionStatus (lifecycle.pay outcome providerStatus).status = isEndedSubscriptionStatus lifecycle.status := by
  unfold LifecycleState.pay
  split
  · next moves =>
    have adjustable := (Bool.and_eq_true_iff.mp moves).1
    have before : isEndedSubscriptionStatus lifecycle.status = false := by
      revert adjustable
      cases lifecycle.status <;> decide
    rw [before]
    exact live
  · rfl

/-- A payment never ends a subscription and never revives one. -/
theorem paidLifecycle_ended (order : Nat) (invoices : List BillingInvoice) (lifecycle : LifecycleState) :
    isEndedSubscriptionStatus (paidLifecycle order invoices lifecycle).status = isEndedSubscriptionStatus lifecycle.status := by
  unfold paidLifecycle
  split
  · rfl
  · split
    · split
      · exact pay_ended .active (by decide) _ _
      · exact pay_ended .billingRetry (by decide) _ _
    · rfl

structure Written (target : StripeTarget) (command : StripeCommand) (existing : Option StripeSubscription)
    (recorded : StripeSubscription) : Prop where
  identified : recorded.Identified target
  lifecycle : recorded.lifecycle = paidLifecycle command.providerEventCreated (storedInvoices existing) command.lifecycle
  order : recorded.row.lastProviderEventCreated = command.providerEventCreated
  periodStart : ∀ instant, command.currentPeriodStart = some instant → recorded.row.currentPeriodStart = some instant
  periodEnd : command.expiresAt.isSome → recorded.row.currentPeriodEnd = command.expiresAt
  expiry : recorded.row.expiresAt =
    if isEndedSubscriptionStatus command.subscriptionStatus && command.expiresAt.isSome then command.expiresAt
    else greatest (existing.bind fun subscription => subscription.row.expiresAt) command.expiresAt
  invoices : recorded.invoices = storedInvoices existing
  items : recorded.items = syncSubscriptionPriceItems target command.items ((existing.map StripeSubscription.items).getD [])

/-- The write of a snapshot at least as new as the recorded state succeeds. -/
theorem recordSubscription_written {target : StripeTarget} {command : StripeCommand} {existing : Option StripeSubscription}
    (snapshot : command.invoice = none) (identified : ∀ subscription ∈ existing, subscription.Identified target)
    (current : ∀ subscription ∈ existing, subscription.row.lastProviderEventCreated ≤ command.providerEventCreated) :
    ∃ recorded, recordSubscription target command existing = .ok recorded ∧ Written target command existing recorded := by
  have ended := paidLifecycle_ended command.providerEventCreated (storedInvoices existing) command.lifecycle
  have adjusted := adjustedLifecycle_snapshot snapshot existing
  rw [← adjusted] at ended
  have ends : isEndedSubscriptionStatus (adjustedLifecycle command existing).status =
      isEndedSubscriptionStatus command.subscriptionStatus := ended
  have facts (invoices : List BillingInvoice) : upsertSubscriptionInvoiceFact command invoices = invoices := by
    unfold upsertSubscriptionInvoiceFact
    rw [snapshot]
  cases existing with
  | none =>
    refine ⟨_, rfl, ⟨rfl, rfl⟩, ?_, rfl, ?_, ?_, ?_, facts _, rfl⟩
    · rw [← adjusted]
      rfl
    · intro instant start
      simp [insertedSubscription, StripeCommand.input, start]
    · intro carried
      obtain ⟨instant, finish⟩ := Option.isSome_iff_exists.mp carried
      simp [insertedSubscription, StripeCommand.input, finish]
    · cases finish : command.expiresAt <;> simp [insertedSubscription, StripeCommand.input, finish, greatest]
  | some subscription =>
    obtain ⟨account, channel⟩ := identified subscription rfl
    have newer := current subscription rfl
    have same : (command.input target (some subscription)).identifies subscription.row = true := by
      simp [SubscriptionInput.identifies, StripeCommand.input, account, channel]
    have updates : (command.input target (some subscription)).updates subscription.row = true := by
      simp [SubscriptionInput.updates, StripeCommand.input, newer]
    have merged : mergedSubscription (command.input target (some subscription)) subscription.row =
        { replacedSubscription (command.input target (some subscription)) subscription.row with
          providerAccountId := subscription.row.providerAccountId.or target.providerAccountId
          lastProviderEventCreated := max subscription.row.lastProviderEventCreated command.providerEventCreated } := by
      unfold mergedSubscription
      rw [if_pos updates]
      rfl
    have written : upsertSubscription (command.input target (some subscription)) (some subscription.row) =
        .ok (mergedSubscription (command.input target (some subscription)) subscription.row) := if_pos same
    unfold recordSubscription
    rw [Option.map_some, written, merged]
    refine ⟨_, rfl, ⟨account, channel⟩, ?_, max_eq_right newer, ?_, ?_, ?_, facts _, rfl⟩
    · rw [← adjusted]
      rfl
    · intro instant start
      simp [replacedSubscription, StripeCommand.input, start]
    · intro carried
      obtain ⟨instant, finish⟩ := Option.isSome_iff_exists.mp carried
      simp [replacedSubscription, StripeCommand.input, finish]
    · simp only [replacedSubscription, StripeCommand.input, ends, Option.bind_some]

theorem stale_order {incoming recorded : SubscriptionOrderState} (stale : isStaleStripeSubscriptionEvent incoming recorded = true) :
    incoming.order ≤ recorded.order := by
  unfold isStaleStripeSubscriptionEvent at stale
  split at stale
  · exact (of_decide_eq_true stale).le
  · next same => exact (not_not.mp same).le

theorem older_stale {incoming recorded : SubscriptionOrderState} (older : incoming.order < recorded.order) :
    isStaleStripeSubscriptionEvent incoming recorded = true := by
  unfold isStaleStripeSubscriptionEvent
  rw [if_pos older.ne]
  exact decide_eq_true older

theorem fresh_order {incoming recorded : SubscriptionOrderState} (fresh : isStaleStripeSubscriptionEvent incoming recorded = false) :
    recorded.order ≤ incoming.order := by
  by_contra newer
  rw [older_stale (not_le.mp newer)] at fresh
  cases fresh

inductive SnapshotStep (target : StripeTarget) (command : StripeCommand) (state : StripeState) : StripeState → Prop where
  | repeated (done : command.eventId ∈ state.processed) : SnapshotStep target command state state
  | skipped (unrecorded : state.subscription = none) (failing : command.subscriptionStatus = .billingRetry) :
      SnapshotStep target command state state
  | stale {subscription : StripeSubscription} (stored : state.subscription = some subscription)
      (older : isStaleStripeSubscriptionEvent command.orderState subscription.orderState = true) :
      SnapshotStep target command state ⟨some subscription, command.eventId :: state.processed⟩
  | written {recorded : StripeSubscription} (fresh : command.eventId ∉ state.processed)
      (current : ∀ subscription ∈ state.subscription, isStaleStripeSubscriptionEvent command.orderState subscription.orderState = false)
      (write : Written target command state.subscription recorded) :
      SnapshotStep target command state ⟨some recorded, command.eventId :: state.processed⟩

theorem apply_snapshot {target : StripeTarget} {command : StripeCommand} {state : StripeState} (snapshot : command.invoice = none)
    (identified : ∀ subscription ∈ state.subscription, subscription.Identified target) :
    ∃ next, applyStripeSubscription target command state = .ok next ∧ SnapshotStep target command state next := by
  obtain ⟨stored, processed⟩ := state
  cases stored with
  | none =>
    by_cases skip : command.subscriptionStatus = .billingRetry ∨ command.eventId ∈ processed
    · refine ⟨⟨none, processed⟩, if_pos skip, ?_⟩
      rcases skip with failing | done
      · exact .skipped rfl failing
      · exact .repeated done
    · obtain ⟨recorded, succeeded, write⟩ := @recordSubscription_written target command none snapshot (by simp) (by simp)
      refine ⟨⟨some recorded, command.eventId :: processed⟩, ?_, .written (fun done => skip (.inr done)) (by simp) write⟩
      unfold applyStripeSubscription
      rw [if_neg skip, succeeded]
      rfl
  | some subscription =>
    by_cases done : command.eventId ∈ processed
    · exact ⟨_, if_pos done, .repeated done⟩
    · have unpaid : command.invoice.isSome = false := by rw [snapshot]; rfl
      cases older : isStaleStripeSubscriptionEvent command.orderState subscription.orderState with
      | true =>
        refine ⟨⟨some subscription, command.eventId :: processed⟩, ?_, .stale rfl older⟩
        simp [applyStripeSubscription, done, unpaid, older]
      | false =>
        have current : ∀ other ∈ some subscription, other.row.lastProviderEventCreated ≤ command.providerEventCreated := by
          intro other same
          cases same
          exact fresh_order older
        obtain ⟨recorded, succeeded, write⟩ := recordSubscription_written snapshot identified current
        refine ⟨⟨some recorded, command.eventId :: processed⟩, ?_, .written done ?_ write⟩
        · simp [applyStripeSubscription, done, unpaid, older, succeeded, pure, Except.pure]
        · intro other same
          cases same
          exact older

theorem deliver_cons {target : StripeTarget} {command : StripeCommand} {rest : List StripeCommand} {state next : StripeState}
    (here : applyStripeSubscription target command state = .ok next) :
    deliver target (command :: rest) state = deliver target rest next := by
  unfold deliver
  rw [List.foldlM_cons, here]
  rfl

structure SnapshotEvents (target : StripeTarget) (state : StripeState) (commands : List StripeCommand) : Prop where
  snapshots : ∀ command ∈ commands, command.invoice = none
  seconds : ∀ command ∈ commands, ∀ other ∈ commands, command.providerEventCreated = other.providerEventCreated → command = other
  ids : ∀ command ∈ commands, ∀ other ∈ commands, command.eventId = other.eventId → command = other
  identified : ∀ subscription ∈ state.subscription, subscription.Identified target
  processed : ∀ command ∈ commands, command.eventId ∈ state.processed →
    ∃ subscription, state.subscription = some subscription ∧ command.providerEventCreated ≤ subscription.row.lastProviderEventCreated

def Settled (commands : List StripeCommand) (subscription : StripeSubscription) (state : StripeState) : Prop :=
  state.subscription = some subscription ∧
  ∀ command ∈ commands, command.eventId ∈ state.processed ∨
    isStaleStripeSubscriptionEvent command.orderState subscription.orderState = true

theorem Settled.run {target : StripeTarget} {all commands : List StripeCommand} {subscription : StripeSubscription}
    {state : StripeState} (settled : Settled all subscription state) (snapshots : ∀ command ∈ all, command.invoice = none)
    (identified : subscription.Identified target) (part : ∀ command ∈ commands, command ∈ all) :
    ∃ final, deliver target commands state = .ok final ∧ final.subscription = some subscription := by
  induction commands generalizing state with
  | nil => exact ⟨state, rfl, settled.1⟩
  | cons command rest ih =>
    obtain ⟨stored, quiet⟩ := settled
    have member := part command (by simp)
    obtain ⟨next, here, step⟩ := @apply_snapshot target command state (snapshots command member) (by
      intro other same
      rw [stored] at same
      cases same
      exact identified)
    have kept : Settled all subscription next := by
      cases step with
      | repeated done => exact ⟨stored, quiet⟩
      | skipped unrecorded failing => exact ⟨stored, quiet⟩
      | stale found older =>
        rw [stored] at found
        cases found
        exact ⟨rfl, fun other inside => (quiet other inside).imp_left (List.mem_cons_of_mem _)⟩
      | written fresh current write =>
        rcases quiet command member with done | older
        · exact absurd done fresh
        · rw [current subscription stored] at older
          cases older
    obtain ⟨final, later, last⟩ := ih kept fun other inside => part other (by simp [inside])
    exact ⟨final, (deliver_cons here).trans later, last⟩

section Newest
variable {target : StripeTarget} {state at_ : StripeState} {commands : List StripeCommand} {newest command : StripeCommand}
  {recorded : StripeSubscription} {bound : Int}

/-- Whether an instant is no earlier than each expiry of the events and of the state. -/
def LastExpiry (state : StripeState) (commands : List StripeCommand) (bound : Int) : Prop :=
  (∀ command ∈ commands, ∀ expiry ∈ command.expiresAt, expiry ≤ bound) ∧
  ∀ subscription ∈ state.subscription, ∀ expiry ∈ subscription.row.expiresAt, expiry ≤ bound

/-- Whether the state's expiry is the last one, which no event that ends the subscription replaces. -/
def KeepsExpiry (state : StripeState) (commands : List StripeCommand) (bound : Int) : Prop :=
  LastExpiry state commands bound ∧ (state.subscription.bind fun subscription => subscription.row.expiresAt) = some bound ∧
  ∀ command ∈ commands, (isEndedSubscriptionStatus command.subscriptionStatus && command.expiresAt.isSome) = false

/-- The state before the newest event is processed: the one the run began with, or that of an older event. -/
structure Earlier (target : StripeTarget) (start : StripeState) (commands : List StripeCommand) (newest : StripeCommand)
    (state : StripeState) : Prop where
  waiting : newest.eventId ∉ state.processed
  identified : ∀ subscription ∈ state.subscription, subscription.Identified target
  invoices : storedInvoices state.subscription = storedInvoices start.subscription
  bounded : ∀ bound, LastExpiry start commands bound → ∀ subscription ∈ state.subscription,
    ∀ expiry ∈ subscription.row.expiresAt, expiry ≤ bound
  kept : ∀ bound, KeepsExpiry start commands bound →
    (state.subscription.bind fun subscription => subscription.row.expiresAt) = some bound
  current : ∀ subscription ∈ state.subscription,
    isStaleStripeSubscriptionEvent newest.orderState subscription.orderState = false

/-- What the newest event leaves, whenever it is processed. -/
structure Decided (target : StripeTarget) (start : StripeState) (commands : List StripeCommand) (newest : StripeCommand)
    (subscription : StripeSubscription) : Prop where
  identified : subscription.Identified target
  lifecycle : subscription.lifecycle =
    paidLifecycle newest.providerEventCreated (storedInvoices start.subscription) newest.lifecycle
  order : subscription.row.lastProviderEventCreated = newest.providerEventCreated
  periodStart : ∀ instant, newest.currentPeriodStart = some instant → subscription.row.currentPeriodStart = some instant
  periodEnd : newest.expiresAt.isSome → subscription.row.currentPeriodEnd = newest.expiresAt
  ended : isEndedSubscriptionStatus newest.subscriptionStatus = true → newest.expiresAt.isSome →
    subscription.row.expiresAt = newest.expiresAt
  expiry : ∀ bound, newest.expiresAt = some bound → LastExpiry start commands bound → subscription.row.expiresAt = some bound
  kept : ∀ bound, KeepsExpiry start commands bound → subscription.row.expiresAt = some bound

theorem greatest_le {current incoming : Option Int} (before : ∀ expiry ∈ current, expiry ≤ bound)
    (new : ∀ expiry ∈ incoming, expiry ≤ bound) : ∀ expiry ∈ greatest current incoming, expiry ≤ bound := by
  intro expiry member
  cases current with
  | none => exact new expiry member
  | some stored =>
    cases incoming with
    | none => exact before expiry member
    | some other =>
      cases member
      exact max_le (before stored rfl) (new other rfl)

theorem greatest_eq {current : Option Int} (before : ∀ expiry ∈ current, expiry ≤ bound) :
    greatest current (some bound) = some bound := by
  cases current with
  | none => rfl
  | some stored => exact congrArg some (max_eq_right (before stored rfl))

theorem Written.keeps {existing : Option StripeSubscription}
    (write : Written target command existing recorded) (stored : (existing.bind fun subscription => subscription.row.expiresAt) = some bound)
    (new : ∀ expiry ∈ command.expiresAt, expiry ≤ bound)
    (live : (isEndedSubscriptionStatus command.subscriptionStatus && command.expiresAt.isSome) = false) :
    recorded.row.expiresAt = some bound := by
  rw [write.expiry, live, stored]
  cases carried : command.expiresAt with
  | none => rfl
  | some expiry => exact congrArg some (max_eq_left (new expiry carried))

theorem Earlier.decided (member : newest ∈ commands)
    (earlier : Earlier target state commands newest at_) (write : Written target newest at_.subscription recorded) :
    Decided target state commands newest recorded where
  identified := write.identified
  lifecycle := by rw [write.lifecycle, earlier.invoices]
  order := write.order
  periodStart := write.periodStart
  periodEnd := write.periodEnd
  ended := by
    intro ends carried
    rw [write.expiry, ends, carried]
    rfl
  expiry := by
    intro bound carried last
    have before : ∀ expiry ∈ at_.subscription.bind fun subscription => subscription.row.expiresAt, expiry ≤ bound := by
      intro expiry member
      obtain ⟨subscription, stored, found⟩ := Option.bind_eq_some_iff.mp member
      exact earlier.bounded bound last subscription stored expiry found
    rw [write.expiry, carried]
    split
    · rfl
    · exact greatest_eq before
  kept := fun bound keeps => write.keeps (earlier.kept bound keeps) (keeps.1.1 newest member) (keeps.2.2 newest member)

variable (events : SnapshotEvents target state commands)

section
variable (member : newest ∈ commands)
  (latest : ∀ command ∈ commands, command.providerEventCreated ≤ newest.providerEventCreated)
include events member latest

theorem Earlier.step (inside : command ∈ commands) (other : command ≠ newest) {next : StripeState}
    (earlier : Earlier target state commands newest at_) (step : SnapshotStep target command at_ next) :
    Earlier target state commands newest next := by
  have apart : newest.eventId ≠ command.eventId := fun same => other (events.ids newest member command inside same).symm
  have waits : newest.eventId ∉ command.eventId :: at_.processed := by
    rw [List.mem_cons]
    rintro (same | done)
    · exact apart same
    · exact earlier.waiting done
  cases step with
  | repeated done => exact earlier
  | skipped unrecorded failing => exact earlier
  | stale stored older =>
    exact ⟨waits, stored ▸ earlier.identified, stored ▸ earlier.invoices, stored ▸ earlier.bounded, stored ▸ earlier.kept,
      stored ▸ earlier.current⟩
  | written fresh current write =>
    refine ⟨waits, ?_, ?_, ?_, ?_, ?_⟩
    · rintro subscription ⟨⟩
      exact write.identified
    · exact write.invoices.trans earlier.invoices
    · rintro bound last subscription ⟨⟩
      rw [write.expiry]
      split
      · exact last.1 command inside
      · apply greatest_le ?_ (last.1 command inside)
        intro expiry found
        obtain ⟨stored, there, here⟩ := Option.bind_eq_some_iff.mp found
        exact earlier.bounded bound last stored there expiry here
    · exact fun bound keeps => write.keeps (earlier.kept bound keeps) (keeps.1.1 command inside) (keeps.2.2 command inside)
    · rintro subscription ⟨⟩
      apply Bool.eq_false_iff.mpr
      intro older
      have order := stale_order older
      have written : newest.providerEventCreated ≤ command.providerEventCreated := order.trans write.order.le
      exact other (events.seconds command inside newest member (le_antisymm (latest command inside) written))

theorem Earlier.run (recorded : state.subscription.isSome ∨ newest.subscriptionStatus ≠ .billingRetry) {part : List StripeCommand}
    (inside : ∀ command ∈ part, command ∈ commands) (arrives : newest ∈ part) (kept : state.subscription.isSome → at_.subscription.isSome)
    (earlier : Earlier target state commands newest at_) :
    ∃ final subscription, deliver target part at_ = .ok final ∧ final.subscription = some subscription ∧
      Decided target state commands newest subscription := by
  induction part generalizing at_ with
  | nil => cases arrives
  | cons command rest ih =>
    have here := inside command (by simp)
    obtain ⟨next, delivered, step⟩ := apply_snapshot (events.snapshots command here) earlier.identified
    by_cases same : command = newest
    · subst same
      cases step with
      | repeated done => exact absurd done earlier.waiting
      | skipped unrecorded failing =>
        rcases recorded with some_ | live
        · have there := kept some_
          rw [unrecorded] at there
          cases there
        · exact absurd failing live
      | stale stored older =>
        rw [earlier.current _ stored] at older
        cases older
      | @written subscription fresh current write =>
        have decided := earlier.decided here write
        have settled : Settled commands subscription ⟨some subscription, command.eventId :: at_.processed⟩ := by
          refine ⟨rfl, ?_⟩
          intro other there
          by_cases same : other = command
          · exact .inl (by simp [same])
          · have before : other.providerEventCreated < command.providerEventCreated :=
              lt_of_le_of_ne (latest other there) fun equal => same (events.seconds other there command here equal)
            exact .inr (older_stale (before.trans_eq decided.order.symm))
        obtain ⟨final, run, stored⟩ := settled.run events.snapshots decided.identified fun other there =>
          inside other (List.mem_cons_of_mem command there)
        exact ⟨final, subscription, (deliver_cons delivered).trans run, stored, decided⟩
    · have later : newest ∈ rest := (List.mem_cons.mp arrives).resolve_left fun equal => same equal.symm
      have stays : state.subscription.isSome → next.subscription.isSome := by
        intro some_
        have before := kept some_
        cases step with
        | repeated done => exact before
        | skipped unrecorded failing => exact before
        | stale stored older => rfl
        | written fresh current write => rfl
      obtain ⟨final, subscription, run, stored, decided⟩ :=
        ih (fun other there => inside other (by simp [there])) later stays (earlier.step events member latest here same step)
      exact ⟨final, subscription, (deliver_cons delivered).trans run, stored, decided⟩

theorem newest_moves_or_settled :
    Earlier target state commands newest state ∨ ∃ subscription, Settled commands subscription state := by
  have settle (subscription : StripeSubscription) (stored : state.subscription = some subscription)
      (quiet : newest.eventId ∈ state.processed ∨ isStaleStripeSubscriptionEvent newest.orderState subscription.orderState = true)
      (order : newest.providerEventCreated ≤ subscription.row.lastProviderEventCreated) : Settled commands subscription state := by
    refine ⟨stored, ?_⟩
    intro command inside
    by_cases same : command = newest
    · exact same ▸ quiet
    · have before : command.providerEventCreated < newest.providerEventCreated :=
        lt_of_le_of_ne (latest command inside) fun equal => same (events.seconds command inside newest member equal)
      exact .inr (older_stale (before.trans_le order))
  by_cases done : newest.eventId ∈ state.processed
  · obtain ⟨subscription, stored, order⟩ := events.processed newest member done
    exact .inr ⟨subscription, settle subscription stored (.inl done) order⟩
  · by_cases older : ∃ subscription, state.subscription = some subscription ∧
        isStaleStripeSubscriptionEvent newest.orderState subscription.orderState = true
    · obtain ⟨subscription, stored, stale⟩ := older
      exact .inr ⟨subscription, settle subscription stored (.inr stale) (stale_order stale)⟩
    · refine .inl ⟨done, events.identified, rfl, fun bound last => last.2, fun bound keeps => keeps.2.1, ?_⟩
      intro subscription stored
      exact Bool.eq_false_iff.mpr fun stale => older ⟨subscription, stored, stale⟩

end

include events

/-- Subscription events delivered in any order, and any number of times, leave the lifecycle that the newest of them leaves
alone, its period where it has one, and its expiry where it ends the subscription, nothing expires later or the recorded
state expires last. A subscription that is not recorded is not recorded by a failed payment either. -/
theorem newest_event_decides (member : newest ∈ commands)
    (latest : ∀ command ∈ commands, command.providerEventCreated ≤ newest.providerEventCreated)
    (recorded : state.subscription.isSome ∨ newest.subscriptionStatus ≠ .billingRetry) :
    ∃ final alone ended only, deliver target commands state = .ok final ∧ final.subscription = some ended ∧
      deliver target [newest] state = .ok alone ∧ alone.subscription = some only ∧
      ended.row.status = only.row.status ∧ ended.row.providerStatus = only.row.providerStatus ∧
      ended.row.cancelAtPeriodEnd = only.row.cancelAtPeriodEnd ∧ ended.row.autoRenew = only.row.autoRenew ∧
      ended.trialStart = only.trialStart ∧ ended.trialEnd = only.trialEnd ∧
      (newest.currentPeriodStart.isSome → ended.row.currentPeriodStart = only.row.currentPeriodStart) ∧
      (newest.expiresAt.isSome → ended.row.currentPeriodEnd = only.row.currentPeriodEnd) ∧
      (isEndedSubscriptionStatus newest.subscriptionStatus = true ∧ newest.expiresAt.isSome ∨
          (∃ bound, newest.expiresAt = some bound ∧ LastExpiry state commands bound) ∨ (∃ bound, KeepsExpiry state commands bound) →
        ended.row.expiresAt = only.row.expiresAt) := by
  have single : ∀ command ∈ [newest], command ∈ commands := by
    intro command inside
    rw [List.mem_singleton.mp inside]
    exact member
  rcases newest_moves_or_settled events member latest with earlier | ⟨subscription, settled⟩
  · obtain ⟨final, ended, run, stored, decided⟩ := earlier.run events member latest recorded (fun _ inside => inside) member id
    obtain ⟨alone, only, single, there, same⟩ := earlier.run events member latest recorded single (by simp) id
    have lifecycle : ended.lifecycle = only.lifecycle := decided.lifecycle.trans same.lifecycle.symm
    refine ⟨final, alone, ended, only, run, stored, single, there, congrArg LifecycleState.status lifecycle,
      congrArg LifecycleState.providerStatus lifecycle, congrArg LifecycleState.cancelAtPeriodEnd lifecycle,
      congrArg LifecycleState.autoRenew lifecycle, congrArg LifecycleState.trialStart lifecycle,
      congrArg LifecycleState.trialEnd lifecycle, ?_, ?_, ?_⟩
    · intro carried
      obtain ⟨instant, start⟩ := Option.isSome_iff_exists.mp carried
      rw [decided.periodStart instant start, same.periodStart instant start]
    · intro carried
      rw [decided.periodEnd carried, same.periodEnd carried]
    · rintro (⟨ends, carried⟩ | ⟨bound, carried, last⟩ | ⟨bound, keeps⟩)
      · rw [decided.ended ends carried, same.ended ends carried]
      · rw [decided.expiry bound carried last, same.expiry bound carried last]
      · rw [decided.kept bound keeps, same.kept bound keeps]
  · have identified := events.identified subscription settled.1
    obtain ⟨final, run, stored⟩ := settled.run events.snapshots identified fun _ inside => inside
    obtain ⟨alone, single, there⟩ := settled.run events.snapshots identified single
    exact ⟨final, alone, subscription, subscription, run, stored, single, there, rfl, rfl, rfl, rfl, rfl, rfl, fun _ => rfl,
      fun _ => rfl, fun _ => rfl⟩

end Newest

def soleTarget : StripeTarget where
  customerId := 1
  productId := 1
  storeProductId := 1
  providerAccountId := none
  stripeSubscriptionId := "sub_1".toList
  externalProductId := "prod_1".toList
  externalPriceId := some "price_1".toList
  configured := true
  component := some

def unrecorded : StripeState :=
  ⟨none, []⟩

def stripeSnapshot (eventId : Nat) (status : StripeStatus) (period : Option (Int × Int)) : StripeSnapshot where
  eventId := eventId
  eventCreated := eventId
  status := status
  created := 0
  endedAt := none
  currentPeriodStart := period.map Prod.fst
  currentPeriodEnd := period.map Prod.snd
  cancelAtPeriodEnd := false
  trialStart := none
  trialEnd := none
  latestInvoice := none
  items := []

def snapshotEvent (eventId : Nat) (status : StripeStatus) (period : Option (Int × Int)) : StripeCommand :=
  normalizeStripeSubscription 5 (stripeSnapshot eventId status period)

def deliveredRow (commands : List StripeCommand) : Option SubscriptionRow :=
  match deliver soleTarget commands unrecorded with
  | .ok final => final.subscription.map StripeSubscription.row
  | .error _ => none

theorem sole_events {commands : List StripeCommand} (snapshots : ∀ command ∈ commands, command.invoice = none)
    (seconds : ∀ command ∈ commands, ∀ other ∈ commands, command.providerEventCreated = other.providerEventCreated → command = other)
    (ids : ∀ command ∈ commands, ∀ other ∈ commands, command.eventId = other.eventId → command = other) :
    SnapshotEvents soleTarget unrecorded commands where
  snapshots := snapshots
  seconds := seconds
  ids := ids
  identified := by simp [unrecorded]
  processed := by simp [unrecorded]

theorem newest_event_decides_cancelled :
    ∃ final alone ended only,
      deliver soleTarget [snapshotEvent 2 .canceled (some (0, 60)), snapshotEvent 1 .active (some (0, 100))] unrecorded = .ok final ∧
      final.subscription = some ended ∧ deliver soleTarget [snapshotEvent 2 .canceled (some (0, 60))] unrecorded = .ok alone ∧
      alone.subscription = some only ∧ ended.row.status = only.row.status ∧ ended.row.expiresAt = only.row.expiresAt := by
  have events : SnapshotEvents soleTarget unrecorded
      [snapshotEvent 2 .canceled (some (0, 60)), snapshotEvent 1 .active (some (0, 100))] :=
    sole_events (by decide) (by decide) (by decide)
  obtain ⟨final, alone, ended, only, run, stored, single, there, status, -, -, -, -, -, -, -, expiry⟩ :=
    @newest_event_decides soleTarget unrecorded _ (snapshotEvent 2 .canceled (some (0, 60))) events (by decide) (by decide)
      (.inr (by decide))
  exact ⟨final, alone, ended, only, run, stored, single, there, status, expiry (.inl (by decide))⟩

/-- An earlier period end that a newer event reports does not shorten the expiry, a failed payment is skipped while the
subscription is not recorded, and an event without a period keeps the period recorded before it. -/
theorem older_event_shows :
    (deliveredRow [snapshotEvent 1 .trialing (some (0, 100)), snapshotEvent 2 .active (some (0, 60))]).bind SubscriptionRow.expiresAt ≠
        (deliveredRow [snapshotEvent 2 .active (some (0, 60))]).bind SubscriptionRow.expiresAt ∧
      (deliveredRow [snapshotEvent 2 .pastDue (some (0, 60)), snapshotEvent 1 .active (some (0, 60))]).map SubscriptionRow.status ≠
        (deliveredRow [snapshotEvent 2 .pastDue (some (0, 60))]).map SubscriptionRow.status ∧
      (deliveredRow [snapshotEvent 1 .active (some (30, 60)), snapshotEvent 2 .active none]).bind SubscriptionRow.currentPeriodStart ≠
        (deliveredRow [snapshotEvent 2 .active none]).bind SubscriptionRow.currentPeriodStart := by
  decide

end Quotum.StripeSubscriptions
