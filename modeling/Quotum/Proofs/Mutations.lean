import Quotum.Mutations

/-! The reports of an app store join: in whatever order they arrive and however often, the row ends with the greatest of them. -/

namespace Quotum.Mutations
open General SubscriptionChanges

/-- Whether one report of a subscription is no greater than another: by expiry, and where they tie by how final its status is. -/
def NoGreater (without : SubscriptionStatus) (report other : StoreSubscription) : Prop :=
  toLex (report.expiresAt.getD 0, subscriptionStatusRank (report.subscriptionStatus.getD without)) ≤
    toLex (other.expiresAt.getD 0, subscriptionStatusRank (other.subscriptionStatus.getD without))

/-- Reports that name one account and one store product, state an expiry and restore nothing. -/
def OneSubscription (reports : List StoreSubscription) : Prop :=
  ∀ report ∈ reports, report.expiresAt ≠ none ∧ report.allowRestoration = false ∧ ∀ other ∈ reports,
    report.customerId = other.customerId ∧ report.channel = other.channel ∧ report.productId = other.productId ∧
      report.storeProductId = other.storeProductId

/-- Reports of one purchase, which restore nothing. Only an invalidated purchase has an instant of invalidation. -/
def OnePurchase (reports : List PurchaseInput) : Prop :=
  ∀ report ∈ reports, report.allowRestoration = false ∧ (report.status = .completed → report.invalidatedAt = none) ∧
    ∀ other ∈ reports, report.customerId = other.customerId ∧ report.channel = other.channel ∧
      report.purchaseKind = other.purchaseKind ∧ report.productId = other.productId ∧ report.storeProductId = other.storeProductId

/-- Where a report invalidates the purchase without a date, the latest date of the others is no earlier than any purchase date that
is reported without one. -/
def DatedLast (reports : List PurchaseInput) : Prop :=
  (∃ report ∈ reports, report.status ≠ .completed ∧ report.invalidatedAt = none) → (∃ report ∈ reports, report.invalidatedAt ≠ none) →
    ∀ report ∈ reports, report.invalidatedAt = none → ∃ dated ∈ reports, ∃ at_, dated.invalidatedAt = some at_ ∧ report.purchasedAt ≤ at_

/-- The latest of the instants at which reports invalidate a purchase. -/
def LatestInvalidation (reports : List PurchaseInput) (latest : Option Int) : Prop :=
  (∀ at_, latest = some at_ → ∃ report ∈ reports, report.invalidatedAt = some at_) ∧
    ∀ report ∈ reports, ∀ at_, report.invalidatedAt = some at_ → ∃ last, latest = some last ∧ at_ ≤ last

/-- Lists of the same reports: one is the other in another order, with repetitions. -/
def Redelivered {α : Type} (delivered reports : List α) : Prop :=
  ∀ report, report ∈ delivered ↔ report ∈ reports

section Subscriptions
variable {input : SubscriptionInput} {row : SubscriptionRow}

private theorem subscriptionStatusRank_injective : Function.Injective subscriptionStatusRank := by
  intro status other same
  cases status <;> cases other <;> first | rfl | simp [subscriptionStatusRank] at same

def SubscriptionInput.rank (input : SubscriptionInput) : ℤ ×ₗ ℕ :=
  toLex (input.expiresAt.getD 0, subscriptionStatusRank input.status)

def SubscriptionRow.rank (row : SubscriptionRow) : ℤ ×ₗ ℕ :=
  toLex (row.expiresAt.getD 0, subscriptionStatusRank row.status)

structure Plain (input : SubscriptionInput) : Prop where
  unordered : input.enforceProviderEventOrder = false
  merged : input.replaceExpiresAt = false
  live : input.providerEnded = false
  kept : input.updateProduct = false
  lasting : input.allowRestoration = false
  expires : input.expiresAt ≠ none

structure SameSubscription (input : SubscriptionInput) (row : SubscriptionRow) : Prop where
  customer : row.customerId = input.customerId
  channel : row.channel = input.channel
  product : row.productId = input.productId
  storeProduct : row.storeProductId = input.storeProductId

/-- A plain report replaces what is stored where it ranks no lower. -/
theorem Plain.updates_iff (plain : Plain input) (expires : row.expiresAt ≠ none) : input.updates row = true ↔ row.rank ≤ input.rank := by
  obtain ⟨expiry, isExpiry⟩ := Option.ne_none_iff_exists'.mp plain.expires
  obtain ⟨other, isOther⟩ := Option.ne_none_iff_exists'.mp expires
  unfold SubscriptionInput.updates subscriptionUpdateIsMonotonic SubscriptionRow.rank SubscriptionInput.rank
  rw [Prod.Lex.toLex_le_toLex, plain.unordered, plain.lasting, plain.live]
  simp only [SubscriptionRow.sortAt, SubscriptionInput.sortAt, isExpiry, isOther, Option.getD_some, Bool.false_eq_true, if_false,
    Bool.false_or, Bool.false_and, Bool.or_false, Bool.or_eq_true, Bool.and_eq_true, decide_eq_true_eq]
  constructor
  · rintro (later | ⟨same, order⟩)
    · exact .inl later
    · exact .inr ⟨same.symm, order⟩
  · rintro (later | ⟨same, order⟩)
    · exact .inl later
    · exact .inr ⟨same.symm, order⟩

theorem Plain.upsert (plain : Plain input) (same : SameSubscription input row) (expires : row.expiresAt ≠ none) :
    ∃ merged, upsertSubscription input (some row) = .ok merged ∧ merged.expiresAt ≠ none ∧ merged.rank = max row.rank input.rank ∧
      merged.customerId = row.customerId ∧ merged.channel = row.channel ∧ merged.productId = row.productId ∧
      merged.storeProductId = row.storeProductId := by
  obtain ⟨expiry, isExpiry⟩ := Option.ne_none_iff_exists'.mp plain.expires
  obtain ⟨other, isOther⟩ := Option.ne_none_iff_exists'.mp expires
  have fits : input.identifies row = true := by
    simp [SubscriptionInput.identifies, same.customer, same.channel, same.product, same.storeProduct]
  refine ⟨mergedSubscription input row, if_pos fits, ?_⟩
  unfold mergedSubscription
  cases updates : input.updates row with
  | false =>
    have below : input.rank ≤ row.rank := by
      rcases le_total row.rank input.rank with high | low
      · rw [(plain.updates_iff expires).mpr high] at updates
        cases updates
      · exact low
    exact ⟨expires, (max_eq_left below).symm, rfl, rfl, rfl, rfl⟩
  | true =>
    have above := (plain.updates_iff expires).mp updates
    have later : other ≤ expiry := by
      unfold SubscriptionRow.rank SubscriptionInput.rank at above
      rw [Prod.Lex.toLex_le_toLex, isExpiry, isOther] at above
      simp only [Option.getD_some] at above
      omega
    have chosen : greatest row.expiresAt input.expiresAt = input.expiresAt := by
      rw [isExpiry, isOther]
      exact congrArg some (max_eq_right later)
    simp only [if_true, replacedSubscription, plain.merged, plain.kept, Bool.false_eq_true, if_false, chosen, and_self, and_true]
    exact ⟨plain.expires, (max_eq_right above).symm⟩

end Subscriptions

section Reports
variable {without : SubscriptionStatus} {write : StoreSubscription → SubscriptionInput} {reports : List StoreSubscription}

structure Writes (without : SubscriptionStatus) (write : StoreSubscription → SubscriptionInput) : Prop where
  plain : ∀ report : StoreSubscription, report.expiresAt ≠ none → report.allowRestoration = false → Plain (write report)
  status : ∀ report, (write report).status = report.subscriptionStatus.getD without
  expiresAt : ∀ report, (write report).expiresAt = report.expiresAt
  customer : ∀ report, (write report).customerId = report.customerId
  channel : ∀ report, (write report).channel = report.channel
  product : ∀ report, (write report).productId = report.productId
  storeProduct : ∀ report, (write report).storeProductId = report.storeProductId

private theorem apple_writes (originalTransactionId : String) : Writes .refunded (appleSubscription originalTransactionId) :=
  ⟨fun _ expires lasting => ⟨rfl, rfl, rfl, rfl, lasting, expires⟩, fun _ => rfl, fun _ => rfl, fun _ => rfl, fun _ => rfl,
    fun _ => rfl, fun _ => rfl⟩

private theorem google_writes (purchaseToken : String) : Writes .expired (googleSubscription purchaseToken) :=
  ⟨fun _ expires _ => ⟨rfl, rfl, rfl, rfl, rfl, expires⟩, fun _ => rfl, fun _ => rfl, fun _ => rfl, fun _ => rfl,
    fun _ => rfl, fun _ => rfl⟩

def Holds (reports : List StoreSubscription) (row : SubscriptionRow) : Prop :=
  row.expiresAt ≠ none ∧ ∀ report ∈ reports, row.customerId = report.customerId ∧ row.channel = report.channel ∧
    row.productId = report.productId ∧ row.storeProductId = report.storeProductId

theorem Writes.joins (writes : Writes without write) (one : OneSubscription reports) :
    Joins (fun stored input => upsertSubscription input stored) (Holds reports) SubscriptionRow.rank SubscriptionInput.rank
      (reports.map write) where
  first := by
    intro input member
    obtain ⟨report, inside, rfl⟩ := List.mem_map.mp member
    obtain ⟨expires, lasting, same⟩ := one report inside
    refine ⟨_, rfl, ⟨(writes.plain report expires lasting).expires, ?_⟩, rfl⟩
    intro other also
    obtain ⟨customer, channel, product, storeProduct⟩ := same other also
    exact ⟨(writes.customer report).trans customer, (writes.channel report).trans channel,
      (writes.product report).trans product, (writes.storeProduct report).trans storeProduct⟩
  next := by
    intro input member row holds
    obtain ⟨report, inside, rfl⟩ := List.mem_map.mp member
    obtain ⟨expires, lasting, -⟩ := one report inside
    obtain ⟨customer, channel, product, storeProduct⟩ := holds.2 report inside
    have same : SameSubscription (write report) row :=
      ⟨customer.trans (writes.customer report).symm, channel.trans (writes.channel report).symm,
        product.trans (writes.product report).symm, storeProduct.trans (writes.storeProduct report).symm⟩
    obtain ⟨merged, here, still, larger, customer, channel, product, storeProduct⟩ :=
      (writes.plain report expires lasting).upsert same holds.1
    refine ⟨merged, here, ⟨still, ?_⟩, larger⟩
    intro other also
    rw [customer, channel, product, storeProduct]
    exact holds.2 other also

theorem Writes.rank (writes : Writes without write) (report : StoreSubscription) : (write report).rank =
    toLex (report.expiresAt.getD 0, subscriptionStatusRank (report.subscriptionStatus.getD without)) := by
  unfold SubscriptionInput.rank
  rw [writes.status, writes.expiresAt]

theorem Redelivered.one {delivered : List StoreSubscription} (again : Redelivered delivered reports) (one : OneSubscription reports) :
    OneSubscription delivered := by
  intro report member
  obtain ⟨expires, lasting, same⟩ := one report ((again report).mp member)
  exact ⟨expires, lasting, fun other also => same other ((again other).mp also)⟩

theorem Redelivered.some_ {α : Type} {delivered reports : List α} (again : Redelivered delivered reports) (some_ : reports ≠ []) :
    delivered ≠ [] := by
  obtain ⟨report, rest, same⟩ := List.exists_cons_of_ne_nil some_
  intro empty
  have member := (again report).mpr (by simp [same])
  rw [empty] at member
  cases member

/-- One report is no smaller than any other. -/
private theorem exists_newest (without : SubscriptionStatus) (some_ : reports ≠ []) :
    ∃ newest ∈ reports, ∀ report ∈ reports, NoGreater without report newest := by
  induction reports with
  | nil => exact absurd rfl some_
  | cons report rest ih =>
    cases rest with
    | nil => exact ⟨report, by simp, by simp [NoGreater]⟩
    | cons next others =>
      obtain ⟨newest, member, above⟩ := ih (by simp)
      rcases le_total (toLex (report.expiresAt.getD 0, subscriptionStatusRank (report.subscriptionStatus.getD without)))
        (toLex (newest.expiresAt.getD 0, subscriptionStatusRank (newest.subscriptionStatus.getD without))) with below | ahead
      · refine ⟨newest, List.mem_cons_of_mem report member, ?_⟩
        intro other inside
        rcases List.mem_cons.mp inside with rfl | later
        · exact below
        · exact above other later
      · refine ⟨report, by simp, ?_⟩
        intro other inside
        rcases List.mem_cons.mp inside with rfl | later
        · exact le_refl _
        · exact le_trans (above other later) ahead

theorem Writes.converge (writes : Writes without write) (some_ : reports ≠ [])
    (one : OneSubscription reports) : ∃ newest ∈ reports, (∀ report ∈ reports, NoGreater without report newest) ∧
      ∀ delivered, Redelivered delivered reports → ∃ row, upsertSubscriptions (delivered.map write) none = .ok (some row) ∧
        row.status = newest.subscriptionStatus.getD without ∧ row.expiresAt = newest.expiresAt := by
  obtain ⟨newest, member, above⟩ := exists_newest without some_
  refine ⟨newest, member, above, ?_⟩
  intro delivered again
  obtain ⟨row, run, holds, ⟨input, inside, same⟩, largest⟩ :=
    (writes.joins (again.one one)).run_none fun empty => again.some_ some_ (List.map_eq_nil_iff.mp empty)
  obtain ⟨report, isReport, rfl⟩ := List.mem_map.mp inside
  have reached : row.rank = (write newest).rank := by
    apply le_antisymm
    · rw [same, writes.rank, writes.rank]
      exact above report ((again report).mp isReport)
    · exact largest _ (List.mem_map_of_mem ((again newest).mpr member))
  rw [writes.rank] at reached
  unfold SubscriptionRow.rank at reached
  obtain ⟨expiry, status⟩ := Prod.mk.inj (toLex.injective reached)
  refine ⟨row, run, subscriptionStatusRank_injective status, ?_⟩
  obtain ⟨at_, isAt⟩ := Option.ne_none_iff_exists'.mp holds.1
  obtain ⟨other, isOther⟩ := Option.ne_none_iff_exists'.mp (one newest member).1
  rw [isAt, isOther] at expiry ⊢
  exact congrArg some expiry

end Reports

section Purchases
variable {input : PurchaseInput} {row : PurchaseRow} {reports delivered : List PurchaseInput}

def PurchaseInput.invalid (input : PurchaseInput) : Bool :=
  decide (input.status ≠ .completed)

def PurchaseRow.invalid (row : PurchaseRow) : Bool :=
  decide (row.status ≠ .completed)

theorem mergedPurchase_invalid (lasting : input.allowRestoration = false) :
    (mergedPurchase input row).invalid = (row.invalid || input.invalid) := by
  unfold mergedPurchase PurchaseRow.invalid PurchaseInput.invalid
  cases updates : purchaseUpdateIsMonotonic input row with
  | true =>
    simp only [if_true, replacedPurchase]
    by_cases completed : input.status = .completed
    · have stored : row.status = .completed := by
        simpa [purchaseUpdateIsMonotonic, lasting, completed] using And.left (by
          simpa [purchaseUpdateIsMonotonic, lasting, completed] using updates)
      simp [completed, stored]
    · simp [completed]
  | false =>
    simp only [Bool.false_eq_true, if_false]
    by_cases completed : input.status = .completed
    · simp [completed]
    · have stored : row.status ≠ .completed := by
        intro stored
        simp [purchaseUpdateIsMonotonic, lasting, completed, stored] at updates
      simp [stored]

structure Recorded (reports : List PurchaseInput) (row : PurchaseRow) : Prop where
  same : ∀ report ∈ reports, row.customerId = report.customerId ∧ row.channel = report.channel ∧
    row.purchaseKind = report.purchaseKind ∧ row.productId = report.productId ∧ row.storeProductId = report.storeProductId
  completed : row.status = .completed → row.invalidatedAt = none
  dated : ∀ at_, row.invalidatedAt = some at_ → ∃ report ∈ reports, report.invalidatedAt = some at_
  undated : row.invalidatedAt = none → ∃ report ∈ reports, report.invalidatedAt = none ∧ row.purchasedAt = report.purchasedAt
  invalid : row.status ≠ .completed → row.invalidatedAt = none →
    ∃ report ∈ reports, report.status ≠ .completed ∧ report.invalidatedAt = none

theorem Recorded.identifies (recorded : Recorded reports row) (member : input ∈ reports) : input.identifies row = true := by
  obtain ⟨customer, channel, kind, product, storeProduct⟩ := recorded.same input member
  simp [PurchaseInput.identifies, customer, channel, kind, product, storeProduct]

private theorem mergedPurchase_updated (lasting : input.allowRestoration = false) (updates : purchaseUpdateIsMonotonic input row = true) :
    (mergedPurchase input row).invalidatedAt = greatest row.invalidatedAt input.invalidatedAt ∧
      (mergedPurchase input row).status = input.status ∧ (mergedPurchase input row).purchasedAt = max row.purchasedAt input.purchasedAt := by
  simp only [mergedPurchase, updates, if_true, replacedPurchase, lasting, Bool.false_eq_true, if_false, and_self]

private theorem mergedPurchase_stale (stale : purchaseUpdateIsMonotonic input row = false) :
    (mergedPurchase input row).invalidatedAt = row.invalidatedAt ∧ (mergedPurchase input row).status = row.status ∧
      (mergedPurchase input row).purchasedAt = row.purchasedAt := by
  simp only [mergedPurchase, stale, Bool.false_eq_true, if_false, and_self]

private theorem greatest_none {current incoming : Option Int} (none_ : greatest current incoming = none) : current = none ∧ incoming = none := by
  cases current <;> cases incoming <;> simp [greatest] at none_ ⊢

private theorem greatest_some {current incoming : Option Int} {at_ : Int} (some_ : greatest current incoming = some at_) :
    current = some at_ ∨ incoming = some at_ := by
  cases current with
  | none => exact .inr some_
  | some first =>
    cases incoming with
    | none => exact .inl some_
    | some second =>
      rcases max_choice first second with same | same
      · exact .inl (by rw [← some_, greatest, same])
      · exact .inr (by rw [← some_, greatest, same])

section
variable (one : OnePurchase reports)
include one

theorem Recorded.merge (recorded : Recorded reports row) (member : input ∈ reports) :
    Recorded reports (mergedPurchase input row) := by
  obtain ⟨lasting, plain, others⟩ := one input member
  have same : ∀ report ∈ reports, (mergedPurchase input row).customerId = report.customerId ∧
      (mergedPurchase input row).channel = report.channel ∧ (mergedPurchase input row).purchaseKind = report.purchaseKind ∧
        (mergedPurchase input row).productId = report.productId ∧ (mergedPurchase input row).storeProductId = report.storeProductId := by
    intro report inside
    obtain ⟨customer, channel, kind, -, -⟩ := recorded.same report inside
    obtain ⟨-, -, -, product, storeProduct⟩ := recorded.same input member
    obtain ⟨-, -, -, one, two⟩ := others report inside
    unfold mergedPurchase replacedPurchase
    split <;> simp [customer, channel, kind, product, storeProduct, one, two]
  cases updates : purchaseUpdateIsMonotonic input row with
  | false =>
    obtain ⟨dated, status, purchased⟩ := mergedPurchase_stale updates
    refine ⟨same, ?_, ?_, ?_, ?_⟩
    · rw [dated, status]
      exact recorded.completed
    · rw [dated]
      exact recorded.dated
    · rw [dated, purchased]
      exact recorded.undated
    · rw [dated, status]
      exact recorded.invalid
  | true =>
    obtain ⟨dated, status, purchased⟩ := mergedPurchase_updated lasting updates
    refine ⟨same, ?_, ?_, ?_, ?_⟩
    · rw [dated, status]
      intro completed
      have stored : row.status = .completed := by
        simpa [purchaseUpdateIsMonotonic, lasting, completed] using And.left (by
          simpa [purchaseUpdateIsMonotonic, lasting, completed] using updates)
      rw [recorded.completed stored, plain completed]
      rfl
    · rw [dated]
      intro at_ isAt
      rcases greatest_some isAt with stored | incoming
      · exact recorded.dated at_ stored
      · exact ⟨input, member, incoming⟩
    · rw [dated, purchased]
      intro none_
      obtain ⟨stored, incoming⟩ := greatest_none none_
      rcases max_choice row.purchasedAt input.purchasedAt with old | new
      · rw [old]
        exact recorded.undated stored
      · exact ⟨input, member, incoming, new⟩
    · rw [dated, status]
      intro invalid none_
      exact ⟨input, member, invalid, (greatest_none none_).2⟩

private theorem insertedPurchase_recorded (member : input ∈ reports) : Recorded reports (insertedPurchase input) where
  same := (one input member).2.2
  completed := (one input member).2.1
  dated := fun _ dated => ⟨input, member, dated⟩
  undated := fun none_ => ⟨input, member, none_, rfl⟩
  invalid := fun invalid none_ => ⟨input, member, invalid, none_⟩

private theorem joins_invalid :
    Joins (fun stored input => upsertPurchase input stored) (Recorded reports) PurchaseRow.invalid PurchaseInput.invalid reports where
  first := fun _ member => ⟨_, rfl, insertedPurchase_recorded one member, rfl⟩
  next := by
    intro input member row recorded
    exact ⟨_, if_pos (recorded.identifies member), recorded.merge one member, mergedPurchase_invalid (one input member).1⟩

/-- The latest date is never lost: a report that is not applied has an earlier one, or the row has it. -/
private theorem mergedPurchase_latest (dated : DatedLast reports) (recorded : Recorded reports row)
    (member : input ∈ reports) {latest : Int} (above : ∀ report ∈ reports, ∀ at_, report.invalidatedAt = some at_ → at_ ≤ latest) :
    decide ((mergedPurchase input row).invalidatedAt = some latest) =
      max (decide (row.invalidatedAt = some latest)) (decide (input.invalidatedAt = some latest)) := by
  obtain ⟨lasting, plain, -⟩ := one input member
  change _ = (decide _ || decide _)
  rw [← Bool.decide_or, decide_eq_decide]
  cases updates : purchaseUpdateIsMonotonic input row with
  | true =>
    rw [(mergedPurchase_updated lasting updates).1]
    refine ⟨greatest_some, ?_⟩
    rintro (stored | incoming)
    · rw [stored]
      cases here : input.invalidatedAt with
      | none => rfl
      | some at_ => exact congrArg some (max_eq_left (above input member at_ here))
    · rw [incoming]
      cases here : row.invalidatedAt with
      | none => rfl
      | some at_ =>
        obtain ⟨report, inside, same⟩ := recorded.dated at_ here
        exact congrArg some (max_eq_right (above report inside at_ same))
  | false =>
    rw [(mergedPurchase_stale updates).1]
    refine ⟨.inl, ?_⟩
    rintro (stored | incoming)
    · exact stored
    · have invalid : input.status ≠ .completed := fun completed => by simp [plain completed] at incoming
      have ended : row.status ≠ .completed := fun stored => by simp [purchaseUpdateIsMonotonic, lasting, invalid, stored] at updates
      have behind : latest < row.invalidatedAt.getD row.purchasedAt := by
        simpa [purchaseUpdateIsMonotonic, lasting, invalid, ended, incoming] using updates
      cases here : row.invalidatedAt with
      | some at_ =>
        obtain ⟨report, inside, same⟩ := recorded.dated at_ here
        rw [here, Option.getD_some] at behind
        exact absurd (above report inside at_ same) (not_le.mpr behind)
      | none =>
        obtain ⟨report, inside, none_, purchased⟩ := recorded.undated here
        obtain ⟨other, also, at_, same, ahead⟩ := dated (recorded.invalid ended here) ⟨input, member, by simp [incoming]⟩ report inside none_
        rw [here, Option.getD_none, purchased] at behind
        exact absurd (ahead.trans (above other also at_ same)) (not_le.mpr behind)

private theorem joins_latest (dated : DatedLast reports) {latest : Int}
    (above : ∀ report ∈ reports, ∀ at_, report.invalidatedAt = some at_ → at_ ≤ latest) :
    Joins (fun stored input => upsertPurchase input stored) (Recorded reports) (fun row => decide (row.invalidatedAt = some latest))
      (fun input => decide (input.invalidatedAt = some latest)) reports where
  first := fun _ member => ⟨_, rfl, insertedPurchase_recorded one member, rfl⟩
  next := by
    intro input member row recorded
    exact ⟨_, if_pos (recorded.identifies member), recorded.merge one member, mergedPurchase_latest one dated recorded member above⟩

end

/-- Some report has the latest date, where any has one. -/
private theorem latest_exists (some_ : ∃ report ∈ reports, report.invalidatedAt ≠ none) :
    ∃ latest, (∃ report ∈ reports, report.invalidatedAt = some latest) ∧
    ∀ report ∈ reports, ∀ at_, report.invalidatedAt = some at_ → at_ ≤ latest := by
  obtain ⟨report, member, dated⟩ := some_
  obtain ⟨at_, isAt⟩ := Option.ne_none_iff_exists'.mp dated
  have inside : ∀ {at_ : Int}, at_ ∈ (reports.filterMap PurchaseInput.invalidatedAt).toFinset ↔ ∃ report ∈ reports, report.invalidatedAt = some at_ := by
    simp
  obtain ⟨latest, known, above⟩ := Finset.exists_max_image _ id ⟨at_, inside.mpr ⟨report, member, isAt⟩⟩
  exact ⟨latest, inside.mp known, fun other also at_ same => above at_ (inside.mpr ⟨other, also, same⟩)⟩

private theorem purchases_converge (some_ : reports ≠ []) (one : OnePurchase reports) :
    ∃ row, upsertPurchases reports none = .ok (some row) ∧ (row.status ≠ .completed ↔ ∃ report ∈ reports, report.status ≠ .completed) ∧
      (DatedLast reports → LatestInvalidation reports row.invalidatedAt) := by
  obtain ⟨row, run, recorded, reached, above⟩ := (joins_invalid one).run_none some_
  refine ⟨row, run, ⟨?_, ?_⟩, fun dated => ⟨recorded.dated, ?_⟩⟩
  · intro invalid
    obtain ⟨report, member, same⟩ := reached
    refine ⟨report, member, ?_⟩
    have : report.invalid = true := same.symm.trans (decide_eq_true invalid)
    simpa [PurchaseInput.invalid] using this
  · rintro ⟨report, member, invalid⟩
    have := above report member
    rw [show report.invalid = true from decide_eq_true invalid] at this
    have stored : row.invalid = true := top_le_iff.mp this
    simpa [PurchaseRow.invalid] using stored
  · intro report member at_ isAt
    obtain ⟨latest, ⟨last, inside, isLatest⟩, most⟩ := latest_exists ⟨report, member, by simp [isAt]⟩
    obtain ⟨again, sameRun, -, -, largest⟩ := (joins_latest one dated most).run_none some_
    obtain rfl : row = again := Option.some.inj (Except.ok.inj (run.symm.trans sameRun))
    have kept := largest last inside
    rw [decide_eq_true isLatest] at kept
    exact ⟨latest, of_decide_eq_true (top_le_iff.mp kept), most report member at_ isAt⟩

theorem Redelivered.onePurchase (again : Redelivered delivered reports) (one : OnePurchase reports) :
    OnePurchase delivered := by
  intro report member
  obtain ⟨lasting, plain, same⟩ := one report ((again report).mp member)
  exact ⟨lasting, plain, fun other also => same other ((again other).mp also)⟩

theorem Redelivered.datedLast (again : Redelivered delivered reports) (dated : DatedLast reports) :
    DatedLast delivered := by
  simpa only [DatedLast, again _] using dated

end Purchases

/-- A revocation without a date, and a dated refund that is reported with an earlier purchase date. -/
def undatedRevocation : PurchaseInput where
  customerId := 1
  productId := 1
  storeProductId := some 1
  subscriptionId := none
  channel := .ios
  purchaseKind := .consumable
  originalTransactionId := none
  status := .revoked
  purchasedAt := 10
  invalidatedAt := none
  invalidationReason := none
  updateProductOnConflict := false
  allowRestoration := false
  amountPaidMinor := none
  currency := none
  identityError := "purchase transaction identity mismatch for provider apple transaction 1"

def earlyRefund : PurchaseInput :=
  { undatedRevocation with status := .refunded, purchasedAt := 4, invalidatedAt := some 5 }

def renewedSubscription : StoreSubscription where
  customerId := 1
  productId := 1
  storeProductId := 1
  channel := .ios
  externalProductId := "pro".toList
  externalPriceId := none
  subscriptionStatus := some .active
  purchasedAt := 10
  expiresAt := some 100
  autoRenew := some true
  latestTransactionId := none
  allowRestoration := false

def endedSubscription : StoreSubscription :=
  { renewedSubscription with subscriptionStatus := some .expired }

def repeatedPurchase : PurchaseInput :=
  { undatedRevocation with status := .completed }

end Quotum.Mutations
