import Quotum.RefundRequests

/-! The refunds of one payment ask for no more than was paid as long as each is claimed on a preview that counts the earlier ones. -/

namespace Quotum.RefundRequests
open General

section Rows
variable {row : RefundRequestRow} {now : Int}

/-- A settled request is not moved by an answer. -/
theorem recordRefundOutcome_settled (settled : row.status.isOpen = false) (input : RecordRefundOutcomeInput) :
    row.recordRefundOutcome now input = row := by
  simp only [RefundRequestRow.recordRefundOutcome, settled, Bool.false_eq_true, if_false]

/-- A settled request is not moved by an event. -/
theorem applyProviderRefundState_settled (settled : row.status.isOpen = false) (input : ProviderRefundState) :
    row.applyProviderRefundState now input = row := by
  simp only [RefundRequestRow.applyProviderRefundState, settled, Bool.false_eq_true, and_false, if_false]

/-- A request whose recorded refund is another one is not moved by an event. -/
theorem applyProviderRefundState_other {recorded : Nat} (has : row.providerRefundId = some recorded) (input : ProviderRefundState)
    (other : recorded ≠ input.providerRefundId) : row.applyProviderRefundState now input = row := by
  rw [RefundRequestRow.applyProviderRefundState, if_neg]
  rintro ⟨same | ⟨-, unrecorded⟩, -⟩
  · rw [has] at same
    exact other (Option.some.inj same)
  · rw [has] at unrecorded
    cases unrecorded

end Rows

/-- A later version of a request: of the same preview, and never reopened. -/
structure Later (before after : PaymentRequest) : Prop where
  preview : after.preview = before.preview
  settled : before.row.status.isOpen = false → after.row = before.row

theorem Later.stands {before after : PaymentRequest} (later : Later before after) (stands : after.stands = true) : before.stands = true := by
  rw [PaymentRequest.stands, bne_iff_ne] at stands ⊢
  intro failed
  rw [later.settled (by rw [failed]; rfl)] at stands
  exact stands failed

theorem Later.isOpen {before after : PaymentRequest} (later : Later before after) (open_ : after.row.status.isOpen = true) :
    before.row.status.isOpen = true := by
  by_contra settled
  rw [later.settled (Bool.eq_false_iff.mpr settled)] at open_
  exact settled open_

section Lists
variable {before after : List PaymentRequest}

section
variable (versions : List.Forall₂ Later before after)
include versions

/-- Of later versions of some requests, no more is asked for. -/
private theorem totalOf_later {counts : PaymentRequest → Bool}
    (fewer : ∀ earlier later, Later earlier later → counts later = true → counts earlier = true) :
    totalOf (after.filter counts) ≤ totalOf (before.filter counts) := by
  induction versions with
  | nil => exact le_rfl
  | @cons earlier later _ _ version _ less =>
    rw [List.filter_cons, List.filter_cons]
    by_cases counted : counts later = true
    · rw [if_pos counted, if_pos (fewer earlier later version counted)]
      simp only [totalOf, List.map_cons, List.sum_cons, version.preview] at less ⊢
      omega
    · rw [if_neg counted]
      refine less.trans ?_
      split
      · simp only [totalOf, List.map_cons, List.sum_cons]
        omega
      · exact le_rfl

private theorem sharedBy_later (preview : RefundPreview) : sharedBy preview after ≤ sharedBy preview before := by
  apply totalOf_later versions
  intro earlier later version counted
  rw [Bool.and_eq_true] at counted ⊢
  exact ⟨version.stands counted.1, by rw [← version.preview]; exact counted.2⟩

theorem UnusedOnce.later (unused : UnusedOnce before) : UnusedOnce after := by
  induction versions with
  | nil => trivial
  | @cons earlier later _ _ version rest more =>
    refine ⟨?_, more unused.2⟩
    intro stands mode share isShare
    rw [version.preview] at mode isShare ⊢
    exact (sharedBy_later (.cons version rest) earlier.preview).trans (unused.1 (version.stands stands) mode share isShare)

private theorem countP_later :
    after.countP (fun request => request.row.status.isOpen) ≤ before.countP (fun request => request.row.status.isOpen) := by
  induction versions with
  | nil => exact le_rfl
  | @cons earlier later _ _ version _ less =>
    rw [List.countP_cons, List.countP_cons]
    by_cases open_ : later.row.status.isOpen = true
    · rw [if_pos open_, if_pos (version.isOpen open_)]
      omega
    · rw [if_neg open_]
      omega

end

private theorem later_refl (request : PaymentRequest) : Later request request := ⟨rfl, fun _ => rfl⟩

private theorem modify_later (id : Nat) {edit : RefundRequestRow → RefundRequestRow} (settled : ∀ row, row.status.isOpen = false → edit row = row)
    (requests : List PaymentRequest) :
    List.Forall₂ Later requests (requests.modify id fun request => { request with row := edit request.row }) := by
  induction requests generalizing id with
  | nil => simp
  | cons request requests more =>
    cases id with
    | zero => exact .cons ⟨rfl, settled request.row⟩ (List.forall₂_same.mpr fun other _ => later_refl other)
    | succ id => exact .cons (later_refl request) (more id)

end Lists

section Payments

/-- What no step changes of a payment: what was paid, and the credit it funded. -/
def RefundablePayment.whole (payment : RefundablePayment) : Nat × Option (List Nat) :=
  (payment.amountPaidMinor, match payment.target with
    | .subscriptionPayment _ => none
    | .purchase _ _ _ allocations => some (allocations.map CreditAllocation.quantity))

private theorem applyRefund_whole (payment : RefundablePayment) (amount : Nat) : (payment.applyRefund amount).whole = payment.whole := by
  obtain ⟨paid, reversed, target⟩ := payment
  cases target with
  | subscriptionPayment period => rfl
  | purchase priceAmount creditAmount completed allocations =>
    simp only [RefundablePayment.applyRefund]
    split
    · rfl
    · simp only [RefundablePayment.whole, List.map_map]
      rfl

private theorem useCredit_whole (payment : RefundablePayment) (index used : Nat) : (payment.useCredit index used).whole = payment.whole := by
  obtain ⟨paid, reversed, target⟩ := payment
  cases target with
  | subscriptionPayment period => rfl
  | purchase priceAmount creditAmount completed allocations =>
    simp only [RefundablePayment.useCredit, RefundablePayment.whole, Prod.mk.injEq, Option.some.injEq, true_and]
    induction allocations generalizing index with
    | nil => simp
    | cons allocation allocations more =>
      cases index with
      | zero => rfl
      | succ index =>
        rw [List.modify_succ_cons, List.map_cons, List.map_cons, more index]

/-- A preview of a payment asks for what the payment still held when it was resolved. -/
structure Resolved (payment : RefundablePayment) (preview : RefundPreview) : Prop where
  whole : preview.facts.whole = payment.whole
  refundable : preview.amountMinor ≤ preview.facts.refundableAmount
  share : preview.mode = .prorated → ∀ share ∈ preview.facts.unusedShare preview.resolvedAt, preview.amountMinor ≤ share

private theorem measure_bounded {payment : RefundablePayment} {mode : RefundMode} {now : Int} {amount : Nat} {basis : RefundBasis}
    (measured : payment.measure mode now = .ok (amount, basis)) : amount ≤ payment.refundableAmount ∧
      (mode = .prorated → ∀ share ∈ payment.unusedShare now, amount ≤ share) := by
  cases mode with
  | full =>
    cases measured
    exact ⟨le_rfl, fun none => nomatch none⟩
  | prorated =>
    simp only [RefundablePayment.measure] at measured
    split at measured
    · cases measured
    · next period timed =>
      cases measured
      refine ⟨Nat.min_le_right _ _, fun _ share isShare => ?_⟩
      rw [RefundablePayment.unusedShare, timed] at isShare
      cases isShare
      exact Nat.min_le_left _ _
    · split at measured
      · cases measured
      · next share isShare =>
        cases measured
        refine ⟨Nat.min_le_right _ _, fun _ other isOther => ?_⟩
        rw [isShare] at isOther
        cases isOther
        exact Nat.min_le_left _ _

private theorem resolveRefundPreview_measure {payment : RefundablePayment} {openRequestId : Option Nat} {mode : RefundMode} {now : Int}
    {measured : Nat × RefundBasis} (resolved : payment.resolveRefundPreview openRequestId mode now = .ok measured) :
    payment.measure mode now = .ok measured := by
  simp only [RefundablePayment.resolveRefundPreview] at resolved
  split at resolved
  · cases resolved
  · cases resolved
  · cases found : payment.measure mode now with
    | error error =>
      rw [found] at resolved
      cases resolved
    | ok other =>
      rw [found] at resolved
      simp only [bind, Except.bind] at resolved
      split at resolved
      · cases resolved
      · exact resolved

end Payments

section Claims
variable {payment : RefundablePayment} {preview : RefundPreview}

private theorem sameMeasure_symm {other : RefundPreview} (mode : preview.mode = .prorated) (same : preview.sameMeasure other = true) :
    other.sameMeasure preview = true := by
  simp only [RefundPreview.sameMeasure, Bool.and_eq_true, beq_iff_eq] at same ⊢
  refine ⟨mode, ?_⟩
  obtain ⟨-, equal⟩ := same
  cases first : preview.facts.target <;> cases second : other.facts.target <;> simp only [first, second] at equal ⊢
  · exact beq_iff_eq.mpr (beq_iff_eq.mp equal).symm
  · cases equal
  · cases equal
  · exact beq_iff_eq.mpr (beq_iff_eq.mp equal).symm

private theorem totalOf_append (requests : List PaymentRequest) (counts : PaymentRequest → Bool) (request : PaymentRequest) :
    totalOf ((requests ++ [request]).filter counts) =
      totalOf (requests.filter counts) + if counts request then request.preview.amountMinor else 0 := by
  rw [List.filter_append, totalOf, List.map_append, List.sum_append]
  by_cases counted : counts request = true
  · rw [if_pos counted, List.filter_cons_of_pos counted]
    simp [totalOf]
  · rw [if_neg counted, List.filter_cons_of_neg counted]
    simp [totalOf]

private theorem takenBack_share {earlier : RefundPreview} {asked : Nat} (whole : earlier.facts.whole = preview.facts.whole)
    (taken : earlier.takenBack preview asked = true) {share : Nat} (isShare : share ∈ earlier.facts.unusedShare earlier.resolvedAt) :
    ∃ later ∈ preview.facts.unusedShare preview.resolvedAt, asked + later ≤ share := by
  obtain ⟨earlierMode, earlierAmount, earlierBasis, ⟨earlierPaid, earlierReversed, earlierTarget⟩, earlierAt⟩ := earlier
  obtain ⟨mode, amount, basis, ⟨paid, reversed, target⟩, at_⟩ := preview
  cases earlierTarget with
  | subscriptionPayment period => simp [RefundPreview.takenBack] at taken
  | purchase earlierPrice earlierCredit earlierCompleted before =>
    cases target with
    | subscriptionPayment period => simp [RefundPreview.takenBack] at taken
    | purchase price credit completed now =>
      simp only [RefundablePayment.whole, Prod.mk.injEq, Option.some.injEq] at whole
      obtain ⟨rfl, quantities⟩ := whole
      have same : RefundablePayment.quantity before = RefundablePayment.quantity now := by
        rw [RefundablePayment.quantity, RefundablePayment.quantity, quantities]
      simp only [RefundPreview.takenBack, decide_eq_true_eq] at taken
      simp only [RefundablePayment.unusedShare, Option.mem_def] at isShare ⊢
      split at isShare
      · next positive =>
        cases isShare
        refine ⟨_, by rw [if_pos (same ▸ positive)], ?_⟩
        rw [← same, Nat.add_comm, ← Nat.add_mul_div_left _ _ positive]
        exact Nat.div_le_div_right taken
      · cases isShare

theorem UnusedOnce.append {requests : List PaymentRequest} {now : Int} {token : Nat} (unused : UnusedOnce requests)
    (resolved : Resolved payment preview) (earlier : ∀ request ∈ requests, Resolved payment request.preview)
    (taken : preview.mode = .prorated → allTakenBack preview requests = true) :
    UnusedOnce (requests ++ [⟨token, preview, .claimed now⟩]) := by
  induction requests with
  | nil =>
    refine ⟨?_, trivial⟩
    intro _ mode share isShare
    refine le_trans ?_ (resolved.share mode share isShare)
    rw [sharedBy, List.filter_cons]
    split <;> simp [totalOf]
  | cons request requests more =>
    have rest (mode : preview.mode = .prorated) := (Bool.and_eq_true _ _).mp (taken mode)
    refine ⟨?_, more unused.2 (fun other member => earlier other (List.mem_cons_of_mem _ member)) fun mode => (rest mode).2⟩
    intro stands mode share isShare
    have whole : sharedBy request.preview (request :: (requests ++ [⟨token, preview, .claimed now⟩])) =
        sharedBy request.preview ((request :: requests) ++ [⟨token, preview, .claimed now⟩]) := rfl
    refine whole.trans_le ?_
    rw [sharedBy, totalOf_append]
    by_cases same : request.preview.sameMeasure preview = true
    · have prorated : preview.mode = .prorated := by
        have first := (Bool.and_eq_true _ _).mp same
        exact beq_iff_eq.mp first.1
      have back : request.preview.takenBack preview (sharedBy request.preview (request :: requests)) = true := by
        have either := (rest prorated).1
        rw [stands, sameMeasure_symm mode same] at either
        exact either
      have whole := (earlier request List.mem_cons_self).whole.trans resolved.whole.symm
      obtain ⟨later, isLater, fits⟩ := takenBack_share whole back isShare
      have amount := resolved.share prorated later isLater
      refine le_trans (Nat.add_le_add_left ?_ _) fits
      split
      · exact amount
      · exact Nat.zero_le _
    · rw [if_neg (by simp [same]), Nat.add_zero]
      exact unused.1 stands mode share isShare

end Claims

/-- What holds of a payment's refunds as long as previews count the requests before them. -/
structure Sound (refunds : PaymentRefunds) : Prop where
  bounded : refunds.Bounded
  previewed : ∀ stored ∈ refunds.previews, Resolved refunds.payment stored.preview
  requested : ∀ request ∈ refunds.requests, Resolved refunds.payment request.preview

section Steps
variable {refunds : PaymentRefunds}

theorem Resolved.later {before after : RefundablePayment} {preview : RefundPreview} (resolved : Resolved before preview)
    (same : after.whole = before.whole) : Resolved after preview :=
  ⟨resolved.whole.trans same.symm, resolved.refundable, resolved.share⟩

section
variable (sound : Sound refunds)
include sound

theorem Sound.edited (id : Nat) {edit : RefundRequestRow → RefundRequestRow}
    (settled : ∀ row, row.status.isOpen = false → edit row = row) : Sound (refunds.editRow id edit) := by
  have versions := modify_later id settled refunds.requests
  refine ⟨⟨?_, ?_, ?_⟩, sound.previewed, ?_⟩
  · exact (totalOf_later versions fun _ _ version => version.stands).trans sound.bounded.paid
  · exact (countP_later versions).trans sound.bounded.alone
  · exact sound.bounded.unused.later versions
  · intro request member
    obtain ⟨index, found⟩ := List.mem_iff_getElem?.mp member
    simp only [PaymentRefunds.editRow, List.getElem?_modify] at found
    cases there : refunds.requests[index]? with
    | none =>
      rw [there] at found
      cases found
    | some old =>
      rw [there] at found
      have resolved := sound.requested old (List.mem_of_getElem? there)
      obtain rfl := Option.some.inj found
      split <;> exact resolved

theorem Sound.changed {payment : RefundablePayment} (same : payment.whole = refunds.payment.whole) :
    Sound { refunds with payment := payment } := by
  have paid : payment.amountPaidMinor = refunds.payment.amountPaidMinor := congrArg Prod.fst same
  refine ⟨⟨?_, sound.bounded.alone, sound.bounded.unused⟩, ?_, ?_⟩
  · exact sound.bounded.paid.trans_eq paid.symm
  · exact fun stored member => (sound.previewed stored member).later same
  · exact fun request member => (sound.requested request member).later same

/-- A step that only writes previews of the payment. -/
theorem Sound.stored {previews : List StoredPreview}
    (resolved : ∀ stored ∈ previews, Resolved refunds.payment stored.preview) : Sound { refunds with previews := previews } :=
  ⟨⟨sound.bounded.paid, sound.bounded.alone, sound.bounded.unused⟩, resolved, sound.requested⟩

theorem Sound.previews (mode : RefundMode) (ttl : Nat) : Sound (refunds.preview mode ttl) := by
  simp only [PaymentRefunds.preview]
  split
  · exact sound
  · next amount basis resolved =>
    apply sound.stored
    intro stored member
    rcases List.mem_append.mp member with old | new
    · exact sound.previewed stored old
    · rw [List.mem_singleton.mp new]
      obtain ⟨refundable, share⟩ := measure_bounded (resolveRefundPreview_measure resolved)
      exact ⟨rfl, refundable, share⟩

theorem Sound.begin (token : Nat) (key : Text) : Sound (refunds.begin token key) := by
  simp only [PaymentRefunds.begin]
  split
  · exact sound
  · next stored found =>
    split
    · exact sound
    · exact sound
    · exact sound
    · split
      · exact sound
      · apply sound.stored
        intro other member
        rcases List.mem_or_eq_of_mem_set member with old | rfl
        · exact sound.previewed other old
        · exact sound.previewed stored (List.mem_of_getElem? found)

theorem Sound.complete (token : Nat) : Sound (refunds.complete token) := by
  apply sound.stored
  intro stored member
  obtain ⟨index, found⟩ := List.mem_iff_getElem?.mp member
  rw [List.getElem?_modify] at found
  cases there : refunds.previews[index]? with
  | none =>
    rw [there] at found
    cases found
  | some old =>
    rw [there] at found
    have same : stored.preview = old.preview := by
      rw [← Option.some.inj found]
      simp only
      split
      · split <;> rfl
      · rfl
    rw [same]
    exact sound.previewed old (List.mem_of_getElem? there)

end

private theorem claimable_some {token : Nat} {key : Text} {preview : RefundPreview} (claimed : refunds.claimable token key = some preview) :
    ∃ stored ∈ refunds.previews, stored.preview = preview ∧ ∀ request ∈ refunds.requests, request.row.status.isOpen = false := by
  simp only [PaymentRefunds.claimable] at claimed
  split at claimed
  · cases claimed
  · next stored found =>
    split at claimed
    · next may =>
      refine ⟨stored, List.mem_of_getElem? found, Option.some.inj claimed, ?_⟩
      intro request member
      have each := List.all_eq_true.mp may.2.2 request member
      rw [Bool.and_eq_true, Bool.not_eq_true'] at each
      exact each.2
    · cases claimed

/-- A request recorded on a preview that counts the earlier ones. -/
theorem Sound.claims (sound : Sound refunds) (token : Nat) (key : Text)
    (counted : (refunds.claimable token key).all refunds.counts = true) : Sound (refunds.claimRefundRequest token key) := by
  simp only [PaymentRefunds.claimRefundRequest]
  cases claimed : refunds.claimable token key with
  | none => exact sound
  | some preview =>
    rw [claimed] at counted
    have counts := (Bool.and_eq_true _ _).mp counted
    obtain ⟨stored, inside, same, closed⟩ := claimable_some claimed
    have resolved : Resolved refunds.payment preview := by
      rw [← same]
      exact sound.previewed stored inside
    have paid : preview.facts.amountPaidMinor = refunds.payment.amountPaidMinor := congrArg Prod.fst resolved.whole
    refine ⟨⟨?_, ?_, ?_⟩, sound.previewed, ?_⟩
    · have reversed := of_decide_eq_true counts.1
      have amount := resolved.refundable
      have most := sound.bounded.paid
      simp only [PaymentRefunds.asked] at reversed most ⊢
      rw [totalOf_append]
      simp only [RefundablePayment.refundableAmount] at amount
      dsimp only
      split <;> omega
    · rw [List.countP_append, List.countP_eq_zero.mpr fun request member => Bool.eq_false_iff.mp (closed request member), Nat.zero_add]
      exact List.countP_le_length
    · apply UnusedOnce.append sound.bounded.unused resolved sound.requested
      intro mode
      have either := counts.2
      rw [mode] at either
      exact either
    · intro request member
      rcases List.mem_append.mp member with old | new
      · exact sound.requested request old
      · rw [List.mem_singleton.mp new]
        exact resolved

theorem Sound.perform (sound : Sound refunds) {step : PaymentStep} (counted : step.counted refunds = true) : Sound (step.perform refunds) := by
  cases step with
  | wait elapsed => exact ⟨⟨sound.bounded.paid, sound.bounded.alone, sound.bounded.unused⟩, sound.previewed, sound.requested⟩
  | preview mode ttl => exact sound.previews mode ttl
  | begin token key => exact sound.begin token key
  | claim token key => exact sound.claims token key counted
  | answer id input => exact sound.edited id fun row settled => recordRefundOutcome_settled settled input
  | event id input => exact sound.edited id fun row settled => applyProviderRefundState_settled settled input
  | complete token => exact sound.complete token
  | reverse amount => exact sound.changed (applyRefund_whole refunds.payment amount)
  | useCredit index used => exact sound.changed (useCredit_whole refunds.payment index used)

private theorem runPayment_sound (steps : List PaymentStep) (sound : Sound refunds) (counted : countedRun refunds steps = true) :
    Sound (runPayment refunds steps) := by
  induction steps generalizing refunds with
  | nil => exact sound
  | cons step steps more =>
    obtain ⟨first, rest⟩ := (Bool.and_eq_true _ _).mp counted
    exact more (sound.perform first) rest

private theorem untouched_sound (payment : RefundablePayment) (clock : Int) : Sound (untouched payment clock) :=
  ⟨⟨Nat.zero_le _, Nat.zero_le _, trivial⟩, fun _ none => (nomatch none), fun _ none => (nomatch none)⟩

end Steps

/-- The requests of a payment stay within what was paid and within the unused share, in every run in which each is claimed on a
preview that counts the requests before it: as reversed by their webhooks, and, if it is prorated, with their credit taken back. -/
theorem refunds_within_payment (payment : RefundablePayment) (clock : Int) (steps : List PaymentStep)
    (counted : countedRun (untouched payment clock) steps = true) : (runPayment (untouched payment clock) steps).Bounded :=
  (runPayment_sound steps (untouched_sound payment clock) counted).bounded

def monthlyPayment : RefundablePayment := ⟨100, 0, .subscriptionPayment (some (0, 100))⟩

def refundSteps (token : Nat) (mode : RefundMode) : List PaymentStep :=
  [.preview mode 900000, .begin token ['k'], .claim token ['k'], .answer token ⟨.succeeded, some token, none⟩, .complete token]

/-- The unused half is refunded, and once its webhook has come the rest. -/
theorem monthly_refunds_within_payment :
    (runPayment (untouched monthlyPayment 50) (refundSteps 0 .prorated ++ .reverse 50 :: refundSteps 1 .full)).Bounded :=
  refunds_within_payment monthlyPayment 50 (refundSteps 0 .prorated ++ .reverse 50 :: refundSteps 1 .full) (by decide)

/-- A refund previewed before the webhook of the last one asks for the whole payment again, and a second prorated refund asks for the
same unused time, also after the webhook. -/
theorem refunds_asked_again :
    (¬ ∀ (payment : RefundablePayment) (clock : Int) (steps : List PaymentStep),
      (runPayment (untouched payment clock) steps).asked ≤ (runPayment (untouched payment clock) steps).payment.amountPaidMinor) ∧
    ¬ ∀ (payment : RefundablePayment) (clock : Int) (steps : List PaymentStep), UnusedOnce (runPayment (untouched payment clock) steps).requests := by
  refine ⟨fun within => ?_, fun once => ?_⟩
  · have least := within monthlyPayment 50 (refundSteps 0 .full ++ refundSteps 1 .full)
    revert least
    decide
  · have least := once monthlyPayment 50 (refundSteps 0 .prorated ++ .reverse 50 :: refundSteps 1 .prorated)
    revert least
    decide

end Quotum.RefundRequests
